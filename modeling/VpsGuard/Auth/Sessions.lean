import VpsGuard.Auth.Enrollment
import VpsGuard.Text.Words

/-!
# The use of sessions

A browser presents its session in a cookie. A request that changes something also presents a
token that is derived from the session (`SessionStore.authorize`), comes from the page of the
control plane, and needs a role that allows the change (`mutationAuthorizationError`).

The methods of the repository come one after another (`SessionTransaction`). In every order of
them, whoever may change something presents a session that was issued, has not expired, and has
not been ended since (`mutation_authorized`). What a browser was given stays good for that,
and a page that is loaded again is given the same token (`session_works`).
-/

namespace VpsGuard

open List AuthDatabase

/-! ## Requests -/

/-- What an administrator may do. -/
inductive AdminRole
  | viewer
  | analyst
  | operator
  | administrator
  deriving DecidableEq

namespace AdminRole

def canViewRawIp (role : AdminRole) : Bool := role ≠ viewer

def canExportSensitive (role : AdminRole) : Bool := role = analyst || role = administrator

def canOperate (role : AdminRole) : Bool := role = operator || role = administrator

def canAdminister (role : AdminRole) : Bool := role = administrator

end AdminRole

/-- What a request needs. -/
inductive AdminPermission
  | authenticated
  | viewRawIp
  | exportSensitive
  | operate
  | administer

/-- The role is enough for what the request needs. -/
def AdminPermission.allows : AdminPermission → AdminRole → Bool
  | authenticated, _ => true
  | viewRawIp, role => role.canViewRawIp
  | exportSensitive, role => role.canExportSensitive
  | operate, role => role.canOperate
  | administer, role => role.canAdminister

structure AdminRoleBinding where
  actor : List Char
  role : AdminRole

/-- Where requests may come from, and who has which role. -/
structure UiAccessPolicy where
  allowedOrigin : List Char
  roleBindings : List AdminRoleBinding

/-- The role of an actor. Without a binding for them, it is the highest. -/
def UiAccessPolicy.roleForActor (access : UiAccessPolicy) (actor : List Char)
    (method : AuthenticationMethod) : AdminRole :=
  if method = .breakGlass then .administrator
  else (access.roleBindings.find? (Text.eqIgnoreCase ·.actor actor)).elim .administrator (·.role)

/-- What a request says of who sent it. -/
structure AdminHeaders where
  origin : Option (List Char)
  cookie : Option (List Char)
  csrfToken : Option (List Char)

/-- Who a session belongs to. -/
structure SessionIdentity where
  actor : List Char
  authenticationMethod : AuthenticationMethod
  expiresInSeconds : ℕ

/-- Why a request that changes something is refused. -/
inductive MutationError
  | originInvalid
  | csrfAuthRequired
  | rolePermissionRequired (required : AdminPermission)

namespace SessionStore

/-- The value of the first cookie with one of the two names. -/
def findSessionCookie (header : List Char) : Option (List Char) :=
  (header.splitOn ';').findSome? fun entry =>
    (Text.splitOnce '=' (Text.trim entry)).bind fun parts =>
      if parts.1 = "vps_guard_session".toList ∨ parts.1 = "__Host-vps_guard_session".toList then
        some parts.2
      else none

def sessionId (headers : AdminHeaders) : Option (List Char) := headers.cookie.bind findSessionCookie

def identity {δ : Type} (session : StoredSession δ) (now : ℤ) : SessionIdentity where
  actor := session.actor
  authenticationMethod := session.authenticationMethod
  expiresInSeconds := (PamMfa.saturatingAdd session.expiresAt (-now)).toNat

variable {δ : Type} [DecidableEq δ] (crypto : LocalCrypto δ) (db : AuthDatabase δ)
  (headers : AdminHeaders) (now : ℤ)

/-- The session of a request, if the token belongs to it. Expired sessions are removed. -/
def authorize : Option SessionIdentity × AuthDatabase δ :=
  match sessionId headers, headers.csrfToken with
  | some rawSession, some csrf =>
    let found := db.session (crypto.sessionDigest rawSession) now
    (found.1.bind fun session =>
      if crypto.csrfDigest csrf = session.csrfDigest then some (identity session now) else none,
      found.2)
  | _, _ => (none, db)

/-- The token again, for a page that is loaded again. -/
def resume : Option (List Char × SessionIdentity) × AuthDatabase δ :=
  match sessionId headers with
  | none => (none, db)
  | some rawSession =>
    let found := db.session (crypto.sessionDigest rawSession) now
    (found.1.map fun session => (crypto.csrfToken rawSession, identity session now), found.2)

/-- Why a request may not change anything. -/
def mutationAuthorizationError (access : UiAccessPolicy) (required : AdminPermission) :
    Option MutationError × AuthDatabase δ :=
  if headers.origin ≠ some access.allowedOrigin then (some .originInvalid, db)
  else
    let authorized := authorize crypto db headers now
    (authorized.1.elim (some .csrfAuthRequired) fun identity =>
      let role := access.roleForActor identity.actor identity.authenticationMethod
      if required.allows role then none else some (.rolePermissionRequired required), authorized.2)

end SessionStore

/-! ## The repository -/

namespace AuthDatabase

variable {δ : Type} [DecidableEq δ] (db : AuthDatabase δ)

/-- The sessions that are kept. -/
def keepSessions (keep : SessionRow δ → Bool) : AuthDatabase δ :=
  { db with
    sessions := db.sessions.filter keep
    sessions_nodup := (filter_sublist.map _).nodup db.sessions_nodup }

def deleteSession (sessionDigest : δ) : Bool × AuthDatabase δ :=
  (db.sessions.countP (·.sessionDigest = sessionDigest) = 1,
    db.keepSessions (·.sessionDigest ≠ sessionDigest))

def deleteActorSessions (actor : List Char) : ℕ × AuthDatabase δ :=
  (db.sessions.countP (·.actor = actor), db.keepSessions (·.actor ≠ actor))

end AuthDatabase

/-- What may be done to the sessions. -/
inductive SessionTransaction (δ : Type)
  /-- With a recovery code, or without one. -/
  | issue (rawSession actor : List Char) (method : AuthenticationMethod) (now : ℤ)
      (code : Option (ℕ × δ × ℤ))
  | create (account : AdminAccount) (digests : List δ) (rawSession actor : List Char)
      (method : AuthenticationMethod) (now : ℤ)
  | session (sessionDigest : δ) (now : ℤ)
  | deleteSession (sessionDigest : δ)
  | deleteActorSessions (actor : List Char)

namespace SessionTransaction

open SessionStore (newSession)

variable {δ : Type} (crypto : LocalCrypto δ)

/-- The row is that of the session to be stored. -/
def Issues : SessionTransaction δ → SessionRow δ → Prop
  | issue rawSession actor method now _, row | create _ _ rawSession actor method now, row =>
    row = newSession crypto rawSession actor method now
  | _, _ => False

/-- The session is ended. -/
def Ends : SessionTransaction δ → SessionRow δ → Prop
  | session _ now, row => row.expiresAt ≤ now
  | deleteSession sessionDigest, row => row.sessionDigest = sessionDigest
  | deleteActorSessions actor, row => row.actor = actor
  | _, _ => False

variable [DecidableEq δ]

/-- The database afterwards. A method that violates a constraint changes nothing. -/
def step (db : AuthDatabase δ) : SessionTransaction δ → AuthDatabase δ
  | issue rawSession actor method now code =>
    (db.issue ⟨newSession crypto rawSession actor method now, code⟩).elim db (·.2)
  | create account digests rawSession actor method now =>
    (db.createInitialAdminAndSession account digests (newSession crypto rawSession actor method now)
      now).elim db (·.2)
  | session sessionDigest now => (db.session sessionDigest now).2
  | deleteSession sessionDigest => (db.deleteSession sessionDigest).2
  | deleteActorSessions actor => (db.deleteActorSessions actor).2

/-- The database after some transactions. -/
def run (db : AuthDatabase δ) (l : List (SessionTransaction δ)) : AuthDatabase δ :=
  l.foldl (step crypto) db

variable {crypto} {db : AuthDatabase δ} {t : SessionTransaction δ} {row : SessionRow δ}

theorem of_mem_trimSessions {session : SessionRow δ} {sessions : List (SessionRow δ)}
    (h : row ∈ trimSessions (sessions ++ [session])) :
    row ∈ sessions ∨ row = session := by
  simpa using (trimSessions_sublist _).subset h

omit [DecidableEq δ] in
theorem of_mem_elim {r : Option (Bool × AuthDatabase δ)} (h : row ∈ (r.elim db (·.2)).sessions) :
    row ∈ db.sessions ∨ ∃ b db', r = some (b, db') ∧ row ∈ db'.sessions := by
  cases r with
  | none => exact .inl h
  | some r => exact .inr ⟨r.1, r.2, rfl, h⟩

/-- What a method leaves was there and is not ended by it, or is stored by it. -/
theorem of_mem_step (h : row ∈ (step crypto db t).sessions) :
    row ∈ db.sessions ∧ ¬ t.Ends row ∨ t.Issues crypto row := by
  cases t with
  | issue =>
    rcases of_mem_elim h with h | ⟨b, db', hissue, h⟩
    · exact .inl ⟨h, id⟩
    · rcases of_issue hissue with ⟨-, heq⟩ | ⟨-, hinsert⟩
      · exact .inl ⟨heq ▸ h, id⟩
      · rw [insertSessionRow] at hinsert
        split at hinsert
        · cases hinsert
        · rw [← Option.some.inj hinsert] at h
          exact (of_mem_trimSessions h).imp (fun h => ⟨mem_of_mem_filter h, id⟩) id
  | create =>
    rcases of_mem_elim h with h | ⟨b, db', hcreate, h⟩
    · exact .inl ⟨h, id⟩
    · rcases of_createInitialAdminAndSession hcreate with ⟨-, heq⟩ | ⟨-, -, -, -, heq⟩
      · exact .inl ⟨heq ▸ h, id⟩
      · rw [heq] at h
        exact (of_mem_trimSessions h).imp (fun h => ⟨h, id⟩) id
  | session | deleteSession | deleteActorSessions =>
    obtain ⟨hmem, hkept⟩ := mem_filter.1 h
    exact .inl ⟨hmem, by simpa [Ends] using hkept⟩

theorem mem_step (h : row ∈ db.sessions) (hends : ¬ t.Ends row)
    (hissues : ∀ row, ¬ t.Issues crypto row) : row ∈ (step crypto db t).sessions := by
  cases t with
  | issue | create => exact absurd rfl (hissues _)
  | session | deleteSession | deleteActorSessions =>
    exact mem_filter.2 ⟨h, by simpa [Ends] using hends⟩

/-- A row was stored, and has not been ended since. -/
theorem exists_issues_of_mem_run (hdb : db.sessions = []) {l : List (SessionTransaction δ)}
    (h : row ∈ (run crypto db l).sessions) : ∃ before t after, l = before ++ t :: after ∧
      t.Issues crypto row ∧ row ∈ (run crypto db (before ++ [t])).sessions ∧
      ∀ u ∈ after, ¬ u.Ends row := by
  induction l using List.reverseRecOn with
  | nil => simp [run, hdb] at h
  | append_singleton l last ih =>
    -- The last method has stored the row, or has left it.
    have hstep := h
    rw [run, foldl_append, foldl_cons, foldl_nil, ← run] at hstep
    rcases of_mem_step hstep with ⟨hmem, hlast⟩ | hissues
    · obtain ⟨before, t, after, rfl, hissues, hstored, hafter⟩ := ih hmem
      refine ⟨before, t, after ++ [last], by simp, hissues, hstored, ?_⟩
      rw [forall_mem_append, forall_mem_singleton]
      exact ⟨hafter, hlast⟩
    · exact ⟨l, last, [], rfl, hissues, h, by simp⟩

end SessionTransaction

namespace SessionStore

open SessionTransaction

variable {δ : Type} [DecidableEq δ] {crypto : LocalCrypto δ} {db : AuthDatabase δ}

/-- What is found is a row with the digest that has not expired. -/
theorem session_eq_some_iff {sessionDigest : δ} {session : StoredSession δ} {now : ℤ} :
    (db.session sessionDigest now).1 = some session ↔ ∃ row ∈ db.sessions,
      row.sessionDigest = sessionDigest ∧ now < row.expiresAt ∧ row.stored = session := by
  rw [AuthDatabase.session, Option.map_eq_some_iff]
  constructor
  · rintro ⟨row, hfind, hrow⟩
    obtain ⟨hmem, hnow⟩ := mem_filter.1 (mem_of_find?_eq_some hfind)
    exact ⟨row, hmem, by simpa using find?_some hfind, of_decide_eq_true hnow, hrow⟩
  · rintro ⟨row, hmem, hdigest, hnow, hrow⟩
    have hkept : row ∈ db.unexpired now := mem_filter.2 ⟨hmem, decide_eq_true hnow⟩
    obtain ⟨found, hfind⟩ : ∃ found,
        (db.unexpired now).find? (·.sessionDigest = sessionDigest) = some found :=
      Option.isSome_iff_exists.1 (find?_isSome.2 ⟨row, hkept, decide_eq_true hdigest⟩)
    -- The digests of the rows are distinct.
    have heq : found = row := inj_on_of_nodup_map db.sessions_nodup
      (mem_of_mem_filter (mem_of_find?_eq_some hfind)) hmem
      (by simpa [hdigest] using find?_some hfind)
    exact ⟨found, hfind, heq ▸ hrow⟩

/-- Whoever may change something presents a session that was issued, is in time, and
    has not been ended since, with its token, and in a role that allows the change. -/
theorem mutation_authorized (hsession : Function.Injective crypto.sessionDigest)
    (hcsrf : Function.Injective crypto.csrfDigest) (hdb : db.sessions = [])
    (l : List (SessionTransaction δ)) (headers : AdminHeaders) (now : ℤ) (access : UiAccessPolicy)
    (required : AdminPermission)
    (h : (mutationAuthorizationError crypto (run crypto db l) headers now access required).1 =
      none) :
    headers.origin = some access.allowedOrigin ∧ ∃ rawSession actor method issuedAt before t after,
      l = before ++ t :: after ∧
      t.Issues crypto (newSession crypto rawSession actor method issuedAt) ∧
      newSession crypto rawSession actor method issuedAt ∈
        (run crypto db (before ++ [t])).sessions ∧
      (∀ u ∈ after, ¬ u.Ends (newSession crypto rawSession actor method issuedAt)) ∧
      sessionId headers = some rawSession ∧ headers.csrfToken = some (crypto.csrfToken rawSession) ∧
      now < PamMfa.saturatingAdd issuedAt sessionTtlSeconds ∧
      required.allows (access.roleForActor actor method) := by
  rw [mutationAuthorizationError] at h
  split_ifs at h with horigin
  refine ⟨not_not.1 horigin, ?_⟩
  cases hauthorize : (authorize crypto (run crypto db l) headers now).1 with
  | none => simp [hauthorize] at h
  | some identity =>
    obtain hallows : required.allows
        (access.roleForActor identity.actor identity.authenticationMethod) := by
      simpa [hauthorize] using h
    rw [authorize] at hauthorize
    split at hauthorize
    · next rawSession csrf hraw htoken =>
      obtain ⟨session, hfound, hidentity⟩ := Option.bind_eq_some_iff.1 hauthorize
      obtain ⟨row, hmem, hdigest, hnow, rfl⟩ := session_eq_some_iff.1 hfound
      split_ifs at hidentity with hdigests
      obtain rfl := Option.some.inj hidentity
      obtain ⟨before, t, after, hl, hissues, hstored, hafter⟩ := exists_issues_of_mem_run hdb hmem
      obtain ⟨raw, actor, method, issuedAt, rfl⟩ : ∃ raw actor method issuedAt,
          row = newSession crypto raw actor method issuedAt := by
        cases t with
        | issue | create => exact ⟨_, _, _, _, hissues⟩
        | _ => cases hissues
      obtain rfl := hsession hdigest
      obtain rfl := hcsrf hdigests
      exact ⟨raw, actor, method, issuedAt, before, t, after, hl, hissues, hstored, hafter, hraw,
        htoken, hnow, hallows⟩
    · cases hauthorize

/-- Two sessions are issued, one of them is read and the other one is ended. -/
def sampleTransactions : List (SessionTransaction (List Char)) :=
  [.issue ['k'] ['o'] .passwordTotp 0 none, .issue ['m'] ['r'] .passwordTotp 1 none,
    .session ['k'] 2, .deleteActorSessions ['r']]

/-- A request in the first session, which is that of an operator. -/
theorem mutation_authorized_operator : ∃ actor method issuedAt before t after,
    sampleTransactions = before ++ t :: after ∧
      t.Issues plainCrypto (newSession plainCrypto ['k'] actor method issuedAt) ∧
      (∀ u ∈ after, ¬ u.Ends (newSession plainCrypto ['k'] actor method issuedAt)) ∧
      actor = ['o'] ∧ AdminPermission.operate.allows
        (UiAccessPolicy.roleForActor ⟨['h'], [⟨['O'], .operator⟩]⟩ actor method) := by
  obtain ⟨-, raw, actor, method, issuedAt, before, t, after, hl, hissues, -, hafter, hraw, -, -,
    hallows⟩ := @mutation_authorized _ _ plainCrypto ⟨none, [], [], .nil, .nil⟩
      Function.injective_id Function.injective_id rfl sampleTransactions
      ⟨some ['h'], some "a=b; vps_guard_session=k".toList, some ['k']⟩ 5
      ⟨['h'], [⟨['O'], .operator⟩]⟩ .operate (by decide)
  obtain rfl : ['k'] = raw := Option.some.inj hraw
  refine ⟨actor, method, issuedAt, before, t, after, hl, hissues, hafter, ?_, hallows⟩
  have hmem : t ∈ sampleTransactions := hl ▸ mem_append_right _ mem_cons_self
  simp only [sampleTransactions, mem_cons, not_mem_nil, or_false] at hmem
  obtain rfl | rfl | rfl | rfl := hmem
  · exact congrArg SessionRow.actor hissues
  · exact absurd (congrArg SessionRow.sessionDigest hissues) (by simp [newSession, plainCrypto])
  · exact hissues.elim
  · exact hissues.elim

theorem findSessionCookie_sessionCookie {rawSession : List Char}
    (hraw : ∀ c ∈ rawSession, c ≠ ';' ∧ ¬ Text.isWhitespace c) (secure : Bool) :
    findSessionCookie ((sessionCookie rawSession secure).takeWhile (· ≠ ';')) =
      some rawSession := by
  obtain ⟨name, rest, hcookie, hname, hequals, hone⟩ : ∃ name rest,
      sessionCookie rawSession secure = (name ++ '=' :: rawSession) ++ ';' :: rest ∧
      name.all (fun c => c ≠ ';' && !Text.isWhitespace c) ∧ '=' ∉ name ∧
      (name = "vps_guard_session".toList ∨ name = "__Host-vps_guard_session".toList) := by
    refine ⟨_, _, append_assoc _ _ _, ?_⟩
    cases secure <;> decide
  have hplain : ∀ c ∈ name ++ '=' :: rawSession, c ≠ ';' ∧ ¬ Text.isWhitespace c := by
    rw [forall_mem_append, forall_mem_cons]
    exact ⟨by simpa using hname, by decide, hraw⟩
  rw [hcookie, takeWhile_append_of_pos fun c hc => decide_eq_true (hplain c hc).1,
    takeWhile_cons_of_neg (by simp), append_nil, findSessionCookie,
    Text.splitOn_eq_singleton fun hc => (hplain _ hc).1 rfl, findSome?_singleton,
    Text.trim_eq_self fun c hc => (hplain c hc).2, Text.splitOnce_append hequals, Option.bind_some,
    if_pos hone]

section

variable {rawSession actor : List Char} {method : AuthenticationMethod} {issuedAt : ℤ}

/-- What a browser was given is good for a change, in the role of its actor, and for the same
    token again, as long as the session is not ended and no others take its place. -/
theorem session_works (hraw : ∀ c ∈ rawSession, c ≠ ';' ∧ ¬ Text.isWhitespace c)
    (hmem : newSession crypto rawSession actor method issuedAt ∈ db.sessions)
    (l : List (SessionTransaction δ)) (hl : ∀ t ∈ l, (∀ row, ¬ t.Issues crypto row) ∧
      ¬ t.Ends (newSession crypto rawSession actor method issuedAt))
    (secure : Bool) (access : UiAccessPolicy) (required : AdminPermission) (now : ℤ)
    (hnow : now < PamMfa.saturatingAdd issuedAt sessionTtlSeconds) :
    let headers : AdminHeaders := ⟨some access.allowedOrigin,
      some ((sessionCookie rawSession secure).takeWhile (· ≠ ';')),
      some (crypto.csrfToken rawSession)⟩
    (resume crypto (run crypto db l) headers now).1.map Prod.fst = headers.csrfToken ∧
    (mutationAuthorizationError crypto (run crypto db l) headers now access required).1 =
      if required.allows (access.roleForActor actor method) then none
      else some (.rolePermissionRequired required) := by
  have hrun : newSession crypto rawSession actor method issuedAt ∈ (run crypto db l).sessions := by
    induction l using List.reverseRecOn with
    | nil => exact hmem
    | append_singleton l last ih =>
      rw [forall_mem_append, forall_mem_singleton] at hl
      rw [run, foldl_append]
      exact mem_step (ih hl.1) hl.2.2 hl.2.1
  have hfound : ((run crypto db l).session (crypto.sessionDigest rawSession) now).1 =
      some (newSession crypto rawSession actor method issuedAt).stored :=
    session_eq_some_iff.2 ⟨_, hrun, rfl, hnow, rfl⟩
  intro headers
  have hid : sessionId headers = some rawSession := findSessionCookie_sessionCookie hraw secure
  constructor
  · rw [resume, hid]
    simp [hfound, headers]
  · rw [mutationAuthorizationError, if_neg (not_not.2 rfl), authorize, hid]
    simp [hfound, headers, identity, SessionRow.stored, newSession]

theorem session_works_once :
    (resume plainCrypto (run plainCrypto
      ⟨none, [], [newSession plainCrypto ['k'] [] .passwordTotp 0], .nil, nodup_singleton _⟩
      [.session ['z'] 5, .deleteSession ['z']])
      ⟨some [], some ((sessionCookie ['k'] true).takeWhile (· ≠ ';')), some ['k']⟩ 6).1.map
        Prod.fst = some ['k'] :=
  (session_works (forall_mem_singleton.2 (by decide)) (mem_singleton_self _)
    [.session ['z'] 5, .deleteSession ['z']]
    (by simp [Issues, Ends, newSession, plainCrypto]; decide) true ⟨[], []⟩ .authenticated 6
    (by decide)).1

end

end SessionStore

end VpsGuard
