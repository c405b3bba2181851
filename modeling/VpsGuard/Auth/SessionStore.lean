import Mathlib.Data.List.Nodup
import VpsGuard.Auth.PamMfa

/-!
# The administrator's account and sessions

Without PAM, the control plane keeps the account of its administrator, the
digests of the recovery codes, and the sessions, in a database
(`AuthDatabase`). Each method of the repository is one transaction: it takes
effect as a whole or not at all.

* `startEnrollment` puts a new account into the memory, with a fresh seed for
  one-time passwords;
* `confirmEnrollment` checks a one-time password for the seed, and stores the
  account, the digests of fresh recovery codes and a first session;
* `login` takes a password with a one-time password, or with a recovery code,
  which it marks as used in the transaction that stores the session.

A database call may fail, and then it may have taken effect or not
(`AuthWorld.exec`). Digests, ciphers and password hashes are given
(`LocalCrypto`).
-/

namespace VpsGuard

open Effect List Option

/-! ## The database -/

/-- Why the administrator is refused. -/
inductive AuthError
  | store
  | invalidUsername
  | weakPassword
  | alreadyConfigured
  | enrollmentUnavailable
  | invalidTotp
  | invalidCredentials
  | crypto
  | clock
  deriving DecidableEq

/-- How a session was got. -/
inductive AuthenticationMethod
  | passwordTotp
  | passwordRecovery
  | pamMfa
  | pamRecovery
  | breakGlass
  deriving DecidableEq

/-- The one administrator. The seed is encrypted under the password. -/
structure AdminAccount where
  username : List Char
  passwordHash : List Char
  totpCiphertext : List UInt8
  totpKdfSalt : List UInt8
  totpNonce : List UInt8
  createdAt : ℤ

def AdminAccount.id : ℕ := 1

/-- A recovery code, of which the digest is kept, and when it was used. -/
structure RecoveryRow (δ : Type) where
  accountId : ℕ
  codeDigest : δ
  createdAt : ℤ
  usedAt : Option ℤ

/-- A session, of which only digests are kept. -/
structure SessionRow (δ : Type) where
  sessionDigest : δ
  csrfDigest : δ
  actor : List Char
  authenticationMethod : AuthenticationMethod
  issuedAt : ℤ
  expiresAt : ℤ

/-- What is read of a session. -/
structure StoredSession (δ : Type) where
  csrfDigest : δ
  actor : List Char
  authenticationMethod : AuthenticationMethod
  expiresAt : ℤ

def SessionRow.stored {δ : Type} (row : SessionRow δ) : StoredSession δ :=
  ⟨row.csrfDigest, row.actor, row.authenticationMethod, row.expiresAt⟩

/-- A session to be issued, with the recovery code that is to be used up for it, if any. -/
structure SessionCall (δ : Type) where
  session : SessionRow δ
  code : Option (ℕ × δ × ℤ)

namespace RecoveryRow

variable {δ : Type}

def key (row : RecoveryRow δ) : ℕ × δ := (row.accountId, row.codeDigest)

/-- The row is the one of the digest, and it has not been used. -/
def Unused (accountId : ℕ) (digest : δ) (row : RecoveryRow δ) : Prop :=
  row.accountId = accountId ∧ row.codeDigest = digest ∧ row.usedAt = none

instance [DecidableEq δ] (accountId : ℕ) (digest : δ) (row : RecoveryRow δ) :
    Decidable (Unused accountId digest row) := inferInstanceAs (Decidable (_ ∧ _ ∧ _))

/-- The row, marked as used if it is the one of the digest. -/
def use [DecidableEq δ] (accountId : ℕ) (digest : δ) (now : ℤ) (row : RecoveryRow δ) : RecoveryRow δ :=
  if Unused accountId digest row then { row with usedAt := some now } else row

@[simp] theorem key_use [DecidableEq δ] (accountId : ℕ) (digest : δ) (now : ℤ)
    (row : RecoveryRow δ) : (row.use accountId digest now).key = row.key := by
  rw [use]
  split
  · rfl
  · rfl

end RecoveryRow

/-- The tables. Their primary keys are unique. -/
structure AuthDatabase (δ : Type) where
  account : Option AdminAccount
  recoveryCodes : List (RecoveryRow δ)
  sessions : List (SessionRow δ)
  recoveryCodes_nodup : (recoveryCodes.map RecoveryRow.key).Nodup
  sessions_nodup : (sessions.map SessionRow.sessionDigest).Nodup

namespace AuthDatabase

variable {δ : Type} [DecidableEq δ]

def maxSessions : ℕ := 128

/-- No more sessions than there is room for. The oldest go first. -/
def trimSessions (sessions : List (SessionRow δ)) : List (SessionRow δ) :=
  let excess := sessions.length - maxSessions
  let oldest := (sessions.mergeSort fun a b => a.issuedAt ≤ b.issuedAt).take excess
  if 0 < excess then
    sessions.filter fun row => row.sessionDigest ∉ oldest.map SessionRow.sessionDigest
  else sessions

theorem trimSessions_sublist (sessions : List (SessionRow δ)) :
    (trimSessions sessions).Sublist sessions := by
  rw [trimSessions]
  split
  · exact filter_sublist
  · exact List.Sublist.refl _

theorem trimSessions_eq_self {sessions : List (SessionRow δ)} (h : sessions.length ≤ maxSessions) :
    trimSessions sessions = sessions := by
  rw [trimSessions, if_neg (by omega)]

/-- Insert a session, unless there is one with its digest. -/
def insertSessionRow (sessions : List (SessionRow δ)) (session : SessionRow δ) :
    Option (List (SessionRow δ)) :=
  if session.sessionDigest ∈ sessions.map SessionRow.sessionDigest then none
  else some (trimSessions (sessions ++ [session]))

theorem nodup_insertSessionRow {sessions sessions' : List (SessionRow δ)} {session : SessionRow δ}
    (hnodup : (sessions.map SessionRow.sessionDigest).Nodup)
    (h : insertSessionRow sessions session = some sessions') :
    (sessions'.map SessionRow.sessionDigest).Nodup := by
  rw [insertSessionRow] at h
  split at h
  · cases h
  · next hnew =>
    rw [← Option.some.inj h]
    refine List.Nodup.sublist ((trimSessions_sublist _).map SessionRow.sessionDigest) ?_
    rw [map_append, map_singleton, nodup_append]
    refine ⟨hnodup, nodup_singleton _, fun a ha b hb => ?_⟩
    rw [mem_singleton.1 hb]
    rintro rfl
    exact hnew ha

variable (db : AuthDatabase δ)

def isConfigured : Bool := db.account.isSome

/-- The account with this name, whatever the case of its letters. -/
def accountOf (username : List Char) : Option AdminAccount :=
  db.account.filter fun account => Text.eqIgnoreCase account.username username

/-- The account, its recovery codes and a session are stored, unless there is an
    account. There is no result where a constraint of the tables is violated. -/
def createInitialAdminAndSession (account : AdminAccount) (digests : List δ)
    (session : SessionRow δ) (now : ℤ) : Option (Bool × AuthDatabase δ) :=
  if db.account.isSome then some (false, db)
  else
    let rows := db.recoveryCodes ++ digests.map fun digest => ⟨AdminAccount.id, digest, now, none⟩
    if hrows : (rows.map RecoveryRow.key).Nodup ∧ account.totpKdfSalt.length = 16 ∧
        account.totpNonce.length = 24 then
      match hsessions : insertSessionRow db.sessions session with
      | none => none
      | some sessions => some (true,
          ⟨some account, rows, sessions, hrows.1, nodup_insertSessionRow db.sessions_nodup hsessions⟩)
    else none

theorem of_createInitialAdminAndSession {db db' : AuthDatabase δ} {account : AdminAccount}
    {digests : List δ} {session : SessionRow δ} {now : ℤ} {created : Bool}
    (h : db.createInitialAdminAndSession account digests session now = some (created, db')) :
    (created = false ∧ db' = db) ∨ (created = true ∧ db.account = none ∧ db'.account = some account ∧
      db'.recoveryCodes = db.recoveryCodes ++ digests.map
        (fun digest => ⟨AdminAccount.id, digest, now, none⟩) ∧
      db'.sessions = trimSessions (db.sessions ++ [session])) := by
  rw [createInitialAdminAndSession] at h
  split at h
  · cases h
    exact .inl ⟨rfl, rfl⟩
  · next hnone =>
    dsimp only at h
    split at h
    · split at h
      · cases h
      · next sessions hsessions =>
        obtain ⟨rfl, rfl⟩ := Prod.mk.inj (Option.some.inj h)
        rw [insertSessionRow] at hsessions
        split at hsessions
        · cases hsessions
        · exact .inr ⟨rfl, not_isSome_iff_eq_none.1 hnone, rfl, rfl,
            (Option.some.inj hsessions).symm⟩
    · cases h

/-- The code is marked as used, if there is one and it has not been, and a session
    is stored. -/
def consumeRecoveryCodeAndInsertSession (accountId : ℕ) (digest : δ)
    (session : SessionRow δ) (now : ℤ) : Option (Bool × AuthDatabase δ) :=
  if db.recoveryCodes.countP (RecoveryRow.Unused accountId digest ·) = 1 then
    match hsessions : insertSessionRow (db.sessions.filter (session.issuedAt < ·.expiresAt))
        session with
    | none => none
    | some sessions => some (true,
        ⟨db.account, db.recoveryCodes.map (RecoveryRow.use accountId digest now), sessions,
          by simpa [Function.comp_def] using db.recoveryCodes_nodup,
          nodup_insertSessionRow ((filter_sublist.map _).nodup db.sessions_nodup) hsessions⟩)
  else some (false, db)

/-- Insert a session, and remove those that have expired. -/
def insertSession (session : SessionRow δ) : Option (Unit × AuthDatabase δ) :=
  match hsessions : insertSessionRow (db.sessions.filter (session.issuedAt < ·.expiresAt))
      session with
  | none => none
  | some sessions => some ((),
      ⟨db.account, db.recoveryCodes, sessions, db.recoveryCodes_nodup,
        nodup_insertSessionRow ((filter_sublist.map _).nodup db.sessions_nodup) hsessions⟩)

/-- The sessions that have not expired. -/
def unexpired (now : ℤ) : List (SessionRow δ) :=
  db.sessions.filter (now < ·.expiresAt)

/-- The session with the digest, when those that have expired are deleted. -/
def session (sessionDigest : δ) (now : ℤ) : Option (StoredSession δ) × AuthDatabase δ :=
  (((db.unexpired now).find? (·.sessionDigest = sessionDigest)).map SessionRow.stored,
    { db with
      sessions := db.unexpired now
      sessions_nodup := (filter_sublist.map _).nodup db.sessions_nodup })

/-- Issue one session. -/
def issue (call : SessionCall δ) : Option (Bool × AuthDatabase δ) :=
  match call.code with
  | none => (db.insertSession call.session).map fun r => (true, r.2)
  | some (accountId, digest, now) =>
    db.consumeRecoveryCodeAndInsertSession accountId digest call.session now

/-- Issue sessions, one after the other. -/
def issues (calls : List (SessionCall δ)) : AuthDatabase δ :=
  calls.foldl (fun db call => (db.issue call).elim db (·.2)) db

variable {db} {db' : AuthDatabase δ} {call : SessionCall δ} {session : SessionRow δ}
  {sessions : List (SessionRow δ)}

theorem of_issue {issued : Bool} (h : db.issue call = some (issued, db')) :
    (issued = false ∧ db' = db) ∨ issued = true ∧
      insertSessionRow (db.unexpired call.session.issuedAt) call.session = some db'.sessions := by
  rw [issue] at h
  split at h
  · rw [insertSession] at h
    split at h
    · cases h
    · next hsessions =>
      cases h
      exact .inr ⟨rfl, hsessions⟩
  · rw [consumeRecoveryCodeAndInsertSession] at h
    split at h
    · split at h
      · cases h
      · next hsessions =>
        cases h
        exact .inr ⟨rfl, hsessions⟩
    · cases h
      exact .inl ⟨rfl, rfl⟩

theorem exists_trimSessions (hfull : sessions.length = maxSessions + 1) :
    ∃ oldest ∈ sessions, (∀ row ∈ sessions, oldest.issuedAt ≤ row.issuedAt) ∧
      trimSessions sessions = sessions.filter (·.sessionDigest ≠ oldest.sessionDigest) := by
  have hperm := mergeSort_perm sessions fun a b => a.issuedAt ≤ b.issuedAt
  have hle : (sessions.mergeSort fun a b => a.issuedAt ≤ b.issuedAt).Pairwise
      (fun a b => decide (a.issuedAt ≤ b.issuedAt)) :=
    pairwise_mergeSort (by grind) (by grind) sessions
  rw [trimSessions, hfull]
  cases hsorted : sessions.mergeSort fun a b => a.issuedAt ≤ b.issuedAt with
  | nil =>
    rw [← hperm.length_eq, hsorted] at hfull
    cases hfull
  | cons oldest rest =>
    rw [hsorted] at hperm hle
    have holdest := (pairwise_cons.1 hle).1
    exact ⟨oldest, hperm.mem_iff.1 mem_cons_self, by grind, by simp⟩

theorem of_insertSessionRow {old : List (SessionRow δ)} (hsize : old.length ≤ maxSessions)
    (h : insertSessionRow old session = some sessions) :
    sessions.length ≤ maxSessions ∧
    (∀ row ∈ old, row ∉ sessions → old.length = maxSessions) ∧
    (old.length < maxSessions ∨ (∃ row ∈ old, row.issuedAt < session.issuedAt) →
      session ∈ sessions) ∧
    (old.length = maxSessions → (∀ row ∈ old, session.issuedAt < row.issuedAt) →
      session.sessionDigest ∉ sessions.map SessionRow.sessionDigest) := by
  rw [insertSessionRow] at h
  split at h
  · cases h
  · next hnew =>
    rw [← Option.some.inj h]
    by_cases hroom : old.length < maxSessions
    · rw [trimSessions_eq_self (by rw [length_append, length_singleton]; omega)]
      exact ⟨by simpa using Nat.succ_le_of_lt hroom, by grind, by simp, by omega⟩
    · have hfull : old.length = maxSessions := by omega
      obtain ⟨oldest, hmem, holdest, htrim⟩ :=
        exists_trimSessions (show (old ++ [session]).length = _ by simp [hfull])
      have hlt : (trimSessions (old ++ [session])).length < (old ++ [session]).length := by
        rw [htrim, length_filter_lt_length_iff_exists]
        exact ⟨oldest, hmem, by simp⟩
      rw [length_append, length_singleton, hfull] at hlt
      refine ⟨Nat.le_of_lt_succ hlt, ?_⟩
      rw [htrim]
      exact ⟨fun _ _ _ => hfull, by grind, by grind⟩

theorem length_issues (hsize : db.sessions.length ≤ maxSessions) (calls : List (SessionCall δ)) :
    (db.issues calls).sessions.length ≤ maxSessions := by
  induction calls generalizing db with
  | nil => exact hsize
  | cons call calls ih =>
    rw [issues, foldl_cons, ← issues]
    refine ih ?_
    cases h : db.issue call with
    | none => exact hsize
    | some r =>
      rcases of_issue h with ⟨-, heq⟩ | ⟨-, hinsert⟩
      · exact heq ▸ hsize
      · exact (of_insertSessionRow ((length_filter_le _ _).trans hsize) hinsert).1

/-- A session that is issued can be used. -/
theorem session_kept (hsize : db.sessions.length ≤ maxSessions) (calls : List (SessionCall δ))
    (call : SessionCall δ) (h : (db.issues calls).issue call = some (true, db')) :
    db'.sessions.length ≤ maxSessions ∧
    (∀ row ∈ (db.issues calls).sessions, row ∉ db'.sessions →
      row.expiresAt ≤ call.session.issuedAt ∨
        ((db.issues calls).unexpired call.session.issuedAt).length = maxSessions) ∧
    (((db.issues calls).unexpired call.session.issuedAt).length < maxSessions ∨
        (∃ row ∈ (db.issues calls).unexpired call.session.issuedAt,
          row.issuedAt < call.session.issuedAt) →
      call.session ∈ db'.sessions ∧ ∀ now < call.session.expiresAt,
        (db'.session call.session.sessionDigest now).1 = some call.session.stored) := by
  have hold : ((db.issues calls).unexpired call.session.issuedAt).length ≤ maxSessions :=
    (length_filter_le _ _).trans (length_issues hsize calls)
  obtain ⟨hfalse, -⟩ | ⟨-, hinsert⟩ := of_issue h
  · cases hfalse
  · obtain ⟨hlength, hremoved, hpresent, -⟩ := of_insertSessionRow hold hinsert
    refine ⟨hlength, fun row hrow hnot => ?_, fun hkept => ⟨hpresent hkept, fun now hnow => ?_⟩⟩
    · by_cases hexpired : row.expiresAt ≤ call.session.issuedAt
      · exact .inl hexpired
      · refine .inr (hremoved row (mem_filter.2 ⟨hrow, ?_⟩) hnot)
        exact decide_eq_true (by omega)
    · have hmem : call.session ∈ db'.unexpired now :=
        mem_filter.2 ⟨hpresent hkept, decide_eq_true hnow⟩
      obtain ⟨row, hfind⟩ : ∃ row, (db'.unexpired now).find?
          (·.sessionDigest = call.session.sessionDigest) = some row :=
        isSome_iff_exists.1 (find?_isSome.2 ⟨_, hmem, by simp⟩)
      have heq : row = call.session := inj_on_of_nodup_map db'.sessions_nodup
        (mem_of_mem_filter (mem_of_find?_eq_some hfind)) (hpresent hkept)
        (by simpa using find?_some hfind)
      rw [session, hfind, heq, map_some]

/-- A full table, the first row of which is the earliest. -/
def fullCalls : List (SessionCall ℕ) :=
  (List.range 128).map fun i => ⟨⟨i, 0, [], .passwordTotp, if i = 0 then 400 else 1000, 9000⟩, none⟩

/-- The earliest row makes room for a session, although the clock has gone back. -/
theorem session_kept_full : ∃ db',
    ((issues ⟨none, [], [], .nil, .nil⟩ fullCalls).unexpired 500).length = 128 ∧
    (issues ⟨none, [], [], .nil, .nil⟩ fullCalls).issue
      ⟨⟨128, 0, [], .passwordTotp, 500, 8500⟩, none⟩ = some (true, db') ∧
    (db'.session 128 8499).1 = some ⟨0, [], .passwordTotp, 8500⟩ := by
  obtain ⟨hlength, hearly, hsome⟩ :
      ((issues ⟨none, [], [], .nil, .nil⟩ fullCalls).unexpired 500).length = 128 ∧
      ((issues ⟨none, [], [], .nil, .nil⟩ fullCalls).unexpired 500).any (·.issuedAt < 500) ∧
      ((issues ⟨none, [], [], .nil, .nil⟩ fullCalls).issue
        ⟨⟨128, 0, [], .passwordTotp, 500, 8500⟩, none⟩).map Prod.fst = some true := by
    decide +kernel
  obtain ⟨⟨_, db'⟩, h, rfl⟩ := map_eq_some_iff.1 hsome
  obtain ⟨row, hrow, hlt⟩ := any_eq_true.1 hearly
  have hkept := session_kept (Nat.zero_le _) fullCalls _ h
  exact ⟨db', hlength, h, (hkept.2.2 (.inr ⟨row, hrow, of_decide_eq_true hlt⟩)).2 8499 (by decide)⟩

/-- If the clock has gone back, a session that is issued may be the oldest. -/
theorem session_evicted : ∃ db', (issues (⟨none, [], [], .nil, .nil⟩ : AuthDatabase ℕ)
      ((List.range 128).map fun i => ⟨⟨i, 0, [], .passwordTotp, 1000, 9000⟩, none⟩)).issue
        ⟨⟨128, 0, [], .passwordTotp, 500, 8500⟩, none⟩ = some (true, db') ∧
    (db'.session 128 500).1.isNone := by
  generalize hfull : issues (δ := ℕ) _ _ = db
  obtain ⟨hlength, hlate, hsome⟩ : (db.unexpired 500).length = maxSessions ∧
      (∀ row ∈ db.unexpired 500, 500 < row.issuedAt) ∧
      (db.issue ⟨⟨128, 0, [], .passwordTotp, 500, 8500⟩, none⟩).map Prod.fst = some true := by
    rw [← hfull]
    decide +kernel
  obtain ⟨⟨_, db'⟩, h, rfl⟩ := map_eq_some_iff.1 hsome
  refine ⟨db', h, ?_⟩
  obtain ⟨hfalse, -⟩ | ⟨-, hinsert⟩ := of_issue h
  · cases hfalse
  · have hevicted := (of_insertSessionRow hlength.le hinsert).2.2.2 hlength hlate
    rw [session, isNone_map, isNone_iff_eq_none, find?_eq_none]
    intro row hrow heq
    exact hevicted (mem_map.2 ⟨row, mem_of_mem_filter hrow, of_decide_eq_true heq⟩)

end AuthDatabase

/-! ## The world of the control plane -/

/-- An enrolment that waits to be confirmed. -/
structure LocalPendingEnrollment (δ : Type) where
  enrollmentDigest : δ
  username : List Char
  passwordHash : List Char
  totpCiphertext : List UInt8
  totpKdfSalt : List UInt8
  totpNonce : List UInt8
  totpSecret : List UInt8
  expiresAt : ℤ

/-- The account that is enrolled. -/
def LocalPendingEnrollment.account {δ : Type} (pending : LocalPendingEnrollment δ) (now : ℤ) :
    AdminAccount where
  username := pending.username
  passwordHash := pending.passwordHash
  totpCiphertext := pending.totpCiphertext
  totpKdfSalt := pending.totpKdfSalt
  totpNonce := pending.totpNonce
  createdAt := now

/-- What the store of sessions asks of its surroundings. -/
inductive LocalOp (δ : Type)
  | lockPending
  | unlockPending (slot : Option (LocalPendingEnrollment δ))
  | random (n : ℕ)
  | isConfigured
  | account (username : List Char)
  | createInitialAdminAndSession (account : AdminAccount) (digests : List δ)
      (session : SessionRow δ) (now : ℤ)
  | consumeRecoveryCodeAndInsertSession (accountId : ℕ) (digest : δ) (session : SessionRow δ)
      (now : ℤ)
  | insertSession (session : SessionRow δ)

/-- What an operation answers. -/
@[reducible] def LocalOp.Ans {δ : Type} : LocalOp δ → Type
  | lockPending => Option (LocalPendingEnrollment δ)
  | unlockPending _ => Unit
  | random _ => Except Unit (List UInt8)
  | isConfigured => Except Unit Bool
  | account _ => Except Unit (Option AdminAccount)
  | createInitialAdminAndSession _ _ _ _ | consumeRecoveryCodeAndInsertSession _ _ _ _ =>
    Except Unit Bool
  | insertSession _ => Except Unit Unit

@[reducible] def Local (δ : Type) : Sig where
  Op := LocalOp δ
  Ans := LocalOp.Ans

/-- The database, and what is in memory. -/
structure AuthWorld (δ : Type) where
  db : AuthDatabase δ
  pending : Option (LocalPendingEnrollment δ)
  /-- The call that has the lock of the memory. -/
  pendingHolder : Option ℕ

/-- The control plane and what its calls have performed. -/
abbrev LocalState (δ : Type) := Effect.Recorded (Local δ) (AuthWorld δ)

/-- How an operation turns out. -/
inductive LocalChoice
  | done
  | failed
  /-- It fails after it has taken effect. -/
  | lost
  | drawn (bytes : List UInt8)

/-- The operation does not fail. -/
def LocalChoice.succeeds : LocalChoice → Bool
  | failed | lost => false
  | done | drawn _ => true

namespace AuthWorld

variable {δ : Type} [DecidableEq δ]

/-- A transaction: it is done, it fails, or it fails after it has taken effect. -/
def transact {α : Type} (run : AuthDatabase δ → Option (α × AuthDatabase δ)) :
    LocalChoice → AuthWorld δ → Option (Except Unit α × AuthWorld δ)
  | .done, w => (run w.db).map fun r => (.ok r.1, { w with db := r.2 })
  | .failed, w => some (.error (), w)
  | .lost, w => (run w.db).map fun r => (.error (), { w with db := r.2 })
  | .drawn _, _ => none

omit [DecidableEq δ] in
theorem of_transact {α : Type} {run : AuthDatabase δ → Option (α × AuthDatabase δ)}
    {x : LocalChoice} {w w' : AuthWorld δ} {r : Except Unit α}
    (h : transact run x w = some (r, w')) :
    (r = .error () ∧ w' = w) ∨ ∃ b db, run w.db = some (b, db) ∧ w' = { w with db } ∧
      (r = .ok b ∨ r = .error ()) := by
  cases x with
  | failed =>
    cases h
    exact .inl ⟨rfl, rfl⟩
  | drawn bytes => cases h
  | done =>
    obtain ⟨⟨b, db⟩, hrun, heq⟩ := map_eq_some_iff.1 h
    cases heq
    exact .inr ⟨b, db, hrun, rfl, .inl rfl⟩
  | lost =>
    obtain ⟨⟨b, db⟩, hrun, heq⟩ := map_eq_some_iff.1 h
    cases heq
    exact .inr ⟨b, db, hrun, rfl, .inr rfl⟩

/-- How the surroundings answer the operations of the call `i`. -/
def exec (i : ℕ) : (o : LocalOp δ) → LocalChoice → AuthWorld δ → Option (o.Ans × AuthWorld δ)
  | .lockPending, .done, w =>
    if w.pendingHolder = none then some (w.pending, { w with pendingHolder := some i }) else none
  | .unlockPending slot, .done, w => some ((), { w with pending := slot, pendingHolder := none })
  | .random n, .drawn bytes, w => if bytes.length = n then some (.ok bytes, w) else none
  | .random _, .failed, w => some (.error (), w)
  | .isConfigured, x, w => transact (fun db => some (db.isConfigured, db)) x w
  | .account username, x, w => transact (fun db => some (db.accountOf username, db)) x w
  | .createInitialAdminAndSession account digests session now, x, w =>
    transact (·.createInitialAdminAndSession account digests session now) x w
  | .consumeRecoveryCodeAndInsertSession accountId digest session now, x, w =>
    transact (·.consumeRecoveryCodeAndInsertSession accountId digest session now) x w
  | .insertSession session, x, w => transact (·.insertSession session) x w
  | _, _, _ => none

/-- A crash loses the pending enrolment. The database stays. -/
def crash (w : AuthWorld δ) : AuthWorld δ := { w with pending := none, pendingHolder := none }

end AuthWorld

@[reducible] def localHost (δ : Type) [DecidableEq δ] :
    Effect.Host (Local δ) (AuthWorld δ) LocalChoice where
  exec := AuthWorld.exec
  crash := AuthWorld.crash

/-! ## The calls -/

/-- Digests, ciphers, password hashes and one-time passwords, as the libraries have
    them. -/
structure LocalCrypto (δ : Type) where
  enrollmentDigest : List Char → δ
  recoveryDigest : List Char → δ
  sessionDigest : List Char → δ
  csrfToken : List Char → List Char
  csrfDigest : List Char → δ
  /-- The text for random bytes. -/
  token : List UInt8 → List Char
  hashPassword : List Char → List UInt8 → List Char
  verifyPassword : List Char → List Char → Bool
  /-- The ciphertext for a password, a user, a seed, a salt and a nonce. -/
  encrypt : List Char → List Char → List UInt8 → List UInt8 → List UInt8 → Option (List UInt8)
  decrypt : List Char → AdminAccount → Except AuthError (List UInt8)
  secretBase32 : List UInt8 → List Char
  buildTotp : List Char → List UInt8 → Bool
  check : List Char → List UInt8 → List Char → ℕ → Bool
  url : List Char → List UInt8 → List Char

/-- A session, as its owner gets it. -/
structure IssuedSession where
  csrfToken : List Char
  setCookie : List Char
  expiresInSeconds : ℕ
  actor : List Char
  authenticationMethod : AuthenticationMethod
  deriving DecidableEq

/-- What is shown of an enrolment that was started. -/
structure EnrollmentStart where
  enrollmentId : List Char
  secretBase32 : List Char
  otpauthUri : List Char
  expiresInSeconds : ℕ

/-- What is shown of an enrolment that is complete. -/
structure EnrollmentComplete where
  recoveryCodes : List (List Char)
  session : IssuedSession

/-- What is asked for beside the password. -/
inductive LoginSecondFactor
  | totp (code : List Char)
  | recoveryCode (code : List Char)
  deriving DecidableEq

/-- A session, and the row that is to be stored of it. -/
structure PreparedSession (δ : Type) where
  issued : IssuedSession
  row : SessionRow δ

namespace SessionStore

open Fallible

variable {δ : Type}

def sessionTtlSeconds : ℤ := 43200

/-- A name without blanks around it and in lower case, if it may be one. -/
def normalizeUsername (username : List Char) : Option (List Char) :=
  if PamMfa.validUsername (Text.trim username) then some (Text.toLower (Text.trim username)) else none

/-- A password is long enough, and not too long to be hashed. -/
def validPassword (password : List Char) : Bool :=
  12 ≤ password.length && Text.byteLength password ≤ 1024

/-- The cookie, which scripts and other sites do not get. -/
def sessionCookie (rawSession : List Char) (secure : Bool) : List Char :=
  (if secure then "__Host-vps_guard_session" else "vps_guard_session").toList ++ '=' :: rawSession ++
    "; Max-Age=43200; Path=/; HttpOnly; SameSite=Strict".toList ++
    (if secure then "; Secure" else "").toList

/-- Failures of the database are not told apart. -/
def orStore {α : Type} (r : Except Unit α) : Except AuthError α := r.mapError fun _ => .store

def randomBytes (n : ℕ) : Fallible (Local δ) AuthError (List UInt8) :=
  request (.random n) fun r => r.mapError fun _ => .crypto

section

variable (crypto : LocalCrypto δ)

/-- The row of a session, for the cookie with this value. -/
def newSession (rawSession actor : List Char)
    (method : AuthenticationMethod) (now : ℤ) : SessionRow δ where
  sessionDigest := crypto.sessionDigest rawSession
  csrfDigest := crypto.csrfDigest (crypto.csrfToken rawSession)
  actor := actor
  authenticationMethod := method
  issuedAt := now
  expiresAt := PamMfa.saturatingAdd now sessionTtlSeconds

/-- A session with a random value. -/
def prepareSession (actor : List Char) (method : AuthenticationMethod)
    (secureCookie : Bool) (now : ℤ) : Fallible (Local δ) AuthError (PreparedSession δ) := do
  let random ← randomBytes 32
  return {
    issued := {
      csrfToken := crypto.csrfToken (crypto.token random)
      setCookie := sessionCookie (crypto.token random) secureCookie
      expiresInSeconds := 43200
      actor
      authenticationMethod := method }
    row := newSession crypto (crypto.token random) actor method now }

/-- Issue a session, once it is stored. -/
def issueSession (actor : List Char) (method : AuthenticationMethod)
    (secureCookie : Bool) (now : ℤ) : Fallible (Local δ) AuthError IssuedSession := do
  let prepared ← prepareSession crypto actor method secureCookie now
  request (.insertSession prepared.row) orStore
  return prepared.issued

def drawRecoveryCodes : ℕ → Fallible (Local δ) AuthError (List (List UInt8))
  | 0 => return []
  | n + 1 => do
    let bytes ← randomBytes 16
    let codes ← drawRecoveryCodes n
    return bytes :: codes

/-- New codes, and their digests. -/
def generateRecoveryCodes : Fallible (Local δ) AuthError (List (List Char) × List δ) := do
  let codes ← drawRecoveryCodes PamMfa.recoveryCodeCount
  return (codes.map RecoveryCode.display,
    codes.map fun bytes => crypto.recoveryDigest (RecoveryCode.digits bytes))

/-- Put an enrolment into the memory, in place of the one there. -/
def storePending (pending : LocalPendingEnrollment δ) : Fallible (Local δ) AuthError Unit := do
  let _ ← request .lockPending .ok
  request (.unlockPending (some pending)) .ok

/-- The enrolment of a user with a password, from what is drawn for it. -/
def newPending (username password : List Char) (now : ℤ)
    (salt secret kdfSalt nonce id ciphertext : List UInt8) : LocalPendingEnrollment δ where
  enrollmentDigest := crypto.enrollmentDigest (crypto.token id)
  username := username
  passwordHash := crypto.hashPassword password salt
  totpCiphertext := ciphertext
  totpKdfSalt := kdfSalt
  totpNonce := nonce
  totpSecret := secret
  expiresAt := PamMfa.saturatingAdd now PamMfa.enrollmentTtlSeconds

/-- Start an enrolment, if there is no account. -/
def startEnrollment (username password : List Char) (now : ℤ) :
    Fallible (Local δ) AuthError EnrollmentStart := do
  let configured ← request .isConfigured orStore
  ensure (configured = false) .alreadyConfigured
  let username ← ofOption .invalidUsername (normalizeUsername username)
  ensure (validPassword password) .weakPassword
  let salt ← randomBytes 16
  let secret ← randomBytes PamMfa.totpSecretBytes
  let kdfSalt ← randomBytes 16
  let nonce ← randomBytes 24
  let ciphertext ← ofOption .crypto (crypto.encrypt password username secret kdfSalt nonce)
  ensure (crypto.buildTotp username secret) .crypto
  let id ← randomBytes 32
  storePending (newPending crypto username password now salt secret kdfSalt nonce id ciphertext)
  return {
    enrollmentId := crypto.token id
    secretBase32 := crypto.secretBase32 secret
    otpauthUri := crypto.url username secret
    expiresInSeconds := 600 }

end

variable [DecidableEq δ] (crypto : LocalCrypto δ)

/-- What is left in the memory, and what is returned. -/
def storeEnrollment (pending : LocalPendingEnrollment δ) (secureCookie : Bool) (now : ℤ) :
    Prog (Local δ) (Option (LocalPendingEnrollment δ) × Except AuthError EnrollmentComplete) := do
  let prepared ← (do
    let codes ← generateRecoveryCodes crypto
    let prepared ← prepareSession crypto pending.username .passwordTotp secureCookie now
    return (codes, prepared) : Fallible (Local δ) AuthError _).run
  match prepared with
  | .error e => return (some pending, .error e)
  | .ok ((recoveryCodes, recoveryDigests), prepared) => do
    let created ← Prog.perform (S := Local δ)
      (.createInitialAdminAndSession (pending.account now) recoveryDigests prepared.row now)
    match created with
    | .error _ => return (some pending, .error .store)
    | .ok false => return (none, .error .alreadyConfigured)
    | .ok true => return (none, .ok { recoveryCodes, session := prepared.issued })

/-- Confirm an enrolment. It stays pending if the code is wrong, and not if it has expired. -/
def confirmPending (slot : Option (LocalPendingEnrollment δ))
    (enrollmentId totpCode : List Char) (secureCookie : Bool) (now : ℤ) :
    Prog (Local δ) (Option (LocalPendingEnrollment δ) × Except AuthError EnrollmentComplete) :=
  match slot with
  | none => return (none, .error .enrollmentUnavailable)
  | some pending =>
    if pending.expiresAt ≤ now ∨ crypto.enrollmentDigest enrollmentId ≠ pending.enrollmentDigest then
      return (if pending.expiresAt ≤ now then none else some pending, .error .enrollmentUnavailable)
    else if now < 0 then return (some pending, .error .clock)
    else if crypto.buildTotp pending.username pending.totpSecret = false then
      return (some pending, .error .crypto)
    else if crypto.check pending.username pending.totpSecret totpCode now.toNat = false then
      return (some pending, .error .invalidTotp)
    else storeEnrollment crypto pending secureCookie now

/-- Confirm the pending enrolment, which nobody else touches meanwhile. -/
def confirmEnrollment (enrollmentId totpCode : List Char)
    (secureCookie : Bool) (now : ℤ) : Prog (Local δ) (Except AuthError EnrollmentComplete) :=
  if PamMfa.validTotpShape totpCode then do
    let slot ← Prog.perform (S := Local δ) .lockPending
    let (slot, result) ← confirmPending crypto slot enrollmentId totpCode secureCookie now
    Prog.perform (S := Local δ) (.unlockPending slot)
    return result
  else return .error .invalidTotp

/-- The account that the password opens. -/
def authenticated (dummyHash password : List Char)
    (account : Option AdminAccount) : Option AdminAccount :=
  account.filter fun _ =>
    crypto.verifyPassword (account.elim dummyHash AdminAccount.passwordHash) password

/-- The second factor is a code from the seed. -/
def loginTotp (account : AdminAccount) (password code : List Char)
    (secureCookie : Bool) (now : ℤ) : Fallible (Local δ) AuthError IssuedSession := do
  ensure (PamMfa.validTotpShape code) .invalidCredentials
  let secret ← ExceptT.mk (Prog.ret (crypto.decrypt password account))
  ensure (0 ≤ now) .clock
  ensure (crypto.buildTotp account.username secret) .crypto
  ensure (crypto.check account.username secret code now.toNat) .invalidCredentials
  issueSession crypto account.username .passwordTotp secureCookie now

/-- The second factor is a recovery code, used up as the session is stored. -/
def loginRecovery (account : AdminAccount) (code : List Char)
    (secureCookie : Bool) (now : ℤ) : Fallible (Local δ) AuthError IssuedSession := do
  let normalized ← ofOption .invalidCredentials (normalizeRecoveryCode code)
  let prepared ← prepareSession crypto account.username .passwordRecovery secureCookie now
  let consumed ← request (.consumeRecoveryCodeAndInsertSession AdminAccount.id
    (crypto.recoveryDigest normalized) prepared.row now) orStore
  ensure (consumed = true) .invalidCredentials
  return prepared.issued

/-- Log in with a password and a second factor. -/
def login (dummyHash username password : List Char)
    (secondFactor : LoginSecondFactor) (secureCookie : Bool) (now : ℤ) :
    Fallible (Local δ) AuthError IssuedSession := do
  let normalized := (normalizeUsername username).getD (Text.toLower username)
  let found ← request (.account normalized) orStore
  let account ← ofOption .invalidCredentials (authenticated crypto dummyHash password found)
  match secondFactor with
  | .totp code => loginTotp crypto account password code secureCookie now
  | .recoveryCode code => loginRecovery crypto account code secureCookie now

end SessionStore

/-- What the control plane is asked for. -/
inductive LocalCall
  | start (username password : List Char) (now : ℤ)
  | confirm (enrollmentId totpCode : List Char) (secureCookie : Bool) (now : ℤ)
  | login (username password : List Char) (secondFactor : LoginSecondFactor) (secureCookie : Bool)
      (now : ℤ)

/-- What the calls answer. -/
inductive LocalReply
  | started (result : Except AuthError EnrollmentStart)
  | confirmed (result : Except AuthError EnrollmentComplete)
  | loggedIn (result : Except AuthError IssuedSession)

namespace LocalCall

variable {δ : Type} [DecidableEq δ]

/-- The program of a call. -/
def prog (crypto : LocalCrypto δ) (dummyHash : List Char) : LocalCall → Prog (Local δ) LocalReply
  | start username password now =>
    .started <$> (SessionStore.startEnrollment crypto username password now).run
  | confirm id code secure now =>
    .confirmed <$> SessionStore.confirmEnrollment crypto id code secure now
  | login username password factor secure now =>
    .loggedIn <$> (SessionStore.login crypto dummyHash username password factor secure now).run

end LocalCall

/-- The calls that are made to the control plane, each in some lifetime of it. -/
def localCalls {δ : Type} [DecidableEq δ] (crypto : LocalCrypto δ) (dummyHash : List Char)
    (db : AuthDatabase δ) (calls : List (ℕ × LocalCall)) : Calls (Local δ) (AuthWorld δ) LocalReply where
  now := ⟨⟨db, none, none⟩, []⟩
  life := 0
  tasks := calls.map fun call => (call.1, call.2.prog crypto dummyHash)

end VpsGuard
