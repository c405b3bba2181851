import VpsGuard.Auth.SessionStore

/-!
# Enrolling the administrator

Enrolments are started and confirmed side by side, any database call may fail,
and the control plane may crash anywhere. The account is stored by one
transaction, which looks whether there is one; so what is in the database is
what one confirmation stored, with everything that belongs to it (`Enrolled`),
and one confirmation at most reports success (`enrolledOnce`).

A confirmation has the lock of the memory from reading the enrolment until it
has returned, so the account it stores is the one of that enrolment.
-/

namespace VpsGuard

open Effect Effect.Host Effect.Recorded Fallible RecoveryCode

namespace LocalCall

def isEnrollment : LocalCall → Bool
  | login _ _ _ _ _ => false
  | _ => true

end LocalCall

namespace SessionStore

variable {δ : Type} [DecidableEq δ] (crypto : LocalCrypto δ) (calls : List (ℕ × LocalCall))
  (sessions : List (SessionRow δ))

/-! ## What is stored -/

/-- The enrolment is one that a call has started, with what it drew. -/
inductive Started (id : List UInt8) : LocalPendingEnrollment δ → Prop
  | mk {i : ℕ} {username normalized password : List Char} {now : ℤ}
      {salt secret kdfSalt nonce ciphertext : List UInt8} :
      callOf calls i = some (.start username password now) →
      normalizeUsername username = some normalized → validPassword password →
      crypto.encrypt password normalized secret kdfSalt nonce = some ciphertext →
      Started id
        (newPending crypto normalized password now salt secret kdfSalt nonce id ciphertext)

/-- What the confirmation `i` stored in place of no account: the name, the hash of the
    password and the sealed seed of an enrolment that was started, and whose identifier and
    one-time password were presented in time, the digests of its recovery codes, and a first
    session besides those that there were. -/
inductive Enrolled (i : ℕ) (db : AuthDatabase δ) : Prop
  | mk {j : ℕ} {username normalized password enrollmentId totpCode rawSession : List Char}
      {salt secret kdfSalt nonce id ciphertext : List UInt8} {started now : ℤ}
      {secureCookie : Bool} {codes : List (List UInt8)} :
      callOf calls j = some (.start username password started) →
      normalizeUsername username = some normalized → validPassword password →
      crypto.encrypt password normalized secret kdfSalt nonce = some ciphertext →
      callOf calls i = some (.confirm enrollmentId totpCode secureCookie now) →
      crypto.enrollmentDigest enrollmentId = crypto.enrollmentDigest (crypto.token id) →
      0 ≤ now → now < PamMfa.saturatingAdd started 600 →
      crypto.check normalized secret totpCode now.toNat = true →
      codes.length = 10 →
      db.account = some ⟨normalized, crypto.hashPassword password salt, ciphertext, kdfSalt, nonce,
        now⟩ →
      db.recoveryCodes = codes.map (fun code =>
        ⟨1, crypto.recoveryDigest (digits code), now, none⟩) →
      db.sessions = sessions ++ [⟨crypto.sessionDigest rawSession,
        crypto.csrfDigest (crypto.csrfToken rawSession), normalized, .passwordTotp, now,
        PamMfa.saturatingAdd now 43200⟩] →
      Enrolled i db

variable {crypto calls sessions}

omit [DecidableEq δ] in
theorem Enrolled.isSome {i : ℕ} {db : AuthDatabase δ}
    (h : Enrolled crypto calls sessions i db) : db.account.isSome := by
  cases h with
  | mk _ _ _ _ _ _ _ _ _ _ haccount _ _ => rw [haccount]; rfl

/-- The operation and its answer store the account. -/
def Creates : (o : LocalOp δ) → o.Ans → Prop
  | .createInitialAdminAndSession _ _ _ _, .ok true => True
  | _, _ => False

omit [DecidableEq δ] in
theorem eq_of_creates {account : AdminAccount} {digests : List δ} {session : SessionRow δ} {now : ℤ}
    {created : Except Unit Bool}
    (h : Creates (.createInitialAdminAndSession account digests session now) created) :
    created = .ok true := by
  match created, h with
  | .ok true, _ => rfl

variable (crypto calls sessions) in
/-- What holds while enrolments are started and confirmed. -/
structure Inv (s : LocalState δ) : Prop where
  pending : ∀ pending, s.state.pending = some pending → ∃ id, Started crypto calls id pending
  absent : s.state.db.account = none →
    s.state.db.recoveryCodes = [] ∧ s.state.db.sessions = sessions
  enrolled : s.state.db.account.isSome → ∃ i, Enrolled crypto calls sessions i s.state.db
  created : ∀ i, s.Did Creates i → s.state.db.account.isSome
  unique : ∀ i j, s.Did Creates i → s.Did Creates j → i = j
  room : sessions.length < AuthDatabase.maxSessions

/-! ## What the calls do to each other -/

/-- What a call relies on. The database stays as it is once there is an account. -/
structure Rely (i : ℕ) (s t : LocalState δ) : Prop where
  history : s.history <+: t.history
  pending : s.state.pendingHolder = some i →
    t.state.pendingHolder = some i ∧ t.state.pending = s.state.pending
  db : s.state.db.account.isSome → t.state.db = s.state.db

/-- What a call guarantees to the others. -/
structure Guarantee (i : ℕ) (s t : LocalState δ) : Prop where
  history : s.history <+: t.history
  pending : ∀ j, i ≠ j → s.state.pendingHolder = some j →
    t.state.pendingHolder = some j ∧ t.state.pending = s.state.pending
  db : s.state.db.account.isSome → t.state.db = s.state.db

def sharing (i : ℕ) : Sharing (LocalState δ) where
  rely := Rely i
  guar := Guarantee i
  rely_refl _ := ⟨List.prefix_rfl, fun h => ⟨h, rfl⟩, fun _ => rfl⟩
  rely_trans {s t u} hst htu := by
    refine ⟨hst.history.trans htu.history, fun h => ?_, fun h => ?_⟩
    · obtain ⟨ht, hpending⟩ := hst.pending h
      exact ⟨(htu.pending ht).1, (htu.pending ht).2.trans hpending⟩
    · have ht := hst.db h
      exact (htu.db (ht ▸ h)).trans ht

section

variable (crypto calls sessions) (allow : ℕ → LocalOp δ → LocalChoice → LocalState δ → Prop)

/-- What the call `i` runs in. -/
def setting (i : ℕ) : Setting (Local δ) (LocalState δ) LocalChoice where
  toMachine := (localHost δ).machine i
  allow := allow i
  inv := Inv crypto calls sessions

variable {crypto calls sessions allow} {i : ℕ} {s t : LocalState δ} {o : LocalOp δ} {a : o.Ans}

omit [DecidableEq δ] in
theorem Inv.not_did (hs : Inv crypto calls sessions s) (hnone : s.state.db.account = none) (j : ℕ) :
    ¬ s.Did Creates j := by
  intro hj
  have hsome := hs.created j hj
  rw [hnone] at hsome
  cases hsome

omit [DecidableEq δ] in
theorem Inv.same (hs : Inv crypto calls sessions s) (hdb : t.state.db = s.state.db)
    (hhistory : t.history = s.history ++ [⟨i, o, a⟩]) (hcreates : ¬ Creates o a)
    (hpending : ∀ pending, t.state.pending = some pending → ∃ id, Started crypto calls id pending) :
    Inv crypto calls sessions t := by
  have hdid : ∀ j, t.Did Creates j ↔ s.Did Creates j := fun j => by
    rw [did_append hhistory]
    exact or_iff_left fun h => hcreates h.2
  refine ⟨hpending, ?_, ?_, fun j hj => ?_, fun j k hj hk => ?_, hs.room⟩
  · rw [hdb]
    exact hs.absent
  · rw [hdb]
    exact hs.enrolled
  · rw [hdb]
    exact hs.created j ((hdid j).1 hj)
  · exact hs.unique j k ((hdid j).1 hj) ((hdid k).1 hk)

/-- The operations of an enrolment that change nothing. -/
def IsQuiet : LocalOp δ → Prop
  | .random _ | .isConfigured => True
  | _ => False

/-- Random bytes are as many as asked for. -/
def Drawn : (o : LocalOp δ) → o.Ans → Prop
  | .random n, .ok bytes => bytes.length = n
  | _, _ => True

variable {x : LocalChoice} {w w' : AuthWorld δ} {slot : Option (LocalPendingEnrollment δ)}
  {now : ℤ} {pending : LocalPendingEnrollment δ} {enrollmentId totpCode : List Char}
  {secureCookie : Bool}

omit [DecidableEq δ] in
theorem transact_eq_of_read {α : Type} {run : AuthDatabase δ → α} {r : Except Unit α}
    (h : AuthWorld.transact (fun db => some (run db, db)) x w = some (r, w')) : w' = w := by
  rcases AuthWorld.of_transact h with ⟨-, rfl⟩ | ⟨b, db, hrun, rfl, -⟩
  · rfl
  · cases hrun
    rfl

theorem exec_quiet (ho : IsQuiet o) (h : AuthWorld.exec i o x w = some (a, w')) :
    w' = w ∧ Drawn o a := by
  cases o with
  | random n =>
    cases x <;> simp [AuthWorld.exec] at h
    · obtain ⟨rfl, rfl⟩ := h
      exact ⟨rfl, trivial⟩
    · obtain ⟨hlength, rfl, rfl⟩ := h
      exact ⟨rfl, hlength⟩
  | isConfigured => exact ⟨transact_eq_of_read h, by cases a <;> trivial⟩
  | _ => exact ho.elim

variable {P : LocalState δ → Prop}

theorem quiet_safe {α : Type} {p : Prog (Local δ) α} {Y : α → Prop}
    (hp : p.Meets IsQuiet Drawn Y) (hP : (sharing i).Keeps P) (hs : P s) :
    p.Safe (setting crypto calls sessions allow i) (sharing i) (fun a t => Y a ∧ P t) s := by
  refine .of_meets hp (fun s t h hst _ => hP s t h hst)
    (fun o x s a t ho h hinv _ hx => ?_) hs
  obtain ⟨hexec, hhistory⟩ := machine_eq_some_iff.1 hx
  obtain ⟨heq, hdrawn⟩ := exec_quiet ho hexec
  have hcreates : ¬ Creates o a := by
    cases o with
    | random | isConfigured => exact id
    | _ => exact ho.elim
  have hrely : Rely i s t :=
    ⟨⟨_, hhistory.symm⟩, fun h => by rw [heq]; exact ⟨h, rfl⟩, fun _ => by rw [heq]⟩
  refine ⟨⟨⟨_, hhistory.symm⟩, fun j _ hj => by rw [heq]; exact ⟨hj, rfl⟩, fun _ => by rw [heq]⟩,
    hinv.same (by rw [heq]) hhistory hcreates (by rw [heq]; exact hinv.pending), hP s t h hrely,
    hdrawn⟩

/-! ## The calls -/

omit [DecidableEq δ] in
theorem performs_randomBytes (n : ℕ) :
    (randomBytes n : Fallible (Local δ) AuthError _).run.Performs IsQuiet :=
  performs_request trivial

omit [DecidableEq δ] in
theorem randomBytes_meets (n : ℕ) :
    (randomBytes n : Fallible (Local δ) AuthError _).run.Meets IsQuiet Drawn
      (Result (fun bytes => bytes.length = n) fun _ => True) := by
  refine meets_request trivial fun a ha => ?_
  cases a with
  | ok bytes => exact ha
  | error e => trivial

omit [DecidableEq δ] in
theorem drawRecoveryCodes_meets (n : ℕ) :
    (drawRecoveryCodes n : Fallible (Local δ) AuthError _).run.Meets IsQuiet Drawn
      (Result (fun codes : List (List UInt8) =>
        codes.length = n ∧ ∀ code ∈ codes, code.length = 16) fun _ => True) := by
  induction n with
  | zero => exact ⟨rfl, fun _ h => absurd h List.not_mem_nil⟩
  | succ n ih =>
    refine meets_bind (randomBytes_meets 16) fun bytes hbytes =>
      meets_bind ih fun codes hcodes => ?_
    exact ⟨congrArg (· + 1) hcodes.1, List.forall_mem_cons.2 ⟨hbytes, hcodes.2⟩⟩

/-- What is prepared for an enrolment: its codes, their digests, and a session. -/
def Prepared (crypto : LocalCrypto δ) (actor : List Char) (now : ℤ)
    (r : (List (List Char) × List δ) × PreparedSession δ) : Prop :=
  ∃ (codes : List (List UInt8)) (rawSession : List Char),
    codes.length = PamMfa.recoveryCodeCount ∧ (∀ code ∈ codes, code.length = 16) ∧
    r.1 = (codes.map display, codes.map fun bytes => crypto.recoveryDigest (digits bytes)) ∧
    r.2.row = newSession crypto rawSession actor .passwordTotp now

theorem attempt_quiet {α β : Type} {p : Fallible (Local δ) AuthError α}
    {k : α → Fallible (Local δ) AuthError β} {Q : Except AuthError β → LocalState δ → Prop}
    (hp : p.run.Performs IsQuiet) (hP : (sharing i).Keeps P) (hs : P s)
    (herror : ∀ e t, P t → Q (.error e) t)
    (hk : ∀ a t, P t → (k a).run.Safe (setting crypto calls sessions allow i) (sharing i) Q t) :
    (p >>= k).run.Safe (setting crypto calls sessions allow i) (sharing i) Q s :=
  .attempt_keeping (quiet_safe (hp.meets (Prog.yields_true _)) hP hs) herror
    fun a t _ ht => hk a t ht

omit [DecidableEq δ] in
theorem lock_step {holder : Option ℕ} (hs : Inv crypto calls sessions s)
    (hlock : s.state.pendingHolder = none ∨ s.state.pendingHolder = some i)
    (ht : t.state = { s.state with pending := slot, pendingHolder := holder })
    (hslot : ∀ pending, slot = some pending → ∃ id, Started crypto calls id pending)
    (hhistory : t.history = s.history ++ [⟨i, o, a⟩]) (hcreates : ¬ Creates o a) :
    (sharing i).guar s t ∧ Inv crypto calls sessions t := by
  refine ⟨⟨⟨_, hhistory.symm⟩, fun j hij hj => ?_, fun _ => by rw [ht]⟩,
    hs.same (by rw [ht]) hhistory hcreates (by rw [ht]; exact hslot)⟩
  rcases hlock with hlock | hlock
  · cases hlock.symm.trans hj
  · exact absurd (Option.some.inj (hlock.symm.trans hj)) hij

theorem exec_lockPending (h : AuthWorld.exec i .lockPending x w = some (slot, w')) :
    w.pendingHolder = none ∧ slot = w.pending ∧
      w' = { w with pending := w.pending, pendingHolder := some i } := by
  cases x <;> simp [AuthWorld.exec] at h
  exact ⟨h.1, h.2.1.symm, h.2.2.symm⟩

theorem exec_unlockPending {a : Unit}
    (h : AuthWorld.exec i (.unlockPending slot) x w = some (a, w')) :
    w' = { w with pending := slot, pendingHolder := none } := by
  cases x <;> simp [AuthWorld.exec] at h
  exact h.symm

theorem startEnrollment_safe {username password : List Char}
    (hcall : callOf calls i = some (.start username password now)) :
    (startEnrollment crypto username password now).run.Safe
      (setting crypto calls sessions allow i) (sharing i) (fun _ _ => True) s := by
  have hkeeps : (sharing i : Sharing (LocalState δ)).Keeps fun _ => True := Sharing.keeps_true
  refine attempt_quiet (performs_request trivial) hkeeps trivial (fun _ _ _ => trivial)
    fun configured _ _ => .ensure (fun _ _ _ => trivial) fun _ => ?_
  refine .ofOption (fun _ _ _ => trivial) fun normalized hnormalized =>
    .ensure (fun _ _ _ => trivial) fun hpassword => ?_
  refine attempt_quiet (performs_randomBytes 16) hkeeps trivial (fun _ _ _ => trivial)
    fun salt _ _ => ?_
  refine attempt_quiet (performs_randomBytes _) hkeeps trivial (fun _ _ _ => trivial)
    fun secret _ _ => ?_
  refine attempt_quiet (performs_randomBytes 16) hkeeps trivial (fun _ _ _ => trivial)
    fun kdfSalt _ _ => ?_
  refine attempt_quiet (performs_randomBytes 24) hkeeps trivial (fun _ _ _ => trivial)
    fun nonce _ _ => ?_
  refine .ofOption (fun _ _ _ => trivial) fun ciphertext hciphertext =>
    .ensure (fun _ _ _ => trivial) fun _ => ?_
  refine attempt_quiet (performs_randomBytes 32) hkeeps trivial (fun _ _ _ => trivial)
    fun id _ _ => ?_
  refine .attempt (R := fun _ _ => True) ?_ fun _ _ _ _ =>
    .ret_trivial
  refine .request fun t _ ht x slot u _ hx => ?_
  obtain ⟨hexec, hhistory⟩ := machine_eq_some_iff.1 hx
  obtain ⟨hfree, -, hstate⟩ := exec_lockPending hexec
  obtain ⟨hg, hu⟩ := lock_step ht (.inl hfree) hstate ht.pending hhistory (fun h => h)
  refine ⟨hg, hu, fun _ _ => ?_, fun _ h => by cases h⟩
  refine .request_last fun v huv hv x a w _ hx => ?_
  obtain ⟨hexec, hhistory⟩ := machine_eq_some_iff.1 hx
  obtain ⟨hg, hw⟩ := lock_step hv (.inr (huv.pending (by rw [hstate])).1) (exec_unlockPending hexec)
    (fun pending h => ⟨id, Option.some.inj h ▸ .mk hcall hnormalized hpassword hciphertext⟩)
    hhistory (fun h => h)
  exact ⟨hg, hw, fun _ _ _ => trivial⟩

/-- The codes that were shown are those whose digests are stored. -/
def Shown (crypto : LocalCrypto δ) (codes : List (List Char)) (db : AuthDatabase δ) : Prop :=
  ∀ code ∈ codes, ∃ normalized, normalizeRecoveryCode code = some normalized ∧
    ∃ row ∈ db.recoveryCodes, row.codeDigest = crypto.recoveryDigest normalized

/-- The call has the lock of the memory, and finds the enrolment there. -/
def Confirming (i : ℕ) (pending : LocalPendingEnrollment δ) (s : LocalState δ) : Prop :=
  s.state.pendingHolder = some i ∧ s.state.pending = some pending

omit [DecidableEq δ] in
theorem keeps_confirming : (sharing i).Keeps (Confirming i pending) :=
  fun _ _ hs hst => ⟨(hst.pending hs.1).1, (hst.pending hs.1).2.trans hs.2⟩

variable (crypto calls sessions) in
/-- What the answer to a confirmation says. -/
def Reported (i : ℕ) (r : Except AuthError EnrollmentComplete) (s : LocalState δ) : Prop :=
  ∀ complete, r = .ok complete → s.Did Creates i ∧
    Enrolled crypto calls sessions i s.state.db ∧ Shown crypto complete.recoveryCodes s.state.db

omit [DecidableEq δ] in
theorem Reported.rely {r : Except AuthError EnrollmentComplete}
    (hs : Reported crypto calls sessions i r s) (hst : Rely i s t) :
    Reported crypto calls sessions i r t := by
  intro complete hr
  obtain ⟨hdid, henrolled, hshown⟩ := hs complete hr
  have hdb := hst.db henrolled.isSome
  exact ⟨hdid.mono hst.history, by rwa [hdb], by rwa [hdb]⟩

variable (crypto calls sessions) in
/-- What a confirmation leaves when it gives the lock back: an enrolment that was
    started, or none, and what it may report. -/
def Leaves (i : ℕ) (r : Option (LocalPendingEnrollment δ) × Except AuthError EnrollmentComplete)
    (s : LocalState δ) : Prop :=
  s.state.pendingHolder = some i ∧ (∀ p, r.1 = some p → ∃ id, Started crypto calls id p) ∧
    Reported crypto calls sessions i r.2 s

omit [DecidableEq δ] in
theorem prepared_meets (crypto : LocalCrypto δ) (actor : List Char) (secureCookie : Bool)
    (now : ℤ) : (do
      let codes ← generateRecoveryCodes crypto
      let prepared ← prepareSession crypto actor .passwordTotp secureCookie now
      return (codes, prepared) : Fallible (Local δ) AuthError _).run.Meets IsQuiet Drawn
      (Result (Prepared crypto actor now) fun _ => True) := by
  refine meets_bind (Z := fun r => ∃ codes : List (List UInt8),
    codes.length = PamMfa.recoveryCodeCount ∧ (∀ code ∈ codes, code.length = 16) ∧
      r = (codes.map display, codes.map fun bytes => crypto.recoveryDigest (digits bytes))) ?_
    fun r hr => ?_
  · exact meets_bind (drawRecoveryCodes_meets _) fun codes hcodes =>
      ⟨codes, hcodes.1, hcodes.2, rfl⟩
  · obtain ⟨codes, hlength, hsize, rfl⟩ := hr
    refine meets_bind (Z := fun prepared => ∃ rawSession,
      prepared.row = newSession crypto rawSession actor .passwordTotp now) ?_ fun prepared h => ?_
    · exact meets_performs_bind (performs_randomBytes 32) (fun _ => trivial) fun random => ⟨_, rfl⟩
    · obtain ⟨rawSession, hrow⟩ := h
      exact ⟨codes, rawSession, hlength, hsize, rfl, hrow⟩

omit [DecidableEq δ] in
theorem shown_of_stored {codes : List (List UInt8)} {db : AuthDatabase δ}
    (hsize : ∀ code ∈ codes, code.length = 16)
    (hdb : db.recoveryCodes = codes.map fun code =>
      ⟨AdminAccount.id, crypto.recoveryDigest (digits code), now, none⟩) :
    Shown crypto (codes.map display) db := by
  intro code hcode
  obtain ⟨bytes, hbytes, rfl⟩ := List.mem_map.1 hcode
  refine ⟨digits bytes, normalizeRecoveryCode_display (hsize bytes hbytes), ?_⟩
  rw [hdb]
  exact ⟨_, List.mem_map_of_mem hbytes, rfl⟩

theorem exec_createInitialAdminAndSession (account : AdminAccount) (digests : List δ)
    (session : SessionRow δ) (now : ℤ) (x : LocalChoice) (w : AuthWorld δ) :
    (localHost δ).exec i (.createInitialAdminAndSession account digests session now) x w =
      AuthWorld.transact (·.createInitialAdminAndSession account digests session now) x w := by
  cases x with
  | done | failed | lost | drawn => rfl

section Confirm

variable (hcall : callOf calls i = some (.confirm enrollmentId totpCode secureCookie now))

include hcall

section Store

variable {id : List UInt8} (hstarted : Started crypto calls id pending)
  (hid : crypto.enrollmentDigest enrollmentId = pending.enrollmentDigest) (hnonneg : 0 ≤ now)
  (hnow : now < pending.expiresAt)
  (htotp : crypto.check pending.username pending.totpSecret totpCode now.toNat = true)

include hstarted hid hnonneg hnow htotp

theorem create_step {rawSession : List Char} {codes : List (List UInt8)}
    {created : Except Unit Bool} (hlength : codes.length = PamMfa.recoveryCodeCount)
    (hs : Inv crypto calls sessions s)
    (hx : ((localHost δ).machine i).exec
      (.createInitialAdminAndSession (pending.account now)
      (codes.map fun bytes => crypto.recoveryDigest (digits bytes))
      (newSession crypto rawSession pending.username .passwordTotp now) now) x s =
      some (created, t)) :
    (sharing i).guar s t ∧ Inv crypto calls sessions t ∧
      t.state = { s.state with db := t.state.db } ∧ (created = .ok true → t.Did Creates i ∧
        Enrolled crypto calls sessions i t.state.db ∧
        t.state.db.recoveryCodes = codes.map (fun code =>
          ⟨AdminAccount.id, crypto.recoveryDigest (digits code), now, none⟩)) := by
  obtain ⟨hexec, hhistory⟩ := machine_eq_some_iff.1 hx
  rw [exec_createInitialAdminAndSession] at hexec
  have hextends : s.history <+: t.history := ⟨_, hhistory.symm⟩
  -- Where the database stays as it is, the answer is not that the account was stored.
  have hsame : t.state = s.state → created ≠ .ok true →
      (sharing i).guar s t ∧ Inv crypto calls sessions t ∧
        t.state = { s.state with db := t.state.db } := by
    intro heq hnot
    have hcreates : ¬ Creates (.createInitialAdminAndSession (pending.account now)
        (codes.map fun bytes => crypto.recoveryDigest (digits bytes))
        (newSession crypto rawSession pending.username .passwordTotp now) now) created :=
      fun h => hnot (eq_of_creates h)
    refine ⟨⟨hextends, fun j _ hj => ?_, fun _ => by rw [heq]⟩,
      hs.same (by rw [heq]) hhistory hcreates (by rw [heq]; exact hs.pending), by rw [heq]⟩
    rw [heq]
    exact ⟨hj, rfl⟩
  rcases AuthWorld.of_transact hexec with ⟨rfl, heq⟩ | ⟨b, db, hrun, heq, hanswer⟩
  · obtain ⟨hg, ht, hstate⟩ := hsame heq fun h => by cases h
    exact ⟨hg, ht, hstate, fun h => by cases h⟩
  · rcases AuthDatabase.of_createInitialAdminAndSession hrun with
      ⟨rfl, rfl⟩ | ⟨rfl, hnone, haccount, hcodes, hsessions⟩
    · have hnot : created ≠ .ok true := by
        rcases hanswer with rfl | rfl <;> exact fun h => by cases h
      obtain ⟨hg, ht, hstate⟩ := hsame heq hnot
      exact ⟨hg, ht, hstate, fun h => absurd h hnot⟩
    · -- There was no account, so there were no codes, and nobody had stored one.
      obtain ⟨hempty, hsessions₀⟩ := hs.absent hnone
      rw [hempty, List.nil_append, List.map_map] at hcodes
      rw [hsessions₀, AuthDatabase.trimSessions_eq_self
        (by simpa using Nat.succ_le_of_lt hs.room)] at hsessions
      have hdb : t.state.db = db := by rw [heq]
      have hdid : ∀ j, t.Did Creates j → j = i := fun j hj =>
        (((did_append hhistory).1 hj).resolve_left (hs.not_did hnone j)).1
      have henrolled : Enrolled crypto calls sessions i t.state.db := by
        cases hstarted with
        | mk hstart husername hpassword hencrypt =>
          exact .mk hstart husername hpassword hencrypt hcall hid hnonneg hnow htotp hlength
            (by rw [hdb, haccount]; rfl) (by rw [hdb, hcodes]; rfl) (by rw [hdb]; exact hsessions)
      refine ⟨⟨hextends, fun j _ hj => by rw [heq]; exact ⟨hj, rfl⟩, fun h => ?_⟩,
        ⟨by rw [heq]; exact hs.pending, fun h => ?_, fun _ => ⟨i, henrolled⟩,
          fun _ _ => henrolled.isSome, fun j k hj hk => (hdid j hj).trans (hdid k hk).symm,
          hs.room⟩,
        by rw [heq], fun h => ?_⟩
      · rw [hnone] at h
        cases h
      · have hsome := henrolled.isSome
        rw [h] at hsome
        cases hsome
      · subst h
        exact ⟨(did_append hhistory).2 (.inr ⟨rfl, trivial⟩), henrolled,
          by rw [hdb, hcodes]; rfl⟩

theorem storeEnrollment_safe (hs : Confirming i pending s) :
    (storeEnrollment crypto pending secureCookie now).Safe (setting crypto calls sessions allow i)
      (sharing i) (Leaves crypto calls sessions i) s := by
  refine (quiet_safe (prepared_meets crypto pending.username secureCookie now) keeps_confirming
    hs).bind_rely fun r t ht hr => ?_
  have hleft : ∀ p, some pending = some p → ∃ id, Started crypto calls id p :=
    fun p hp => ⟨id, Option.some.inj hp ▸ hstarted⟩
  cases r with
  | error e =>
    exact .ret fun u htu hu => ⟨(hr u htu hu).2.1, hleft, fun _ h => by cases h⟩
  | ok prepared =>
    obtain ⟨codes, rawSession, hlength, hsize, hcodes, hrow⟩ :=
      (hr t ((sharing i).rely_refl t) ht).1
    obtain ⟨⟨recoveryCodes, recoveryDigests⟩, ⟨issued, row⟩⟩ := prepared
    cases hcodes
    cases hrow
    refine .call fun u htu hu x created v _ hx => ?_
    obtain ⟨hg, hv, hstate, hcreated⟩ :=
      create_step hcall hstarted hid hnonneg hnow htotp hlength hu hx
    have hholder : v.state.pendingHolder = some i := by
      rw [hstate]
      exact (hr u htu hu).2.1
    refine ⟨hg, hv, ?_⟩
    cases created with
    | error e =>
      exact .ret fun w hw _ => ⟨(hw.pending hholder).1, hleft, fun _ h => by cases h⟩
    | ok created =>
      cases created with
      | false =>
        exact .ret fun w hw _ =>
          ⟨(hw.pending hholder).1, fun _ h => (by cases h), fun _ h => by cases h⟩
      | true =>
        obtain ⟨hdid, henrolled, hstored⟩ := hcreated rfl
        have hreported : Reported crypto calls sessions i
            (.ok ⟨codes.map display, issued⟩) v := by
          rintro _ ⟨⟩
          exact ⟨hdid, henrolled, shown_of_stored hsize hstored⟩
        exact .ret fun w hw _ =>
          ⟨(hw.pending hholder).1, fun _ h => (by cases h), hreported.rely hw⟩

end Store

theorem confirmPending_safe (hslot : ∀ p, slot = some p → ∃ id, Started crypto calls id p)
    (hs : s.state.pendingHolder = some i ∧ s.state.pending = slot) :
    (confirmPending crypto slot enrollmentId totpCode secureCookie now).Safe
      (setting crypto calls sessions allow i) (sharing i) (Leaves crypto calls sessions i) s := by
  have hrefused : ∀ (slot' : Option (LocalPendingEnrollment δ)) (e : AuthError),
      (∀ p, slot' = some p → slot = some p) →
      (Prog.ret (slot', .error e) : Prog (Local δ) _).Safe (setting crypto calls sessions allow i)
        (sharing i) (Leaves crypto calls sessions i) s :=
    fun slot' e h => .ret fun t hst _ =>
      ⟨(hst.pending hs.1).1, fun p hp => hslot p (h p hp), fun _ h => by cases h⟩
  cases slot with
  | none => exact hrefused none _ fun _ h => h
  | some pending =>
    obtain ⟨id, hstarted⟩ := hslot pending rfl
    rw [confirmPending]
    split
    · refine hrefused _ _ fun p hp => ?_
      split at hp
      · cases hp
      · exact hp
    · next hvalid =>
      rw [not_or, Int.not_le, not_not] at hvalid
      split
      · exact hrefused _ _ fun _ h => h
      · next hnonneg =>
        split
        · exact hrefused _ _ fun _ h => h
        · split
          · exact hrefused _ _ fun _ h => h
          · next htotp =>
            exact storeEnrollment_safe hcall hstarted hvalid.2 (Int.not_lt.1 hnonneg) hvalid.1
              (Bool.not_eq_false _ ▸ htotp) hs

theorem confirmEnrollment_safe :
    (confirmEnrollment crypto enrollmentId totpCode secureCookie now).Safe
      (setting crypto calls sessions allow i) (sharing i) (Reported crypto calls sessions i) s := by
  rw [confirmEnrollment]
  split
  · refine .call fun t hst ht x slot u _ hx => ?_
    obtain ⟨hexec, hhistory⟩ := machine_eq_some_iff.1 hx
    obtain ⟨hfree, rfl, hstate⟩ := exec_lockPending hexec
    obtain ⟨hg, hu⟩ := lock_step ht (.inl hfree) hstate ht.pending hhistory id
    refine ⟨hg, hu, ?_⟩
    refine (confirmPending_safe hcall ht.pending (by rw [hstate]; exact ⟨rfl, rfl⟩)).bind_rely
      fun r v _ hr => ?_
    refine .call fun v' hvv' hv' x a w _ hx => ?_
    obtain ⟨hholder, hslot, hreported⟩ := hr v' hvv' hv'
    obtain ⟨hexec, hhistory⟩ := machine_eq_some_iff.1 hx
    obtain ⟨hg, hw⟩ := lock_step hv' (.inr hholder) (exec_unlockPending hexec) hslot hhistory id
    refine ⟨hg, hw, .ret fun w' hww' _ => ?_⟩
    have hsame : w.state.db = v'.state.db := by rw [exec_unlockPending hexec]
    refine Reported.rely (fun complete hr => ?_) hww'
    obtain ⟨hdid, henrolled, hshown⟩ := hreported complete hr
    exact ⟨hdid.mono hg.history, by rwa [hsame], by rwa [hsame]⟩
  · exact .ret fun _ _ _ _ h => by cases h

end Confirm

/-! ## Whole runs -/

variable (crypto calls sessions) in
def Replied (i : ℕ) : LocalReply → LocalState δ → Prop
  | .confirmed result => Reported crypto calls sessions i result
  | _ => fun _ => True

theorem enrollment_safe {dummyHash : List Char} {call : LocalCall}
    (hcall : callOf calls i = some call) (henrollment : call.isEnrollment) :
    (call.prog crypto dummyHash).Safe (setting crypto calls sessions allow i) (sharing i)
      (Replied crypto calls sessions i) s := by
  cases call with
  | start username password now =>
    exact .map ((startEnrollment_safe hcall).weaken fun _ _ _ _ => trivial)
  | confirm enrollmentId totpCode secureCookie now =>
    exact .map ((confirmEnrollment_safe hcall).weaken fun _ _ _ h => h)
  | login username password secondFactor secureCookie now => cases henrollment

end

variable (crypto calls sessions) in
/-- What the calls of an enrolment keep. -/
def contract : Contract (localHost δ) (fun _ _ _ _ => True) LocalReply where
  inv := Inv crypto calls sessions
  sharing := sharing
  post := Replied crypto calls sessions
  compatible _ j _ _ hij _ _ hg := ⟨hg.history, hg.pending j hij, hg.db⟩
  post_rely i reply s t _ _ hst h := by
    cases reply with
    | confirmed result => exact Reported.rely h hst
    | started result => trivial
    | loggedIn result => trivial
  inv_crash _ hs := ⟨fun _ h => (by cases h), hs.absent, hs.enrolled, hs.created, hs.unique, hs.room⟩
  post_crash i reply _ _ h := by
    cases reply with
    | confirmed result => exact h
    | started result => trivial
    | loggedIn result => trivial

/-- **Enrolment.** However the calls of the enrolment are interleaved, whatever fails and
    wherever the control plane crashes, one confirmation at most reports success. Without
    an account there are no recovery codes and there is no new session; with one, it was
    stored by one confirmation of an enrolment together with the codes and the session, if
    there was room for a session.
    If a confirmation reports success, it is that one, and the codes it shows are stored. -/
theorem enrolledOnce {crypto : LocalCrypto δ} {dummyHash : List Char} {db : AuthDatabase δ}
    {calls : List (ℕ × LocalCall)} {q : Calls (Local δ) (AuthWorld δ) LocalReply}
    (haccount : db.account = none) (hcodes : db.recoveryCodes = [])
    (hroom : db.sessions.length < 128) (hcalls : ∀ call ∈ calls, call.2.isEnrollment)
    (hq : Reaches (localHost δ) (fun _ _ _ _ => True)
      (localCalls crypto dummyHash db calls) q) :
    (∀ i j a b, q.Returned i (.confirmed (.ok a)) → q.Returned j (.confirmed (.ok b)) → i = j) ∧
      (q.now.state.db.account = none →
        q.now.state.db.recoveryCodes = [] ∧ q.now.state.db.sessions = db.sessions) ∧
      (q.now.state.db.account.isSome → ∃ i, Enrolled crypto calls db.sessions i q.now.state.db) ∧
      ∀ i a, q.Returned i (.confirmed (.ok a)) →
        Enrolled crypto calls db.sessions i q.now.state.db ∧
          Shown crypto a.recoveryCodes q.now.state.db := by
  have hstart : Kept (contract crypto calls db.sessions)
      (localCalls crypto dummyHash db calls) := by
    refine Kept.start ⟨fun _ h => (by cases h), fun _ => ⟨hcodes, rfl⟩, fun h => ?_,
      fun _ h => absurd h not_did_nil, fun _ _ h => absurd h not_did_nil, hroom⟩
      idle_nil fun i n prog hi s _ _ => ?_
    · change db.account.isSome = true at h
      rw [haccount] at h
      cases h
    · obtain ⟨⟨life, call⟩, hcall, heq⟩ :=
        List.getElem?_map.symm.trans hi |> Option.map_eq_some_iff.1
      cases heq
      have hcallOf : callOf calls i = some call := by rw [callOf, hcall]; rfl
      have hsafe : (call.prog crypto dummyHash).Safe
          (setting crypto calls db.sessions (fun _ _ _ _ => True) i) (sharing i)
          (Replied crypto calls db.sessions i) s :=
        enrollment_safe hcallOf (hcalls _ (List.mem_of_getElem? hcall))
      exact hsafe
  have hkept := hq.safe hstart
  have hinv : Inv crypto calls db.sessions q.now := hkept.inv
  have hconfirmed : ∀ i a, q.Returned i (.confirmed (.ok a)) →
      q.now.Did Creates i ∧ Enrolled crypto calls db.sessions i q.now.state.db ∧
        Shown crypto a.recoveryCodes q.now.state.db := fun i a hi => hkept.post hi a rfl
  exact ⟨fun i j a b hi hj => hinv.unique i j (hconfirmed i a hi).1 (hconfirmed j b hj).1,
    hinv.absent, hinv.enrolled, fun i a hi => (hconfirmed i a hi).2⟩

/-- Digests and ciphers that leave everything as it is. -/
def plainCrypto : LocalCrypto (List Char) where
  enrollmentDigest := id
  recoveryDigest := id
  sessionDigest := id
  csrfToken := id
  csrfDigest := id
  token := digits
  hashPassword password _ := password
  verifyPassword hash password := hash == password
  encrypt _ _ secret _ _ := some secret
  decrypt _ account := .ok account.totpCiphertext
  secretBase32 := digits
  buildTotp _ _ := true
  check _ _ _ _ := true
  url _ _ := []

/-- Nobody is enrolled. -/
def emptyDatabase : AuthDatabase (List Char) where
  account := none
  recoveryCodes := []
  sessions := []
  recoveryCodes_nodup := List.nodup_nil
  sessions_nodup := List.nodup_nil

/-- Nothing fails, and random bytes are the number of the operation. -/
def succeed (_ : ℕ) : LocalOp δ → LocalState δ → LocalChoice
  | .random n, s => .drawn (List.replicate n (UInt8.ofNat s.history.length))
  | _, _ => .done

/-- An enrolment that is confirmed twice. -/
def confirmTwice : List (ℕ × LocalCall) :=
  [(0, .start "operator".toList "correct horse".toList 0),
    (0, .confirm (digits (List.replicate 32 5)) "000000".toList true 0),
    (0, .confirm (digits (List.replicate 32 5)) "000000".toList true 0)]

/-- The call reports that it enrolled the administrator. -/
def confirms (q : Calls (Local δ) (AuthWorld δ) LocalReply) (i : ℕ) : Bool :=
  match q.value? i with
  | some (.confirmed (.ok _)) => true
  | _ => false

/-- The first confirmation succeeds and enrols the operator, and the other one does not. -/
theorem enrolledOnce_confirmTwice : ∃ q a,
    Reaches (localHost (List Char)) (fun _ _ _ _ => True)
      (localCalls plainCrypto [] emptyDatabase confirmTwice) q ∧
      q.Returned 1 (.confirmed (.ok a)) ∧ ¬ (∃ b, q.Returned 2 (.confirmed (.ok b))) ∧
      q.now.state.db.account.any (·.username = "operator".toList) ∧
      q.now.state.db.sessions.any (·.actor = "operator".toList) ∧
      Enrolled plainCrypto confirmTwice [] 1 q.now.state.db ∧
      Shown plainCrypto a.recoveryCodes q.now.state.db := by
  obtain ⟨q, hq, hR⟩ := exists_reaches_of_run (localHost (List Char)) (fun _ _ _ _ => True)
    (localCalls plainCrypto [] emptyDatabase confirmTwice) succeed
    ((List.replicate 8 0 ++ List.replicate 14 1 ++ List.replicate 2 2).map some)
    (R := fun q => confirms q 1 && q.now.state.db.account.any (·.username = "operator".toList) &&
      q.now.state.db.sessions.any (·.actor = "operator".toList)) (by decide +kernel)
  obtain ⟨hunique, -, -, hok⟩ := enrolledOnce rfl rfl (by decide) (by decide) hq
  rw [Bool.and_eq_true, Bool.and_eq_true, confirms] at hR
  obtain ⟨⟨hconfirms, hname⟩, hactor⟩ := hR
  split at hconfirms
  · next a hvalue =>
    have h1 := Calls.returned_of_value? hvalue
    refine ⟨q, a, hq, h1, fun ⟨b, h2⟩ => ?_, hname, hactor, hok 1 a h1⟩
    cases hunique 1 2 a b h1 h2
  · cases hconfirms

end SessionStore

end VpsGuard
