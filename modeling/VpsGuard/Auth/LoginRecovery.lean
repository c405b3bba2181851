import VpsGuard.Auth.SessionStore

/-!
# Recovery codes of the local administrator

Administrators log in side by side, with one-time passwords or recovery codes; any
database call may fail, before or after its effect, and the control plane may crash.
A code is used up by the transaction that stores the session, so it is good for one
login (`Login.singleUse`):

* one call at most is accepted with it;
* a call with the right password that presents it, and whose own operations succeed,
  is accepted, unless another call has tried to use it; and it does return;
* a step of a call changes the stored codes only by using up the code that the call
  presents.

A code is available as long as no call that presents it has tried to use it
(`Login.Stored`).
-/

namespace VpsGuard

open Effect Effect.Host Effect.Recorded Fallible List AdminAccount AuthDatabase

namespace LocalCall

def isLogin : LocalCall → Bool
  | login _ _ _ _ _ => true
  | _ => false

end LocalCall

namespace AuthDatabase

variable {δ : Type}

/-- There is a code with the digest that has not been used. -/
def Available (digest : δ) (db : AuthDatabase δ) : Prop :=
  ∃ row ∈ db.recoveryCodes, RecoveryRow.Unused id digest row

variable {digest : δ} {db db' : AuthDatabase δ} {now : ℤ}

theorem Available.congr (h : db'.recoveryCodes = db.recoveryCodes) :
    Available digest db' ↔ Available digest db := by
  rw [Available, h]
  rfl

variable [DecidableEq δ]

theorem countP_unused (digest : δ) (db : AuthDatabase δ) :
    db.recoveryCodes.countP (RecoveryRow.Unused AdminAccount.id digest ·) = 1 ↔
      Available digest db := by
  have hcount : db.recoveryCodes.countP (RecoveryRow.Unused AdminAccount.id digest ·) ≤
      (db.recoveryCodes.map RecoveryRow.key).count (AdminAccount.id, digest) := by
    rw [List.count, countP_map]
    refine countP_mono_left fun row _ h => ?_
    obtain ⟨hid, hdigest, -⟩ := of_decide_eq_true h
    simp [RecoveryRow.key, hid, hdigest]
  have hone := hcount.trans (nodup_iff_count_le_one.1 db.recoveryCodes_nodup _)
  have hpos : 0 < db.recoveryCodes.countP (RecoveryRow.Unused AdminAccount.id digest ·) ↔
      Available digest db := by
    simp [countP_pos_iff, Available]
  rw [← hpos]
  omega

theorem not_available_use
    (h : db'.recoveryCodes = db.recoveryCodes.map (RecoveryRow.use id digest now)) :
    ¬ Available digest db' := by
  rintro ⟨row, hmem, hrow⟩
  rw [h] at hmem
  obtain ⟨row', -, rfl⟩ := mem_map.1 hmem
  rw [RecoveryRow.use] at hrow
  split at hrow
  · cases hrow.2.2
  · next hunused => exact hunused hrow

theorem available_use_ne {digest' : δ} (hne : digest ≠ digest')
    (h : db'.recoveryCodes = db.recoveryCodes.map (RecoveryRow.use id digest' now)) :
    Available digest db' ↔ Available digest db := by
  have hrow : ∀ row : RecoveryRow δ, RecoveryRow.Unused id digest
      (row.use id digest' now) ↔ RecoveryRow.Unused id digest row := by
    intro row
    rw [RecoveryRow.use]
    split
    · next hunused =>
      exact iff_of_false (fun h => by cases h.2.2) fun h => hne (h.2.1.symm.trans hunused.2.1)
    · exact Iff.rfl
  rw [Available, h]
  constructor
  · rintro ⟨_, hmem, hunused⟩
    obtain ⟨row, hrow', rfl⟩ := mem_map.1 hmem
    exact ⟨row, hrow', (hrow row).1 hunused⟩
  · rintro ⟨row, hmem, hunused⟩
    exact ⟨_, mem_map_of_mem hmem, (hrow row).2 hunused⟩

variable {session : SessionRow δ}

theorem of_consumeRecoveryCodeAndInsertSession {consumed : Bool}
    (h : db.consumeRecoveryCodeAndInsertSession id digest session now = some (consumed, db')) :
    (consumed = false ∧ db' = db ∧ ¬ Available digest db) ∨ (consumed = true ∧ Available digest db ∧
        db'.account = db.account ∧ db'.recoveryCodes = db.recoveryCodes.map
        (RecoveryRow.use id digest now)) := by
  rw [consumeRecoveryCodeAndInsertSession] at h
  split at h
  · next hcount =>
    split at h
    · cases h
    · next sessions hsessions =>
      obtain ⟨rfl, rfl⟩ := Prod.mk.inj (Option.some.inj h)
      exact .inr ⟨rfl, (countP_unused digest db).1 hcount, rfl, rfl⟩
  · next hcount =>
    cases h
    exact .inl ⟨rfl, rfl, fun h => hcount ((countP_unused digest db).2 h)⟩

theorem exists_consumeRecoveryCodeAndInsertSession (session : SessionRow δ) (now : ℤ)
    (h : Available digest db)
    (hsession : session.sessionDigest ∉ db.sessions.map SessionRow.sessionDigest) :
    ∃ db', db.consumeRecoveryCodeAndInsertSession id digest session now =
      some (true, db') := by
  have hnew : session.sessionDigest ∉ (db.sessions.filter (session.issuedAt < ·.expiresAt)).map
      SessionRow.sessionDigest := fun hmem =>
    hsession ((filter_sublist.map _).subset hmem)
  rw [consumeRecoveryCodeAndInsertSession, if_pos ((countP_unused digest db).2 h)]
  split
  · next hnone =>
    rw [insertSessionRow, if_neg hnew] at hnone
    cases hnone
  · exact ⟨_, rfl⟩

theorem of_insertSession {u : Unit} (h : db.insertSession session = some (u, db')) :
    db'.account = db.account ∧ db'.recoveryCodes = db.recoveryCodes := by
  rw [insertSession] at h
  split at h
  · cases h
  · obtain ⟨-, rfl⟩ := Prod.mk.inj (Option.some.inj h)
    exact ⟨rfl, rfl⟩

end AuthDatabase

namespace SessionStore.Login

variable {δ : Type} [DecidableEq δ] {crypto : LocalCrypto δ} {account : AdminAccount}
  {code : List Char} {calls : List (ℕ × LocalCall)} {i : ℕ}
  {s t : LocalState δ}

/-! ## What is stored -/

/-- The call is a login with the code, in one of its spellings. -/
def Presents (calls : List (ℕ × LocalCall)) (code : List Char) (i : ℕ) : Prop :=
  ∃ username password text secureCookie now, callOf calls i =
    some (.login username password (.recoveryCode text) secureCookie now) ∧
      normalizeRecoveryCode text = some code

theorem Presents.eq {code' : List Char} (h : Presents calls code i) (h' : Presents calls code' i) :
    code = code' := by
  obtain ⟨username, password, text, secureCookie, now, hcall, hcode⟩ := h
  obtain ⟨username', password', text', secureCookie', now', hcall', hcode'⟩ := h'
  cases hcall.symm.trans hcall'
  exact Option.some.inj (hcode.symm.trans hcode')

/-- The operation is to use up the code with the digest. -/
def Tries (digest : δ) : (o : LocalOp δ) → o.Ans → Prop
  | .consumeRecoveryCodeAndInsertSession _ digest' _ _, _ => digest' = digest
  | _, _ => False

/-- The operation is answered that the code with the digest was used up. -/
def Takes (digest : δ) : (o : LocalOp δ) → o.Ans → Prop
  | .consumeRecoveryCodeAndInsertSession _ digest' _ _, .ok true => digest' = digest
  | _, _ => False

variable (crypto account code calls) in
/-- The code is available as long as no call that presents it has tried to use it. -/
structure Stored (s : LocalState δ) : Prop where
  account : s.state.db.account = some account
  available : s.state.db.Available (crypto.recoveryDigest code) ∨
    ∃ j, Presents calls code j ∧ s.Did (Tries (crypto.recoveryDigest code)) j
  taken : ∀ j, s.Did (Takes (crypto.recoveryDigest code)) j →
    ¬ s.state.db.Available (crypto.recoveryDigest code)
  unique : ∀ i j, s.Did (Takes (crypto.recoveryDigest code)) i →
    s.Did (Takes (crypto.recoveryDigest code)) j → i = j

variable (crypto calls) in
/-- What a step of the call `i` does to the codes. -/
inductive Change (i : ℕ) (db db' : AuthDatabase δ) : (o : LocalOp δ) → o.Ans → Prop
  | nothing {o : LocalOp δ} {a : o.Ans} : db'.recoveryCodes = db.recoveryCodes →
      (∀ digest, ¬ Takes digest o a) → Change i db db' o a
  /-- The code that the call presents is used up. -/
  | used {code : List Char} {session : SessionRow δ} {now : ℤ} {a : Except Unit Bool} :
      Presents calls code i → db.Available (crypto.recoveryDigest code) →
      db'.recoveryCodes = db.recoveryCodes.map
        (RecoveryRow.use id (crypto.recoveryDigest code) now) →
      Change i db db' (.consumeRecoveryCodeAndInsertSession id
        (crypto.recoveryDigest code) session now) a

variable (crypto calls) in
/-- What a login guarantees: the account stays, and the tables change as for its operation. -/
structure Guarantee (i : ℕ) (s t : LocalState δ) : Prop where
  account : t.state.db.account = s.state.db.account
  step : ∃ o a, t.history = s.history ++ [⟨i, o, a⟩] ∧ Change crypto calls i s.state.db t.state.db o a

/-- What a login relies on: nobody else tries in its name. -/
structure Rely (i : ℕ) (s t : LocalState δ) : Prop where
  history : s.history <+: t.history
  tries : ∀ digest, t.Did (Tries digest) i → s.Did (Tries digest) i

variable (crypto calls) in
def sharing (i : ℕ) : Sharing (LocalState δ) where
  rely := Rely i
  guar := Guarantee crypto calls i
  rely_refl _ := ⟨prefix_rfl, fun _ => id⟩
  rely_trans hst htu :=
    ⟨hst.history.trans htu.history, fun digest h => hst.tries digest (htu.tries digest h)⟩

omit [DecidableEq δ] in
theorem tries_of_takes {digest : δ} {o : LocalOp δ} {a : o.Ans} (h : Takes digest o a) :
    Tries digest o a := by
  cases o with
  | consumeRecoveryCodeAndInsertSession accountId digest' session now =>
    match a, h with
    | .ok true, h => exact h
  | _ => exact h.elim

theorem Guarantee.rely {j : ℕ} (h : Guarantee crypto calls i s t) (hij : i ≠ j) : Rely j s t := by
  obtain ⟨o, a, hhistory, -⟩ := h.step
  refine ⟨⟨_, hhistory.symm⟩, fun digest hj => ?_⟩
  exact ((did_append hhistory).1 hj).resolve_right fun h => hij h.1.symm

theorem Stored.step (hinj : Function.Injective crypto.recoveryDigest)
    (hs : Stored crypto account code calls s) (hg : Guarantee crypto calls i s t) :
    Stored crypto account code calls t := by
  obtain ⟨o, a, hhistory, hchange⟩ := hg.step
  have hprefix : s.history <+: t.history := ⟨_, hhistory.symm⟩
  have htried : s.state.db.Available (crypto.recoveryDigest code) ∨
      ∃ j, Presents calls code j ∧ t.Did (Tries (crypto.recoveryDigest code)) j :=
    hs.available.imp_right fun ⟨j, hj, hdid⟩ => ⟨j, hj, hdid.mono hprefix⟩
  -- Where the code is left alone, nobody took it.
  have hsame : (t.state.db.Available (crypto.recoveryDigest code) ↔
      s.state.db.Available (crypto.recoveryDigest code)) → ¬ Takes (crypto.recoveryDigest code) o a →
      Stored crypto account code calls t := by
    intro hiff hnot
    have htaken : ∀ j, t.Did (Takes (crypto.recoveryDigest code)) j →
        s.Did (Takes (crypto.recoveryDigest code)) j := fun j hj =>
      ((did_append hhistory).1 hj).resolve_right fun h => hnot h.2
    exact ⟨hg.account.trans hs.account, htried.imp_left hiff.2,
      fun j hj => fun h => hs.taken j (htaken j hj) (hiff.1 h),
      fun j k hj hk => hs.unique j k (htaken j hj) (htaken k hk)⟩
  cases hchange with
  | nothing hrows hnot => exact hsame (AuthDatabase.Available.congr hrows) (hnot _)
  | @used code' session now a hi havailable hrows =>
    by_cases heq : code' = code
    · -- The code is used up by the first who does.
      subst heq
      have hnobody : ∀ j, ¬ s.Did (Takes (crypto.recoveryDigest code')) j :=
        fun j hj => hs.taken j hj havailable
      have hwho : ∀ j, t.Did (Takes (crypto.recoveryDigest code')) j → j = i := fun j hj =>
        (((did_append hhistory).1 hj).resolve_left (hnobody j)).1
      exact ⟨hg.account.trans hs.account,
        .inr ⟨i, hi, (did_append hhistory).2 (.inr ⟨rfl, rfl⟩)⟩,
        fun _ _ => not_available_use hrows,
        fun j k hj hk => (hwho j hj).trans (hwho k hk).symm⟩
    · have hne : crypto.recoveryDigest code ≠ crypto.recoveryDigest code' :=
        fun h => heq (hinj h).symm
      refine hsame (available_use_ne hne hrows) fun h => hne ?_
      exact (tries_of_takes h : crypto.recoveryDigest code' = crypto.recoveryDigest code).symm

/-! ## The calls -/

/-- The operations that leave the codes alone. -/
def IsQuiet : LocalOp δ → Prop
  | .random _ | .account _ | .insertSession _ => True
  | _ => False

section

variable (crypto account code calls)
  (allow : ℕ → LocalOp δ → LocalChoice → LocalState δ → Prop)

/-- What the call `i` runs in. -/
def setting (i : ℕ) : Setting (Local δ) (LocalState δ) LocalChoice where
  toMachine := (localHost δ).machine i
  allow := allow i
  inv := Stored crypto account code calls

variable {crypto account code calls allow}

theorem exec_consumeRecoveryCodeAndInsertSession (accountId : ℕ) (digest : δ)
    (session : SessionRow δ) (now : ℤ) (x : LocalChoice) (w : AuthWorld δ) :
    (localHost δ).exec i (.consumeRecoveryCodeAndInsertSession accountId digest session now) x w =
      AuthWorld.transact (·.consumeRecoveryCodeAndInsertSession accountId digest session now) x
      w := by
  cases x with
  | done | failed | lost | drawn => rfl

variable {x : LocalChoice} {now : ℤ} {o : LocalOp δ} {w w' : AuthWorld δ}

theorem exec_quiet {a : o.Ans} (ho : IsQuiet o) (h : AuthWorld.exec i o x w = some (a, w')) :
    w'.db.account = w.db.account ∧ w'.db.recoveryCodes = w.db.recoveryCodes := by
  cases o with
  | random n =>
    cases x <;> simp [AuthWorld.exec] at h
    · rw [← h.2]
      exact ⟨rfl, rfl⟩
    · rw [← h.2.2]
      exact ⟨rfl, rfl⟩
  | account username =>
    have hexec : AuthWorld.transact (fun db => some (db.accountOf username, db)) x w =
        some (a, w') := by
      cases x with
      | done | failed | lost | drawn => exact h
    rcases AuthWorld.of_transact hexec with ⟨-, rfl⟩ | ⟨b, db, hrun, rfl, -⟩
    · exact ⟨rfl, rfl⟩
    · cases hrun
      exact ⟨rfl, rfl⟩
  | insertSession session =>
    have hexec : AuthWorld.transact (·.insertSession session) x w = some (a, w') := by
      cases x with
      | done | failed | lost | drawn => exact h
    rcases AuthWorld.of_transact hexec with ⟨-, rfl⟩ | ⟨b, db, hrun, rfl, -⟩
    · exact ⟨rfl, rfl⟩
    · exact of_insertSession hrun
  | _ => exact ho.elim

omit [DecidableEq δ] in
theorem not_tries_of_isQuiet (ho : IsQuiet o) (digest : δ) (a : o.Ans) : ¬ Tries digest o a := by
  cases o with
  | consumeRecoveryCodeAndInsertSession => exact ho.elim
  | _ => exact id

variable (hinj : Function.Injective crypto.recoveryDigest)

include hinj in
theorem quiet (i : ℕ) :
    (setting crypto account code calls allow i).Aside (sharing crypto calls i) IsQuiet := by
  intro o x s a t ho hs _ hx
  obtain ⟨hexec, hhistory⟩ := machine_eq_some_iff.1 hx
  obtain ⟨haccount, hrows⟩ := exec_quiet ho hexec
  have hg : Guarantee crypto calls i s t := ⟨haccount, o, a, hhistory, .nothing hrows fun digest h =>
    not_tries_of_isQuiet ho digest a (tries_of_takes h)⟩
  refine ⟨⟨⟨_, hhistory.symm⟩, fun digest h => ?_⟩, hg, hs.step hinj hg⟩
  exact ((did_append hhistory).1 h).resolve_right fun h =>
    not_tries_of_isQuiet ho digest a h.2

omit [DecidableEq δ] in
theorem performs_prepareSession (actor : List Char) (method : AuthenticationMethod)
    (secureCookie : Bool) (now : ℤ) :
    (prepareSession crypto actor method secureCookie now).run.Performs IsQuiet :=
  performs_bind (performs_request trivial) fun _ => trivial

omit [DecidableEq δ] in
theorem performs_loginTotp (found : AdminAccount) (password totpCode : List Char)
    (secureCookie : Bool) (now : ℤ) :
    (loginTotp crypto found password totpCode secureCookie now).run.Performs IsQuiet := by
  refine performs_bind trivial fun _ => performs_bind trivial fun _ => performs_bind trivial fun _ =>
    performs_bind trivial fun _ => performs_bind trivial fun _ => ?_
  exact performs_bind (performs_prepareSession _ _ _ _) fun _ =>
    performs_bind (performs_request trivial) fun _ => trivial

variable (crypto code calls) in
/-- What a login may report: if it presents the code, it has taken it. -/
def Reported (i : ℕ) (r : Except AuthError IssuedSession)
    (s : LocalState δ) : Prop :=
  ∀ issued, r = .ok issued → Presents calls code i →
    s.Did (Takes (crypto.recoveryDigest code)) i

variable {session : SessionRow δ}

theorem consume_step {code' : List Char} {consumed : Except Unit Bool} (hi : Presents calls code' i)
    (hx : ((localHost δ).machine i).exec
      (.consumeRecoveryCodeAndInsertSession id (crypto.recoveryDigest code') session now) x s = some
      (consumed, t)) : Guarantee crypto calls i s t := by
  obtain ⟨hexec, hhistory⟩ := machine_eq_some_iff.1 hx
  rw [exec_consumeRecoveryCodeAndInsertSession] at hexec
  rcases AuthWorld.of_transact hexec with ⟨rfl, heq⟩ | ⟨b, db, hrun, heq, hanswer⟩
  · exact ⟨by rw [heq], _, _, hhistory, .nothing (by rw [heq]) fun _ => id⟩
  · rcases of_consumeRecoveryCodeAndInsertSession hrun with
      ⟨rfl, rfl, -⟩ | ⟨rfl, havailable, haccount, hrows⟩
    · refine ⟨by rw [heq], _, _, hhistory, .nothing (by rw [heq]) fun _ => ?_⟩
      rcases hanswer with rfl | rfl
      · exact id
      · exact id
    · exact ⟨by rw [heq]; exact haccount, _, _, hhistory,
        .used hi havailable (by rw [heq]; exact hrows)⟩

theorem not_available_of_consume {digest : δ} (hexec : (localHost δ).exec i
      (.consumeRecoveryCodeAndInsertSession id digest session now) x w = some (.ok false, w')) :
    ¬ w.db.Available digest := by
  rw [exec_consumeRecoveryCodeAndInsertSession] at hexec
  rcases AuthWorld.of_transact hexec with ⟨h, -⟩ | ⟨b, db, hrun, -, hanswer⟩
  · cases h
  · rcases of_consumeRecoveryCodeAndInsertSession hrun with
      ⟨-, -, hnot⟩ | ⟨rfl, -⟩
    · exact hnot
    · rcases hanswer with h | h <;> cases h

include hinj

variable {username password : List Char} {secureCookie : Bool}

theorem loginRecovery_safe {found : AdminAccount} {text : List Char}
    (hcall : callOf calls i = some
      (.login username password (.recoveryCode text) secureCookie now)) :
    (loginRecovery crypto found text secureCookie now).run.Safe
      (setting crypto account code calls allow i) (sharing crypto calls i)
      (Reported crypto code calls i) s := by
  refine .ofOption (fun _ _ _ _ h => by cases h) fun code' hcode' => ?_
  have hi : Presents calls code' i :=
    ⟨username, password, text, secureCookie, now, hcall, hcode'⟩
  refine .attempt_keeping (.of_aside (quiet hinj i) Sharing.keeps_true
    ((performs_prepareSession _ _ _ _).meets (Prog.yields_true _)) trivial)
    (fun _ _ _ _ h => by cases h) fun prepared t _ _ => ?_
  refine .request fun u _ hu x consumed v _ hx => ?_
  have hg := consume_step hi hx
  refine ⟨hg, hu.step hinj hg, fun b hb => ?_, fun _ _ _ _ _ _ h => by cases h⟩
  refine .ensure (fun _ _ _ _ h => by cases h) fun hconsumed => ?_
  refine .ret fun w hw _ issued _ hpresents => ?_
  cases hi.eq hpresents
  cases consumed with
  | error e => cases hb
  | ok consumed =>
    cases hb
    subst hconsumed
    have hdid : v.Did (Takes (crypto.recoveryDigest code)) i :=
      (did_append (machine_eq_some_iff.1 hx).2).2 (.inr ⟨rfl, rfl⟩)
    exact hdid.mono hw.history

theorem login_safe {dummyHash : List Char} {secondFactor : LoginSecondFactor}
    (hcall : callOf calls i = some (.login username password secondFactor secureCookie now)) :
    (login crypto dummyHash username password secondFactor secureCookie now).run.Safe
      (setting crypto account code calls allow i) (sharing crypto calls i)
      (Reported crypto code calls i) s := by
  refine .attempt_keeping (.of_aside (quiet hinj i) Sharing.keeps_true
    ((performs_request trivial).meets (Prog.yields_true _)) trivial)
    (fun _ _ _ _ h => by cases h) fun found t _ _ => ?_
  refine .ofOption (fun _ _ _ _ h => by cases h) fun found' _ => ?_
  cases secondFactor with
  | totp totpCode =>
    refine (Prog.Safe.of_aside (quiet hinj i) Sharing.keeps_true
      ((performs_loginTotp _ _ _ _ _).meets (Prog.yields_true _)) trivial).weaken ?_
    rintro _ _ _ _ _ _ ⟨_, _, _, _, _, hcall', _⟩
    cases hcall.symm.trans hcall'
  | recoveryCode text => exact loginRecovery_safe hinj hcall

end

/-! ## Calls that succeed -/

/-- Another call that presents the code has tried to use it. -/
def Beaten (crypto : LocalCrypto δ) (calls : List (ℕ × LocalCall)) (code : List Char) (i : ℕ)
    (s : LocalState δ) : Prop :=
  ∃ j, j ≠ i ∧ Presents calls code j ∧ s.Did (Tries (crypto.recoveryDigest code)) j

omit [DecidableEq δ] in
theorem Beaten.mono (h : s.history <+: t.history)
    (hs : Beaten crypto calls code i s) : Beaten crypto calls code i t := by
  obtain ⟨j, hij, hj, hdid⟩ := hs
  exact ⟨j, hij, hj, hdid.mono h⟩

/-- The password is the one of the account, and so is the name. -/
def Authentic (crypto : LocalCrypto δ) (dummyHash : List Char) (account : AdminAccount)
    (username password : List Char) : Prop :=
  authenticated crypto dummyHash password ((some account).filter fun account =>
    Text.eqIgnoreCase account.username
      ((normalizeUsername username).getD (Text.toLower username))) = some account

section

variable {allow : ℕ → LocalOp δ → LocalChoice → LocalState δ → Prop}
  {dummyHash username password text : List Char} {secureCookie : Bool} {now : ℤ} {x : LocalChoice}
  {w w' : AuthWorld δ}

theorem exec_account_succeeds {name : List Char} {a : Except Unit (Option AdminAccount)}
    (hx : x.succeeds) (hw : w.db.account = some account)
    (h : (localHost δ).exec i (.account name) x w = some (a, w')) :
    a = .ok ((some account).filter fun account => Text.eqIgnoreCase account.username name) := by
  cases x with
  | done =>
    cases h
    rw [accountOf, hw]
  | drawn bytes => cases h
  | failed | lost => cases hx

theorem exec_random_succeeds {n : ℕ} {a : Except Unit (List UInt8)} (hx : x.succeeds)
    (h : (localHost δ).exec i (.random n) x w = some (a, w')) : ∃ bytes, a = .ok bytes := by
  cases x with
  | drawn bytes =>
    simp only [AuthWorld.exec, Option.ite_none_right_eq_some, Option.some.injEq, Prod.mk.injEq] at h
    exact ⟨bytes, h.2.1.symm⟩
  | done => cases h
  | failed | lost => cases hx

theorem exec_consume_succeeds {digest : δ} {session : SessionRow δ} {a : Except Unit Bool}
    (hx : x.succeeds)
    (h : (localHost δ).exec i
      (.consumeRecoveryCodeAndInsertSession id digest session now) x w =
      some (a, w')) :
    ∃ consumed, a = .ok consumed := by
  cases x with
  | done =>
    obtain ⟨r, -, heq⟩ := Option.map_eq_some_iff.1 h
    cases heq
    exact ⟨_, rfl⟩
  | drawn bytes => cases h
  | failed | lost => cases hx

theorem login_certain (hallow : ∀ o x s, allow i o x s → x.succeeds)
    (hpassword : Authentic crypto dummyHash account username password)
    (hcode : normalizeRecoveryCode text = some code)
    (hs : ¬ s.Did (Tries (crypto.recoveryDigest code)) i) :
    (login crypto dummyHash username password (.recoveryCode text) secureCookie now).run.Safe
      ((setting crypto account code calls allow i).trusted (sharing crypto calls i))
      (sharing crypto calls i) (fun r t => (∃ issued, r = .ok issued) ∨
        Beaten crypto calls code i t) s := by
  refine .request fun t hst ht x found u hC hx => ?_
  obtain ⟨hg, hu⟩ := hC.2 _ _ hx
  obtain ⟨hexec, hhistory⟩ := machine_eq_some_iff.1 hx
  obtain rfl := exec_account_succeeds (hallow _ _ _ hC.1) ht.account hexec
  have hu' : ¬ u.Did (Tries (crypto.recoveryDigest code)) i := fun h =>
    hs (hst.tries _ (((did_append hhistory).1 h).resolve_right fun h => h.2))
  refine ⟨hg, hu, fun b hb => ?_, fun _ h => by cases h⟩
  cases hb
  rw [hpassword, ofOption_some_bind]
  change (loginRecovery crypto account text secureCookie now).run.Safe _ _ _ u
  rw [loginRecovery, hcode, ofOption_some_bind]
  clear hg hu hexec hhistory hx hC ht hst hs
  refine .attempt (R := fun _ t => ¬ t.Did (Tries (crypto.recoveryDigest code)) i) ?_ ?_
  · refine .request fun t hst ht x random v hC hx => ?_
    obtain ⟨hg, hv⟩ := hC.2 _ _ hx
    obtain ⟨hexec, hhistory⟩ := machine_eq_some_iff.1 hx
    obtain ⟨bytes, rfl⟩ := exec_random_succeeds (hallow _ _ _ hC.1) hexec
    have hv' : ¬ v.Did (Tries (crypto.recoveryDigest code)) i := fun h =>
      hu' (hst.tries _ (((did_append hhistory).1 h).resolve_right fun h => h.2))
    refine ⟨hg, hv, fun _ _ => ?_, fun _ h => by cases h⟩
    exact .ret fun w hw _ h => hv' (hw.tries _ h)
  · intro prepared t ht hkeeps
    refine .request fun u hu hinv x consumed v hC hx => ?_
    obtain ⟨hg, hv⟩ := hC.2 _ _ hx
    obtain ⟨hexec, hhistory⟩ := machine_eq_some_iff.1 hx
    obtain ⟨consumed, rfl⟩ := exec_consume_succeeds (hallow _ _ _ hC.1) hexec
    refine ⟨hg, hv, fun b hb => ?_, fun _ h => by cases h⟩
    cases hb
    cases consumed with
    | true =>
      rw [ensure_bind rfl]
      exact .ret fun _ _ _ => .inl ⟨_, rfl⟩
    | false =>
      -- Somebody has tried before, and it was not this call.
      obtain ⟨j, hj, hdid⟩ := hinv.available.resolve_left (not_available_of_consume hexec)
      have hbeaten : Beaten crypto calls code i u :=
        ⟨j, fun h => hkeeps u hu hinv (h ▸ hdid), hj, hdid⟩
      refine .ensure (fun w hw _ => ?_) fun h => by cases h
      exact .inr ((hbeaten.mono ⟨_, hhistory.symm⟩).mono hw.history)

theorem login_runs {allow : LocalOp δ → LocalChoice → LocalState δ → Prop}
    {random : List UInt8} (hallow : ∀ o x s, x.succeeds → allow o x s)
    (hpassword : Authentic crypto dummyHash account username password)
    (hcode : normalizeRecoveryCode text = some code) (hrandom : random.length = 32)
    (haccount : s.state.db.account = some account)
    (havailable : s.state.db.Available (crypto.recoveryDigest code))
    (hfresh : crypto.sessionDigest (crypto.token random) ∉
      s.state.db.sessions.map SessionRow.sessionDigest) :
    ∃ r u, Prog.Runs ((localHost δ).machine i) allow
      (login crypto dummyHash username password (.recoveryCode text) secureCookie now).run s r u ∧
        ∃ issued, r = .ok issued := by
  refine exists_runs_request (x := .done) (a := .ok (s.state.db.accountOf _)) (hallow _ _ _ rfl)
    (machine_exec rfl) rfl ?_
  have hfound : s.state.db.accountOf ((normalizeUsername username).getD (Text.toLower username)) =
      (some account).filter fun account => Text.eqIgnoreCase account.username
        ((normalizeUsername username).getD (Text.toLower username)) := by
    rw [accountOf, haccount]
  rw [hfound, hpassword, ofOption_some_bind]
  change ∃ r u, Prog.Runs _ _ (loginRecovery crypto account text secureCookie now).run _ r u ∧ _
  rw [loginRecovery, hcode, ofOption_some_bind]
  have hdraw : (localHost δ).exec i (.random 32) (.drawn random) s.state =
      some (.ok random, s.state) := if_pos hrandom
  refine exists_runs_bind (Z := fun prepared => prepared.row.sessionDigest =
    crypto.sessionDigest (crypto.token random)) (P := fun t => t.state = s.state)
    (exists_runs_request (x := .drawn random) (a := .ok random) (hallow _ _ _ rfl)
      (machine_exec hdraw) rfl ⟨_, _, .ret _ _, rfl, rfl⟩) fun prepared t hprepared ht => ?_
  obtain ⟨db, hdb⟩ := exists_consumeRecoveryCodeAndInsertSession prepared.row now
    havailable (by rw [hprepared]; exact hfresh)
  have hconsume : (localHost δ).exec i (.consumeRecoveryCodeAndInsertSession id
      (crypto.recoveryDigest code) prepared.row now) .done t.state =
        some (.ok true, { t.state with db }) := by
    rw [exec_consumeRecoveryCodeAndInsertSession, AuthWorld.transact, ht, hdb]
    rfl
  refine exists_runs_request (x := .done) (a := .ok true) (hallow _ _ _ rfl)
    (machine_exec hconsume) rfl ?_
  rw [ensure_bind rfl]
  exact ⟨_, _, .ret _ _, _, rfl⟩

end

/-! ## Each code is good for one login -/

/-- The operations of the call `i` do not fail. -/
def Succeeding (i j : ℕ) (_ : LocalOp δ) (x : LocalChoice)
    (_ : LocalState δ) : Prop := j = i → x.succeeds

/-- The code is good for one login. -/
structure SingleUse (crypto : LocalCrypto δ) (dummyHash : List Char) (account : AdminAccount)
    (code : List Char) (calls : List (ℕ × LocalCall))
    (p : Calls (Local δ) (AuthWorld δ) LocalReply) : Prop where
  /-- One call at most is accepted with it. -/
  once : ∀ q, Reaches (localHost δ) (fun _ _ _ _ => True) p q → ∀ i j a b,
    Presents calls code i → Presents calls code j → q.Returned i (.loggedIn (.ok a)) →
    q.Returned j (.loggedIn (.ok b)) → i = j
  /-- A call with the right password that spells it, and whose operations succeed, is
      accepted, unless another call that presents it has tried to use it. -/
  accepted : ∀ i username password text secureCookie now q r,
    callOf calls i = some (.login username password (.recoveryCode text) secureCookie now) →
    Authentic crypto dummyHash account username password → RecoveryCode.Spells text code →
    Reaches (localHost δ) (Succeeding i) p q → q.Returned i r →
    (∃ a, r = .loggedIn (.ok a)) ∨ Beaten crypto calls code i q.now
  /-- A call with the right password that spells it returns, if its session is new. -/
  returns : ∀ i username password text secureCookie now q random,
    callOf calls i = some (.login username password (.recoveryCode text) secureCookie now) →
    Authentic crypto dummyHash account username password → RecoveryCode.Spells text code →
    Reaches (localHost δ) (fun _ _ _ _ => True) p q →
    q.tasks[i]? = some (q.life, (LocalCall.login username password (.recoveryCode text) secureCookie
      now).prog crypto dummyHash) →
    random.length = 32 → crypto.sessionDigest (crypto.token random) ∉
      q.now.state.db.sessions.map SessionRow.sessionDigest →
    (∀ j, Presents calls code j → ¬ q.now.Did (Tries (crypto.recoveryDigest code)) j) →
    ∃ q' a, Reaches (localHost δ) (Succeeding i) q q' ∧ q'.Returned i (.loggedIn (.ok a))
  /-- A step changes the stored codes only by using up what the call presents. -/
  changes : ∀ q, Reaches (localHost δ) (fun _ _ _ _ => True) p q → ∀ i o k x a t,
    q.tasks[i]? = some (q.life, .call o k) →
    ((localHost δ).machine i).exec o x q.now = some (a, t) →
    t.state.db.recoveryCodes = q.now.state.db.recoveryCodes ∨ ∃ code now, Presents calls code i ∧
      q.now.state.db.Available (crypto.recoveryDigest code) ∧
      t.state.db.recoveryCodes = q.now.state.db.recoveryCodes.map
        (RecoveryRow.use id (crypto.recoveryDigest code) now)

section

variable {dummyHash : List Char} {db : AuthDatabase δ}
  {allow : ℕ → LocalOp δ → LocalChoice → LocalState δ → Prop}

variable (crypto code calls) in
/-- What is proved of a login, with `R` of what it returns. -/
def Replied (i : ℕ) : LocalReply → LocalState δ → Prop
  | .loggedIn result => Reported crypto code calls i result
  | _ => fun _ => True

omit [DecidableEq δ] in
theorem Replied.mono {r : LocalReply} (hst : s.history <+: t.history)
    (h : Replied crypto code calls i r s) :
    Replied crypto code calls i r t := by
  cases r with
  | started result => trivial
  | confirmed result => trivial
  | loggedIn result => exact fun issued hr hi => (h issued hr hi).mono hst

variable (crypto account code calls allow) in
/-- What logins keep, with `R` of what each returns. -/
def contract {R : ℕ → LocalReply → LocalState δ → Prop}
    (hR : ∀ i r s t, s.history <+: t.history → R i r s → R i r t) :
    Contract (localHost δ) allow LocalReply where
  inv := Stored crypto account code calls
  sharing := sharing crypto calls
  post i r s := Replied crypto code calls i r s ∧ R i r s
  compatible _ _ _ _ hij _ _ hg := hg.rely hij
  post_rely i r s t _ _ hst h := ⟨h.1.mono hst.history, hR i r s t hst.history h.2⟩
  inv_crash _ hs := ⟨hs.account, hs.available, hs.taken, hs.unique⟩
  post_crash i r s _ h :=
    ⟨Replied.mono (s := s) prefix_rfl h.1, hR i r s _ prefix_rfl h.2⟩

theorem kept_localCalls {R : ℕ → LocalReply → LocalState δ → Prop}
    {hR : ∀ i r s t, s.history <+: t.history → R i r s → R i r t}
    (hinj : Function.Injective crypto.recoveryDigest) (haccount : db.account = some account)
    (havailable : db.Available (crypto.recoveryDigest code))
    (hcalls : ∀ call ∈ calls, call.2.isLogin)
    (hprog : ∀ i call s, callOf calls i = some call → s.Idle i → (call.prog crypto dummyHash).Safe
      ((setting crypto account code calls allow i).trusted (sharing crypto calls i))
      (sharing crypto calls i) (R i) s) :
    Kept (contract crypto account code calls allow hR) (localCalls crypto dummyHash db calls) := by
  have hstored : Stored crypto account code calls ⟨⟨db, none, none⟩, []⟩ :=
    ⟨haccount, .inl havailable, fun _ h => absurd h not_did_nil,
      fun _ _ h => absurd h not_did_nil⟩
  refine Kept.start hstored idle_nil fun i n prog hi s _ hidle => ?_
  obtain ⟨⟨life, call⟩, hcall, heq⟩ := getElem?_map.symm.trans hi |> Option.map_eq_some_iff.1
  cases heq
  have hcallOf : callOf calls i = some call := by rw [callOf, hcall]; rfl
  have hsafe : (call.prog crypto dummyHash).Safe (setting crypto account code calls allow i)
      (sharing crypto calls i) (Replied crypto code calls i) s := by
    cases call with
    | login username password secondFactor secureCookie now =>
      exact .map ((login_safe hinj hcallOf).weaken fun _ _ _ h => h)
    | start | confirm => cases hcalls _ (mem_of_getElem? hcall)
  exact hsafe.and_trusted (hprog i call s hcallOf hidle)

/-- **Recovery codes of the local administrator** are good for one login each. -/
theorem singleUse (hinj : Function.Injective crypto.recoveryDigest)
    (haccount : db.account = some account) (havailable : db.Available (crypto.recoveryDigest code))
    (hdigits : code.length = 32 ∧ ∀ d ∈ code, RecoveryCode.IsDigit d)
    (hcalls : ∀ call ∈ calls, call.2.isLogin) :
    SingleUse crypto dummyHash account code calls (localCalls crypto dummyHash db calls) := by
  have hspells : ∀ {text}, RecoveryCode.Spells text code → normalizeRecoveryCode text = some code :=
    fun h => normalizeRecoveryCode_of_spells h hdigits.1 hdigits.2
  have hkept : Kept (contract crypto account code calls (fun _ _ _ _ => True)
      (R := fun _ _ _ => True) fun _ _ _ _ _ h => h) (localCalls crypto dummyHash db calls) :=
    kept_localCalls hinj haccount havailable hcalls fun _ _ _ _ _ =>
      .trusted_keeps Sharing.keeps_true (fun _ _ _ _ => trivial) trivial
  refine ⟨fun q hq i j a b hi hj ha hb => ?_,
    fun i username password text secureCookie now q r hcall hpassword hspelled hq hr => ?_,
    fun i username password text secureCookie now q random hcall hpassword hspelled hq htask hrandom
      hfresh hunused => ?_, fun q hq i o k x a t htask hx => ?_⟩
  · have hsafe := hq.safe hkept
    have hinv : Stored crypto account code calls q.now := hsafe.inv
    exact hinv.unique i j ((hsafe.post ha).1 a rfl hi) ((hsafe.post hb).1 b rfl hj)
  · have hmono : ∀ (j : ℕ) (r : LocalReply) (s t : LocalState δ),
        s.history <+: t.history →
        (j = i → (∃ a, r = .loggedIn (.ok a)) ∨ Beaten crypto calls code i s) →
        (j = i → (∃ a, r = .loggedIn (.ok a)) ∨ Beaten crypto calls code i t) :=
      fun j r s t hst h hji => (h hji).imp_right fun h => h.mono hst
    have hkept' : Kept (contract crypto account code calls (Succeeding i) hmono)
        (localCalls crypto dummyHash db calls) := by
      refine kept_localCalls hinj haccount havailable hcalls fun j call s hcall' hidle => ?_
      by_cases hji : j = i
      · subst hji
        cases hcall.symm.trans hcall'
        refine .map ((login_certain (fun _ _ _ h => h rfl) hpassword (hspells hspelled)
          hidle.not_did).weaken fun r t _ h _ => h.imp_left fun ⟨issued, hissued⟩ => ?_)
        exact ⟨issued, congrArg _ hissued⟩
      · exact .weaken (fun _ _ _ _ h => absurd h hji)
          (.trusted_keeps Sharing.keeps_true (fun _ _ _ _ => trivial) trivial)
    exact ((hq.safe hkept').post hr).2 rfl
  · have hinv : Stored crypto account code calls q.now := (hq.safe hkept).inv
    have havailable' := hinv.available.resolve_right fun ⟨j, hj, hdid⟩ => hunused j hj hdid
    have hruns : ∃ r u, Prog.Runs ((localHost δ).machine i) (Succeeding i i)
        (login crypto dummyHash username password (.recoveryCode text) secureCookie now).run q.now
        r u ∧ ∃ issued, r = .ok issued :=
      login_runs (fun _ _ _ h _ => h) hpassword (hspells hspelled) hrandom hinv.account havailable'
        hfresh
    obtain ⟨r, u, hu, issued, rfl⟩ := hruns
    exact ⟨_, issued, Reaches.finish .refl htask (hu.bind (.ret _ _)), q.life,
      List.getElem?_set_self (List.getElem?_eq_some_iff.1 htask).1⟩
  · have hguar : Guarantee crypto calls i q.now t := ((hq.safe hkept).step htask trivial hx).1
    obtain ⟨o', a', -, hchange⟩ := hguar.step
    cases hchange with
    | nothing hrows _ => exact .inl hrows
    | used hi havailable' hrows => exact .inr ⟨_, _, hi, havailable', hrows⟩

end

end SessionStore.Login

end VpsGuard
