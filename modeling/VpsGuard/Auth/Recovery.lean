import VpsGuard.Auth.Enrollment
import VpsGuard.Auth.LoginRecovery
import VpsGuard.Auth.PamRecovery

/-!
# Recovery codes

With either provider of administrators, a recovery code that was issued is good for
one authentication (`recoveryCodes_singleUse`), whatever is interleaved, whatever
fails, and wherever the process crashes.
-/

namespace VpsGuard

open Effect Effect.Host

/-- **Recovery codes.** Every issued recovery code leads to one successful
    authentication at most; a call that spells it in any way is accepted if its
    operations succeed and no other call has used the code, and it does return; and no
    call changes a stored code other than the unused one that it presents. -/
theorem recoveryCodes_singleUse {δ : Type} [DecidableEq δ] {crypto : PamCrypto δ}
    {key : List UInt8} {username : List Char} {codes : List (List Char)} {w : PamWorld δ}
    {calls : List (ℕ × PamCall)} {code : List Char}
    (hinj : Function.Injective (crypto.recoveryDigest key username))
    (hw : PamMfa.Issued crypto key username codes w) (hcode : code ∈ codes)
    (hcalls : ∀ call ∈ calls, call.2.isVerify)
    {δ' : Type} [DecidableEq δ'] {crypto' : LocalCrypto δ'} {dummyHash : List Char}
    {account : AdminAccount} {db : AuthDatabase δ'} {calls' : List (ℕ × LocalCall)}
    {code' : List Char} (hinj' : Function.Injective crypto'.recoveryDigest)
    (haccount : db.account = some account)
    (havailable : db.Available (crypto'.recoveryDigest code'))
    (hdigits : code'.length = 32 ∧ ∀ d ∈ code', RecoveryCode.IsDigit d)
    (hcalls' : ∀ call ∈ calls', call.2.isLogin) :
    PamMfa.SingleUse crypto w.euid key username code calls (pamCalls crypto w calls) ∧
      SessionStore.Login.SingleUse crypto' dummyHash account code' calls'
        (localCalls crypto' dummyHash db calls') :=
  ⟨PamMfa.singleUse hinj hw hcode hcalls,
    SessionStore.Login.singleUse hinj' haccount havailable hdigits hcalls'⟩

/-! ## A code that is presented twice -/

def sampleCode : List Char := RecoveryCode.digits (List.replicate 16 171)

/-- The code in lower case and after a space. -/
def sampleText : List Char := ' ' :: sampleCode.map Char.toLower

/-- A directory with a key and with a credential that has one code. -/
def sampleWorld : PamWorld (List Char) where
  euid := 0
  directory := some ⟨true, 0, 0o700⟩
  files := (AList.insert PamMfa.keyFileName ⟨⟨true, 0, 0o600⟩, .bytes (List.replicate 32 1)⟩ ∅).insert
    "operator.json".toList ⟨⟨true, 0, 0o600⟩, .json ⟨1, "operator".toList, [], [], [sampleCode]⟩⟩
  pending := none
  pendingHolder := none
  gateHolder := none

theorem issued_sampleWorld : PamMfa.Issued PamMfa.plainCrypto (List.replicate 32 1)
    "operator".toList [sampleCode] sampleWorld where
  valid := by decide
  length := rfl
  present := ⟨⟨1, "operator".toList, [], [], [sampleCode]⟩, ⟨rfl, ⟨_, rfl, by decide⟩,
    ⟨_, rfl, by decide⟩, ⟨_, rfl, by decide⟩, rfl, rfl, rfl⟩, rfl⟩
  nodup := List.nodup_singleton _
  digits := by
    intro code hcode
    rw [List.mem_singleton.1 hcode]
    exact ⟨RecoveryCode.length_digits _, RecoveryCode.isDigit_digits⟩
  started := rfl

/-- The code is presented in two spellings. -/
def sampleVerifies : List (ℕ × PamCall) :=
  [(0, .verify "operator".toList sampleText 0), (0, .verify "operator".toList sampleCode 0)]

def sampleAccount : AdminAccount := ⟨"operator".toList, "correct horse".toList, [], [], [], 0⟩

theorem nodup_sampleSessions :
    (([] : List (SessionRow (List Char))).map SessionRow.sessionDigest).Nodup :=
  List.nodup_nil

def sampleDatabase : AuthDatabase (List Char) where
  account := some sampleAccount
  recoveryCodes := [⟨AdminAccount.id, sampleCode, 0, none⟩]
  sessions := []
  recoveryCodes_nodup := List.nodup_singleton _
  sessions_nodup := nodup_sampleSessions

def sampleLogins : List (ℕ × LocalCall) :=
  [(0, .login "Operator".toList "correct horse".toList (.recoveryCode sampleText) true 0),
    (0, .login "operator".toList "correct horse".toList (.recoveryCode sampleCode) true 0)]

def byRecoveryCode : Option PamReply → Bool
  | some (.verified (.ok .recovery)) => true
  | _ => false

theorem eq_of_byRecoveryCode {reply : Option PamReply} (h : byRecoveryCode reply = true) :
    reply = some (.verified (.ok .recovery)) := by
  rcases reply with _ | reply
  · cases h
  cases reply with
  | verified result =>
    cases result with
    | ok method =>
      cases method with
      | recovery => rfl
      | totp => cases h
    | error e => cases h
  | _ => cases h

def loggedIn : Option LocalReply → Bool
  | some (.loggedIn (.ok _)) => true
  | _ => false

theorem exists_of_loggedIn {reply : Option LocalReply} (h : loggedIn reply = true) :
    ∃ session, reply = some (.loggedIn (.ok session)) := by
  rcases reply with _ | reply
  · cases h
  cases reply with
  | loggedIn result =>
    cases result with
    | ok session => exact ⟨session, rfl⟩
    | error e => cases h
  | _ => cases h

/-- With either provider, the first of two calls with one code is accepted, and then the
    other one is not. -/
theorem recoveryCodes_singleUse_sample :
    (∃ q, Reaches (pamHost (List Char)) (fun _ _ _ _ => True)
      (pamCalls PamMfa.plainCrypto sampleWorld sampleVerifies) q ∧
      q.Returned 0 (.verified (.ok .recovery)) ∧ ¬ ∃ m, q.Returned 1 (.verified (.ok m))) ∧
    ∃ q a, Reaches (localHost (List Char)) (fun _ _ _ _ => True)
      (localCalls SessionStore.plainCrypto [] sampleDatabase sampleLogins) q ∧
      q.Returned 0 (.loggedIn (.ok a)) ∧ ¬ ∃ b, q.Returned 1 (.loggedIn (.ok b)) := by
  have hnormal : normalizeRecoveryCode sampleText = some sampleCode := by decide
  have hnormal' : normalizeRecoveryCode sampleCode = some sampleCode := by decide
  have hboth : PamMfa.SingleUse PamMfa.plainCrypto 0 (List.replicate 32 1) "operator".toList
      sampleCode sampleVerifies (pamCalls PamMfa.plainCrypto sampleWorld sampleVerifies) ∧
      SessionStore.Login.SingleUse SessionStore.plainCrypto [] sampleAccount sampleCode sampleLogins
        (localCalls SessionStore.plainCrypto [] sampleDatabase sampleLogins) :=
    recoveryCodes_singleUse (fun _ _ h => h) issued_sampleWorld List.mem_cons_self (by decide)
      (fun _ _ h => h) rfl ⟨_, List.mem_cons_self, rfl, rfl, rfl⟩
      ⟨RecoveryCode.length_digits _, RecoveryCode.isDigit_digits⟩ (by decide)
  obtain ⟨hpam, hlocal⟩ := hboth
  constructor
  · obtain ⟨q, hq, hR⟩ := exists_reaches_of_run (pamHost (List Char)) (fun _ _ _ _ => True)
      (pamCalls PamMfa.plainCrypto sampleWorld sampleVerifies) PamMfa.succeed
      ((List.replicate 18 0 ++ List.replicate 9 1).map some)
      (R := fun q => byRecoveryCode (q.value? 0)) (by decide +kernel)
    have h0 := Calls.returned_of_value? (eq_of_byRecoveryCode hR)
    refine ⟨q, hq, h0, ?_⟩
    rintro ⟨m, h1⟩
    cases hpam.once q hq 0 1 _ m ⟨_, _, rfl, hnormal⟩ ⟨_, _, rfl, hnormal'⟩ h0 h1
  · obtain ⟨q, hq, hR⟩ := exists_reaches_of_run (localHost (List Char)) (fun _ _ _ _ => True)
      (localCalls SessionStore.plainCrypto [] sampleDatabase sampleLogins) SessionStore.succeed
      ((List.replicate 3 0 ++ List.replicate 3 1).map some)
      (R := fun q => loggedIn (q.value? 0)) (by decide +kernel)
    obtain ⟨a, hvalue⟩ := exists_of_loggedIn hR
    have h0 := Calls.returned_of_value? hvalue
    refine ⟨q, a, hq, h0, ?_⟩
    rintro ⟨b, h1⟩
    cases hlocal.once q hq 0 1 a b ⟨_, _, _, _, _, rfl, hnormal⟩ ⟨_, _, _, _, _, rfl, hnormal'⟩
      h0 h1

end VpsGuard
