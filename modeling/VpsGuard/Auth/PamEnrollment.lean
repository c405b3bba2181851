import VpsGuard.Auth.PamCalls

/-!
# Enrolling a PAM administrator

Calls to the helper are made side by side and it may crash. As long as they are
orderly (`PamMfa.Orderly`), one confirmation at most reports success, and a
credential keeps its seed and gets no codes (`enrolled_once`).

The helper does not see to it that they are. Whether an administrator has to be
enrolled is looked up before the enrolment is put into the memory, and not again:
two enrolments that start at the same time are both confirmed, and the seed of the
first is replaced (`enrolled_twice`).
-/

namespace VpsGuard

open Effect Effect.Host Effect.Recorded

/-- A helper that has just started, with an empty directory or none. -/
def PamWorld.fresh {δ : Type} (euid : ℕ) (directory : Option PamMetadata) : PamWorld δ where
  euid := euid
  directory := directory
  files := ∅
  pending := none
  pendingHolder := none
  gateHolder := none

namespace PamMfa

variable {δ : Type} [DecidableEq δ]

/-- The reply says that a credential was put in its place. -/
def Succeeded : PamReply → Prop
  | .confirmed (.ok _) | .verified (.ok .recovery) => True
  | _ => False

section

variable {crypto : PamCrypto δ} {IsKey : List UInt8 → Prop} {calls : List (ℕ × PamCall)}
  {allow : ℕ → PamOp δ → PamChoice → PamState δ → Prop} {X : PamState δ → Prop}
  (hX : Surroundings crypto IsKey calls allow X)

include hX in
theorem prog_safe {i euid : ℕ} {call : PamCall} {s : PamState δ}
    (hcall : callOf calls i = some call) :
    hX.Safe i (call.prog crypto euid) (fun r t => Succeeded r → Sealed i t) s := by
  cases call with
  | start username now =>
    refine .map ((startEnrollment_safe hX (by rw [hcall]; rfl)).weaken fun r _ _ _ => ?_)
    exact False.elim
  | confirm enrollmentId totpCode now =>
    refine .map ((confirmEnrollment_safe hX (by rw [hcall]; rfl)).weaken fun r _ _ h => ?_)
    cases r with
    | ok complete => exact fun _ => h complete rfl
    | error e => exact False.elim
  | verify username factor now =>
    refine .map ((verify_safe hX hcall).weaken fun r _ _ h => ?_)
    cases r with
    | ok method =>
      cases method with
      | totp => exact False.elim
      | recovery => exact fun _ => h rfl
    | error e => exact False.elim

/-- The reply is one to the call. -/
def Answers : Option PamCall → PamReply → Prop
  | some (.start _ _), .started _ | some (.confirm _ _ _), .confirmed _
  | some (.verify _ _ _), .verified _ => True
  | _, _ => False

theorem prog_yields (crypto : PamCrypto δ) (euid : ℕ) (call : PamCall) :
    (call.prog crypto euid).Yields (Answers (some call)) := by
  cases call with
  | start | confirm | verify => exact (Prog.yields_true _).bind fun _ _ => trivial

/-- What the calls keep, with `R` of what each returns. -/
def contract {R : ℕ → PamReply → PamState δ → Prop}
    (hR : ∀ i r s t, s.history <+: t.history → R i r s → R i r t) :
    Contract (pamHost δ) allow PamReply where
  inv s := Inv calls s ∧ X s
  sharing := sharing crypto IsKey calls
  post i r s := ((Succeeded r → Sealed i s) ∧ Answers (callOf calls i) r) ∧ R i r s
  compatible _ _ _ _ hij _ _ hg := hg.rely hij
  post_rely i r s t _ _ hst h :=
    ⟨⟨fun hr => (h.1.1 hr).mono hst.history, h.1.2⟩, hR i r s t hst.history h.2⟩
  inv_crash _ hs := ⟨⟨fun _ h => (by cases h), hs.1.configured, hs.1.unique⟩, hX.crash hs.2⟩
  post_crash i r s _ h := ⟨h.1, hR i r s _ List.prefix_rfl h.2⟩

theorem kept_pamCalls {R : ℕ → PamReply → PamState δ → Prop}
    {hR : ∀ i r s t, s.history <+: t.history → R i r s → R i r t} {w : PamWorld δ}
    (hinv : Inv calls ⟨w, []⟩) (hw : X ⟨w, []⟩) (hprog : ∀ i call s, callOf calls i = some call →
      Inv calls s ∧ X s → s.Idle i → hX.Safe i (call.prog crypto w.euid) (R i) s) :
    Kept (contract hX hR) (pamCalls crypto w calls) := by
  refine Kept.start ⟨hinv, hw⟩ idle_nil fun i n prog hi s hs hidle => ?_
  obtain ⟨⟨life, call⟩, hcall, heq⟩ := List.getElem?_map.symm.trans hi |> Option.map_eq_some_iff.1
  cases heq
  have hcallOf : callOf calls i = some call := by rw [callOf, hcall]; rfl
  have hanswers := prog_yields crypto w.euid call
  rw [← hcallOf] at hanswers
  exact ((prog_safe hX hcallOf).and_yields hanswers).and (hprog i call s hcallOf hs hidle)

end

/-! ## Orderly calls -/

/-- A credential stays with its seed, and its codes only become fewer. -/
def SeedsKept (s t : PamState δ) : Prop :=
  ∀ name file credential, isCredentialName name → s.state.files.lookup name = some file →
    file.content = .json credential → ∃ file' credential',
      t.state.files.lookup name = some file' ∧ file'.content = .json credential' ∧
        credential'.nonce = credential.nonce ∧ credential'.ciphertext = credential.ciphertext ∧
        credential'.recoveryDigests.Sublist credential.recoveryDigests

omit [DecidableEq δ] in
theorem SeedsKept.refl (s : PamState δ) : SeedsKept s s :=
  fun _ file credential _ hfile hcontent => ⟨file, credential, hfile, hcontent, rfl, rfl, .refl _⟩

omit [DecidableEq δ] in
theorem SeedsKept.trans {s t u : PamState δ} (hst : SeedsKept s t) (htu : SeedsKept t u) :
    SeedsKept s u := by
  intro name file credential hname hfile hcontent
  obtain ⟨file', credential', hfile', hcontent', hnonce, hcipher, hsub⟩ :=
    hst name file credential hname hfile hcontent
  obtain ⟨file'', credential'', hfile'', hcontent'', hnonce', hcipher', hsub'⟩ :=
    htu name file' credential' hname hfile' hcontent'
  exact ⟨file'', credential'', hfile'', hcontent'', hnonce'.trans hnonce, hcipher'.trans hcipher,
    hsub'.trans hsub⟩

theorem Change.seedsKept {crypto : PamCrypto δ} {IsKey : List UInt8 → Prop}
    {calls : List (ℕ × PamCall)} {i : ℕ} {s t : PamState δ} (h : Change crypto IsKey calls i s t) :
    SeedsKept s t := by
  intro name file credential hname hfile hcontent
  cases h with
  | nothing hsame _ =>
    exact ⟨file, credential, (hsame name hname).trans hfile, hcontent, rfl, rfl, .refl _⟩
  | first hnone _ _ _ _ =>
    have hconfigured := configured_iff.2 ⟨name, hname, by rw [hfile]; rfl⟩
    cases hnone.symm.trans hconfigured
  | @used username _ _ _ _ file' credential' index _ _ _ _ hfile' hcontent' _ _ ht hsame _ =>
    by_cases hne : name = credentialName username
    · subst hne
      cases hfile.symm.trans hfile'
      cases hcontent.symm.trans hcontent'
      exact ⟨_, _, ht, rfl, rfl, rfl, List.eraseIdx_sublist _ _⟩
    · exact ⟨file, credential, (hsame name hname hne).trans hfile, hcontent, rfl, rfl, .refl _⟩

/-- **Enrolment.** However orderly calls to the helper are interleaved, and wherever
    it crashes, one confirmation at most reports success, and a credential that is
    there keeps its seed and gets no codes. -/
theorem enrolled_once {crypto : PamCrypto δ} {euid : ℕ} {directory : Option PamMetadata}
    {calls : List (ℕ × PamCall)} {q : Calls (Pam δ) (PamWorld δ) PamReply}
    (hq : Reaches (pamHost δ) (Orderly calls)
      (pamCalls crypto (.fresh euid directory) calls) q) :
    (∀ i j a b, q.Returned i (.confirmed (.ok a)) → q.Returned j (.confirmed (.ok b)) → i = j) ∧
      ∀ q', Reaches (pamHost δ) (Orderly calls) q q' → SeedsKept q.now q'.now := by
  have hX : Surroundings crypto (fun _ => True) calls (Orderly calls) fun _ => True :=
    ⟨id, fun _ _ _ _ => trivial, fun _ => trivial, fun _ _ _ => trivial⟩
  have hfresh : Inv calls (⟨.fresh euid directory, []⟩ : PamState δ) := by
    exact ⟨fun _ h => (by cases h), fun _ h => absurd h not_did_nil,
      fun _ _ _ _ h => absurd h not_did_nil⟩
  have hkept : Kept (contract hX (R := fun _ _ _ => True) fun _ _ _ _ _ h => h)
      (pamCalls crypto (.fresh euid directory) calls) :=
    kept_pamCalls hX hfresh trivial fun _ _ _ _ _ _ => (prog_safe hX ‹_›).weaken fun _ _ _ _ => trivial
  have hsafe := hq.safe hkept
  have hconfirm : ∀ i a, q.Returned i (.confirmed (.ok a)) →
      (callOf calls i).any PamCall.isConfirm ∧ Sealed i q.now := by
    intro i a hi
    obtain ⟨⟨hsealed, hanswers⟩, -⟩ := hsafe.post hi
    refine ⟨?_, hsealed trivial⟩
    match callOf calls i, hanswers with
    | some (.confirm _ _ _), _ => rfl
  refine ⟨fun i j a b hi hj => ?_, fun q' hq' => ?_⟩
  · obtain ⟨hi, hi'⟩ := hconfirm i a hi
    obtain ⟨hj, hj'⟩ := hconfirm j b hj
    exact hsafe.inv.1.unique i j hi hj hi' hj'
  · exact hq'.lasting (L := SeedsKept) hsafe .refl (fun _ _ _ => .trans)
      (fun _ _ _ _ _ hg => Change.seedsKept (Guarantee.change hg)) fun s _ => .refl s

instance (calls : List (ℕ × PamCall)) (i : ℕ) (o : PamOp δ) (x : PamChoice) (s : PamState δ) :
    Decidable (Orderly calls i o x s) := by
  unfold Orderly
  split <;> infer_instance

/-- Ciphers and digests that leave everything as it is. -/
def plainCrypto : PamCrypto (List Char) where
  enrollmentDigest := id
  recoveryDigest _ _ code := code
  encode := id
  decode := some
  decode_encode _ := rfl
  token := RecoveryCode.digits
  encrypt _ _ secret _ := secret
  decrypt _ _ _ ciphertext := some ciphertext
  decrypt_encrypt _ _ _ _ := rfl
  secretBase32 := RecoveryCode.digits
  secretBytes _ := some []
  buildTotp _ _ := true
  check _ _ _ _ := true
  url _ _ := []

/-- Every operation succeeds, and random bytes are the number of the call. -/
def succeed (i : ℕ) : PamOp δ → PamState δ → PamChoice
  | .random n, _ => .drawn (List.replicate n (UInt8.ofNat i))
  | .readDirectory, s => .listed (s.state.files.keys.map some)
  | _, _ => .done

/-- The enrolment whose identifier was drawn by the call `i`. -/
def enrollmentOf (i : ℕ) : List Char := RecoveryCode.digits (List.replicate 32 (UInt8.ofNat i))

/-- Two enrolments of one administrator, and their confirmations. -/
def raceCalls : List (ℕ × PamCall) :=
  [(0, .start "operator".toList 1700000000), (0, .start "operator".toList 1700000000),
    (0, .confirm (enrollmentOf 1) "000000".toList 1700000060),
    (0, .confirm (enrollmentOf 0) "000000".toList 1700000090)]

/-- The call reports that it enrolled an administrator. -/
def confirms (q : Calls (Pam δ) (PamWorld δ) PamReply) (i : ℕ) : Bool :=
  match q.value? i with
  | some (.confirmed (.ok _)) => true
  | _ => false

omit [DecidableEq δ] in
theorem returned_of_confirms {q : Calls (Pam δ) (PamWorld δ) PamReply} {i : ℕ}
    (h : confirms q i = true) : ∃ a, q.Returned i (.confirmed (.ok a)) := by
  rw [confirms] at h
  split at h
  · next a hvalue => exact ⟨a, Calls.returned_of_value? hvalue⟩
  · cases h

/-- One enrolment after the other is orderly: the first one is confirmed. -/
theorem enrolled_once_race : ∃ q, Reaches (pamHost (List Char)) (Orderly raceCalls)
    (pamCalls plainCrypto (.fresh 0 none) raceCalls) q ∧
      (∃ a, q.Returned 2 (.confirmed (.ok a))) ∧
      ∀ i j a b, q.Returned i (.confirmed (.ok a)) → q.Returned j (.confirmed (.ok b)) → i = j := by
  obtain ⟨q, hq, hR⟩ := exists_reaches_of_run (pamHost (List Char))
    (Orderly raceCalls) (pamCalls plainCrypto (.fresh 0 none) raceCalls) succeed
    ((List.replicate 15 1 ++ List.replicate 26 2).map some)
    (R := fun q => confirms q 2) (by decide +kernel)
  exact ⟨q, hq, returned_of_confirms hR, (enrolled_once hq).1⟩

/-! ## A race -/

/-- The first enrolment looks for credentials, the second one is confirmed, and then
    the first one is. -/
theorem enrolled_twice : ∃ q, Reaches (pamHost (List Char)) (fun _ _ _ _ => True)
    (pamCalls plainCrypto (.fresh 0 none) raceCalls) q ∧
      (∃ a, q.Returned 2 (.confirmed (.ok a))) ∧ ∃ a, q.Returned 3 (.confirmed (.ok a)) := by
  obtain ⟨q, hq, hR⟩ := exists_reaches_of_run (pamHost (List Char))
    (fun _ _ _ _ => True) (pamCalls plainCrypto (.fresh 0 none) raceCalls) succeed
    (([0] ++ List.replicate 15 1 ++ List.replicate 26 2 ++ List.replicate 14 0 ++
      List.replicate 18 3).map some)
    (R := fun q => confirms q 2 && confirms q 3) (by decide +kernel)
  rw [Bool.and_eq_true] at hR
  exact ⟨q, hq, returned_of_confirms hR.1, returned_of_confirms hR.2⟩

end PamMfa

end VpsGuard
