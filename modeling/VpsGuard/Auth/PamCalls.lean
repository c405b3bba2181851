import VpsGuard.Auth.PamFiles

/-!
# The calls to the helper keep their discipline

Every call to the helper keeps the invariant and guarantees to the others what
they rely on, however they are interleaved (`startEnrollment_safe`,
`confirmEnrollment_safe`, `verify_safe`). A call that reports that it enrolled
an administrator, or that a recovery code was right, has put a credential in its
place.
-/

namespace VpsGuard

open Effect Effect.Host Fallible

namespace PamMfa

variable {δ : Type} {i : ℕ} {s t : PamState δ}

/-! ## Verification -/

/-- The answer to a read of the file is as `Z` says. -/
def Reads (name : List Char) (Z : PamContent → Prop) : (o : PamOp δ) → o.Ans → Prop
  | .readFile name', .ok content => name' = name → Z content
  | _, _ => True

variable {name : List Char}

/-- What is read of a file is what the file holds. -/
theorem reads_of_exec {Z : PamContent → Prop} {o : PamOp δ} {x : PamChoice} {a : o.Ans}
    {w w' : PamWorld δ} (h : PamWorld.exec i o x w = some (a, w'))
    (hZ : ∀ file, w.files.lookup name = some file → Z file.content) : Reads name Z o a := by
  cases o with
  | readFile name' =>
    cases a with
    | error e => trivial
    | ok content =>
      rintro rfl
      cases x <;> simp only [PamWorld.exec, reduceCtorEq, Option.some.injEq, Prod.mk.injEq] at h
      · cases hfile : w.files.lookup name' with
        | none => rw [hfile] at h; cases h.1
        | some file =>
          rw [hfile] at h
          cases h.1
          exact hZ file hfile
      · exact h.1.elim
  | _ => trivial

theorem readFile_meets (name : List Char) (Z : PamContent → Prop) :
    (request (.readFile name) orStorage : Helping δ PamContent).run.Meets IsQuiet
      (Reads name Z) (Result Z fun _ => True) := by
  refine meets_request trivial fun a ha => ?_
  cases a with
  | ok content => exact ha rfl
  | error e => trivial

/-- The key that is loaded is the one in the file. -/
theorem loadExistingKey_meets (euid : ℕ) (Z : List UInt8 → Prop) :
    (loadExistingKey euid : Helping δ (List UInt8)).run.Meets IsQuiet
      (Reads keyFileName fun content => ∀ bytes, content = .bytes bytes → Z bytes)
      (Result Z fun _ => True) := by
  refine meets_performs_bind (performs_request trivial) (fun _ => trivial) fun found => ?_
  split
  · refine meets_performs_bind (performs_validateSecretFile euid _) (fun _ => trivial) fun _ => ?_
    refine meets_bind (readFile_meets _ _) fun content hcontent => ?_
    cases content with
    | bytes bytes =>
      exact meets_performs_bind trivial (fun _ => trivial) fun _ => hcontent bytes rfl
    | json credential => trivial
  · trivial

theorem readCredential_meets (euid : ℕ) (name : List Char) (Z : SealedCredential → Prop) :
    (readCredential euid name : Helping δ SealedCredential).run.Meets IsQuiet
      (Reads name fun content => ∀ credential, content = .json credential → Z credential)
      (Result Z fun _ => True) := by
  refine meets_performs_bind (performs_validateSecretFile euid _) (fun _ => trivial) fun _ => ?_
  refine meets_bind (readFile_meets _ _) fun content hcontent => ?_
  cases content with
  | bytes bytes => trivial
  | json credential => exact hcontent credential rfl

/-- A file that is put in its place leaves the other files as they are. -/
theorem lookup_renamed {files : AList fun _ : List Char => PamFile} {temporary : List Char}
    {file : PamFile} (htemporary : isTemporary temporary) {name' : List Char} (hne : name' ≠ name)
    (hname' : ¬ isTemporary name') :
    ((files.erase temporary).insert name file).lookup name' = files.lookup name' := by
  rw [AList.lookup_insert_ne hne, lookup_erase_of_not_isTemporary htemporary hname']

section

variable [DecidableEq δ] {crypto : PamCrypto δ} {IsKey : List UInt8 → Prop}
  {calls : List (ℕ × PamCall)} {allow : ℕ → PamOp δ → PamChoice → PamState δ → Prop}
  {X : PamState δ → Prop} (hX : Surroundings crypto IsKey calls allow X)
  {α β : Type} {P : PamState δ → Prop} {name : List Char}

include hX in
/-- A part that only reads gets what the file holds, as long as this is kept from the others. -/
theorem Surroundings.attempt_reading {Z : PamContent → Prop} {V : α → Prop}
    {p : Helping δ α} {k : α → Helping δ β}
    {Q : Except PamMfaError β → PamState δ → Prop}
    (hp : p.run.Meets IsQuiet (Reads name Z) (Result V fun _ => True))
    (hP : (sharing crypto IsKey calls i).Keeps P)
    (hZ : ∀ s, P s → (setting calls allow X i).inv s →
      ∀ file, s.state.files.lookup name = some file → Z file.content)
    (hs : P s) (herror : ∀ e t, P t → Q (.error e) t)
    (hk : ∀ a t, V a → P t →
      hX.Safe i (k a).run Q t) :
    hX.Safe i (p >>= k).run Q s := by
  have hsafe := Prog.Safe.of_meets (E := setting calls allow X i) (w := sharing crypto IsKey calls i)
    (P := P) hp (fun s t h hst _ => hP s t h hst) (fun o x s a t ho h hinv hC hx => by
      obtain ⟨hr, hg, ht⟩ := hX.quiet i o x s a t ho hinv hC hx
      exact ⟨hg, ht, hP s t h hr, reads_of_exec (machine_eq_some_iff.1 hx).1 (hZ s h hinv)⟩) hs
  exact .attempt_keeping hsafe herror hk

/-- The call has the lock of the credentials, and there is one. -/
def Gated (i : ℕ) (s : PamState δ) : Prop :=
  s.state.gateHolder = some i ∧ configured s.state = true

/-- Moreover, the file of the user is this one. -/
def GatedAt (i : ℕ) (username : List Char) (file : PamFile) (s : PamState δ) : Prop :=
  Gated i s ∧ s.state.files.lookup (credentialName username) = some file

/-- The others do not take the gate from the call that holds it. -/
theorem keeps_gate : (sharing crypto IsKey calls i).Keeps fun s => s.state.gateHolder = some i :=
  fun _ _ hs hst => hst.gate hs

theorem keeps_gated : (sharing crypto IsKey calls i).Keeps (Gated i) :=
  fun _ _ hs hst => ⟨hst.gate hs.1, hst.configured hs.2⟩

variable {username : List Char} {file : PamFile} {factor : List Char} {now : ℤ} {euid : ℕ}
  {totpCode : List Char} {slot : Option (PamPendingEnrollment δ)}

theorem keeps_gatedAt : (sharing crypto IsKey calls i).Keeps (GatedAt i username file) := by
  rintro s t ⟨hs, hfile⟩ hst
  refine ⟨keeps_gated s t hs hst, ?_⟩
  rw [hst.files (.inl hs)]
  exact hfile

include hX

variable {credential : SealedCredential}

section

variable (hcall : callOf calls i = some (.verify username factor now))
  (hname : validUsername username)

include hcall hname

/-- To write a credential without the code that was used keeps the contract. -/
theorem writing_used {code : List Char} {key : List UInt8}
    {index : ℕ} (hcode : normalizeRecoveryCode factor = some code)
    (hkey : IsKey key) (hfile : file.content = .json credential)
    (husername : credential.username = username)
    (hindex : digestIndex crypto
      (crypto.recoveryDigest key username code) credential.recoveryDigests = some index) :
    Writing hX i (credentialName username)
      (.json { credential with recoveryDigests := credential.recoveryDigests.eraseIdx index })
      (GatedAt i username file) (Gated i) (fun s => Gated i s ∧ Sealed i s) where
  keeps := keeps_gatedAt
  keeps_failed := keeps_gated
  keeps_renamed := keeps_gated.and fun _ _ hs hst => hs.mono hst.history
  aside hs h := ⟨⟨h.gateHolder.trans hs.1.1, h.configured.trans hs.1.2⟩,
    (h.files _ (not_isTemporary (isCredentialName_credentialName hname))).trans hs.2⟩
  aside_failed hs h := ⟨h.gateHolder.trans hs.1, h.configured.trans hs.2⟩
  failed hs := hs.1
  mine hs := .inl hs
  renamed {s t temporary} htemporary hs hP ht hhistory := by
    have hcredential := isCredentialName_credentialName hname
    have hsealed : ∀ j, Sealed j t ↔ Sealed j s ∨ j = i :=
      fun _ => sealed_append_of_seals hhistory hcredential
    have hchange : Change crypto IsKey calls i s t := by
      refine .used hcall hname hcode hkey hP.2 hfile husername hindex ?_ (fun name' hname' hne => ?_)
        hsealed
      · rw [ht, AList.lookup_insert]
      · rw [ht, lookup_renamed htemporary hne (not_isTemporary hname')]
    have hconfigured := hchange.configured hP.1.2
    obtain ⟨hg, hinv⟩ := hX.guarantee hs (t := t) {
      euid := by rw [ht]
      history := ⟨_, hhistory.symm⟩
      gate := fun j hij hj => absurd (Option.some.inj (hP.1.1.symm.trans hj)) hij
      pending := fun j _ hj => by
        rw [ht]
        exact ⟨hj, rfl⟩
      files := .inr (.inl hP.1)
      directory := .of_eq (by rw [ht])
      key := fun _ => by
        have hne : keyFileName ≠ credentialName username := by
          intro heq
          exact not_isCredentialName_keyFileName (heq ▸ hcredential)
        rw [ht, lookup_renamed htemporary hne not_isTemporary_keyFileName]
      change := hchange } (fun hholder hsome => by
        rw [ht] at hholder hsome
        cases hP.1.2.symm.trans (hs.1.pending hholder hsome))
    refine ⟨hg, hinv, ⟨?_, hconfigured⟩, (hsealed i).2 (.inr rfl)⟩
    rw [ht]
    exact hP.1.1
  unsynced hs _ := hs.1

/-- A factor that is a recovery code is accepted only after its digest is gone from the file. -/
theorem checkFactor_safe {secretBase32 : List Char} {key : List UInt8} (hkey : IsKey key) (hfile :
    file.content = .json credential) (husername : credential.username = username) (hs : GatedAt i
    username file s) :
    hX.Ends i (checkFactor crypto euid key credential secretBase32 username factor now)
      (fun method t => Gated i t ∧ (method = .recovery → Sealed i t)) (fun _ => Gated i) s := by
  have hfails : ∀ t, (sharing crypto IsKey calls i).rely s t → (setting calls allow X i).inv t →
      Gated i t := fun t hst _ => keeps_gated s t hs.1 hst
  rw [checkFactor]
  split
  · refine .ofOption hfails fun secret _ => .ensure hfails fun _ =>
      .ensure hfails fun _ => .ensure hfails fun _ => .ret ?_
    exact fun t hst ht => ⟨hfails t hst ht, fun h => by cases h⟩
  · refine .ofOption hfails fun code hcode => .ofOption hfails fun index hindex => ?_
    refine .attempt (R := fun _ t => Gated i t ∧ Sealed i t) ?_ fun _ t _ h =>
      .ret fun u htu hu => ⟨(h u htu hu).1, fun _ => (h u htu hu).2⟩
    refine .ensure hfails fun _ => ?_
    subst husername
    exact atomicWrite_safe (writing_used hX hcall hname hcode hkey hfile rfl hindex) hs

/-- Behind the gate, the credential that was read stays as it is until the call writes it. -/
theorem verifyLocked_safe (hs : s.state.gateHolder = some i) :
    hX.Ends i (verifyLocked crypto euid username factor now)
      (fun method t => t.state.gateHolder = some i ∧ (method = .recovery → Sealed i t))
      (fun _ t => t.state.gateHolder = some i) s := by
  refine hX.attempt_quiet (performs_validateDirectory euid) keeps_gate hs (fun _ _ h => h)
    fun _ t ht => ?_
  refine hX.attempt_reading (loadExistingKey_meets euid IsKey) keeps_gate
    (fun s _ hinv file hfile bytes hbytes => hX.key hinv.2 hfile hbytes) ht (fun _ _ h => h)
    fun key u hkey hu => ?_
  refine .request fun v huv hv x found v' hC hx => ?_
  obtain ⟨hr, hg, hv'⟩ := hX.quiet i (.fileExists _) _ _ _ _ trivial hv hC hx
  have hgate := keeps_gate _ _ (keeps_gate u v hu huv) hr
  refine ⟨hg, hv', fun b hb => ?_, fun e he => by cases he⟩
  cases hb
  split
  · next hfound =>
    -- The user has a credential, so nobody else writes files from here on.
    obtain ⟨file, hfile⟩ : ∃ file, v'.state.files.lookup (credentialName username) = some file := by
      rw [files_of_exec (o := .fileExists _) trivial hx]
      obtain ⟨hexec, -⟩ := machine_eq_some_iff.1 hx
      cases x <;> simp only [PamWorld.exec, reduceCtorEq, Option.some.injEq, Prod.mk.injEq] at hexec
      · exact Option.isSome_iff_exists.1 (hexec.1.trans hfound)
      · cases hexec.1.trans hfound
    have hconfigured : configured v'.state = true :=
      configured_iff.2 ⟨_, isCredentialName_credentialName hname, by rw [hfile]; rfl⟩
    have hat : GatedAt i username file v' := ⟨⟨hgate, hconfigured⟩, hfile⟩
    refine hX.attempt_reading (readCredential_meets euid _ fun c => file.content = .json c)
      keeps_gatedAt (fun s hs _ file' hfile' c hc => ?_) hat (fun _ _ h => h.1.1)
      fun credential w hcredential hw => ?_
    · rw [← hc, Option.some.inj (hs.2.symm.trans hfile')]
    · have hfails : ∀ t, (sharing crypto IsKey calls i).rely w t →
          (setting calls allow X i).inv t → t.state.gateHolder = some i :=
        fun t hwt _ => hwt.gate hw.1.1
      refine .ensure hfails fun hvalid => .ofOption hfails fun secret _ => ?_
      refine (checkFactor_safe hX hcall hname hkey hcredential hvalid.1 hw).weaken fun r t _ h => ?_
      cases r with
      | ok method => exact ⟨h.1.1, h.2⟩
      | error e => exact h.1
  · exact .ret fun w hw _ => hw.gate hgate

end

variable {holder : Option ℕ}

omit hX in
theorem absurd_other (hlock : holder = none ∨ holder = some i) {j : ℕ}
    (hij : i ≠ j) (hj : holder = some j) : False := by
  rcases hlock with hlock | hlock
  · cases hlock.symm.trans hj
  · exact hij (Option.some.inj (hlock.symm.trans hj))

variable {o : PamOp δ}

/-- To take the gate when it is free, and to give it back, keeps the contract. -/
theorem Surroundings.gate (hs : (setting calls allow X i).inv s)
    (hlock : s.state.gateHolder = none ∨ s.state.gateHolder = some i)
    (ht : t.state = { s.state with gateHolder := holder }) {a : o.Ans}
    (hhistory : t.history = s.history ++ [⟨i, o, a⟩]) (hseals : ¬ Seals o a) :
    hX.Step i s t := by
  obtain ⟨_, _⟩ := t
  cases ht
  exact hX.guarantee hs ⟨rfl, ⟨_, hhistory.symm⟩, fun _ hij hj => (absurd_other hlock hij hj).elim,
    fun _ _ hj => ⟨hj, rfl⟩, .inl rfl, .of_eq rfl, fun _ => rfl,
    .nothing (fun _ _ => rfl) fun _ => sealed_append_of_not hhistory hseals⟩ hs.1.pending

/-- The answer that a recovery code was accepted is given only once it was used up. -/
theorem verify_safe (hcall : callOf calls i = some (.verify username factor now)) :
    hX.Safe i (verify crypto euid username factor now)
      (fun r t => r = .ok .recovery → Sealed i t) s := by
  rw [verify]
  split
  · next hname =>
    refine .call fun t hst ht x a u hC hx => ?_
    obtain ⟨hexec, hhistory⟩ := machine_eq_some_iff.1 hx
    have hlock : t.state.gateHolder = none ∧ u.state = { t.state with gateHolder := some i } := by
      cases x <;> simp [PamWorld.exec] at hexec
      exact ⟨hexec.1, hexec.2.symm⟩
    obtain ⟨hg, hu⟩ := hX.gate ht (.inl hlock.1) hlock.2 hhistory id
    refine ⟨hg, hu, ?_⟩
    refine (verifyLocked_safe hX hcall hname (by rw [hlock.2])).bind_rely fun r v hv hr => ?_
    refine .call fun v' hvv' hv' x a w hC hx => ?_
    have hpost := hr v' hvv' hv'
    have hgate : v'.state.gateHolder = some i := by
      cases r with
      | ok method => exact hpost.1
      | error e => exact hpost
    obtain ⟨hexec, hhistory⟩ := machine_eq_some_iff.1 hx
    have hunlock : w.state = { v'.state with gateHolder := none } := by
      cases x <;> simp [PamWorld.exec] at hexec
      exact hexec.symm
    obtain ⟨hg, hw⟩ := hX.gate hv' (.inr hgate) hunlock hhistory id
    refine ⟨hg, hw, .ret fun w' hw' _ hrecovery => ?_⟩
    rw [hrecovery] at hpost
    exact ((hpost.2 rfl).mono hg.history).mono hw'.history
  · exact .ret fun _ _ _ h => by cases h

/-! ## Enrolment -/

/-- The call has the lock of the memory, and there is no credential. -/
def Enrolling (i : ℕ) (s : PamState δ) : Prop :=
  s.state.pendingHolder = some i ∧ configured s.state = false

/-- The call has the lock of the memory, and has written a credential. -/
def Enrolled (i : ℕ) (s : PamState δ) : Prop :=
  s.state.pendingHolder = some i ∧ configured s.state = true ∧ Sealed i s

omit hX in
theorem keeps_enrolling : (sharing crypto IsKey calls i).Keeps (Enrolling i) := by
  rintro s t hs hst
  refine ⟨(hst.pending hs.1).1, ?_⟩
  rw [configured_congr (w := s.state) fun _ _ => by rw [hst.files (.inr hs)]]
  exact hs.2

omit hX in
theorem keeps_enrolled : (sharing crypto IsKey calls i).Keeps (Enrolled i) :=
  fun _ _ hs hst => ⟨(hst.pending hs.1).1, hst.configured hs.2.1, hs.2.2.mono hst.history⟩

omit hX in
omit [DecidableEq δ] in
theorem Enrolling.aside (hs : Enrolling i s) (h : Aside i s t) : Enrolling i t :=
  ⟨h.pendingHolder.trans hs.1, h.configured.trans hs.2⟩

/-- A file that is put in its place while nothing is enrolled keeps the contract. -/
theorem Surroundings.renamed {temporary : List Char} (hs : (setting calls allow X i).inv s)
    (hP : Enrolling i s)
    (ht : t.state = { s.state with files := (s.state.files.erase temporary).insert name file })
    (hhistory : s.history <+: t.history) (hchange : Change crypto IsKey calls i s t) :
    hX.Step i s t := by
  refine hX.guarantee hs ⟨?_, hhistory, ?_, ?_, .inr (.inr hP), .of_eq ?_, ?_, hchange⟩ ?_
  · rw [ht]
  · intro j _ hj
    rw [ht]
    exact hj
  · intro j hij hj
    exact absurd (Option.some.inj (hP.1.symm.trans hj)) hij
  · rw [ht]
  · intro hconfigured
    cases hP.2.symm.trans hconfigured
  · intro hholder
    rw [ht] at hholder
    cases hP.1.symm.trans hholder

/-- To write a new key keeps the contract while no credential is there. -/
theorem writing_key {content : PamContent} :
    Writing hX i keyFileName content (Enrolling i) (Enrolling i)
      (Enrolling i) where
  keeps := keeps_enrolling
  keeps_failed := keeps_enrolling
  keeps_renamed := keeps_enrolling
  aside := Enrolling.aside
  aside_failed := Enrolling.aside
  failed hs := hs
  mine hs := .inr hs
  renamed {s t temporary} htemporary hs hP ht hhistory := by
    have hsame : ∀ name, isCredentialName name →
        t.state.files.lookup name = s.state.files.lookup name := fun name hname => by
      have hne : name ≠ keyFileName := by
        rintro rfl
        exact not_isCredentialName_keyFileName hname
      rw [ht, lookup_renamed htemporary hne (not_isTemporary hname)]
    obtain ⟨hg, hinv⟩ := hX.renamed hs hP ht ⟨_, hhistory.symm⟩ (.nothing hsame fun _ =>
      sealed_append_of_not hhistory not_isCredentialName_keyFileName)
    refine ⟨hg, hinv, ?_, ?_⟩
    · rw [ht]
      exact hP.1
    · rw [configured_congr hsame]
      exact hP.2
  unsynced hs _ := hs

/-- To write the first credential keeps the contract. -/
theorem writing_first {content : PamContent} (hcall : (callOf calls i).any PamCall.isConfirm)
    (hname : validUsername username) :
    Writing hX i (credentialName username) content (Enrolling i)
      (Enrolling i) (Enrolled i) where
  keeps := keeps_enrolling
  keeps_failed := keeps_enrolling
  keeps_renamed := keeps_enrolled
  aside := Enrolling.aside
  aside_failed := Enrolling.aside
  failed hs := hs
  mine hs := .inr hs
  renamed {s t temporary} htemporary hs hP ht hhistory := by
    have hcredential := isCredentialName_credentialName hname
    have hsealed : ∀ j, Sealed j t ↔ Sealed j s ∨ j = i :=
      fun _ => sealed_append_of_seals hhistory hcredential
    have hconfigured : configured t.state = true :=
      configured_iff.2 ⟨_, hcredential, by rw [ht, AList.lookup_insert]; rfl⟩
    obtain ⟨hg, hinv⟩ := hX.renamed hs hP ht ⟨_, hhistory.symm⟩
      (.first hP.2 hcall hsealed hconfigured hP.1)
    refine ⟨hg, hinv, ?_, hconfigured, (hsealed i).2 (.inr rfl)⟩
    rw [ht]
    exact hP.1
  unsynced hs hC := by
    cases hs.2.1.symm.trans (hX.orderly hC hcall)

/-- A key is created only while nothing is enrolled. -/
theorem loadOrCreateKey_safe (hs : Enrolling i s) :
    hX.Ends i (loadOrCreateKey crypto euid) (fun _ => Enrolling i) (fun _ => Enrolling i) s := by
  refine hX.attempt_quiet (performs_request trivial) keeps_enrolling hs (fun _ _ h => h)
    fun found t ht => ?_
  split
  · refine (hX.quiet_safe (performs_readKey euid) keeps_enrolling ht).weaken fun r _ _ h => ?_
    cases r with
    | ok key => exact h.2
    | error e => exact h.2
  · refine hX.attempt_quiet (performs_randomBytes _) keeps_enrolling ht (fun _ _ h => h)
      fun key u hu => ?_
    refine .attempt (atomicWrite_safe (writing_key hX) hu) fun _ v hv h => ?_
    exact .ret h

/-- An enrolment that is confirmed leaves its credential in the file. -/
theorem completeEnrollment_safe {pending : PamPendingEnrollment δ} (hcall : (callOf calls i).any
    PamCall.isConfirm) (hs : Enrolling i s) :
    hX.Ends i (completeEnrollment crypto euid pending totpCode now) (fun _ => Enrolled i)
      (fun _ => Enrolling i) s := by
  have hfails : ∀ s : PamState δ, Enrolling i s → ∀ t, (sharing crypto IsKey calls i).rely s t →
      (setting calls allow X i).inv t → Enrolling i t :=
    fun s hs t hst _ => keeps_enrolling s t hs hst
  refine .ofOption (hfails s hs) fun secret _ => .ensure (hfails s hs) fun _ =>
    .ensure (hfails s hs) fun _ => .ensure (hfails s hs) fun _ => ?_
  refine hX.attempt_quiet (performs_ensureDirectory euid) keeps_enrolling hs (fun _ _ h => h)
    fun _ t ht => ?_
  refine .attempt (R := fun _ => Enrolling i) (loadOrCreateKey_safe hX ht) fun key u hu h => ?_
  have hs := h u ((sharing crypto IsKey calls i).rely_refl u) hu
  refine .ofOption (hfails u hs) fun digests _ => ?_
  refine hX.attempt_quiet (performs_bind (performs_randomBytes _) fun _ => trivial) keeps_enrolling hs
    (fun _ _ h => h) fun credential v hv => ?_
  refine .attempt (R := fun _ => Enrolled i) ?_ fun _ _ _ h => .ret h
  refine .ensure (hfails v hv) fun hname => ?_
  exact atomicWrite_safe (writing_first hX hcall hname) hv

variable {enrollmentId : List Char}

/-- An enrolment stays pending only as long as nobody is enrolled. -/
theorem confirmPending_safe (hcall : (callOf calls i).any PamCall.isConfirm)
    (hs : s.state.pendingHolder = some i) (hslot : slot.isSome → configured s.state = false) :
    hX.Safe i (confirmPending crypto euid slot enrollmentId totpCode now)
      (fun r t => t.state.pendingHolder = some i ∧ (r.1.isSome → configured t.state = false) ∧
        ∀ complete, r.2 = .ok complete → Sealed i t) s := by
  cases slot with
  | none =>
    exact .ret fun t hst _ => ⟨(hst.pending hs).1, fun h => (by cases h), fun _ h => by cases h⟩
  | some pending =>
    have henrolling : Enrolling i s := ⟨hs, hslot rfl⟩
    rw [confirmPending]
    split
    · refine .ret fun t hst _ => ?_
      have ht := keeps_enrolling s t henrolling hst
      exact ⟨ht.1, fun _ => ht.2, fun _ h => by cases h⟩
    · refine (completeEnrollment_safe hX hcall henrolling).bind_rely fun r t _ h => ?_
      cases r with
      | ok complete =>
        exact .ret fun u htu hu =>
          ⟨(h u htu hu).1, fun h => (by cases h), fun _ _ => (h u htu hu).2.2⟩
      | error e =>
        exact .ret fun u htu hu =>
          ⟨(h u htu hu).1, fun _ => (h u htu hu).2, fun _ h => by cases h⟩

/-- To take the pending enrolment when it is free, and to put it back, keeps the contract. -/
theorem Surroundings.memory (hs : (setting calls allow X i).inv s)
    (hlock : s.state.pendingHolder = none ∨ s.state.pendingHolder = some i)
    (ht : t.state = { s.state with pending := slot, pendingHolder := holder })
    (hslot : holder = none → slot.isSome → configured s.state = false) {a : o.Ans}
    (hhistory : t.history = s.history ++ [⟨i, o, a⟩]) (hseals : ¬ Seals o a) :
    hX.Step i s t := by
  obtain ⟨_, _⟩ := t
  cases ht
  exact hX.guarantee hs ⟨rfl, ⟨_, hhistory.symm⟩, fun _ _ hj => hj,
    fun _ hij hj => (absurd_other hlock hij hj).elim, .inl rfl, .of_eq rfl, fun _ => rfl,
    .nothing (fun _ _ => rfl) fun _ => sealed_append_of_not hhistory hseals⟩ hslot

variable {x : PamChoice} {w w' : PamWorld δ}

omit hX in
omit [DecidableEq δ] in
theorem exec_lockPending {a : Option (PamPendingEnrollment δ)}
    (h : PamWorld.exec i .lockPending x w = some (a, w')) :
    w.pendingHolder = none ∧ a = w.pending ∧ w' =
      { w with pending := w.pending, pendingHolder := some i } := by
  cases x <;> simp [PamWorld.exec] at h
  exact ⟨h.1, h.2.1.symm, h.2.2.symm⟩

omit hX in
omit [DecidableEq δ] in
theorem exec_unlockPending {a : Unit}
    (h : PamWorld.exec i (.unlockPending slot) x w = some (a, w')) :
    w' = { w with pending := slot, pendingHolder := none } := by
  cases x <;> simp [PamWorld.exec] at h
  exact h.symm

/-- The answer that an enrolment is complete is given only once it is stored. -/
theorem confirmEnrollment_safe (hcall : (callOf calls i).any PamCall.isConfirm) :
    hX.Safe i (confirmEnrollment crypto euid enrollmentId totpCode now)
      (fun r t => ∀ complete, r = .ok complete → Sealed i t) s := by
  rw [confirmEnrollment]
  split
  · refine .call fun t hst ht x slot u hC hx => ?_
    obtain ⟨hexec, hhistory⟩ := machine_eq_some_iff.1 hx
    obtain ⟨hfree, rfl, hstate⟩ := exec_lockPending hexec
    obtain ⟨hg, hu⟩ := hX.memory ht (.inl hfree) hstate (fun h => by cases h) hhistory id
    refine ⟨hg, hu, ?_⟩
    have hholder : u.state.pendingHolder = some i := by rw [hstate]
    have hslot : t.state.pending.isSome → configured u.state = false := by
      rw [hstate]
      exact ht.1.pending hfree
    refine (confirmPending_safe hX hcall hholder hslot).bind_rely fun r v _ hr => ?_
    refine .call fun v' hvv' hv' x a w hC hx => ?_
    obtain ⟨hholder, hslot, hsealed⟩ := hr v' hvv' hv'
    obtain ⟨hexec, hhistory⟩ := machine_eq_some_iff.1 hx
    obtain ⟨hg, hw⟩ := hX.memory hv' (.inr hholder) (exec_unlockPending hexec) (fun _ => hslot)
      hhistory id
    refine ⟨hg, hw, .ret fun w' hww' _ complete hcomplete => ?_⟩
    exact ((hsealed complete hcomplete).mono hg.history).mono hww'.history
  · exact .ret fun _ _ _ _ h => by cases h

/-- An enrolment is started only while nobody is enrolled. -/
theorem startEnrollment_safe (hcall : (callOf calls i).any PamCall.isStart) :
    hX.Safe i (startEnrollment crypto euid username now).run (fun _ _ => True) s := by
  have hkeeps : (sharing crypto IsKey calls i).Keeps fun _ => True := Sharing.keeps_true
  refine .ensure (fun _ _ _ => trivial) fun _ => ?_
  refine hX.attempt_quiet (performs_setupRequired euid) hkeeps trivial (fun _ _ _ => trivial)
    fun required t _ => ?_
  refine .ensure (fun _ _ _ => trivial) fun _ => ?_
  refine hX.attempt_quiet (performs_randomBytes _) hkeeps trivial (fun _ _ _ => trivial)
    fun secret t _ => ?_
  refine .ensure (fun _ _ _ => trivial) fun _ => ?_
  refine hX.attempt_quiet (performs_randomBytes _) hkeeps trivial (fun _ _ _ => trivial)
    fun enrollment t _ => ?_
  refine hX.attempt_quiet (performs_generateRecoveryCodes _) hkeeps trivial (fun _ _ _ => trivial)
    fun codes t _ => ?_
  refine .attempt (R := fun _ _ => True) ?_ fun _ _ _ _ => .ret_trivial
  refine .request fun t' _ ht' x slot u hC hx => ?_
  obtain ⟨hexec, hhistory⟩ := machine_eq_some_iff.1 hx
  obtain ⟨hfree, -, hstate⟩ := exec_lockPending hexec
  obtain ⟨hg, hu⟩ := hX.memory ht' (.inl hfree) hstate (fun h => by cases h) hhistory id
  refine ⟨hg, hu, fun _ _ => ?_, fun _ h => by cases h⟩
  have hholder : u.state.pendingHolder = some i := by rw [hstate]
  refine .request_last fun v huv hv x a w hC hx => ?_
  obtain ⟨hexec, hhistory⟩ := machine_eq_some_iff.1 hx
  have hnone : configured v.state = false := hX.orderly hC hcall
  obtain ⟨hg, hw⟩ := hX.memory hv (.inr (huv.pending hholder).1) (exec_unlockPending hexec)
    (fun _ _ => hnone) hhistory id
  exact ⟨hg, hw, fun _ _ _ => trivial⟩

end

end PamMfa

end VpsGuard
