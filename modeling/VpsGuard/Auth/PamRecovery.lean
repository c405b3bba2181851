import Mathlib.Data.List.ReduceOption
import VpsGuard.Auth.PamEnrollment
import VpsGuard.Auth.PamStored

/-!
# Recovery codes of PAM administrators

Second factors of an administrator are verified, side by side; the helper may
crash, and any operation may fail. Each recovery code is good for one verification
(`singleUse`):

* one call at most is accepted with it;
* a call that presents it, and whose own operations succeed, is accepted, unless
  another call has used it up (`verify_certain`); and it does return once the lock
  is free (`verify_runs`);
* a step of a call changes the stored codes only by using up the code that the call
  presents.
-/

namespace VpsGuard

open Effect Effect.Host Effect.Recorded Fallible

namespace PamMfa

variable {δ : Type} [DecidableEq δ]

theorem isDigit_of_isDigit {c : Char} (h : c.isDigit) : RecoveryCode.IsDigit c := by
  rw [Char.isDigit, Bool.and_eq_true, decide_eq_true_eq, decide_eq_true_eq] at h
  have hlow : 48 ≤ c.toNat := UInt32.le_iff_toNat_le.1 h.1
  have hhigh : c.toNat ≤ 57 := UInt32.le_iff_toNat_le.1 h.2
  refine ⟨c.toNat - 48, by omega, ?_⟩
  rw [RecoveryCode.hexDigit, if_pos (by omega), Nat.add_sub_cancel' hlow, Char.ofNat_toNat]

variable {factor code : List Char}

theorem not_validTotpShape (h : normalizeRecoveryCode factor = some code) :
    ¬ validTotpShape factor := by
  intro hshape
  rw [validTotpShape, Bool.and_eq_true, decide_eq_true_eq, List.all_eq_true] at hshape
  have hkept := RecoveryCode.kept_of_spells (.refl factor) fun c hc =>
    isDigit_of_isDigit (hshape.2 c hc)
  rw [normalizeRecoveryCode] at h
  split at h
  · next hlength =>
    have := hlength.1.symm.trans ((congrArg Text.byteLength hkept).trans hshape.1)
    cases this
  · cases h

theorem checkFactor_of_index {crypto : PamCrypto δ} {euid : ℕ} {key : List UInt8}
    {username secretBase32 : List Char} {now : ℤ} {credential : SealedCredential}
    {index : ℕ} (hname : validUsername username) (hcode : normalizeRecoveryCode factor = some code)
    (hnamed : credential.username = username)
    (hindex : digestIndex crypto (crypto.recoveryDigest key username code)
      credential.recoveryDigests = some index) :
    checkFactor crypto euid key credential secretBase32 username factor now = (do
      atomicWrite crypto euid (credentialName username)
        (.json { credential with recoveryDigests := credential.recoveryDigests.eraseIdx index })
      return .recovery) := by
  rw [checkFactor, if_neg (not_validTotpShape hcode), hcode, ofOption_some_bind]
  dsimp only
  rw [hindex, ofOption_some_bind, writeCredential, hnamed, ensure_bind hname]

/-! ## Calls that succeed -/

section

variable {crypto : PamCrypto δ} {euid : ℕ} {key : List UInt8} {username code : List Char}
  {calls : List (ℕ × PamCall)} {allow : ℕ → PamOp δ → PamChoice → PamState δ → Prop}
  {i : ℕ} {s t : PamState δ} {credential : SealedCredential} {file : PamFile}

theorem surroundings (hcalls : ∀ call ∈ calls, call.2.isVerify)
    (hinj : Function.Injective (crypto.recoveryDigest key username))
    (hname : validUsername username) :
    Surroundings crypto (· = key) calls allow (Stored crypto euid key username code calls) where
  orderly {i o x s} _ := by
    have hcall : ∀ f : PamCall → Bool, (∀ call, call.isVerify → f call = false) →
        ¬ (callOf calls i).any f := by
      intro f hf h
      obtain ⟨call, hcall, hfcall⟩ := (Option.any_eq_true _ _).1 h
      obtain ⟨entry, hentry, rfl⟩ := Option.map_eq_some_iff.1 hcall
      rw [hf _ (hcalls entry (List.mem_of_getElem? hentry))] at hfcall
      cases hfcall
    unfold Orderly
    split
    · refine fun h => absurd h (hcall _ fun call hverify => ?_)
      cases call <;> first | rfl | cases hverify
    · refine fun h => absurd h (hcall _ fun call hverify => ?_)
      cases call <;> first | rfl | cases hverify
    · trivial
  step _ _ hs hg := hs.step hinj hname hg
  crash hs := by
    obtain ⟨credential, hpresent, hrest⟩ := hs.present
    exact ⟨⟨credential, ⟨hpresent.user, hpresent.directory, hpresent.keyFile, hpresent.file,
      hpresent.named, hpresent.version, hpresent.opens⟩, hrest⟩, hs.unique⟩
  key {s file bytes} hs hfile hbytes := by
    obtain ⟨credential, hpresent, -⟩ := hs.present
    obtain ⟨metadata, hkey, -⟩ := hpresent.keyFile
    cases hfile.symm.trans hkey
    exact (PamContent.bytes.inj hbytes).symm

omit [DecidableEq δ] in
theorem Stored.present_of_gatedAt (hs : Stored crypto euid key username code calls s)
    (hat : GatedAt i username file s) (hfile : file.content = .json credential) :
    Present crypto euid key username credential s.state := by
  obtain ⟨credential', hpresent, -⟩ := hs.present
  obtain ⟨metadata, hfile', -⟩ := hpresent.file
  cases hat.2.symm.trans hfile'
  cases hfile
  exact hpresent

variable {x : PamChoice} {w w' : PamWorld δ} {a : Except Unit Unit} {content : PamContent}
  {name : List Char}

omit [DecidableEq δ] in
theorem exec_createFile_succeeds (hx : x.succeeds)
    (h : PamWorld.exec i (.createFile name) x w = some (a, w')) : a = .ok () := by
  cases x <;> simp [PamWorld.exec] at h
  · exact h.2.1.symm
  · cases hx

omit [DecidableEq δ] in
theorem exec_writeFile_succeeds (hx : x.succeeds) (hfile : w.files.lookup name = some file)
    (h : PamWorld.exec i (.writeFile name content) x w = some (a, w')) : a = .ok () := by
  cases x <;> simp [PamWorld.exec, hfile] at h
  · exact h.1.symm
  · cases hx
  · cases hx

omit [DecidableEq δ] in
theorem exec_renameFile_succeeds {source target : List Char} (hx : x.succeeds)
    (hfile : w.files.lookup source = some file)
    (h : PamWorld.exec i (.renameFile source target) x w = some (a, w')) : a = .ok () := by
  cases x <;> simp [PamWorld.exec, hfile] at h
  · exact h.1.symm
  · cases hx

variable (hX : Surroundings crypto (· = key) calls allow
    (Stored crypto euid key username code calls))
  (hallow : ∀ o x s, allow i o x s → x.succeeds) (hfile : file.content = .json credential)

/-- Safety of what the call runs once it is known to be safe. -/
abbrev Surroundings.Trusted {α : Type} (_ : Surroundings crypto (· = key) calls allow
    (Stored crypto euid key username code calls)) (i : ℕ) (p : Prog (Pam δ) α)
    (Q : α → PamState δ → Prop) : PamState δ → Prop :=
  p.Safe ((setting calls allow (Stored crypto euid key username code calls) i).trusted
    (sharing crypto (· = key) calls i)) (sharing crypto (· = key) calls i) Q

include hX hallow hfile

theorem attempt_certain {α β : Type} {p : Helping δ α} {Z : α → Prop} {k : α → Helping δ β}
    {Q : Except PamMfaError β → PamState δ → Prop} (hp : Certain euid key username credential p Z)
    (hs : GatedAt i username file s)
    (hk : ∀ a t, Z a → GatedAt i username file t → hX.Trusted i (k a).run Q t) :
    hX.Trusted i (p >>= k).run Q s := by
  have hsafe : hX.Trusted i p.run _ s := .of_meets (P := GatedAt i username file) hp
    (fun s t h hst _ => keeps_gatedAt s t h hst) (fun o x s a t ho h hinv hC hx => by
      obtain ⟨hr, hg, ht⟩ := hX.quiet i o x s a t ho hinv hC.1 hx
      exact ⟨hg, ht, keeps_gatedAt s t h hr, answered_of_exec (hinv.2.present_of_gatedAt h hfile)
        (hallow o x s hC.1) (machine_eq_some_iff.1 hx).1⟩) hs
  refine .attempt (R := fun a t => Z a ∧ GatedAt i username file t)
    (hsafe.weaken fun r t _ h => ?_) fun a t ht h => ?_
  · cases r with
    | ok a => exact h
    | error e => exact h.1.elim
  · obtain ⟨hZ, hat⟩ := h t ((sharing crypto (· = key) calls i).rely_refl t) ht
    exact hk a t hZ hat

section

variable {B R : PamState δ → Prop}
  (hW : Writing hX i (credentialName username) content (GatedAt i username file) B R)
  (hs : GatedAt i username file s)

include hW hs

omit hfile in
theorem replaceFile_certain {temporary : List Char} (htemporary : isTemporary temporary) :
    hX.Trusted i (replaceFile temporary (credentialName username) content).run
      (fun r _ => r = .ok ()) s := by
  refine .request fun t hst ht x a u hC hx => ?_
  obtain ⟨hexec, -⟩ := machine_eq_some_iff.1 hx
  obtain rfl := exec_createFile_succeeds (hallow _ _ _ hC.1) hexec
  obtain ⟨hg, hu⟩ := hC.2 _ _ hx
  refine ⟨hg, hu, fun _ _ => ?_, fun _ h => by cases h⟩
  have hcreated : Holds (GatedAt i username file) temporary (.bytes []) u := by
    refine ⟨hW.aside (hW.keeps s t hs hst) (aside_of_exec (o := .createFile _) htemporary hx), ?_⟩
    rw [exec_createFile_ok hexec, AList.lookup_insert]
  clear hg hu hexec hx hC ht hst hs
  refine .request fun t hst ht x a v hC hx => ?_
  obtain ⟨hP, hempty⟩ := hW.keeps_holds u t hcreated hst
  obtain ⟨hexec, -⟩ := machine_eq_some_iff.1 hx
  obtain rfl := exec_writeFile_succeeds (hallow _ _ _ hC.1) hempty hexec
  obtain ⟨hg, hv⟩ := hC.2 _ _ hx
  refine ⟨hg, hv, fun _ _ => ?_, fun _ h => by cases h⟩
  have hwritten : Holds (GatedAt i username file) temporary content v := by
    refine ⟨hW.aside hP (aside_of_exec (o := .writeFile _ _) htemporary hx), ?_⟩
    rw [exec_writeFile_ok hempty hexec, AList.lookup_insert]
  clear hg hv hexec hx hC hP hempty ht hst hcreated
  refine .request fun t hst ht x a w hC hx => ?_
  obtain ⟨hr, hg, hw⟩ := hX.quiet i (.syncFile temporary) _ _ _ _ trivial ht hC.1 hx
  obtain ⟨credential, hpresent, -⟩ := ht.2.present
  obtain rfl := answered_of_exec hpresent (hallow _ _ _ hC.1) (machine_eq_some_iff.1 hx).1
  refine ⟨hg, hw, fun _ _ => ?_, fun _ h => by cases h⟩
  have hsynced := hW.keeps_holds _ _ (hW.keeps_holds v t hwritten hst) hr
  clear hg hw hx hC hr hpresent ht hst hwritten
  refine .request fun t hst ht x a v hC hx => ?_
  obtain ⟨-, hheld⟩ := hW.keeps_holds w t hsynced hst
  obtain rfl := exec_renameFile_succeeds (hallow _ _ _ hC.1) hheld (machine_eq_some_iff.1 hx).1
  obtain ⟨hg, hv⟩ := hC.2 _ _ hx
  refine ⟨hg, hv, fun _ _ => ?_, fun _ h => by cases h⟩
  refine .request_last fun t' hvt' ht' x a u' hC hx => ?_
  obtain ⟨hg, hu'⟩ := hC.2 _ _ hx
  obtain ⟨credential', hpresent', -⟩ := ht'.2.present
  obtain rfl := answered_of_exec hpresent' (hallow _ _ _ hC.1) (machine_eq_some_iff.1 hx).1
  exact ⟨hg, hu', fun _ _ _ => rfl⟩

theorem atomicWrite_certain :
    hX.Trusted i (atomicWrite crypto euid (credentialName username) content).run
      (fun r _ => r = .ok ()) s := by
  refine attempt_certain hX hallow hfile certain_ensureDirectory hs fun _ t _ ht => ?_
  refine attempt_certain hX hallow hfile (certain_randomBytes 12) ht fun random u _ hu => ?_
  refine (replaceFile_certain hX hallow hW hu (isTemporary_temporaryName crypto _ random)).bind
    fun r v _ hr => ?_
  subst hr
  exact .ret fun _ _ _ => rfl

end

/-- The code has been used by another call. -/
def Beaten (calls : List (ℕ × PamCall)) (username code : List Char) (i : ℕ) (s : PamState δ) :
    Prop := ∃ j, j ≠ i ∧ Presents calls username code j ∧ Sealed j s

omit hX hallow hfile in
omit [DecidableEq δ] in
theorem Beaten.mono (h : s.history <+: t.history) (hs : Beaten calls username code i s) :
    Beaten calls username code i t := by
  obtain ⟨j, hij, hj, hsealed⟩ := hs
  exact ⟨j, hij, hj, hsealed.mono h⟩

variable {factor : List Char} {now : ℤ} {index : ℕ}
  (hcall : callOf calls i = some (.verify username factor now)) (hname : validUsername username)
  (hcode : normalizeRecoveryCode factor = some code)
  (hindex : digestIndex crypto (crypto.recoveryDigest key username code)
    credential.recoveryDigests = some index)
  (hs : GatedAt i username file s)

include hcall hname hcode hindex hs

theorem checkFactor_certain {secretBase32 : List Char} (hnamed : credential.username = username) :
    hX.Trusted i (checkFactor crypto euid key credential secretBase32 username factor now).run
      (fun r _ => r = .ok .recovery) s := by
  have hW := writing_used hX hcall hname hcode rfl hfile hnamed hindex
  rw [checkFactor_of_index hname hcode hnamed hindex]
  refine .attempt (R := fun _ _ => True) ?_ fun _ _ _ _ => .ret fun _ _ _ => rfl
  refine (atomicWrite_certain hX hallow hfile hW hs).weaken fun r _ _ hr => ?_
  subst hr
  trivial

theorem verifyLocked_certain (hkey : key.length = masterKeyBytes)
    (hpresent : Present crypto euid key username credential s.state) :
    hX.Trusted i (verifyLocked crypto euid username factor now).run (fun r _ => r = .ok .recovery) s
      := by
  refine attempt_certain hX hallow hfile certain_validateDirectory hs fun _ t _ ht => ?_
  refine attempt_certain hX hallow hfile (certain_loadExistingKey hkey) ht fun key' u hkey' hu => ?_
  subst hkey'
  refine attempt_certain hX hallow hfile (certain_fileExists (.inr rfl)) hu
    fun found v hfound hv => ?_
  subst hfound
  refine attempt_certain hX hallow hfile certain_readCredential hv fun credential' w hread hw => ?_
  subst hread
  obtain ⟨secret, hsecret⟩ := Option.isSome_iff_exists.1 hpresent.opens
  rw [ensure_bind ⟨hpresent.named, hpresent.version⟩, hsecret, ofOption_some_bind]
  exact checkFactor_certain hX hallow hfile hcall hname hcode hindex hw hpresent.named

omit hfile hindex hs in
theorem verify_certain (hkey : key.length = masterKeyBytes) (hs : ¬ Sealed i s) :
    hX.Trusted i (verify crypto euid username factor now)
      (fun r t => r = .ok .recovery ∨ Beaten calls username code i t) s := by
  rw [verify, if_pos hname]
  refine .call fun t hst ht x a u hC hx => ?_
  obtain ⟨hexec, hhistory⟩ := machine_eq_some_iff.1 hx
  have hlock : u.state = { t.state with gateHolder := some i } := by
    cases x <;> simp [PamWorld.exec] at hexec
    exact hexec.2.symm
  obtain ⟨hg, hu⟩ := hC.2 _ _ hx
  refine ⟨hg, hu, ?_⟩
  obtain ⟨credential, hpresent, -, hiff⟩ := hu.2.present
  by_cases hbeaten : Beaten calls username code i u
  · -- The code has been used, and whatever the call does, it stays so.
    refine .weaken (fun _ _ _ h => .inr h) (.trusted_keeps
      (fun s t h hst => h.mono hst.history) (fun s t h hg => h.mono hg.history) hbeaten)
  · have hnobody : ∀ j, Presents calls username code j → ¬ Sealed j u := by
      intro j hj hsealed
      by_cases hij : j = i
      · subst hij
        rcases (sealed_append hhistory).1 hsealed with h | h
        · exact hs (hst.sealed h)
        · exact h.2
      · exact hbeaten ⟨j, hij, hj, hsealed⟩
    obtain ⟨index, hindex⟩ := exists_digestIndex (hiff.2 hnobody)
    obtain ⟨metadata, hfile, -⟩ := hpresent.file
    have hat : GatedAt i username ⟨metadata, .json credential⟩ u :=
      ⟨⟨by rw [hlock], hpresent.configured hname⟩, hfile⟩
    refine (verifyLocked_certain hX hallow rfl hcall hname hcode hindex hat hkey
      hpresent).bind fun r v _ hr => ?_
    subst hr
    refine .call fun t' _ _ x a w hC hx => ?_
    obtain ⟨hg, hw⟩ := hC.2 _ _ hx
    exact ⟨hg, hw, .ret fun _ _ _ => .inl rfl⟩

end

/-! ## Calls that return -/

section

variable {crypto : PamCrypto δ} {euid : ℕ} {key : List UInt8} {username code factor : List Char}
  {now : ℤ} {credential : SealedCredential} {i : ℕ} {s t : PamState δ}
  {allow : PamOp δ → PamChoice → PamState δ → Prop} {w : PamWorld δ}

omit [DecidableEq δ] in
theorem Present.quiet {w' : PamWorld δ} (h : Present crypto euid key username credential w)
    (hdirectory : DirectoryKept w w') (heq : w' = { w with directory := w'.directory }) :
    Present crypto euid key username credential w' where
  user := by rw [heq]; exact h.user
  directory := by
    obtain ⟨metadata, hsome, hprivate⟩ := h.directory
    obtain ⟨after, hafter, hkeeps⟩ := hdirectory metadata hsome
    rw [h.user] at hkeeps
    exact ⟨after, hafter, hkeeps hprivate⟩
  keyFile := by rw [heq]; exact h.keyFile
  file := by rw [heq]; exact h.file
  named := h.named
  version := h.version
  opens := h.opens

omit [DecidableEq δ] in
theorem exists_exec_quiet {o : PamOp δ} (ho : IsQuiet o) (hdirectory : w.directory.isSome) :
    ∃ x a w', x.succeeds ∧ PamWorld.exec i o x w = some (a, w') := by
  obtain ⟨metadata, hsome⟩ := Option.isSome_iff_exists.1 hdirectory
  cases o with
  | random n => exact ⟨.drawn (List.replicate n 0), _, w, rfl, if_pos List.length_replicate⟩
  | readDirectory =>
    have hlists : w.Lists (w.files.keys.map some) := by
      refine ⟨fun name hname => ?_, fun _ name hname => List.mem_map_of_mem hname⟩
      obtain ⟨name', hname', heq⟩ := List.mem_map.1 (List.reduceOption_mem_iff.1 hname)
      cases heq
      exact hname'
    exact ⟨.listed (w.files.keys.map some), _, w, by simp [PamChoice.succeeds],
      if_pos ⟨hdirectory, hlists⟩⟩
  | createDirectory => exact ⟨.done, _, w, rfl, by simp only [PamWorld.exec, hsome]; rfl⟩
  | chmodDirectory => exact ⟨.done, _, _, rfl, by simp only [PamWorld.exec, hsome]; rfl⟩
  | syncDirectory => exact ⟨.done, _, w, rfl, if_pos hdirectory⟩
  | directoryExists | directoryMetadata | fileExists | fileMetadata | readFile | syncFile =>
    exact ⟨.done, _, w, rfl, rfl⟩
  | _ => exact ho.elim

variable (hallow : ∀ o x s, x.succeeds → allow o x s)

include hallow

/-- Everything is present, and the files are these. -/
def At (crypto : PamCrypto δ) (euid : ℕ) (key : List UInt8) (username : List Char)
    (credential : SealedCredential) (files : AList fun _ : List Char => PamFile) (s : PamState δ) :
    Prop := Present crypto euid key username credential s.state ∧ s.state.files = files

variable {files : AList fun _ : List Char => PamFile}

omit [DecidableEq δ] in
theorem exists_runs_certain {α β : Type} {p : Helping δ α} {Z : α → Prop}
    {k : α → Helping δ β} {W : Except PamMfaError β → PamState δ → Prop}
    (hp : Certain euid key username credential p Z)
    (hs : At crypto euid key username credential files s)
    (hk : ∀ a t, Z a → At crypto euid key username credential files t →
      ∃ r u, Prog.Runs ((pamHost δ).machine i) allow (k a).run t r u ∧ W r u) :
    ∃ r u, Prog.Runs ((pamHost δ).machine i) allow (p >>= k).run s r u ∧ W r u := by
  refine exists_runs_bind (Prog.exists_runs_of_meets hp (fun o s ho hs => ?_) hs) hk
  obtain ⟨metadata, hsome, -⟩ := hs.1.directory
  obtain ⟨x, a, w', hx, hexec⟩ :=
    exists_exec_quiet (i := i) ho (Option.isSome_iff_exists.2 ⟨metadata, hsome⟩)
  obtain ⟨hdirectory, heq⟩ := exec_quiet ho hexec
  refine ⟨x, a, _, hallow o x s hx, machine_exec hexec, ⟨hs.1.quiet hdirectory heq, ?_⟩,
    answered_of_exec hs.1 hx hexec⟩
  rw [heq]
  exact hs.2

omit [DecidableEq δ] in
theorem replaceFile_runs {temporary : List Char} (name : List Char) (content : PamContent)
    (hdirectory : s.state.directory.isSome) (hfresh : s.state.files.lookup temporary = none) :
    ∃ u, Prog.Runs ((pamHost δ).machine i) allow (replaceFile temporary name content).run s
      (.ok ()) u := by
  have hrun : ∃ r u, Prog.Runs ((pamHost δ).machine i) allow
      (replaceFile temporary name content).run s r u ∧ r = .ok () := by
    have hsync : ∀ w : PamWorld δ, w.directory.isSome →
        PamWorld.exec i .syncDirectory .done w = some (.ok (), w) := fun _ h => if_pos h
    have hcreate : PamWorld.exec i (.createFile temporary) .done s.state = some (.ok (), _) :=
      if_pos ⟨hdirectory, hfresh⟩
    refine exists_runs_request (x := .done) (a := .ok ()) (hallow _ _ _ rfl)
      (machine_exec hcreate) rfl ?_
    refine exists_runs_request (x := .done) (a := .ok ()) (hallow _ _ _ rfl)
      (machine_exec (by simp only [PamWorld.exec, AList.lookup_insert]; rfl)) rfl ?_
    refine exists_runs_request (x := .done) (a := .ok ()) (hallow _ _ _ rfl)
      (machine_exec rfl) rfl ?_
    refine exists_runs_request (x := .done) (a := .ok ()) (hallow _ _ _ rfl)
      (machine_exec (by simp only [PamWorld.exec, AList.lookup_insert]; rfl)) rfl ?_
    exact exists_runs_request_last (x := .done) (a := .ok ()) (hallow _ _ _ rfl)
      (machine_exec (hsync _ hdirectory)) rfl
  obtain ⟨r, u, hu, rfl⟩ := hrun
  exact ⟨u, hu⟩

variable {random : List UInt8}

omit [DecidableEq δ] in
theorem atomicWrite_runs (content : PamContent) (hrandom : random.length = 12)
    (hfresh : files.lookup (temporaryName crypto (credentialName username) random) = none)
    (hs : At crypto euid key username credential files s) :
    ∃ r u, Prog.Runs ((pamHost δ).machine i) allow
      (atomicWrite crypto euid (credentialName username) content).run s r u ∧ r = .ok () := by
  refine exists_runs_certain hallow certain_ensureDirectory hs fun _ t _ ht => ?_
  have hdraw : PamWorld.exec i (.random 12) (.drawn random) t.state = some (.ok random, t.state) :=
    if_pos hrandom
  refine exists_runs_request (x := .drawn random) (a := .ok random) (hallow _ _ _ rfl)
    (machine_exec hdraw) rfl ?_
  obtain ⟨metadata, hsome, -⟩ := ht.1.directory
  obtain ⟨u, hu⟩ := replaceFile_runs (i := i)
    (s := ⟨t.state, t.history ++ [⟨i, .random 12, .ok random⟩]⟩) hallow (credentialName username)
    content (Option.isSome_iff_exists.2 ⟨metadata, hsome⟩) (by rw [ht.2]; exact hfresh)
  exact ⟨.ok (), u, hu.bind (.ret _ _), rfl⟩

variable {index : ℕ} (hkey : key.length = masterKeyBytes) (hname : validUsername username)
  (hcode : normalizeRecoveryCode factor = some code)
  (hindex : digestIndex crypto (crypto.recoveryDigest key username code)
    credential.recoveryDigests = some index)
  (hrandom : random.length = 12)
  (hfresh : s.state.files.lookup (temporaryName crypto (credentialName username) random) = none)
  (hs : Present crypto euid key username credential s.state)

include hkey hname hcode hindex hrandom hfresh hs

theorem verifyLocked_runs (now : ℤ) : ∃ r u, Prog.Runs ((pamHost δ).machine i) allow
      (verifyLocked crypto euid username factor now).run s r u ∧ r = .ok .recovery := by
  have hat : At crypto euid key username credential s.state.files s := ⟨hs, rfl⟩
  refine exists_runs_certain hallow certain_validateDirectory hat fun _ t _ ht => ?_
  refine exists_runs_certain hallow (certain_loadExistingKey hkey) ht fun key' u hkey' hu => ?_
  subst hkey'
  refine exists_runs_certain hallow (certain_fileExists (.inr rfl)) hu fun found v hfound hv => ?_
  subst hfound
  refine exists_runs_certain hallow certain_readCredential hv fun credential' w hread hw => ?_
  subst hread
  obtain ⟨secret, hsecret⟩ := Option.isSome_iff_exists.1 hs.opens
  rw [ensure_bind ⟨hs.named, hs.version⟩, hsecret, ofOption_some_bind,
    checkFactor_of_index hname hcode hs.named hindex]
  obtain ⟨r, u', hu', rfl⟩ := atomicWrite_runs (i := i) hallow (.json { credential' with
    recoveryDigests := credential'.recoveryDigests.eraseIdx index }) hrandom hfresh hw
  exact ⟨.ok .recovery, u', hu'.bind (.ret _ _), rfl⟩

theorem verify_runs (hfree : s.state.gateHolder = none) :
    ∃ u, Prog.Runs ((pamHost δ).machine i) allow
      ((PamCall.verify username factor now).prog crypto euid) s (.verified (.ok .recovery)) u := by
  have hlock : PamWorld.exec i .lockGate .done s.state =
      some ((), { s.state with gateHolder := some i }) := if_pos hfree
  have hlocked : Present crypto euid key username credential
      { s.state with gateHolder := some i } :=
    ⟨hs.user, hs.directory, hs.keyFile, hs.file, hs.named, hs.version, hs.opens⟩
  obtain ⟨r, u, hu, rfl⟩ := verifyLocked_runs (i := i)
    (s := ⟨{ s.state with gateHolder := some i }, s.history ++ [⟨i, .lockGate, ()⟩]⟩) hallow hkey
    hname hcode hindex hrandom hfresh hlocked now
  have hverify : ∃ u, Prog.Runs ((pamHost δ).machine i) allow
      (verify crypto euid username factor now) s (.ok .recovery) u := by
    rw [verify, if_pos hname]
    exact ⟨_, .call (x := .done) (hallow _ _ _ rfl) (machine_exec hlock)
      (hu.bind (.call (x := .done) (hallow _ _ _ rfl) (machine_exec rfl) (.ret _ _)))⟩
  obtain ⟨v, hv⟩ := hverify
  exact ⟨v, hv.bind (.ret _ _)⟩

end

/-! ## Each code is good for one verification -/

/-- The operations of the call `i` do not fail. -/
def Succeeding (i j : ℕ) (_ : PamOp δ) (x : PamChoice) (_ : PamState δ) : Prop :=
  j = i → x.succeeds

/-- The credentials stay as they are. -/
def Unchanged (s t : PamState δ) : Prop :=
  ∀ name, isCredentialName name → t.state.files.lookup name = s.state.files.lookup name

/-- One of the user's stored codes is used up, and nothing else changes. -/
def Uses (crypto : PamCrypto δ) (key : List UInt8) (username code : List Char) (s t : PamState δ) :
    Prop :=
  ∃ file credential index, s.state.files.lookup (credentialName username) = some file ∧
    file.content = .json credential ∧
    digestIndex crypto (crypto.recoveryDigest key username code) credential.recoveryDigests =
      some index ∧
    t.state.files.lookup (credentialName username) = some ⟨⟨true, s.state.euid, 0o600⟩,
      .json { credential with recoveryDigests := credential.recoveryDigests.eraseIdx index }⟩ ∧
    ∀ name, isCredentialName name → name ≠ credentialName username →
      t.state.files.lookup name = s.state.files.lookup name

/-- The code of the user is good for one verification. -/
structure SingleUse (crypto : PamCrypto δ) (euid : ℕ) (key : List UInt8) (username code : List Char)
    (calls : List (ℕ × PamCall)) (p : Calls (Pam δ) (PamWorld δ) PamReply) : Prop where
  /-- One call at most is accepted with it. -/
  once : ∀ q, Reaches (pamHost δ) (fun _ _ _ _ => True) p q → ∀ i j m n,
    Presents calls username code i → Presents calls username code j →
    q.Returned i (.verified (.ok m)) → q.Returned j (.verified (.ok n)) → i = j
  /-- A call that spells it, and whose operations succeed, is accepted, unless another
      call that presents it has used it. -/
  accepted : ∀ i factor now q r, callOf calls i = some (.verify username factor now) →
    RecoveryCode.Spells factor code → Reaches (pamHost δ) (Succeeding i) p q →
    q.Returned i r → r = .verified (.ok .recovery) ∨ Beaten calls username code i q.now
  /-- A call that spells it returns, once the lock is free and a temporary name is. -/
  returns : ∀ i factor now q random, callOf calls i = some (.verify username factor now) →
    RecoveryCode.Spells factor code → Reaches (pamHost δ) (fun _ _ _ _ => True) p q →
    q.tasks[i]? = some (q.life, (PamCall.verify username factor now).prog crypto euid) →
    q.now.state.gateHolder = none → random.length = 12 →
    q.now.state.files.lookup (temporaryName crypto (credentialName username) random) = none →
    (∀ j, Presents calls username code j → ¬ Sealed j q.now) →
    ∃ q', Reaches (pamHost δ) (Succeeding i) q q' ∧ q'.Returned i (.verified (.ok .recovery))
  /-- A step changes the stored codes only by using up what the call presents. -/
  changes : ∀ q, Reaches (pamHost δ) (fun _ _ _ _ => True) p q → ∀ i o k x a t,
    q.tasks[i]? = some (q.life, .call o k) →
    ((pamHost δ).machine i).exec o x q.now = some (a, t) →
    Unchanged q.now t ∨ ∃ username code, Presents calls username code i ∧
      Uses crypto key username code q.now t

section

variable {crypto : PamCrypto δ} {key : List UInt8} {username : List Char} {codes : List (List Char)}
  {calls : List (ℕ × PamCall)} {w : PamWorld δ} {euid : ℕ}

theorem verify_yields {factor : List Char} {now : ℤ} (hshape : ¬ validTotpShape factor) :
    (verify crypto euid username factor now).Yields (· ≠ .ok .totp) := by
  rw [verify]
  split
  · have hlocked : (verifyLocked crypto euid username factor now).run.Yields (· ≠ .ok .totp) := by
      have herror : ∀ e : PamMfaError, (.error e : Except PamMfaError PamMfaMethod) ≠ .ok .totp :=
        fun _ h => by cases h
      refine yields_bind herror fun _ => yields_bind herror fun _ =>
        yields_bind herror fun found => ?_
      split
      · refine yields_bind herror fun _ => yields_bind herror fun _ =>
          yields_bind herror fun _ => ?_
        rw [checkFactor, if_neg hshape]
        exact yields_bind herror fun _ => yields_bind herror fun _ => yields_bind herror fun _ h =>
          by cases h
      · exact fun h => by cases h
    exact (Prog.yields_true _).bind fun _ _ => hlocked.bind fun r hr => fun _ => hr
  · exact fun h => by cases h

theorem prog_yields_totp {i : ℕ} {call : PamCall} (hcall : callOf calls i = some call) :
    (call.prog crypto euid).Yields fun r => ∀ username code, Presents calls username code i → r ≠
      .verified (.ok .totp) := by
  cases call with
  | start | confirm => exact (Prog.yields_true _).bind fun _ _ _ _ _ h => by cases h
  | verify username factor now =>
    by_cases hshape : validTotpShape factor
    · refine (Prog.yields_true _).bind fun _ _ username' code hpresents => ?_
      obtain ⟨factor', now', hcall', hcode⟩ := hpresents
      cases hcall.symm.trans hcall'
      exact absurd hshape (not_validTotpShape hcode)
    · refine (verify_yields hshape).bind fun r hr _ _ _ heq => ?_
      exact hr (PamReply.verified.inj heq)

omit [DecidableEq δ] in
theorem Issued.inv (hw : Issued crypto key username codes w) :
    Inv calls (⟨w, []⟩ : PamState δ) where
  pending _ hsome := by
    have hnone : w.pending = none := by rw [← hw.started]; rfl
    rw [hnone] at hsome
    cases hsome
  configured _ h := absurd h not_did_nil
  unique _ _ _ _ h := absurd h not_did_nil

variable {code : List Char}

/-- **Recovery codes of PAM administrators** are good for one verification each. -/
theorem singleUse (hinj : Function.Injective (crypto.recoveryDigest key username))
    (hw : Issued crypto key username codes w) (hcode : code ∈ codes)
    (hcalls : ∀ call ∈ calls, call.2.isVerify) :
    SingleUse crypto w.euid key username code calls (pamCalls crypto w calls) := by
  have hX : ∀ allow : ℕ → PamOp δ → PamChoice → PamState δ → Prop, Surroundings crypto (· = key)
      calls allow (Stored crypto w.euid key username code calls) :=
    fun _ => surroundings hcalls hinj hw.valid
  have hstored : Stored crypto w.euid key username code calls ⟨w, []⟩ := hw.stored hinj hcode
  have hspells : ∀ {factor}, RecoveryCode.Spells factor code →
      normalizeRecoveryCode factor = some code := fun h =>
    normalizeRecoveryCode_of_spells h (hw.digits code hcode).1 (hw.digits code hcode).2
  have hkept : Kept (contract (hX fun _ _ _ _ => True) (R := fun i r _ => ∀ username code,
      Presents calls username code i → r ≠ .verified (.ok .totp)) fun _ _ _ _ _ h => h)
      (pamCalls crypto w calls) :=
    kept_pamCalls _ hw.inv hstored fun i call s hcall _ _ =>
      ((prog_safe (hX _) hcall).and_yields (prog_yields_totp hcall)).weaken fun _ _ _ h => h.2
  refine ⟨fun q hq i j m n hi hj hm hn => ?_, fun i factor now q r hcall hspelled hq hr => ?_,
    fun i factor now q random hcall hspelled hq htask hfree hrandom hfresh hunused => ?_,
    fun q hq i o k x a t htask hx => ?_⟩
  · -- Each of them has taken the code from the file.
    have hsafe := hq.safe hkept
    have hsealed : ∀ i m, Presents calls username code i → q.Returned i (.verified (.ok m)) →
        Sealed i q.now := by
      intro i m hi hm
      obtain ⟨⟨hsucceeded, -⟩, htotp⟩ := hsafe.post hm
      cases m with
      | totp => exact absurd rfl (htotp username code hi)
      | recovery => exact hsucceeded trivial
    exact hsafe.inv.2.unique i j hi hj (hsealed i m hi hm) (hsealed j n hj hn)
  · -- It fails only if another call was faster.
    have hcode' := hspells hspelled
    have hmono : ∀ (j : ℕ) (r : PamReply) (s t : PamState δ), s.history <+: t.history →
        (j = i → r = .verified (.ok .recovery) ∨ Beaten calls username code i s) →
        (j = i → r = .verified (.ok .recovery) ∨ Beaten calls username code i t) :=
      fun j r s t hst h hji => (h hji).imp_right fun h => h.mono hst
    have hkept' : Kept (contract (hX (Succeeding i)) hmono) (pamCalls crypto w calls) := by
      refine kept_pamCalls _ hw.inv hstored fun j call s hcall' _ hidle => ?_
      by_cases hji : j = i
      · subst hji
        cases hcall.symm.trans hcall'
        have hcertain := verify_certain (hX (Succeeding j)) (fun _ _ _ h => h rfl) hcall hw.valid
          hcode' hw.length (s := s) hidle.not_did
        refine ((prog_safe (hX _) hcall).and_trusted (.map (hcertain.weaken
          (R := fun r t => ∀ _ : j = j, PamReply.verified r = .verified (.ok .recovery) ∨
            Beaten calls username code j t) fun r t _ h _ => h.imp_left (congrArg _)))).weaken
          fun _ _ _ h => h.2
      · exact (prog_safe (hX _) hcall').weaken fun _ _ _ _ h => absurd h hji
    exact ((hq.safe hkept').post hr).2 rfl
  · have hcode' := hspells hspelled
    obtain ⟨credential, hpresent, -, hiff⟩ := (hq.safe hkept).inv.2.present
    obtain ⟨index, hindex⟩ := exists_digestIndex (hiff.2 hunused)
    have hruns : ∃ u, Prog.Runs ((pamHost δ).machine i) (Succeeding i i)
        ((PamCall.verify username factor now).prog crypto w.euid) q.now
        (.verified (.ok .recovery)) u :=
      verify_runs (fun _ _ _ h _ => h) hw.length hw.valid hcode' hindex hrandom hfresh hpresent hfree
    obtain ⟨u, hu⟩ := hruns
    exact ⟨_, Reaches.finish .refl htask hu, q.life,
      List.getElem?_set_self (List.getElem?_eq_some_iff.1 htask).1⟩
  · have hguar : Guarantee crypto (· = key) calls i q.now t :=
      ((hq.safe hkept).step htask trivial hx).1
    cases hguar.change with
    | nothing hsame _ => exact .inl hsame
    | first hnone _ _ _ _ =>
      obtain ⟨credential, hpresent, -⟩ := (hq.safe hkept).inv.2.present
      cases hnone.symm.trans (hpresent.configured hw.valid)
    | @used username' factor code' now key' file credential index hcall _ hcode' hkey hfile
        hcontent _ hindex ht hothers _ =>
      cases hkey
      exact .inr ⟨username', code', ⟨factor, now, hcall, hcode'⟩, file, credential, index, hfile,
        hcontent, hindex, ht, hothers⟩

end

end PamMfa

end VpsGuard
