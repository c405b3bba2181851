import VpsGuard.Auth.PamDiscipline

/-!
# How the helper writes files

Most of what a call does changes no file and no lock: these parts concern nobody
(`Surroundings.quiet`). Files are written in one place (`atomicWrite_safe`): a
call that may write creates a temporary file, writes and syncs it, and renames
it. What happens there is the same for the key and for credentials, up to the
renaming (`Writing`).
-/

namespace VpsGuard

open Effect Effect.Host Fallible

namespace PamMfa

variable {δ : Type}

/-! ## Operations -/

/-- The operations that change no files, and no locks. -/
def IsQuiet : PamOp δ → Prop
  | .random _ | .directoryExists | .directoryMetadata | .createDirectory | .chmodDirectory
  | .readDirectory | .syncDirectory | .fileExists _ | .fileMetadata _ | .readFile _
  | .syncFile _ => True
  | _ => False

/-- The operation touches no file but temporary ones. -/
def IsTemporaryOp : PamOp δ → Prop
  | .createFile name | .writeFile name _ | .removeFile name => isTemporary name
  | o => IsQuiet o

/-- A step that changes at most temporary files, and the directory. -/
structure Aside (i : ℕ) (s t : PamState δ) : Prop where
  euid : t.state.euid = s.state.euid
  pending : t.state.pending = s.state.pending
  pendingHolder : t.state.pendingHolder = s.state.pendingHolder
  gateHolder : t.state.gateHolder = s.state.gateHolder
  files : ∀ name, ¬ isTemporary name → t.state.files.lookup name = s.state.files.lookup name
  directory : DirectoryKept s.state t.state
  history : ∃ o a, t.history = s.history ++ [⟨i, o, a⟩] ∧ ¬ Seals o a

theorem private_chmod {euid : ℕ} {metadata : PamMetadata} (h : Private euid metadata) :
    Private euid { metadata with mode := 0o700 } := ⟨h.1, h.2.1, (by decide : 0o700 &&& 0o077 = 0)⟩

variable {w w' : PamWorld δ} {name : List Char} {file : PamFile}
  {i : ℕ} {o : PamOp δ} {x : PamChoice}

theorem exec_quiet {a : o.Ans} (ho : IsQuiet o) (h : PamWorld.exec i o x w = some (a, w')) :
    DirectoryKept w w' ∧ w' = { w with directory := w'.directory } := by
  cases o with
  | createDirectory =>
    cases x <;> simp only [PamWorld.exec, reduceCtorEq] at h
    · split at h <;> cases h
      · next hnone => exact ⟨fun m hm => absurd (hnone.symm.trans hm) (by simp), rfl⟩
      · exact ⟨.refl w, rfl⟩
    · cases h
      exact ⟨.refl w, rfl⟩
  | chmodDirectory =>
    cases x <;> simp only [PamWorld.exec, reduceCtorEq] at h
    · split at h <;> cases h
      · exact ⟨.refl w, rfl⟩
      · next metadata hsome =>
        refine ⟨fun m hm => ⟨_, rfl, fun hp => ?_⟩, rfl⟩
        cases hsome.symm.trans hm
        exact private_chmod hp
    · cases h
      exact ⟨.refl w, rfl⟩
  | random | directoryExists | directoryMetadata | readDirectory | syncDirectory | fileExists
  | fileMetadata | readFile | syncFile =>
    obtain rfl : w = w' := by
      cases x <;> simp [PamWorld.exec] at h <;> first | exact h.2 | exact h.2.2
    exact ⟨.refl w, rfl⟩
  | _ => exact ho.elim

variable {files : AList fun _ : List Char => PamFile} {temporary : List Char}

theorem lookup_insert_of_not_isTemporary (htemporary : isTemporary temporary)
    (hname : ¬ isTemporary name) :
    (files.insert temporary file).lookup name = files.lookup name := by
  refine AList.lookup_insert_ne ?_
  rintro rfl
  exact hname htemporary

theorem lookup_erase_of_not_isTemporary (htemporary : isTemporary temporary)
    (hname : ¬ isTemporary name) : (files.erase temporary).lookup name = files.lookup name := by
  refine AList.lookup_erase_ne ?_
  rintro rfl
  exact hname htemporary

theorem exec_temporary {a : o.Ans} (ho : IsTemporaryOp o)
    (h : PamWorld.exec i o x w = some (a, w')) :
    DirectoryKept w w' ∧ w' = { w with directory := w'.directory, files := w'.files } ∧
      ∀ name, ¬ isTemporary name → w'.files.lookup name = w.files.lookup name := by
  have hsame : DirectoryKept w w ∧ w = { w with directory := w.directory, files := w.files } ∧
      ∀ name, ¬ isTemporary name → w.files.lookup name = w.files.lookup name :=
    ⟨.refl w, rfl, fun _ _ => rfl⟩
  cases o with
  | createFile temporary =>
    cases x <;> simp only [PamWorld.exec, reduceCtorEq, Option.ite_none_right_eq_some] at h
    · cases h.2
      exact ⟨.refl w, rfl, fun _ => lookup_insert_of_not_isTemporary ho⟩
    · cases h
      exact hsame
  | writeFile temporary content =>
    cases x <;> simp only [PamWorld.exec, reduceCtorEq] at h
    case failed =>
      cases h
      exact hsame
    all_goals
      split at h <;> cases h
      · exact hsame
      · exact ⟨.refl w, rfl, fun _ => lookup_insert_of_not_isTemporary ho⟩
  | removeFile temporary =>
    cases x <;> simp only [PamWorld.exec, reduceCtorEq] at h <;> cases h
    · exact ⟨.refl w, rfl, fun _ => lookup_erase_of_not_isTemporary ho⟩
    · exact hsame
  | _ =>
    have hquiet := fun ho' => exec_quiet ho' h
    obtain ⟨hdirectory, heq⟩ := hquiet ho
    refine ⟨hdirectory, ?_, fun name _ => ?_⟩
    all_goals rw [heq]

theorem exec_createFile_ok (h : PamWorld.exec i (.createFile name) x w = some (.ok (), w')) :
    w' = { w with files := w.files.insert name ⟨⟨true, w.euid, 0o600⟩, .bytes []⟩ } := by
  cases x <;> simp [PamWorld.exec] at h
  exact h.2.symm

theorem exec_writeFile_ok {content : PamContent} (hfile : w.files.lookup name = some file)
    (h : PamWorld.exec i (.writeFile name content) x w = some (.ok (), w')) :
    w' = { w with files := w.files.insert name { file with content } } := by
  cases x <;> simp [PamWorld.exec, hfile] at h
  exact h.symm

theorem exec_renameFile {source target : List Char} {a : Except Unit Unit}
    (hfile : w.files.lookup source = some file)
    (h : PamWorld.exec i (.renameFile source target) x w = some (a, w')) :
    (a = .ok () ∧ w' = { w with files := (w.files.erase source).insert target file }) ∨
      (a = .error () ∧ w' = w) := by
  cases x <;> simp only [PamWorld.exec, hfile, reduceCtorEq] at h
  · cases h
    exact .inl ⟨rfl, rfl⟩
  · cases h
    exact .inr ⟨rfl, rfl⟩

theorem not_seals_of_isTemporaryOp (ho : IsTemporaryOp o) (a : o.Ans) : ¬ Seals o a := by
  cases o with
  | renameFile source target => exact ho.elim
  | _ => exact id

variable {i : ℕ} {s t : PamState δ} {o : PamOp δ} {x : PamChoice} {a : o.Ans}

theorem aside_of_exec (ho : IsTemporaryOp o) (h : ((pamHost δ).machine i).exec o x s = some (a, t))
    : Aside i s t := by
  obtain ⟨hexec, hhistory⟩ := machine_eq_some_iff.1 h
  obtain ⟨hdirectory, heq, hfiles⟩ := exec_temporary ho hexec
  refine ⟨?_, ?_, ?_, ?_, hfiles, hdirectory, o, a, hhistory, not_seals_of_isTemporaryOp ho a⟩
  all_goals rw [heq]

theorem files_of_exec (ho : IsQuiet o) (h : ((pamHost δ).machine i).exec o x s = some (a, t)) :
    t.state.files = s.state.files := by
  rw [(exec_quiet ho (machine_eq_some_iff.1 h).1).2]

theorem IsQuiet.isTemporaryOp (ho : IsQuiet o) : IsTemporaryOp o := by
  cases o with
  | createFile | writeFile | removeFile => exact ho.elim
  | _ => exact ho

namespace Aside

theorem configured (h : Aside i s t) : configured t.state = configured s.state :=
  configured_congr fun name hname => h.files name (not_isTemporary hname)

theorem sealed (h : Aside i s t) (j : ℕ) : Sealed j t ↔ Sealed j s := by
  obtain ⟨o, a, hhistory, hseals⟩ := h.history
  exact sealed_append_of_not hhistory hseals

theorem rely (h : Aside i s t) (hfiles : t.state.files = s.state.files) (j : ℕ) : Rely j s t where
  euid := h.euid
  history := by
    obtain ⟨o, a, hhistory, -⟩ := h.history
    exact ⟨_, hhistory.symm⟩
  gate := (h.gateHolder.trans ·)
  pending hs := ⟨h.pendingHolder.trans hs, h.pending⟩
  files _ := hfiles
  configured := (h.configured.trans ·)
  sealed := (h.sealed j).1

variable [DecidableEq δ] {crypto : PamCrypto δ} {IsKey : List UInt8 → Prop}
  {calls : List (ℕ × PamCall)}

theorem guarantee (h : Aside i s t) (hfiles : t.state.files = s.state.files ∨ Mine i s.state) :
    Guarantee crypto IsKey calls i s t where
  euid := h.euid
  history := by
    obtain ⟨o, a, hhistory, -⟩ := h.history
    exact ⟨_, hhistory.symm⟩
  gate _ _ := (h.gateHolder.trans ·)
  pending _ _ hs := ⟨h.pendingHolder.trans hs, h.pending⟩
  files := hfiles
  directory := h.directory
  key _ := h.files _ not_isTemporary_keyFileName
  change := .nothing (fun name hname => h.files name (not_isTemporary hname)) h.sealed

omit [DecidableEq δ] in
theorem inv_pending (h : Aside i s t) (hs : Inv calls s) (hholder : t.state.pendingHolder = none)
    (hsome : t.state.pending.isSome) : PamMfa.configured t.state = false := by
  rw [h.configured]
  exact hs.pending (h.pendingHolder.symm.trans hholder) (h.pending ▸ hsome)

end Aside

/-! ## Parts without effects -/

/-- The part performs quiet operations only. -/
abbrev Quiet {α : Type} (x : Helping δ α) : Prop := x.run.Performs IsQuiet

theorem performs_randomBytes (n : ℕ) :
    Quiet (randomBytes n : Helping δ _) :=
  performs_request trivial

theorem performs_validateDirectory (euid : ℕ) :
    Quiet (validateDirectory euid : Helping δ _) :=
  performs_bind (performs_request trivial) fun _ => trivial

theorem performs_validateSecretFile (euid : ℕ) (name : List Char) :
    Quiet (validateSecretFile euid name : Helping δ _) :=
  performs_bind (performs_request trivial) fun _ => trivial

theorem performs_ensureDirectory (euid : ℕ) :
    Quiet (ensureDirectory euid : Helping δ _) := by
  refine performs_bind (performs_request trivial) fun found => performs_bind ?_ fun _ =>
    performs_request trivial
  split
  · exact performs_validateDirectory euid
  · exact performs_request trivial

theorem performs_readKey (euid : ℕ) :
    Quiet (readKey euid : Helping δ _) := by
  refine performs_bind (performs_validateSecretFile euid _) fun _ =>
    performs_bind (performs_request trivial) fun content => ?_
  cases content with
  | bytes bytes => exact performs_bind trivial fun _ => trivial
  | json credential => trivial

theorem performs_readCredential (euid : ℕ) (name : List Char) :
    Quiet (readCredential euid name : Helping δ _) := by
  refine performs_bind (performs_validateSecretFile euid _) fun _ =>
    performs_bind (performs_request trivial) fun content => ?_
  cases content with
  | bytes bytes => trivial
  | json credential => trivial

theorem performs_lookForCredential (euid : ℕ) (entries : List (Option (List Char))) :
    Quiet (lookForCredential euid entries : Helping δ _) := by
  induction entries with
  | nil => trivial
  | cons entry entries ih =>
    cases entry with
    | none => trivial
    | some name =>
      rw [lookForCredential]
      split
      · exact performs_bind (performs_readCredential euid name) fun _ =>
          performs_bind trivial fun _ => trivial
      · exact ih

theorem performs_setupRequired (euid : ℕ) :
    Quiet (setupRequired euid : Helping δ _) := by
  refine performs_bind (performs_request trivial) fun found => ?_
  split
  · exact performs_bind (performs_validateDirectory euid) fun _ =>
      performs_bind (performs_request trivial) fun _ => performs_lookForCredential euid _
  · trivial

theorem performs_generateRecoveryCodes (n : ℕ) :
    Quiet (generateRecoveryCodes n : Helping δ _) := by
  induction n with
  | zero => trivial
  | succ n ih =>
    exact performs_bind (performs_randomBytes 16) fun _ => performs_bind ih fun _ => trivial

/-! ## The setting -/

section

variable [DecidableEq δ]

/-- What is taken of the steps considered and of what else is known: the calls are
    orderly, and what is known is kept by every step and by crashes, and tells the
    keys. -/
structure Surroundings (crypto : PamCrypto δ) (IsKey : List UInt8 → Prop)
    (calls : List (ℕ × PamCall)) (allow : ℕ → PamOp δ → PamChoice → PamState δ → Prop)
    (X : PamState δ → Prop) : Prop where
  orderly : ∀ {i o x s}, allow i o x s → Orderly calls i o x s
  step : ∀ {i s t}, Inv calls s → Inv calls t → X s → Guarantee crypto IsKey calls i s t → X t
  crash : ∀ {s}, X s → X ((pamHost δ).crashed s)
  key : ∀ {s file bytes}, X s → s.state.files.lookup keyFileName = some file →
    file.content = .bytes bytes → IsKey bytes

/-- What the call `i` runs in. -/
def setting (calls : List (ℕ × PamCall)) (allow : ℕ → PamOp δ → PamChoice → PamState δ → Prop)
    (X : PamState δ → Prop) (i : ℕ) : Setting (Pam δ) (PamState δ) PamChoice where
  toMachine := (pamHost δ).machine i
  allow := allow i
  inv s := Inv calls s ∧ X s

variable {crypto : PamCrypto δ} {IsKey : List UInt8 → Prop} {calls : List (ℕ × PamCall)}
  {allow : ℕ → PamOp δ → PamChoice → PamState δ → Prop} {X : PamState δ → Prop}
  (hX : Surroundings crypto IsKey calls allow X)

include hX

/-- The program is safe for the call `i`. -/
abbrev Surroundings.Safe {α : Type} (_ : Surroundings crypto IsKey calls allow X) (i : ℕ)
    (p : Prog (Pam δ) α) (Q : α → PamState δ → Prop) : PamState δ → Prop :=
  p.Safe (setting calls allow X i) (sharing crypto IsKey calls i) Q

/-- The part is safe for the call `i`, with what holds after a value and after an error. -/
abbrev Surroundings.Ends {α : Type} (i : ℕ) (x : Helping δ α) (R : α → PamState δ → Prop)
    (B : PamMfaError → PamState δ → Prop) : PamState δ → Prop :=
  hX.Safe i x.run (Prog.Outcome R B)

/-- The step is one that the call `i` may make. -/
abbrev Surroundings.Step (_ : Surroundings crypto IsKey calls allow X) (i : ℕ)
    (s t : PamState δ) : Prop :=
  (sharing crypto IsKey calls i).guar s t ∧ (setting calls allow X i).inv t

theorem Surroundings.guarantee (hs : (setting calls allow X i).inv s)
    (hg : Guarantee crypto IsKey calls i s t)
    (hpending : t.state.pendingHolder = none → t.state.pending.isSome →
      configured t.state = false) :
    hX.Step i s t := by
  have ht : Inv calls t := hs.1.step hg hpending
  exact ⟨hg, ht, hX.step hs.1 ht hs.2 hg⟩

theorem Surroundings.aside (hs : (setting calls allow X i).inv s) (h : Aside i s t)
    (hfiles : t.state.files = s.state.files ∨ Mine i s.state) :
    hX.Step i s t :=
  hX.guarantee hs (h.guarantee hfiles) (h.inv_pending hs.1)

/-- Quiet operations concern nobody. -/
theorem Surroundings.quiet (i : ℕ) :
    (setting calls allow X i).Aside (sharing crypto IsKey calls i) IsQuiet := by
  intro o x s a t ho hs _ hx
  have haside := aside_of_exec ho.isTemporaryOp hx
  have hfiles := files_of_exec ho hx
  obtain ⟨hg, ht⟩ := hX.aside hs haside (.inl hfiles)
  exact ⟨haside.rely hfiles i, hg, ht⟩

variable {α β : Type} {P : PamState δ → Prop}

theorem Surroundings.quiet_safe {p : Prog (Pam δ) α} (hp : p.Performs IsQuiet)
    (hP : (sharing crypto IsKey calls i).Keeps P) (hs : P s) :
    hX.Safe i p (fun _ t => True ∧ P t) s :=
  .of_aside (hX.quiet i) hP (hp.meets (Prog.yields_true p)) hs

theorem Surroundings.attempt_quiet {p : Helping δ α}
    {k : α → Helping δ β} {Q : Except PamMfaError β → PamState δ → Prop}
    (hp : Quiet p) (hP : (sharing crypto IsKey calls i).Keeps P) (hs : P s)
    (herror : ∀ e t, P t → Q (.error e) t)
    (hk : ∀ a t, P t → hX.Safe i (k a).run Q t) :
    hX.Safe i (p >>= k).run Q s :=
  .attempt_keeping (hX.quiet_safe hp hP hs) herror fun a t _ ht => hk a t ht

/-! ## Writing files -/

/-- What a call that writes a file knows at every moment of it: `P` until the file is
    in its place, `R` from then on, and `B` if it fails. -/
structure Writing (_ : Surroundings crypto IsKey calls allow X) (i : ℕ) (name : List Char)
    (content : PamContent) (P B R : PamState δ → Prop) : Prop where
  keeps : (sharing crypto IsKey calls i).Keeps P
  keeps_failed : (sharing crypto IsKey calls i).Keeps B
  keeps_renamed : (sharing crypto IsKey calls i).Keeps R
  aside : ∀ {s t}, P s → Aside i s t → P t
  aside_failed : ∀ {s t}, B s → Aside i s t → B t
  failed : ∀ {s}, P s → B s
  mine : ∀ {s}, B s → Mine i s.state
  /-- The step that puts the file in its place. -/
  renamed : ∀ {s t temporary}, isTemporary temporary → (setting calls allow X i).inv s → P s →
    t.state = { s.state with
      files := (s.state.files.erase temporary).insert name ⟨⟨true, s.state.euid, 0o600⟩, content⟩ } →
    t.history = s.history ++ [⟨i, .renameFile temporary name, .ok ()⟩] →
    (sharing crypto IsKey calls i).guar s t ∧ (setting calls allow X i).inv t ∧ R t
  /-- The directory may fail to be synced. -/
  unsynced : ∀ {s}, R s → allow i .syncDirectory .failed s → B s

section

variable {hX} {name temporary : List Char} {content : PamContent} {P B R : PamState δ → Prop}
  (hW : Writing hX i name content P B R)

/-- The temporary file is written and is private. -/
def Holds (P : PamState δ → Prop) (temporary : List Char) (content : PamContent)
    (s : PamState δ) : Prop :=
  P s ∧ s.state.files.lookup temporary = some ⟨⟨true, s.state.euid, 0o600⟩, content⟩

include hW

theorem Writing.keeps_holds {held : PamContent} :
    (sharing crypto IsKey calls i).Keeps (Holds P temporary held) := by
  rintro s t ⟨hs, hfile⟩ hst
  refine ⟨hW.keeps s t hs hst, ?_⟩
  rw [hst.files (hW.mine (hW.failed hs)), hst.euid]
  exact hfile

theorem Writing.outcome_error {u v : PamState δ} (e : PamMfaError) (hu : B u)
    (huv : (sharing crypto IsKey calls i).rely u v) :
    Prog.Outcome (α := Unit) (fun _ => R) (fun _ => B) (.error e) v :=
  hW.keeps_failed u v hu huv

theorem Writing.step
    (hx : (setting calls allow X i).exec o x s = some (a, t)) (ho : IsTemporaryOp o)
    (hs : (setting calls allow X i).inv s) (hB : B s) :
    (sharing crypto IsKey calls i).guar s t ∧ (setting calls allow X i).inv t ∧ Aside i s t := by
  have haside := aside_of_exec ho hx
  obtain ⟨hg, ht⟩ := hX.aside hs haside (.inr (hW.mine hB))
  exact ⟨hg, ht, haside⟩

theorem renameFile_safe (htemporary : isTemporary temporary) (hs : Holds P temporary content s) :
    hX.Safe i (request (.renameFile temporary name) orStorage >>= fun _ : Unit =>
      request .syncDirectory orStorage : Helping δ Unit).run
      (Prog.Outcome (fun _ => R) fun _ => B) s := by
  refine .request fun t hst ht x a u hC hx => ?_
  obtain ⟨hP, hfile⟩ := hW.keeps_holds s t hs hst
  obtain ⟨hexec, hhistory⟩ := machine_eq_some_iff.1 hx
  rcases exec_renameFile hfile hexec with ⟨rfl, hstate⟩ | ⟨rfl, hstate⟩
  · obtain ⟨hg, hu, hR⟩ := hW.renamed htemporary ht hP hstate hhistory
    refine ⟨hg, hu, fun _ _ => ?_, fun e he => by cases he⟩
    refine .request_last fun v huv hv x a v' hC hx => ?_
    obtain ⟨hr, hg, hv'⟩ := hX.quiet i .syncDirectory _ _ _ _ trivial hv hC hx
    have hRv := hW.keeps_renamed u v hR huv
    refine ⟨hg, hv', fun w hvw _ => ?_⟩
    cases a with
    | ok a => exact hW.keeps_renamed v w hRv ((sharing crypto IsKey calls i).rely_trans hr hvw)
    | error e =>
      have hx : x = .failed := by
        cases x <;> simp [setting, Effect.Host.machine, PamWorld.exec] at hx ⊢
      have hB := hW.unsynced hRv (hx ▸ hC)
      exact hW.outcome_error _ hB ((sharing crypto IsKey calls i).rely_trans hr hvw)
  · -- The temporary file stays where it is.
    have haside : Aside i t u := by
      refine ⟨?_, ?_, ?_, ?_, fun _ _ => ?_, ?_, _, _, hhistory, id⟩
      all_goals rw [hstate]
      exact .refl _
    obtain ⟨hg, hu⟩ := hX.aside ht haside (.inl (by rw [hstate]))
    refine ⟨hg, hu, fun b hb => (by cases hb), fun e _ v huv _ => ?_⟩
    exact hW.outcome_error e (hW.failed (hW.aside hP haside)) huv

theorem replaceFile_safe (htemporary : isTemporary temporary) (hs : P s) :
    hX.Ends i (replaceFile temporary name content) (fun _ => R) (fun _ => B) s := by
  refine .request fun t hst ht x a u hC hx => ?_
  have hP := hW.keeps s t hs hst
  obtain ⟨hg, hu, haside⟩ := hW.step hx htemporary ht (hW.failed hP)
  refine ⟨hg, hu, fun b hb => ?_,
    fun e _ v huv _ => hW.outcome_error e (hW.failed (hW.aside hP haside)) huv⟩
  have hcreated : Holds P temporary (.bytes []) u := by
    refine ⟨hW.aside hP haside, ?_⟩
    cases a with
    | error e => cases hb
    | ok a => rw [exec_createFile_ok (machine_eq_some_iff.1 hx).1, AList.lookup_insert]
  clear hb hg hu haside hx hC ht hst hP hs
  refine .request fun t hst ht x a v hC hx => ?_
  obtain ⟨hP, hfile⟩ := hW.keeps_holds u t hcreated hst
  obtain ⟨hg, hv, haside⟩ := hW.step hx htemporary ht (hW.failed hP)
  refine ⟨hg, hv, fun b hb => ?_,
    fun e _ v huv _ => hW.outcome_error e (hW.failed (hW.aside hP haside)) huv⟩
  have hwritten : Holds P temporary content v := by
    refine ⟨hW.aside hP haside, ?_⟩
    cases a with
    | error e => cases hb
    | ok a => rw [exec_writeFile_ok hfile (machine_eq_some_iff.1 hx).1, AList.lookup_insert]
  refine hX.attempt_quiet (performs_request trivial) hW.keeps_holds hwritten
    (fun e t ht => hW.failed ht.1) fun _ t ht => ?_
  exact renameFile_safe hW htemporary ht

theorem atomicWrite_safe {euid : ℕ} (hs : P s) :
    hX.Ends i (atomicWrite crypto euid name content) (fun _ => R) (fun _ => B) s := by
  refine hX.attempt_quiet (performs_ensureDirectory euid) hW.keeps hs (fun _ _ => hW.failed)
    fun _ t ht => ?_
  refine hX.attempt_quiet (performs_randomBytes 12) hW.keeps ht (fun _ _ => hW.failed)
    fun random u hu => ?_
  have htemporary := isTemporary_temporaryName crypto name random
  refine (replaceFile_safe hW htemporary hu).bind_rely fun r v _ hr => ?_
  cases r with
  | ok a => exact .ret hr
  | error e =>
    refine .call fun v' hvv' hv' x a v'' hC hx => ?_
    have hB : B v' := hr v' hvv' hv'
    obtain ⟨hg, hv'', haside⟩ := hW.step hx htemporary hv' hB
    refine ⟨hg, hv'', .ret fun w hw _ => ?_⟩
    exact hW.outcome_error e (hW.aside_failed hB haside) hw

end

end

end PamMfa

end VpsGuard
