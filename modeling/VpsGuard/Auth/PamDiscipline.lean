import VpsGuard.Auth.PamMfa

/-!
# What the calls to the helper do to each other

A call writes files while it has a lock: `verify` that of the credentials, once
there is one, and `confirmEnrollment` that of the memory, as long as there is
none (`Mine`). So no two calls write at the same time, and what a call wrote
under its temporary name is what it renames.

Every step of a call is described by what it does to the locks, to the files and
to the credentials (`Guarantee`, `Change`): it leaves the credentials alone,
writes the first one, or uses a recovery code up. For confirmations this takes
that the calls are orderly (`Orderly`): an enrolment is put into the memory only
while there is no credential, and once there is one no confirmation fails to
sync the directory. `Inv` is what then holds throughout.
-/

namespace VpsGuard

open Effect Effect.Recorded

/-- The helper and what its calls have performed. -/
abbrev PamState (δ : Type) := Effect.Recorded (Pam δ) (PamWorld δ)

namespace PamMfa

variable {δ : Type}

/-! ## Names -/

/-- The name of a file that is not yet in its place. -/
def isTemporary (name : List Char) : Bool := extension name = some "tmp".toList

theorem extension_append {a : List Char} (ha : a ≠ []) {b : List Char} (hb : '.' ∉ b) :
    extension (a ++ '.' :: b) = some b := by
  rw [extension, Text.rsplitOnce_append hb]
  simp [ha]

theorem not_isTemporary {name : List Char} (h : isCredentialName name) : ¬ isTemporary name := by
  intro htemporary
  have hcredential := of_decide_eq_true h
  rw [of_decide_eq_true htemporary] at hcredential
  exact absurd hcredential (by decide)

theorem isTemporary_temporaryName (crypto : PamCrypto δ) (name : List Char)
    (random : List UInt8) : isTemporary (temporaryName crypto name random) := by
  have hname : temporaryName crypto name random =
      ('.' :: name ++ '.' :: crypto.token random) ++ '.' :: "tmp".toList := rfl
  rw [isTemporary, hname, extension_append (by simp) (by decide)]
  exact decide_eq_true rfl

theorem isCredentialName_credentialName {username : List Char} (h : validUsername username) :
    isCredentialName (credentialName username) := by
  have hne : username ≠ [] := by
    rintro rfl
    exact absurd h (by decide)
  have hname : credentialName username = username ++ '.' :: "json".toList := rfl
  rw [isCredentialName, hname, extension_append hne (by decide)]
  exact decide_eq_true rfl

theorem not_isTemporary_keyFileName : ¬ isTemporary keyFileName := by decide

theorem not_isCredentialName_keyFileName : ¬ isCredentialName keyFileName := by decide

/-! ## Credentials and who wrote them -/

/-- Somebody is enrolled: there is a credential. -/
def configured (w : PamWorld δ) : Bool := w.files.keys.any isCredentialName

theorem configured_iff {w : PamWorld δ} :
    configured w ↔ ∃ name, isCredentialName name ∧ (w.files.lookup name).isSome := by
  rw [configured, List.any_eq_true]
  constructor
  · rintro ⟨name, hmem, hname⟩
    exact ⟨name, hname, AList.lookup_isSome.2 hmem⟩
  · rintro ⟨name, hname, hmem⟩
    exact ⟨name, AList.lookup_isSome.1 hmem, hname⟩

theorem configured_congr {v w : PamWorld δ}
    (h : ∀ name, isCredentialName name → v.files.lookup name = w.files.lookup name) :
    configured v = configured w := by
  rw [Bool.eq_iff_iff, configured_iff, configured_iff]
  constructor
  · rintro ⟨name, hname, hsome⟩
    exact ⟨name, hname, h name hname ▸ hsome⟩
  · rintro ⟨name, hname, hsome⟩
    exact ⟨name, hname, (h name hname).symm ▸ hsome⟩

/-- The operation and its answer put a credential in its place. -/
def Seals : (o : PamOp δ) → o.Ans → Prop
  | .renameFile _ target, .ok _ => isCredentialName target
  | _, _ => False

/-- The call has put a credential in its place. -/
def Sealed (i : ℕ) (s : PamState δ) : Prop := s.Did Seals i

theorem Sealed.mono {i : ℕ} {s t : PamState δ} (h : s.history <+: t.history) (hs : Sealed i s) :
    Sealed i t := Did.mono h hs

section Append

variable {i j : ℕ} {s t : PamState δ} {o : PamOp δ} {a : o.Ans}
  (h : t.history = s.history ++ [⟨i, o, a⟩])

include h

theorem sealed_append : Sealed j t ↔ Sealed j s ∨ (j = i ∧ Seals o a) := did_append h

theorem sealed_append_of_seals (ho : Seals o a) : Sealed j t ↔ Sealed j s ∨ j = i :=
  (sealed_append h).trans (or_congr_right (and_iff_left ho))

theorem sealed_append_of_not (ho : ¬ Seals o a) : Sealed j t ↔ Sealed j s :=
  (sealed_append h).trans (or_iff_left fun hseals => ho hseals.2)

end Append

end PamMfa

namespace PamCall

def isStart : PamCall → Bool
  | start _ _ => true
  | _ => false

def isConfirm : PamCall → Bool
  | confirm _ _ _ => true
  | _ => false

end PamCall

namespace PamMfa

variable {δ : Type}

/-- When there is a credential, no enrolment is put into the memory, and no
    confirmation fails to sync the directory. -/
def Orderly (calls : List (ℕ × PamCall)) (i : ℕ) : PamOp δ → PamChoice → PamState δ → Prop
  | .unlockPending (some _), _, s =>
    (callOf calls i).any PamCall.isStart → configured s.state = false
  | .syncDirectory, .failed, s =>
    (callOf calls i).any PamCall.isConfirm → configured s.state = false
  | _, _, _ => True

/-! ## What a step does -/

/-- The call may write files: nobody else does. -/
def Mine (i : ℕ) (w : PamWorld δ) : Prop :=
  (w.gateHolder = some i ∧ configured w = true) ∨ (w.pendingHolder = some i ∧ configured w = false)

/-- What a step of a call does to the credentials. `IsKey` tells the keys under
    which codes are looked for. -/
inductive Change [DecidableEq δ] (crypto : PamCrypto δ) (IsKey : List UInt8 → Prop)
    (calls : List (ℕ × PamCall)) (i : ℕ) (s t : PamState δ) : Prop
  | nothing : (∀ name, isCredentialName name →
      t.state.files.lookup name = s.state.files.lookup name) →
      (∀ j, Sealed j t ↔ Sealed j s) → Change crypto IsKey calls i s t
  /-- A confirmation writes the first one. -/
  | first : configured s.state = false → (callOf calls i).any PamCall.isConfirm →
      (∀ j, Sealed j t ↔ Sealed j s ∨ j = i) → configured t.state = true →
      s.state.pendingHolder = some i → Change crypto IsKey calls i s t
  | used {username factor code : List Char} {now : ℤ} {key : List UInt8} {file : PamFile}
      {credential : SealedCredential} {index : ℕ} :
      callOf calls i = some (.verify username factor now) → validUsername username →
      normalizeRecoveryCode factor = some code → IsKey key →
      s.state.files.lookup (credentialName username) = some file →
      file.content = .json credential → credential.username = username →
      digestIndex crypto (crypto.recoveryDigest key username code) credential.recoveryDigests =
        some index →
      t.state.files.lookup (credentialName username) = some ⟨⟨true, s.state.euid, 0o600⟩,
        .json { credential with recoveryDigests := credential.recoveryDigests.eraseIdx index }⟩ →
      (∀ name, isCredentialName name → name ≠ credentialName username →
        t.state.files.lookup name = s.state.files.lookup name) →
      (∀ j, Sealed j t ↔ Sealed j s ∨ j = i) → Change crypto IsKey calls i s t

/-- A directory that is there stays, and stays private. -/
def DirectoryKept (v w : PamWorld δ) : Prop :=
  ∀ before, v.directory = some before → ∃ after, w.directory = some after ∧
    (Private v.euid before → Private v.euid after)

theorem DirectoryKept.refl (w : PamWorld δ) : DirectoryKept w w := fun m hm => ⟨m, hm, id⟩

theorem DirectoryKept.of_eq {v w : PamWorld δ} (h : w.directory = v.directory) :
    DirectoryKept v w := fun m hm => ⟨m, h.trans hm, id⟩

/-- What a step of the call `i` does. -/
structure Guarantee [DecidableEq δ] (crypto : PamCrypto δ) (IsKey : List UInt8 → Prop)
    (calls : List (ℕ × PamCall)) (i : ℕ) (s t : PamState δ) : Prop where
  euid : t.state.euid = s.state.euid
  history : s.history <+: t.history
  gate : ∀ j, i ≠ j → s.state.gateHolder = some j → t.state.gateHolder = some j
  pending : ∀ j, i ≠ j → s.state.pendingHolder = some j →
    t.state.pendingHolder = some j ∧ t.state.pending = s.state.pending
  files : t.state.files = s.state.files ∨ Mine i s.state
  directory : DirectoryKept s.state t.state
  key : configured s.state = true →
    t.state.files.lookup keyFileName = s.state.files.lookup keyFileName
  change : Change crypto IsKey calls i s t

/-- What the others do between two steps of the call `i`. -/
structure Rely (i : ℕ) (s t : PamState δ) : Prop where
  euid : t.state.euid = s.state.euid
  history : s.history <+: t.history
  gate : s.state.gateHolder = some i → t.state.gateHolder = some i
  pending : s.state.pendingHolder = some i →
    t.state.pendingHolder = some i ∧ t.state.pending = s.state.pending
  files : Mine i s.state → t.state.files = s.state.files
  configured : PamMfa.configured s.state = true → PamMfa.configured t.state = true
  sealed : Sealed i t → Sealed i s

theorem Mine.congr {i : ℕ} {v w : PamWorld δ} (hgate : v.gateHolder = some i → w.gateHolder = some i)
    (hpending : v.pendingHolder = some i → w.pendingHolder = some i)
    (hconfigured : configured w = configured v) (h : Mine i v) : Mine i w := by
  rcases h with ⟨h, hv⟩ | ⟨h, hv⟩
  · exact .inl ⟨hgate h, hconfigured.trans hv⟩
  · exact .inr ⟨hpending h, hconfigured.trans hv⟩

theorem Rely.mine {i : ℕ} {s t : PamState δ} (h : Rely i s t) (hs : Mine i s.state) :
    Mine i t.state :=
  hs.congr h.gate (fun hp => (h.pending hp).1) (configured_congr fun _ _ => by rw [h.files hs])

theorem Rely.refl (i : ℕ) (s : PamState δ) : Rely i s s :=
  ⟨rfl, List.prefix_rfl, id, fun h => ⟨h, rfl⟩, fun _ => rfl, id, id⟩

theorem Rely.trans {i : ℕ} {s t u : PamState δ} (hst : Rely i s t) (htu : Rely i t u) :
    Rely i s u where
  euid := htu.euid.trans hst.euid
  history := hst.history.trans htu.history
  gate h := htu.gate (hst.gate h)
  pending h := by
    obtain ⟨ht, hpending⟩ := hst.pending h
    exact ⟨(htu.pending ht).1, (htu.pending ht).2.trans hpending⟩
  files h := (htu.files (hst.mine h)).trans (hst.files h)
  configured h := htu.configured (hst.configured h)
  sealed h := hst.sealed (htu.sealed h)

section

variable [DecidableEq δ] (crypto : PamCrypto δ) (IsKey : List UInt8 → Prop)
  (calls : List (ℕ × PamCall))

/-- What the call `i` has from the others and gives to them. -/
def sharing (i : ℕ) : Sharing (PamState δ) where
  rely := Rely i
  guar := Guarantee crypto IsKey calls i
  rely_refl := Rely.refl i
  rely_trans := Rely.trans

variable {crypto IsKey calls} {i j : ℕ} {s t : PamState δ}

theorem Change.configured (h : Change crypto IsKey calls i s t)
    (hs : PamMfa.configured s.state = true) : PamMfa.configured t.state = true := by
  cases h with
  | nothing hsame _ => rwa [configured_congr hsame]
  | first _ _ _ ht _ => exact ht
  | used _ hname _ _ _ _ _ _ ht _ _ =>
    exact configured_iff.2 ⟨_, isCredentialName_credentialName hname, by rw [ht]; rfl⟩

theorem Change.sealed_ne (h : Change crypto IsKey calls i s t) (hij : i ≠ j) (ht : Sealed j t) :
    Sealed j s := by
  cases h with
  | nothing _ hsealed => exact (hsealed j).1 ht
  | first _ _ hsealed _ _ => exact ((hsealed j).1 ht).resolve_right hij.symm
  | used _ _ _ _ _ _ _ _ _ _ hsealed => exact ((hsealed j).1 ht).resolve_right hij.symm

theorem Guarantee.rely (h : Guarantee crypto IsKey calls i s t) (hij : i ≠ j) : Rely j s t where
  euid := h.euid
  history := h.history
  gate := h.gate j hij
  pending := h.pending j hij
  files hmine := by
    rcases h.files with hfiles | hmine'
    · exact hfiles
    · rcases hmine, hmine' with ⟨⟨hj, hs⟩ | ⟨hj, hs⟩, ⟨hi, hs'⟩ | ⟨hi, hs'⟩⟩
      · exact absurd (Option.some.inj (hi.symm.trans hj)) hij
      · cases hs.symm.trans hs'
      · cases hs.symm.trans hs'
      · exact absurd (Option.some.inj (hi.symm.trans hj)) hij
  configured := h.change.configured
  sealed := h.change.sealed_ne hij

/-- What holds between the operations of all calls. -/
structure Inv (calls : List (ℕ × PamCall)) (s : PamState δ) : Prop where
  /-- An enrolment waits only while there is no credential. -/
  pending : s.state.pendingHolder = none → s.state.pending.isSome → configured s.state = false
  /-- What has been put in its place is there. -/
  configured : ∀ i, Sealed i s → PamMfa.configured s.state = true
  /-- One confirmation at most has written a credential. -/
  unique : ∀ i j, (callOf calls i).any PamCall.isConfirm → (callOf calls j).any PamCall.isConfirm →
    Sealed i s → Sealed j s → i = j

theorem Inv.step (hs : Inv calls s) (h : Guarantee crypto IsKey calls i s t)
    (hpending : t.state.pendingHolder = none → t.state.pending.isSome →
      PamMfa.configured t.state = false) : Inv calls t where
  pending := hpending
  configured j hj := by
    cases h.change with
    | nothing hsame hsealed =>
      rw [configured_congr hsame]
      exact hs.configured j ((hsealed j).1 hj)
    | first _ _ _ ht _ => exact ht
    | used _ hname _ _ _ _ _ _ ht _ _ =>
      exact configured_iff.2 ⟨_, isCredentialName_credentialName hname, by rw [ht]; rfl⟩
  unique j k hj hk hjs hks := by
    cases h.change with
    | nothing _ hsealed => exact hs.unique j k hj hk ((hsealed j).1 hjs) ((hsealed k).1 hks)
    | first hnone _ hsealed _ _ =>
      -- Nobody had written a credential before.
      have hno : ∀ l, ¬ Sealed l s := fun l hl => by
        cases hnone.symm.trans (hs.configured l hl)
      have hj' := ((hsealed j).1 hjs).resolve_left (hno j)
      have hk' := ((hsealed k).1 hks).resolve_left (hno k)
      exact hj'.trans hk'.symm
    | used hcall _ _ _ _ _ _ _ _ _ hsealed =>
      have hne : ∀ l, (callOf calls l).any PamCall.isConfirm → l ≠ i := by
        rintro l hl rfl
        rw [hcall] at hl
        cases hl
      exact hs.unique j k hj hk (((hsealed j).1 hjs).resolve_right (hne j hj))
        (((hsealed k).1 hks).resolve_right (hne k hk))

end

end PamMfa

end VpsGuard
