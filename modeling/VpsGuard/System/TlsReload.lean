import VpsGuard.Effect.Fallible
import VpsGuard.Effect.Restart

/-!
# Staging a renewed certificate

A certificate that was renewed is validated and then written, with its key, to a
directory from which the edge reads it (`stageTlsReloadBundle`). Each of the two files is
replaced by renaming a temporary one, the certificate first. Any operation may fail, and
the process may crash before any of them; the next call finds what was left.

Each file is thus whole at every moment, but the two are not one: between the two
renamings there is the certificate of this call with the key of the last one, and they
stay so if the second one does not happen (`staged_mixed`). The files are a pair at every
moment as long as certificates are renamed only where no key of another pair is there
(`unmixed`). A call that fails leaves them as they were if nothing fails once the
certificate is renamed (`Staging.paired`).
-/

namespace VpsGuard

open Effect Prog Fallible

/-- Why an operation on a file fails. -/
inductive Errno
  | notFound
  | alreadyExists
  | notDirectory
  | isDirectory
  | loop
  | other

/-- The two files of a certificate. -/
inductive PemKind
  | certificate
  | privateKey
  deriving DecidableEq

def PemKind.fileName : PemKind → String
  | .certificate => "fullchain.pem"
  | .privateKey => "privkey.pem"

/-- Where a certificate is renewed. A name that is not a path is one of a credential: it is
    looked for in another directory when the certificate is validated. The files do not
    change during a call. -/
structure CertificateSource where
  resolved : PemKind → Option (List UInt8)
  direct : PemKind → Option (List UInt8)

def CertificateSource.Absolute (source : CertificateSource) : Prop :=
  source.direct = source.resolved

/-- How a certificate is checked against its key. -/
structure CertificateValidator (ν ι : Type) where
  check : (certificate key : List UInt8) → Except ν ι
  unreadable : ν

variable {ν ι : Type}

def CertificateValidator.validateCertificate (validator : CertificateValidator ν ι)
    (source : CertificateSource) : Except ν (ι × List UInt8 × List UInt8) :=
  match source.resolved .certificate, source.resolved .privateKey with
  | some certificate, some key =>
    (validator.check certificate key).map fun inspection => (inspection, certificate, key)
  | _, _ => .error validator.unreadable

/-- Why a certificate is not staged. -/
inductive TlsReloadStageError (ν : Type)
  | certificate (error : ν)
  | unsafeRuntimeRoot
  | prepareDirectory (e : Errno)
  | readSource (kind : PemKind) (e : Errno)
  | writeBundle (kind : PemKind) (e : Errno)
  /-- Of a file, or of the directory. -/
  | ownership (kind : Option PemKind) (e : Errno)

/-- A certificate that is staged. -/
structure TlsReloadBundle (ι : Type) where
  inspection : ι
  certificateFile : String
  keyFile : String

/-! ## The operations -/

inductive FoundKind
  | directory
  | other
  deriving DecidableEq

structure Found where
  kind : FoundKind
  uid : ℕ
  gid : ℕ

/-- Changes of the directory. Temporary files have the number of the process in their
    names. -/
inductive StageChange
  | createDirectory (mode : ℕ)
  | chmodDirectory (mode : ℕ)
  | chownDirectory (uid gid : ℕ)
  | create (kind : PemKind) (pid mode : ℕ)
  | write (kind : PemKind) (pid : ℕ) (contents : List UInt8)
  | sync (kind : PemKind) (pid : ℕ)
  | chown (kind : PemKind) (pid uid gid : ℕ)
  | chmod (kind : PemKind) (pid mode : ℕ)
  | rename (kind : PemKind) (pid : ℕ)
  | remove (kind : PemKind) (pid : ℕ)
  | syncDirectory

/-- What staging asks of its surroundings. -/
inductive StageOp
  | validate (source : CertificateSource)
  | lstatRoot
  | lstatDirectory
  | readSource (source : CertificateSource) (kind : PemKind)
  | change (what : StageChange)

abbrev StageOp.Ans (ν ι : Type) : StageOp → Type
  | validate _ => Except ν ι
  | lstatRoot | lstatDirectory => Except Errno Found
  | readSource _ _ => Except Errno (List UInt8)
  | change _ => Except Errno Unit

/-- The operations of a call. -/
abbrev Stage (ν ι : Type) : Sig := ⟨StageOp, StageOp.Ans ν ι⟩

abbrev Staging (ν ι α : Type) := Fallible (Stage ν ι) (TlsReloadStageError ν) α

structure StageCall where
  source : CertificateSource
  pid : ℕ
  euid : ℕ

namespace Staging

def change (what : StageChange) (f : Errno → TlsReloadStageError ν) : Staging ν ι Unit :=
  request (.change what) (Except.mapError f)

def validateCertificate (source : CertificateSource) : Staging ν ι ι :=
  request (.validate source) (Except.mapError .certificate)

def lstatDirectory : Staging ν ι (Except Errno Found) := request .lstatDirectory .ok

/-- The directory is there or is created, and gets its owner and mode. -/
def prepareDirectory (uid gid : ℕ) : Staging ν ι Unit := do
  match ← lstatDirectory with
  | .ok found => ensure (found.kind = .directory) .unsafeRuntimeRoot
  | .error .notFound => change (.createDirectory 0o700) .prepareDirectory
  | .error e => throw (.prepareDirectory e)
  change (.chmodDirectory 0o750) .prepareDirectory
  change (.chownDirectory uid gid) (.ownership none)

def lstatRoot : Staging ν ι Found := do
  let found ← (request .lstatRoot (Except.mapError .prepareDirectory) : Staging ν ι Found)
  ensure (found.kind = .directory) .unsafeRuntimeRoot
  return found

def readSource (source : CertificateSource) (kind : PemKind) : Staging ν ι (List UInt8) :=
  request (.readSource source kind) (Except.mapError (.readSource kind))

/-- The temporary file is made, filled, given its owner and its mode, and renamed. -/
def writeTemporary (kind : PemKind) (pid : ℕ) (contents : List UInt8) (uid gid : ℕ) :
    Staging ν ι Unit := do
  change (.create kind pid 0o440) (.writeBundle kind)
  change (.write kind pid contents) (.writeBundle kind)
  change (.sync kind pid) (.writeBundle kind)
  change (.chown kind pid uid gid) (.ownership (some kind))
  change (.chmod kind pid 0o440) (.writeBundle kind)
  change (.rename kind pid) (.writeBundle kind)

/-- The file gets its contents. If this fails, the temporary file is removed. -/
def atomicWrite (kind : PemKind) (pid : ℕ) (contents : List UInt8) (uid gid : ℕ) :
    Staging ν ι Unit :=
  ExceptT.mk <| (writeTemporary kind pid contents uid gid).run.bind fun
    | .ok () => .ret (.ok ())
    | .error e => .call (.change (.remove kind pid)) fun _ => .ret (.error e)

/-- Stage a certificate: it is checked, and then its files are read again and copied. -/
def stageTlsReloadBundle (call : StageCall) : Staging ν ι (TlsReloadBundle ι) := do
  let inspection ← validateCertificate call.source
  let root ← lstatRoot
  let directoryOwner := if call.euid = 0 then 0 else root.uid
  prepareDirectory directoryOwner root.gid
  let certificate ← readSource call.source .certificate
  let key ← readSource call.source .privateKey
  atomicWrite .certificate call.pid certificate root.uid root.gid
  atomicWrite .privateKey call.pid key root.uid root.gid
  change .syncDirectory .prepareDirectory
  return ⟨inspection, PemKind.certificate.fileName, PemKind.privateKey.fileName⟩

end Staging

/-! ## The directory -/

/-- What is found under one of the two names. -/
inductive Staged
  | file (contents : List UInt8)
  | other
  deriving DecidableEq

/-- The root, the directory and the files in it. Of the past it is known which pairs were
    validated, and whether the last renaming was one of a certificate. -/
structure StageWorld where
  root : Except Errno Found
  directory : Except Errno Found
  staged : PemKind → Option Staged
  temporary : PemKind → ℕ → Option (List UInt8)
  validated : List (List UInt8 × List UInt8)
  between : Bool

/-- What the system does: it lets the operation happen, it refuses it, or it fails after
    some bytes were written. -/
inductive StageChoice
  | granted
  | refused
  | cut (bytes : ℕ)

namespace StageWorld

def setTemporary (s : StageWorld) (kind : PemKind) (pid : ℕ) (contents : Option (List UInt8)) :
    StageWorld :=
  { s with
    temporary := fun k p => if k = kind ∧ p = pid then contents else s.temporary k p }

/-- The temporary file is the one under the name. -/
def setStaged (s : StageWorld) (kind : PemKind) (pid : ℕ) (contents : List UInt8) : StageWorld :=
  { s.setTemporary kind pid none with
    staged := fun k => if k = kind then some (.file contents) else s.staged k
    between := kind = .certificate }

def addValidated (s : StageWorld) (pair : List UInt8 × List UInt8) : StageWorld :=
  { s with validated := pair :: s.validated }

/-- The change, as far as the directory allows it. -/
def apply (s : StageWorld) : StageChange → Except Errno StageWorld
  | .createDirectory _ =>
    match s.directory with
    | .error .notFound => .ok { s with directory := .ok ⟨.directory, 0, 0⟩ }
    | _ => .error .alreadyExists
  | .chmodDirectory _ | .chownDirectory _ _ | .syncDirectory => .ok s
  | .create kind pid _ =>
    if (s.temporary kind pid).isSome then .error .alreadyExists
    else .ok (s.setTemporary kind pid (some []))
  | .write kind pid contents =>
    match s.temporary kind pid with
    | some old => .ok (s.setTemporary kind pid (some (old ++ contents)))
    | none => .error .notFound
  | .sync kind pid | .chown kind pid _ _ | .chmod kind pid _ =>
    if (s.temporary kind pid).isSome then .ok s else .error .notFound
  | .rename kind pid =>
    match s.temporary kind pid with
    | some contents =>
      if s.staged kind = some .other then .error .isDirectory
      else .ok (s.setStaged kind pid contents)
    | none => .error .notFound
  | .remove kind pid =>
    if (s.temporary kind pid).isSome then .ok (s.setTemporary kind pid none)
    else .error .notFound

/-- The operations in the world. -/
def exec (validator : CertificateValidator ν ι) : (o : StageOp) → StageChoice → StageWorld →
    Option (o.Ans ν ι × StageWorld)
  | .validate source, .granted, s =>
    match validator.validateCertificate source with
    | .ok (inspection, pair) => some (.ok inspection, s.addValidated pair)
    | .error e => some (.error e, s)
  | .validate _, .refused, s => some (.error validator.unreadable, s)
  | .lstatRoot, .granted, s => some (s.root, s)
  | .lstatDirectory, .granted, s => some (s.directory, s)
  | .lstatRoot, .refused, s | .lstatDirectory, .refused, s => some (.error .other, s)
  | .readSource source kind, .granted, s =>
    some ((source.direct kind).elim (.error .notFound) .ok, s)
  | .readSource _ _, .refused, s => some (.error .other, s)
  | .change what, .granted, s =>
    match s.apply what with
    | .ok t => some (.ok (), t)
    | .error e => some (.error e, s)
  | .change _, .refused, s => some (.error .other, s)
  | .change (.write kind pid contents), .cut n, s =>
    (s.temporary kind pid).map fun old =>
      (.error .other, s.setTemporary kind pid (some (old ++ contents.take n)))
  | _, _, _ => none

end StageWorld

/-- The calls, one after the other. One that has not ended is one that crashed. -/
def stageProcess (ν ι : Type) : Process (Stage ν ι) StageWorld StageCall
      (Except (TlsReloadStageError ν) (TlsReloadBundle ι)) where
  boot call := (Staging.stageTlsReloadBundle call).run
  crash s := s

namespace StageWorld

/-- If both files are there, they were validated together. -/
def Paired (s : StageWorld) : Prop :=
  ∀ certificate key, s.staged .certificate = some (.file certificate) →
    s.staged .privateKey = some (.file key) → (certificate, key) ∈ s.validated

/-- What holds at every moment. -/
structure Inv (s : StageWorld) : Prop where
  files : ∀ kind, s.staged kind ≠ some .other
  paired : s.Paired

theorem inv_of_staged_eq_none {s : StageWorld} (h : ∀ kind, s.staged kind = none) : s.Inv where
  files kind := by
    rw [h]
    exact (Option.some_ne_none _).symm
  paired certificate key hcertificate := by
    rw [h] at hcertificate
    cases hcertificate

/-- No certificate is put beside the key of another pair. -/
def unmixed : StageOp → StageWorld → Bool
  | .change (.rename .certificate pid), s =>
    match s.temporary .certificate pid, s.staged .privateKey with
    | some contents, some (.file key) => (contents, key) ∈ s.validated
    | _, _ => true
  | _, _ => true

variable {s t : StageWorld} {kind : PemKind} {pid : ℕ}

@[simp] theorem setTemporary_setTemporary (v w : Option (List UInt8)) :
    (s.setTemporary kind pid v).setTemporary kind pid w = s.setTemporary kind pid w := by
  rw [setTemporary, setTemporary, setTemporary]
  congr
  funext k p
  split
  · rfl
  · next hne => exact if_neg hne

theorem setTemporary_self (kind : PemKind) (pid : ℕ) :
    s.setTemporary kind pid (s.temporary kind pid) = s := by
  rw [setTemporary]
  congr
  funext k p
  split
  · next heq => rw [heq.1, heq.2]
  · rfl

@[simp] theorem temporary_setTemporary (v : Option (List UInt8)) :
    (s.setTemporary kind pid v).temporary kind pid = v := if_pos ⟨rfl, rfl⟩

@[simp] theorem setStaged_setTemporary (v : Option (List UInt8)) (contents : List UInt8) :
    (s.setTemporary kind pid v).setStaged kind pid contents = s.setStaged kind pid contents := by
  rw [setStaged, setTemporary_setTemporary]
  rfl

theorem Inv.setTemporary (h : s.Inv) (v : Option (List UInt8)) : (s.setTemporary kind pid v).Inv :=
  ⟨h.files, h.paired⟩

theorem staged_setStaged_ne (h : s.Inv) (contents : List UInt8) (k : PemKind) :
    (s.setStaged kind pid contents).staged k ≠ some .other := by
  rw [setStaged]
  dsimp only
  split
  · exact fun heq => Staged.noConfusion (Option.some.inj heq)
  · exact h.files k

/-- Certificates that are not put beside another key are all that is needed. -/
theorem paired_setStaged_certificate_iff {contents : List UInt8}
    (hcontents : s.temporary .certificate pid = some contents) :
    (s.setStaged .certificate pid contents).Paired ↔ unmixed (.change (.rename .certificate pid))
      s := by
  rw [unmixed, hcontents]
  constructor
  · intro h
    cases hkey : s.staged .privateKey with
    | none => rfl
    | some staged =>
      cases staged with
      | file key => exact decide_eq_true (h contents key rfl hkey)
      | other => rfl
  · intro h certificate key hcertificate hkey
    have hkey : s.staged .privateKey = some (.file key) := hkey
    rw [hkey] at h
    cases hcertificate
    exact of_decide_eq_true h

theorem paired_setStaged_privateKey {certificate key : List UInt8}
    (hcertificate : s.staged .certificate = some (.file certificate))
    (hvalidated : (certificate, key) ∈ s.validated) :
    (s.setStaged .privateKey pid key).Paired := by
  intro c k hc hk
  have hc : s.staged .certificate = some (.file c) := hc
  rw [hcertificate] at hc
  cases hc
  cases hk
  exact hvalidated

/-- What is left of a change that fails. -/
def Interrupted (s t : StageWorld) : StageChange → Prop
  | .write kind pid _ => t = s ∨ ∃ contents, t = s.setTemporary kind pid (some contents)
  | _ => t = s

theorem exec_change {validator : CertificateValidator ν ι} {what : StageChange} {x : StageChoice}
    {a : Except Errno Unit} (h : exec validator (.change what) x s = some (a, t)) :
    (s.apply what = .ok t ∧ a = .ok ()) ∨ (∃ e, s.apply what = .error e ∧ t = s ∧ a = .error e) ∨
      (x ≠ .granted ∧ s.Interrupted t what ∧ a = .error .other) := by
  cases x with
  | granted =>
    rw [exec] at h
    split at h
    · next hu => cases h; exact .inl ⟨hu, rfl⟩
    · next e he => cases h; exact .inr (.inl ⟨e, he, rfl, rfl⟩)
  | refused =>
    cases h
    refine .inr (.inr ⟨StageChoice.noConfusion, ?_, rfl⟩)
    cases what with
    | write => exact .inl rfl
    | _ => rfl
  | cut n =>
    cases what with
    | write kind pid contents =>
      obtain ⟨old, -, hau⟩ := Option.map_eq_some_iff.1 h
      cases hau
      exact .inr (.inr ⟨StageChoice.noConfusion, .inr ⟨_, rfl⟩, rfl⟩)
    | _ => cases h

end StageWorld

/-! ## Calls -/

open StageWorld

/-- Once the certificate is renamed, nothing fails until the key is; and the directory is
    written through. -/
def Steady (o : StageOp) (x : StageChoice) (s : StageWorld) : Prop :=
  (s.between = true → x = .granted) ∧ (o = .change .syncDirectory → x = .granted)

def stageSetting (validator : CertificateValidator ν ι)
    (allow : StageOp → StageChoice → StageWorld → Prop) :
    Setting (Stage ν ι) StageWorld StageChoice where
  exec := StageWorld.exec validator
  allow := allow
  inv := Inv

namespace Staging

variable {validator : CertificateValidator ν ι} {s t : StageWorld} {kind : PemKind} {pid : ℕ}
  {f : Errno → TlsReloadStageError ν} {contents : List UInt8} {uid gid : ℕ}
  {u : StageWorld} {source : CertificateSource}
  {allow : StageOp → StageChoice → StageWorld → Prop} {steady : Prop}

section Write

variable (hunmixed : ∀ o x s, allow o x s → unmixed o s)
  (hsteady : steady → ∀ o x s, allow o x s → Steady o x s)

include hsteady

variable {what : StageChange}

theorem change_safe {R : StageWorld → Prop} {X : TlsReloadStageError ν → StageWorld → Prop}
    (hok : ∀ x t, allow (.change what) x s → s.apply what = .ok t → t.Inv ∧ R t)
    (hfails : ∀ e, s.apply what = .error e → X (f e) s) (hrefused :
      (steady → s.between = false ∧ what ≠ .syncDirectory) → ∀ t, s.Interrupted t what → t.Inv ∧ X
      (f .other) t) :
    (change what f : Staging ν ι Unit).run.Safe (stageSetting validator allow) .alone
      (Outcome (fun _ => R) X) s := by
  refine .request_last ?_
  rintro _ rfl hs x a u hx hexec
  obtain ⟨hu, rfl⟩ | ⟨e, he, rfl, rfl⟩ | ⟨hgranted, hu, rfl⟩ := exec_change hexec
  · obtain ⟨hinv, hR⟩ := hok x u hx hu
    refine ⟨trivial, hinv, ?_⟩
    rintro _ rfl -
    exact hR
  · refine ⟨trivial, hs, ?_⟩
    rintro _ rfl -
    exact hfails e he
  · have hfree : steady → s.between = false ∧ what ≠ .syncDirectory := fun h =>
      ⟨eq_false_of_ne_true fun hb => hgranted ((hsteady h _ _ _ hx).1 hb),
        fun hwhat => hgranted ((hsteady h _ _ _ hx).2 (congrArg _ hwhat))⟩
    obtain ⟨hinv, hX⟩ := hrefused hfree u hu
    refine ⟨trivial, hinv, ?_⟩
    rintro _ rfl -
    exact hX

/-- A temporary file was left, or is gone. This cannot happen between the renamings, if
    there was none before. -/
def Left (steady : Prop) (kind : PemKind) (pid : ℕ) (s t : StageWorld) : Prop :=
  (∃ v, t = s.setTemporary kind pid v) ∧
    ¬ (steady ∧ s.between = true ∧ s.temporary kind pid = none)

omit hsteady in
theorem left_of_between (hbetween : steady → s.between = false) (v : Option (List UInt8)) :
    Left steady kind pid s (s.setTemporary kind pid v) := by
  refine ⟨⟨v, rfl⟩, fun ⟨h, htrue, _⟩ => ?_⟩
  rw [hbetween h] at htrue
  cases htrue

variable (hs : s.Inv)

include hs

theorem touch_safe {b c : List UInt8} (happly : (s.setTemporary kind pid (some b)).apply what = .ok
      (s.setTemporary kind pid (some c))) (hpart : ∀ t,
      (s.setTemporary kind pid (some b)).Interrupted t what → ∃ v, t = s.setTemporary kind pid v) :
    (change what f : Staging ν ι Unit).run.Safe (stageSetting validator allow) .alone
      (Outcome (fun _ t => t = s.setTemporary kind pid (some c)) fun _ => Left steady kind pid s)
      (s.setTemporary kind pid (some b)) := by
  refine change_safe hsteady (fun _ t _ ht => ?_) (fun e he => ?_) fun hbetween t ht => ?_
  · rw [happly] at ht
    cases ht
    exact ⟨hs.setTemporary _, rfl⟩
  · rw [happly] at he
    cases he
  · obtain ⟨v, rfl⟩ := hpart t ht
    have hbetween : steady → s.between = false := fun h => (hbetween h).1
    exact ⟨hs.setTemporary v, left_of_between hbetween v⟩

theorem create_safe {mode : ℕ} :
    (change (.create kind pid mode) f : Staging ν ι Unit).run.Safe (stageSetting validator allow)
      .alone (Outcome (fun _ t => t = s.setTemporary kind pid (some [])) fun _ =>
        Left steady kind pid s) s := by
  refine change_safe hsteady (fun _ t _ ht => ?_) (fun e he => ?_) ?_
  · rw [apply] at ht
    split at ht
    · cases ht
    · cases ht
      exact ⟨hs.setTemporary _, rfl⟩
  · rw [apply] at he
    split at he
    · next hsome =>
      refine ⟨⟨s.temporary kind pid, (setTemporary_self kind pid).symm⟩, fun h => ?_⟩
      rw [h.2.2] at hsome
      cases hsome
    · cases he
  · rintro hbetween t rfl
    have hleft : Left steady kind pid t (t.setTemporary kind pid (t.temporary kind pid)) :=
      left_of_between (fun h => (hbetween h).1) _
    rw [setTemporary_self] at hleft
    exact ⟨hs, hleft⟩

variable (hrename : unmixed (.change (.rename kind pid)) (s.setTemporary kind pid (some contents)) →
  (s.setStaged kind pid contents).Paired)

include hrename hunmixed

theorem rename_safe :
    (change (.rename kind pid) f : Staging ν ι Unit).run.Safe (stageSetting validator allow) .alone
      (Outcome (fun _ t => t = s.setStaged kind pid contents) fun _ => Left steady kind pid s)
      (s.setTemporary kind pid (some contents)) := by
  have happly : (s.setTemporary kind pid (some contents)).apply (.rename kind pid) =
      .ok (s.setStaged kind pid contents) := by
    simp only [apply, temporary_setTemporary]
    rw [if_neg (show (s.setTemporary kind pid (some contents)).staged kind ≠ some .other from
      hs.files kind), setStaged_setTemporary]
  refine change_safe hsteady (fun x t hx ht => ?_) (fun e he => ?_) ?_
  · rw [happly] at ht
    cases ht
    exact ⟨⟨staged_setStaged_ne hs contents, hrename (hunmixed _ x _ hx)⟩, rfl⟩
  · rw [happly] at he
    cases he
  · rintro hbetween t rfl
    have hbetween : steady → s.between = false := fun h => (hbetween h).1
    exact ⟨hs.setTemporary _, left_of_between hbetween _⟩

theorem writeTemporary_safe :
    (writeTemporary kind pid contents uid gid : Staging ν ι Unit).run.Safe
      (stageSetting validator allow) .alone
      (Outcome (fun _ t => t = s.setStaged kind pid contents) fun _ => Left steady kind pid s)
      s := by
  refine .attempt_alone (create_safe hsteady hs) ?_
  rintro _ _ - rfl
  refine .attempt_alone (touch_safe (c := contents) hsteady hs ?_ ?_) ?_
  · simp only [apply, temporary_setTemporary, setTemporary_setTemporary, List.nil_append]
  · rintro t (rfl | ⟨v, rfl⟩)
    · exact ⟨_, rfl⟩
    · exact ⟨_, setTemporary_setTemporary _ _⟩
  -- Neither of the next three changes the contents.
  iterate 3
    rintro _ _ - rfl
    refine .attempt_alone (touch_safe (c := contents) hsteady hs ?_ ?_) ?_
    · simp only [apply, temporary_setTemporary, Option.isSome_some, if_true]
    · rintro t rfl
      exact ⟨_, rfl⟩
  rintro _ _ - rfl
  exact rename_safe hunmixed hsteady hs hrename

theorem atomicWrite_safe :
    (atomicWrite kind pid contents uid gid : Staging ν ι Unit).run.Safe
      (stageSetting validator allow) .alone
      (Outcome (fun _ t => t = s.setStaged kind pid contents) fun _ => Left steady kind pid s)
      s := by
  refine .bind (writeTemporary_safe hunmixed hsteady hs hrename) fun r t _ hr => ?_
  cases r with
  | ok u => exact .ret_alone fun _ => hr
  | error e =>
    obtain ⟨⟨v, rfl⟩, hwhy⟩ := hr
    refine .call_alone fun hinv x a u _ hexec => ?_
    have hleft : Left steady kind pid s u ∧ u.Inv := by
      obtain ⟨hu, -⟩ | ⟨e, -, rfl, -⟩ | ⟨-, rfl, -⟩ := exec_change hexec
      · rw [apply] at hu
        split at hu
        · cases hu
          rw [setTemporary_setTemporary]
          exact ⟨⟨⟨none, rfl⟩, hwhy⟩, hs.setTemporary none⟩
        · cases hu
      · exact ⟨⟨⟨v, rfl⟩, hwhy⟩, hinv⟩
      · exact ⟨⟨⟨v, rfl⟩, hwhy⟩, hinv⟩
    exact ⟨hleft.2, Safe.ret_alone fun _ => hleft.1⟩

end Write

structure Same (s t : StageWorld) : Prop where
  staged : t.staged = s.staged
  temporary : t.temporary = s.temporary
  validated : ∀ pair ∈ s.validated, pair ∈ t.validated

theorem Same.refl (s : StageWorld) : Same s s := ⟨rfl, rfl, fun _ h => h⟩

theorem Same.trans (h : Same s t) (h' : Same t u) : Same s u where
  staged := h'.staged.trans h.staged
  temporary := h'.temporary.trans h.temporary
  validated pair hpair := h'.validated pair (h.validated pair hpair)

theorem Same.inv (h : Same s t) (hs : s.Inv) : t.Inv where
  files := by
    rw [h.staged]
    exact hs.files
  paired certificate key := by
    rw [h.staged]
    exact fun hcertificate hkey => h.validated _ (hs.paired certificate key hcertificate hkey)

/-- An operation that is not one on the files. -/
def Prelude : StageOp → Prop
  | .change (.createDirectory _) => True
  | .change (.chmodDirectory _) => True
  | .change (.chownDirectory _ _) => True
  | .change _ => False
  | _ => True

theorem same_of_prelude {o : StageOp} {x : StageChoice} {a : o.Ans ν ι} (ho : Prelude o)
    (h : StageWorld.exec validator o x s = some (a, t)) : Same s t := by
  cases o with
  | validate source =>
    cases x with
    | granted =>
      rw [exec] at h
      split at h
      · cases h
        exact ⟨rfl, rfl, fun _ => List.mem_cons_of_mem _⟩
      · cases h
        exact .refl s
    | refused => cases h; exact .refl s
    | cut n => cases h
  | lstatRoot => cases x <;> cases h; all_goals exact .refl s
  | lstatDirectory => cases x <;> cases h; all_goals exact .refl s
  | readSource source kind => cases x <;> cases h; all_goals exact .refl s
  | change what =>
    obtain ⟨hu, -⟩ | ⟨e, -, rfl, -⟩ | ⟨-, ht, -⟩ := exec_change h
    · cases what with
      | createDirectory mode =>
        rw [apply] at hu
        split at hu
        · cases hu
          exact ⟨rfl, rfl, fun _ h => h⟩
        · cases hu
      | chmodDirectory | chownDirectory => cases hu; exact .refl s
      | create | write | sync | chown | chmod | rename | remove | syncDirectory => exact ho.elim
    · exact .refl t
    · cases what with
      | createDirectory | chmodDirectory | chownDirectory => rw [ht]; exact .refl s
      | create | write | sync | chown | chmod | rename | remove | syncDirectory => exact ho.elim

theorem prelude_safe {α : Type} {p : Prog (Stage ν ι) α} (hp : p.Performs Prelude) :
    p.Safe (stageSetting validator allow) .alone (fun _ t => True ∧ Same s t) s := by
  have hmeets := hp.meets (B := fun _ _ => True) (yields_true p)
  refine Safe.of_meets (P := Same s) hmeets ?_ ?_ (.refl s)
  · rintro t _ h rfl -
    exact h
  · intro o x t a u ho h hinv _ hexec
    have hsame := same_of_prelude ho hexec
    exact ⟨trivial, hsame.inv hinv, h.trans hsame, trivial⟩

theorem performs_lstatRoot : (lstatRoot : Staging ν ι Found).run.Performs Prelude := by
  refine performs_bind (performs_request trivial) fun found => ?_
  refine performs_bind ?_ fun _ => trivial
  unfold ensure
  split <;> trivial

theorem performs_prepareDirectory (uid gid : ℕ) :
    (prepareDirectory uid gid : Staging ν ι Unit).run.Performs Prelude := by
  have hrest : (do
      change (.chmodDirectory 0o750) .prepareDirectory
      change (.chownDirectory uid gid) (.ownership none) : Staging ν ι Unit).run.Performs Prelude :=
    performs_bind (performs_request trivial) fun _ =>
      performs_request trivial
  refine performs_bind (performs_request trivial) fun found => ?_
  cases found with
  | ok found =>
    refine performs_bind ?_ fun _ => hrest
    unfold ensure
    split <;> trivial
  | error e =>
    cases e with
    | notFound => exact performs_bind (performs_request trivial) fun _ => hrest
    | alreadyExists | notDirectory | isDirectory | loop | other => trivial

theorem validateCertificate_eq_ok {inspection : ι} {pair : List UInt8 × List UInt8}
    (h : validator.validateCertificate source = .ok (inspection, pair)) :
    source.resolved .certificate = some pair.1 ∧ source.resolved .privateKey = some pair.2 := by
  unfold CertificateValidator.validateCertificate at h
  split at h
  · next certificate key hcertificate hkey =>
    cases hcheck : validator.check certificate key with
    | error e => rw [hcheck] at h; cases h
    | ok inspection =>
      rw [hcheck] at h
      cases h
      exact ⟨hcertificate, hkey⟩
  · cases h

/-- The source was validated as a pair, and the files are as before. -/
structure Ready (source : CertificateSource) (certificate key : List UInt8) (s t : StageWorld) :
    Prop where
  same : Same s t
  validated : (certificate, key) ∈ t.validated
  certificate : source.direct .certificate = some certificate
  key : source.direct .privateKey = some key

variable {certificate key : List UInt8}

theorem Ready.trans (h : Ready source certificate key s t)
    (h' : Same t u) : Ready source certificate key s u where
  same := h.same.trans h'
  validated := h'.validated _ h.validated
  certificate := h.certificate
  key := h.key

theorem validate_safe (hsource : source.Absolute) :
    (validateCertificate source : Staging ν ι ι).run.Safe (stageSetting validator allow) .alone
      (Outcome (fun _ t => ∃ certificate key, Ready source certificate key s t)
        fun _ t => t.staged = s.staged) s := by
  refine .request_last ?_
  rintro _ rfl hs x a u - hexec
  have hsame : Same s u := same_of_prelude (show Prelude (.validate source) from trivial) hexec
  refine ⟨trivial, hsame.inv hs, ?_⟩
  rintro _ rfl -
  cases a with
  | error e => exact hsame.staged
  | ok inspection =>
    cases x with
    | granted =>
      change StageWorld.exec validator (.validate source) .granted s = _ at hexec
      rw [exec] at hexec
      split at hexec
      · next pair hvalid =>
        cases hexec
        obtain ⟨hcertificate, hkey⟩ := validateCertificate_eq_ok hvalid
        rw [← hsource] at hcertificate hkey
        exact ⟨pair.1, pair.2, hsame, List.mem_cons_self, hcertificate, hkey⟩
      · cases hexec
    | refused => cases hexec
    | cut n => cases hexec

theorem readSource_safe (hcontents : source.direct kind = some contents) :
    (readSource source kind : Staging ν ι (List UInt8)).run.Safe (stageSetting validator allow)
      .alone (Outcome (fun read t => read = contents ∧ t = s) fun _ t => t = s) s := by
  refine .request_last ?_
  rintro _ rfl hs x a u - hexec
  cases x with
  | granted =>
    cases hexec
    refine ⟨trivial, hs, ?_⟩
    rintro _ rfl -
    rw [hcontents]
    exact ⟨rfl, rfl⟩
  | refused =>
    cases hexec
    refine ⟨trivial, hs, ?_⟩
    rintro _ rfl -
    exact rfl
  | cut n => cases hexec

section Calls

variable (hunmixed : ∀ o x s, allow o x s → unmixed o s)
  (hsteady : steady → ∀ o x s, allow o x s → Steady o x s)

include hsteady

theorem syncDirectory_safe (hs : s.Inv) :
    (change .syncDirectory f : Staging ν ι Unit).run.Safe (stageSetting validator allow) .alone
      (Outcome (fun _ _ => True) fun _ _ => ¬ steady) s := by
  refine change_safe hsteady (fun _ t _ ht => ?_) (fun e he => ?_) ?_
  · cases ht
    exact ⟨hs, trivial⟩
  · cases he
  · rintro hsync _ rfl
    exact ⟨hs, fun h => (hsync h).2 rfl⟩

include hunmixed

theorem writeBoth_safe {bundle : TlsReloadBundle ι} (hu : u.Inv)
    (h : Ready source certificate key s u) :
    (do
      atomicWrite .certificate pid certificate uid gid
      atomicWrite .privateKey pid key uid gid
      change .syncDirectory .prepareDirectory
      return bundle : Staging ν ι (TlsReloadBundle ι)).run.Safe (stageSetting validator allow) .alone
      (Outcome (fun _ _ => True) fun _ t =>
        steady → s.temporary .privateKey pid = none → t.staged = s.staged) u := by
  have hpair : unmixed (.change (.rename .certificate pid))
      (u.setTemporary .certificate pid (some certificate)) →
        (u.setStaged .certificate pid certificate).Paired := fun h => by
    have hpaired := (paired_setStaged_certificate_iff (temporary_setTemporary _)).2 h
    rwa [setStaged_setTemporary] at hpaired
  refine .attempt_or (atomicWrite_safe hunmixed hsteady hu hpair) ?_ ?_
  · rintro e _ ⟨⟨v, rfl⟩, -⟩ - -
    exact h.same.staged
  rintro _ _ hcertificate rfl
  -- The key goes with the certificate that was just renamed.
  refine .attempt_or (atomicWrite_safe hunmixed hsteady hcertificate
    fun _ => paired_setStaged_privateKey rfl h.validated) (fun e t ht hstrict hnone => ?_) ?_
  · exact absurd ⟨hstrict, rfl, (congrFun (congrFun h.same.temporary _) _).trans hnone⟩ ht.2
  rintro _ _ hkey rfl
  exact .attempt_or (syncDirectory_safe hsteady hkey) (fun _ _ h hstrict => absurd hstrict h)
    fun _ _ _ _ => Safe.ret_alone fun _ => trivial

theorem stageTlsReloadBundle_safe {call : StageCall} (hcall : call.source.Absolute) :
    (stageTlsReloadBundle call : Staging ν ι (TlsReloadBundle ι)).run.Safe
      (stageSetting validator allow) .alone (Outcome (fun _ _ => True) fun _ t =>
        steady → s.temporary .privateKey call.pid = none → t.staged = s.staged) s := by
  refine .attempt_or (validate_safe hcall) (fun _ _ h _ _ => h) ?_
  rintro inspection t - ⟨certificate, key, ht⟩
  refine .attempt_keeping (prelude_safe performs_lstatRoot)
    (fun e u hu _ _ => (ht.trans hu).same.staged) fun root u _ hu => ?_
  have hu := ht.trans hu
  refine .attempt_keeping (prelude_safe (performs_prepareDirectory _ _))
    (fun e v hv _ _ => (hu.trans hv).same.staged) fun _ v _ hv => ?_
  have hv := hu.trans hv
  refine .attempt_or (readSource_safe hv.certificate) (fun e t ht _ _ => ht ▸ hv.same.staged) ?_
  rintro _ _ - ⟨rfl, rfl⟩
  refine .attempt_or (readSource_safe hv.key) (fun e t ht _ _ => ht ▸ hv.same.staged) ?_
  rintro _ _ hinv ⟨rfl, rfl⟩
  exact writeBoth_safe hunmixed hsteady hinv hv

end Calls

/-- Over any number of calls, which may fail and crash anywhere, but rename a certificate only
    where no key of another pair is there: at every moment the files, if both are there, were
    validated together by one call. A call that fails leaves them as they were, if nothing
    fails once it has renamed the certificate and no key was left behind by another one. -/
theorem paired {s₀ : StageWorld}
    {p : Prog (Stage ν ι) (Except (TlsReloadStageError ν) (TlsReloadBundle ι))}
    (h₀ : ∀ kind, s₀.staged kind = none) (h : Restarts ⟨StageWorld.exec validator⟩
      (stageProcess ν ι) (fun call _ => call.source.Absolute) (fun o _ s => unmixed o s) s₀ s p) :
    s.Paired ∧ ∀ call e, call.source.Absolute → s.temporary .privateKey call.pid = none → Runs
      ⟨StageWorld.exec validator⟩ (fun o x s => unmixed o s ∧ Steady o x s)
      (stageTlsReloadBundle call : Staging ν ι (TlsReloadBundle ι)).run s (.error e) t → t.staged =
      s.staged := by
  have hsafe := Restarts.safe (E := stageSetting validator fun o _ s => unmixed o s)
    (Q := fun _ _ => True) (fun _ => True) h ⟨inv_of_staged_eq_none h₀, trivial⟩
    (fun s hs => ⟨hs, trivial⟩) fun call s _ _ hcall =>
      (stageTlsReloadBundle_safe (fun _ _ _ h => h) (fun h : False => h.elim) hcall).weaken
        fun _ _ _ _ => trivial
  refine ⟨hsafe.1.paired, fun call e hcall hnone hruns => ?_⟩
  exact (Runs.safe (E := stageSetting validator fun o x s => unmixed o s ∧ Steady o x s) hruns
    (stageTlsReloadBundle_safe (fun _ _ _ h => h.1) (fun (_ : True) _ _ _ h => h.2) hcall)
    hsafe.1).1 trivial hnone

/-! ## Two certificates -/

def plainValidator : CertificateValidator Unit Unit := ⟨fun _ _ => .ok (), ()⟩

def emptyRoot : StageWorld where
  root := .ok ⟨.directory, 0, 0⟩
  directory := .error .notFound
  staged _ := none
  temporary _ _ := none
  validated := []
  between := false

/-- A certificate and a key of one byte. -/
def sampleCall (byte : UInt8) : StageCall where
  source := ⟨fun _ => some [byte], fun _ => some [byte]⟩
  pid := 1
  euid := 0

/-- A renewed certificate, for the key `1`. -/
def renewedCall : StageCall where
  source := ⟨fun | .certificate => some [2] | .privateKey => some [1],
    fun | .certificate => some [2] | .privateKey => some [1]⟩
  pid := 1
  euid := 0

def Renewed (s : StageWorld) : Prop :=
  s.staged .certificate = some (.file [2]) ∧ s.staged .privateKey = some (.file [1]) ∧
    s.temporary .privateKey 1 = none ∧ s.between = false

instance (s : StageWorld) : Decidable (Renewed s) := inferInstanceAs (Decidable (_ ∧ _ ∧ _ ∧ _))

/-- A certificate is renewed while its key is there, and the next call fails. -/
theorem paired_renewed : ∃ s t : StageWorld, ∃ e,
    s.staged .certificate = some (.file [2]) ∧ s.staged .privateKey = some (.file [1]) ∧
    ([2], [1]) ∈ s.validated ∧
    Runs ⟨StageWorld.exec plainValidator⟩ (fun o x s => unmixed o s ∧ Steady o x s)
      (stageTlsReloadBundle (sampleCall 3) : Staging Unit Unit _).run s (.error e) t ∧
    t.staged = s.staged := by
  obtain ⟨a, s, hfirst, hs⟩ : ∃ a, ∃ s : StageWorld,
      Runs ⟨StageWorld.exec plainValidator⟩ (fun o _ s => unmixed o s)
        ((stageProcess Unit Unit).boot (sampleCall 1)) emptyRoot a s ∧
      ((Prog.run (Machine.restrict ⟨StageWorld.exec plainValidator⟩ fun o _ s => unmixed o s)
        (List.replicate 20 .granted) ((stageProcess Unit Unit).boot renewedCall) s).any fun r =>
          decide (Renewed r.2)) = true :=
    exists_runs_of_run (l := List.replicate 21 .granted) _ (by decide +kernel)
  obtain ⟨a', t, hsecond, ht⟩ := exists_runs_of_run (fun _ t => decide (Renewed t)) hs
  obtain ⟨hcertificate, hkey, hnone, hbetween⟩ := of_decide_eq_true ht
  have hstaged : Restarts ⟨StageWorld.exec plainValidator⟩ (stageProcess Unit Unit)
      (fun call _ => call.source.Absolute) (fun o _ s => unmixed o s) emptyRoot s (.ret a) :=
    Restarts.of_runs (.boot (b := sampleCall 1) rfl) hfirst
  have hreached := (hstaged.crash (b := renewedCall) rfl).of_runs hsecond
  have hrefused : Runs ⟨StageWorld.exec plainValidator⟩ (fun o x s => unmixed o s ∧ Steady o x s)
      (stageTlsReloadBundle (sampleCall 3) : Staging Unit Unit _).run t (.error (.certificate ())) t :=
    .call (x := .refused) ⟨rfl, by simp [hbetween], nofun⟩ rfl (.ret _ _)
  have hpaired := paired (t := t) (fun _ => rfl) hreached
  exact ⟨t, t, _, hcertificate, hkey, hpaired.1 _ _ hcertificate hkey, hrefused,
    hpaired.2 (sampleCall 3) _ rfl hnone hrefused⟩

/-- The first certificate is staged. Of the second one the certificate is renamed, and the
    temporary file of the key is refused. -/
def secondFails : List (StageCall ⊕ StageChoice) :=
  List.replicate 21 (.inr .granted) ++ .inl (sampleCall 2) :: List.replicate 13 (.inr .granted) ++
    [.inr .refused, .inr .granted]

/-- The call fails, and has not left the pair as it was: there is its certificate, with the
    key of the first one. -/
theorem staged_mixed : ∃ s e, Restarts ⟨StageWorld.exec plainValidator⟩ (stageProcess Unit Unit)
      (fun _ _ => True) (fun _ _ _ => True) emptyRoot s (.ret (.error e)) ∧
    s.staged .certificate = some (.file [2]) ∧ s.staged .privateKey = some (.file [1]) ∧
    ¬ s.Paired := by
  have hrun : (Restarts.run (Machine.restrict ⟨StageWorld.exec plainValidator⟩ fun _ _ _ => True)
      (stageProcess Unit Unit) secondFails emptyRoot
      ((stageProcess Unit Unit).boot (sampleCall 1))).any (fun r =>
        decide (r.1.staged .certificate = some (.file [2]) ∧
          r.1.staged .privateKey = some (.file [1]) ∧ ([2], [1]) ∉ r.1.validated) &&
        r.2.value?.any fun a => !a.isOk) = true := by
    decide +kernel
  obtain ⟨⟨s, p⟩, hr, hs⟩ := (Option.any_eq_true _ _).1 hrun
  obtain ⟨hs, hp⟩ := Bool.and_eq_true_iff.1 hs
  obtain ⟨hcertificate, hkey, hnot⟩ := of_decide_eq_true hs
  obtain ⟨a, ha, herror⟩ := (Option.any_eq_true _ _).1 hp
  have hreached := Restarts.of_run (.boot trivial) hr
  cases a with
  | ok bundle => cases herror
  | error e =>
    rw [eq_ret_of_value? ha] at hreached
    exact ⟨s, e, hreached, hcertificate, hkey, fun hpaired => hnot (hpaired _ _ hcertificate hkey)⟩

end Staging

end VpsGuard
