import Mathlib.Algebra.GroupWithZero.Nat
import Mathlib.Algebra.Ring.Int.Defs
import Mathlib.Data.List.AList
import VpsGuard.Auth.RecoveryCode
import VpsGuard.Effect.Fallible
import VpsGuard.Effect.Host

/-!
# The second factor of PAM administrators

The privileged helper keeps, in a directory of its own, a key and one sealed
credential for every enrolled administrator: the seed of the one-time
passwords, and keyed digests of the recovery codes that have not been used.

* `startEnrollment` draws a seed and recovery codes, and keeps them in memory;
* `confirmEnrollment` checks a one-time password for the seed, writes the
  credential, and returns the codes;
* `verify` accepts a one-time password, or a recovery code, which it removes
  from the credential.

The memory has a lock (`lockPending`), and `verify` has another one for the
credentials (`lockGate`). Files are written under a temporary name and renamed
(`atomicWrite`).

Every file operation, and every taking and giving back of a lock, is an
operation of its own (`PamOp`), and any of them may fail (`PamWorld.exec`).
Ciphers, digests and one-time passwords are given (`PamCrypto`).
-/

namespace VpsGuard

open Effect

/-! ## Credentials -/

/-- The factor that was accepted. -/
inductive PamMfaMethod
  | totp
  | recovery
  deriving DecidableEq

/-- Why the helper refuses. -/
inductive PamMfaError
  | storage
  | crypto
  | invalidUsername
  | alreadyConfigured
  | enrollmentUnavailable
  | invalidTotp
  | notConfigured
  | invalidFactor
  deriving DecidableEq

/-- What is shown of an enrolment that was started. -/
structure PamMfaEnrollmentStart where
  enrollmentId : List Char
  secretBase32 : List Char
  otpauthUri : List Char
  expiresInSeconds : ℕ

/-- What is shown of an enrolment that is complete: the codes, this one time. -/
structure PamMfaEnrollmentComplete where
  actor : List Char
  recoveryCodes : List (List Char)

/-- A credential, as it is in its file. The seed is encrypted, the codes are digests. -/
structure SealedCredential where
  schemaVersion : ℕ
  username : List Char
  nonce : List Char
  ciphertext : List Char
  recoveryDigests : List (List Char)
  deriving DecidableEq

/-- An enrolment that waits to be confirmed, in memory only. -/
structure PamPendingEnrollment (δ : Type) where
  enrollmentDigest : δ
  username : List Char
  secretBase32 : List Char
  recoveryCodes : List (List Char)
  expiresAt : ℤ
  deriving DecidableEq

/-- Digests, ciphers and one-time passwords, as the libraries have them. -/
structure PamCrypto (δ : Type) where
  enrollmentDigest : List Char → δ
  /-- The digest of a user's recovery code under a key. -/
  recoveryDigest : List UInt8 → List Char → List Char → δ
  encode : δ → List Char
  decode : List Char → Option δ
  decode_encode : ∀ digest, decode (encode digest) = some digest
  /-- The text for random bytes. -/
  token : List UInt8 → List Char
  /-- The ciphertext for a key, a user, a seed and a nonce. -/
  encrypt : List UInt8 → List Char → List Char → List UInt8 → List Char
  /-- The seed in a ciphertext, for a key, a user and the text of a nonce. -/
  decrypt : List UInt8 → List Char → List Char → List Char → Option (List Char)
  decrypt_encrypt : ∀ key username secret nonce,
    decrypt key username (token nonce) (encrypt key username secret nonce) = some secret
  secretBase32 : List UInt8 → List Char
  secretBytes : List Char → Option (List UInt8)
  /-- Whether there are one-time passwords for a user and a seed. -/
  buildTotp : List Char → List UInt8 → Bool
  /-- Whether a code is the one-time password at a time. -/
  check : List Char → List UInt8 → List Char → ℕ → Bool
  url : List Char → List UInt8 → List Char

namespace PamMfa

def storeSchemaVersion : ℕ := 1

def enrollmentTtlSeconds : ℤ := 600

def totpSecretBytes : ℕ := 20

def masterKeyBytes : ℕ := 32

def nonceBytes : ℕ := 24

def recoveryCodeCount : ℕ := 10

def keyFileName : List Char := ".credential-key".toList

/-- The sum of machine integers of `64` bits, at most the largest of them. -/
def saturatingAdd (a b : ℤ) : ℤ := max (-2 ^ 63) (min (a + b) (2 ^ 63 - 1))

/-- Six digits. -/
def validTotpShape (value : List Char) : Bool := Text.byteLength value = 6 && value.all Char.isDigit

/-- The names that may be enrolled. None of them leads out of the directory. -/
def validUsername (username : List Char) : Bool :=
  3 ≤ Text.byteLength username && Text.byteLength username ≤ 32 &&
    username.head?.any Char.isAlphanum &&
    username.all fun c => c.isAlphanum || ['.', '_', '-'].contains c

/-- The file of a credential. -/
def credentialName (username : List Char) : List Char := username ++ ".json".toList

/-- What follows the last dot of a name, if there is something before it. -/
def extension (name : List Char) : Option (List Char) :=
  (Text.rsplitOnce '.' name).bind fun parts => if parts.1 = [] then none else some parts.2

def isCredentialName (name : List Char) : Bool := extension name = some "json".toList

end PamMfa

/-! ## The world of the helper -/

/-- What a file holds: bytes, or what a credential is written as. -/
inductive PamContent
  | bytes (bytes : List UInt8)
  | json (credential : SealedCredential)
  deriving DecidableEq

/-- What is known of a file without reading it. -/
structure PamMetadata where
  /-- It is a regular file, if it is in the directory; the directory is one. -/
  regular : Bool
  uid : ℕ
  mode : ℕ
  deriving DecidableEq

/-- A file of the store. -/
structure PamFile where
  metadata : PamMetadata
  content : PamContent

/-- What the helper asks of its surroundings. -/
inductive PamOp (δ : Type)
  | lockPending
  | unlockPending (slot : Option (PamPendingEnrollment δ))
  | lockGate
  | unlockGate
  | random (n : ℕ)
  | directoryExists
  | directoryMetadata
  | createDirectory
  | chmodDirectory
  | readDirectory
  | syncDirectory
  | fileExists (name : List Char)
  | fileMetadata (name : List Char)
  | readFile (name : List Char)
  | createFile (name : List Char)
  | writeFile (name : List Char) (content : PamContent)
  | syncFile (name : List Char)
  | renameFile (source target : List Char)
  | removeFile (name : List Char)

/-- What an operation answers. -/
@[reducible] def PamOp.Ans {δ : Type} : PamOp δ → Type
  | lockPending => Option (PamPendingEnrollment δ)
  | unlockPending _ | lockGate | unlockGate => Unit
  | random _ => Except Unit (List UInt8)
  | directoryExists | fileExists _ => Bool
  | directoryMetadata | fileMetadata _ => Except Unit PamMetadata
  -- An entry that cannot be read is `none`.
  | readDirectory => Except Unit (List (Option (List Char)))
  | readFile _ => Except Unit PamContent
  | createDirectory | chmodDirectory | syncDirectory | createFile _ | writeFile _ _ | syncFile _
  | renameFile _ _ | removeFile _ => Except Unit Unit

@[reducible] def Pam (δ : Type) : Sig where
  Op := PamOp δ
  Ans := PamOp.Ans

/-- The memory of the helper and its directory. -/
structure PamWorld (δ : Type) where
  euid : ℕ
  directory : Option PamMetadata
  files : AList fun _ : List Char => PamFile
  pending : Option (PamPendingEnrollment δ)
  /-- The call that has the lock of the memory. -/
  pendingHolder : Option ℕ
  /-- The call that has the lock of the credentials. -/
  gateHolder : Option ℕ

/-- How an operation turns out. -/
inductive PamChoice
  | done
  | failed
  | torn (bytes : List UInt8)
  | drawn (bytes : List UInt8)
  | listed (entries : List (Option (List Char)))

/-- The operation does not fail. -/
def PamChoice.succeeds : PamChoice → Bool
  | failed | torn _ => false
  | listed entries => none ∉ entries
  | done | drawn _ => true

namespace PamWorld

variable {δ : Type}

/-- A listing shows entries of the directory, and all of them unless it breaks off. -/
def Lists (w : PamWorld δ) (entries : List (Option (List Char))) : Prop :=
  (∀ name ∈ entries.reduceOption, name ∈ w.files.keys) ∧
    (none ∉ entries → ∀ name ∈ w.files.keys, some name ∈ entries)

instance (w : PamWorld δ) (entries : List (Option (List Char))) : Decidable (w.Lists entries) :=
  inferInstanceAs (Decidable (_ ∧ (_ → _)))

/-- How the surroundings answer the operations of the call `i`. -/
def exec (i : ℕ) : (o : PamOp δ) → PamChoice → PamWorld δ → Option (o.Ans × PamWorld δ)
  | .lockPending, .done, w =>
    if w.pendingHolder = none then some (w.pending, { w with pendingHolder := some i }) else none
  | .unlockPending slot, .done, w => some ((), { w with pending := slot, pendingHolder := none })
  | .lockGate, .done, w =>
    if w.gateHolder = none then some ((), { w with gateHolder := some i }) else none
  | .unlockGate, .done, w => some ((), { w with gateHolder := none })
  | .random n, .drawn bytes, w => if bytes.length = n then some (.ok bytes, w) else none
  | .random _, .failed, w => some (.error (), w)
  | .directoryExists, .done, w => some (w.directory.isSome, w)
  | .directoryExists, .failed, w => some (false, w)
  | .directoryMetadata, .done, w => some (w.directory.elim (.error ()) .ok, w)
  | .directoryMetadata, .failed, w => some (.error (), w)
  | .createDirectory, .done, w =>
    match w.directory with
    | none => some (.ok (), { w with directory := some ⟨true, w.euid, 0o700⟩ })
    | some metadata => some (if metadata.regular then .ok () else .error (), w)
  | .createDirectory, .failed, w => some (.error (), w)
  | .chmodDirectory, .done, w =>
    match w.directory with
    | none => some (.error (), w)
    | some metadata => some (.ok (), { w with directory := some { metadata with mode := 0o700 } })
  | .chmodDirectory, .failed, w => some (.error (), w)
  | .readDirectory, .listed entries, w =>
    if w.directory.isSome ∧ w.Lists entries then some (.ok entries, w) else none
  | .readDirectory, .failed, w => some (.error (), w)
  | .syncDirectory, .done, w => if w.directory.isSome then some (.ok (), w) else none
  | .syncDirectory, .failed, w => some (.error (), w)
  | .fileExists name, .done, w => some ((w.files.lookup name).isSome, w)
  | .fileExists _, .failed, w => some (false, w)
  | .fileMetadata name, .done, w =>
    some ((w.files.lookup name).elim (.error ()) fun file => .ok file.metadata, w)
  | .fileMetadata _, .failed, w => some (.error (), w)
  | .readFile name, .done, w =>
    some ((w.files.lookup name).elim (.error ()) fun file => .ok file.content, w)
  | .readFile _, .failed, w => some (.error (), w)
  | .createFile name, .done, w =>
    if w.directory.isSome ∧ w.files.lookup name = none then
      some (.ok (), { w with files := w.files.insert name ⟨⟨true, w.euid, 0o600⟩, .bytes []⟩ })
    else none
  | .createFile _, .failed, w => some (.error (), w)
  | .writeFile name content, .done, w =>
    match w.files.lookup name with
    | none => some (.ok (), w)
    | some file => some (.ok (), { w with files := w.files.insert name { file with content } })
  | .writeFile name _, .torn bytes, w =>
    match w.files.lookup name with
    | none => some (.error (), w)
    | some file =>
      some (.error (), { w with files := w.files.insert name { file with content := .bytes bytes } })
  | .writeFile _ _, .failed, w => some (.error (), w)
  | .syncFile _, .done, w => some (.ok (), w)
  | .syncFile _, .failed, w => some (.error (), w)
  | .renameFile source target, .done, w =>
    match w.files.lookup source with
    | none => some (.error (), w)
    | some file => some (.ok (), { w with files := (w.files.erase source).insert target file })
  | .renameFile _ _, .failed, w => some (.error (), w)
  | .removeFile name, .done, w => some (.ok (), { w with files := w.files.erase name })
  | .removeFile _, .failed, w => some (.error (), w)
  | _, _, _ => none

/-- A crash loses the pending enrolment and frees the locks. The files stay. -/
def crash (w : PamWorld δ) : PamWorld δ :=
  { w with pending := none, pendingHolder := none, gateHolder := none }

end PamWorld

/-- The helper, as a process that serves calls. -/
@[reducible] def pamHost (δ : Type) : Effect.Host (Pam δ) (PamWorld δ) PamChoice where
  exec := PamWorld.exec
  crash := PamWorld.crash

/-! ## The calls -/

namespace PamMfa

open Fallible

/-- A part of a call, which may fail. -/
abbrev Helping (δ : Type) := Fallible (Pam δ) PamMfaError

variable {δ : Type} [DecidableEq δ]

/-- Whatever failed, the helper says no more than that the storage did. -/
def orStorage {α : Type} (r : Except Unit α) : Except PamMfaError α :=
  r.mapError fun _ => .storage

/-- Random bytes, if the system has some. -/
def randomBytes (n : ℕ) : Helping δ (List UInt8) :=
  request (.random n) fun r => r.mapError fun _ => .crypto

variable (crypto : PamCrypto δ) (euid : ℕ)

/-- What is read or written by others than the helper's user is refused. -/
def Private (metadata : PamMetadata) : Prop :=
  metadata.regular ∧ metadata.uid = euid ∧ metadata.mode &&& 0o077 = 0

instance (euid : ℕ) (metadata : PamMetadata) : Decidable (Private euid metadata) :=
  inferInstanceAs (Decidable (_ ∧ _ ∧ _))

/-- Nobody but the owner may read the directory. -/
def validateDirectory : Helping δ Unit := do
  let metadata ← request .directoryMetadata orStorage
  ensure (Private euid metadata) .storage

/-- Nobody but the owner may read the file. -/
def validateSecretFile (name : List Char) : Helping δ Unit := do
  let metadata ← request (.fileMetadata name) orStorage
  ensure (Private euid metadata) .storage

/-- The directory is there and private, or is created. -/
def ensureDirectory : Helping δ Unit := do
  let found ← request .directoryExists .ok
  (if found then validateDirectory euid else request .createDirectory orStorage)
  request .chmodDirectory orStorage

/-- The temporary name of a file, with something random in it. -/
def temporaryName (name : List Char) (random : List UInt8) : List Char :=
  '.' :: name ++ '.' :: crypto.token random ++ ".tmp".toList

/-- The file appears under its name with all of its content, or not at all. -/
def replaceFile (temporary name : List Char) (content : PamContent) :
    Helping δ Unit := do
  request (.createFile temporary) orStorage
  request (.writeFile temporary content) orStorage
  request (.syncFile temporary) orStorage
  request (.renameFile temporary name) orStorage
  request .syncDirectory orStorage

/-- Write a file so that it is there as a whole or not at all. -/
def atomicWrite (name : List Char) (content : PamContent) : Helping δ Unit := do
  ensureDirectory euid
  let random ← randomBytes 12
  let temporary := temporaryName crypto name random
  ExceptT.mk do
    let result ← (replaceFile temporary name content).run
    match result with
    | .ok () => return .ok ()
    | .error e => do
      -- Whether the temporary file is removed is not looked at.
      let _ ← Prog.perform (S := Pam δ) (.removeFile temporary)
      return .error e

/-- Read the key. It must have the right length. -/
def readKey : Helping δ (List UInt8) := do
  validateSecretFile euid keyFileName
  let content ← request (.readFile keyFileName) orStorage
  match content with
  | .bytes bytes => do
    ensure (bytes.length = masterKeyBytes) .storage
    return bytes
  | .json _ => throw .storage

def loadExistingKey : Helping δ (List UInt8) := do
  if ← request (.fileExists keyFileName) .ok then readKey euid else throw .notConfigured

/-- The key, which is created if there is none. -/
def loadOrCreateKey : Helping δ (List UInt8) := do
  if ← request (.fileExists keyFileName) .ok then readKey euid
  else do
    let key ← randomBytes masterKeyBytes
    atomicWrite crypto euid keyFileName (.bytes key)
    return key

/-- Read a credential, from a file that is private. -/
def readCredential (name : List Char) : Helping δ SealedCredential := do
  validateSecretFile euid name
  let content ← request (.readFile name) orStorage
  match content with
  | .json credential => return credential
  | .bytes _ => throw .storage

/-- Write a credential to the file of its user. -/
def writeCredential (credential : SealedCredential) : Helping δ Unit := do
  ensure (validUsername credential.username) .invalidUsername
  atomicWrite crypto euid (credentialName credential.username) (.json credential)

/-- Whether there is no credential among the entries. One that cannot be read is an error. -/
def lookForCredential (euid : ℕ) : List (Option (List Char)) → Helping δ Bool
  | [] => return true
  | none :: _ => throw .storage
  | some name :: entries => do
    if isCredentialName name then do
      let credential ← readCredential euid name
      ensure (validUsername credential.username) .invalidUsername
      return false
    else lookForCredential euid entries

/-- Nobody is enrolled yet. -/
def setupRequired : Helping δ Bool := do
  if ← request .directoryExists .ok then do
    validateDirectory euid
    let entries ← request .readDirectory orStorage
    lookForCredential euid entries
  else return true

/-- New recovery codes, each with its own bytes. -/
def generateRecoveryCodes : ℕ → Helping δ (List (List Char))
  | 0 => return []
  | n + 1 => do
    let bytes ← randomBytes 16
    let codes ← generateRecoveryCodes n
    return RecoveryCode.display bytes :: codes

/-- Put an enrolment into the memory, in place of the one there. -/
def storePending (pending : PamPendingEnrollment δ) : Helping δ Unit := do
  let _ ← request .lockPending .ok
  request (.unlockPending (some pending)) .ok

/-- Start an enrolment, in the place of one that may be pending. -/
def startEnrollment (username : List Char) (now : ℤ) :
    Helping δ PamMfaEnrollmentStart := do
  ensure (validUsername username) .invalidUsername
  let required ← setupRequired euid
  ensure required .alreadyConfigured
  let secret ← randomBytes totpSecretBytes
  ensure (crypto.buildTotp username secret) .crypto
  let id ← randomBytes 32
  let recoveryCodes ← generateRecoveryCodes recoveryCodeCount
  storePending {
    enrollmentDigest := crypto.enrollmentDigest (crypto.token id)
    username
    secretBase32 := crypto.secretBase32 secret
    recoveryCodes
    expiresAt := saturatingAdd now enrollmentTtlSeconds }
  return {
    enrollmentId := crypto.token id
    secretBase32 := crypto.secretBase32 secret
    otpauthUri := crypto.url username secret
    expiresInSeconds := 600 }

/-- The digests of the codes. A code that is no code gives none. -/
def recoveryDigests (key : List UInt8) (username : List Char)
    (codes : List (List Char)) : Option (List (List Char)) :=
  codes.mapM fun code =>
    (normalizeRecoveryCode code).map fun normalized =>
      crypto.encode (crypto.recoveryDigest key username normalized)

/-- The credential with the encrypted seed. -/
def sealCredential (key : List UInt8) (username secret : List Char)
    (digests : List (List Char)) : Helping δ SealedCredential := do
  let nonce ← randomBytes nonceBytes
  return {
    schemaVersion := storeSchemaVersion
    username
    nonce := crypto.token nonce
    ciphertext := crypto.encrypt key username secret nonce
    recoveryDigests := digests }

/-- The one-time password is right, and the credential is written. -/
def completeEnrollment (pending : PamPendingEnrollment δ) (totpCode : List Char) (now : ℤ) :
    Helping δ PamMfaEnrollmentComplete := do
  let secret ← ofOption .crypto (crypto.secretBytes pending.secretBase32)
  ensure (0 ≤ now) .crypto
  ensure (crypto.buildTotp pending.username secret) .crypto
  ensure (crypto.check pending.username secret totpCode now.toNat) .invalidTotp
  ensureDirectory euid
  let key ← loadOrCreateKey crypto euid
  let digests ← ofOption .crypto
    (recoveryDigests crypto key pending.username pending.recoveryCodes)
  let credential ← sealCredential crypto key pending.username pending.secretBase32 digests
  writeCredential crypto euid credential
  return { actor := pending.username, recoveryCodes := pending.recoveryCodes }

/-- What is left in the memory, and what is returned. -/
def confirmPending (slot : Option (PamPendingEnrollment δ))
    (enrollmentId totpCode : List Char) (now : ℤ) :
    Prog (Pam δ) (Option (PamPendingEnrollment δ) × Except PamMfaError PamMfaEnrollmentComplete) :=
  match slot with
  | none => return (none, .error .enrollmentUnavailable)
  | some pending =>
    if pending.expiresAt ≤ now ∨ crypto.enrollmentDigest enrollmentId ≠ pending.enrollmentDigest then
      return (if pending.expiresAt ≤ now then none else some pending, .error .enrollmentUnavailable)
    else do
      let result ← (completeEnrollment crypto euid pending totpCode now).run
      match result with
      | .ok complete => return (none, .ok complete)
      | .error e => return (some pending, .error e)

/-- Confirm the pending enrolment, which nobody else touches meanwhile. -/
def confirmEnrollment (enrollmentId totpCode : List Char)
    (now : ℤ) : Prog (Pam δ) (Except PamMfaError PamMfaEnrollmentComplete) :=
  if validTotpShape totpCode then do
    let slot ← Prog.perform (S := Pam δ) .lockPending
    let (slot, result) ← confirmPending crypto euid slot enrollmentId totpCode now
    Prog.perform (S := Pam δ) (.unlockPending slot)
    return result
  else return .error .invalidTotp

/-- The seed of a credential. -/
def openCredential (key : List UInt8) (credential : SealedCredential) : Option (List Char) :=
  crypto.decrypt key credential.username credential.nonce credential.ciphertext

/-- Where the digest is in the list. -/
def digestIndex (digest : δ) (digests : List (List Char)) : Option ℕ :=
  digests.findIdx? fun encoded => crypto.decode encoded = some digest

/-- A one-time password, or a recovery code that is used up. -/
def checkFactor (key : List UInt8)
    (credential : SealedCredential) (secretBase32 username factor : List Char) (now : ℤ) :
    Helping δ PamMfaMethod := do
  if validTotpShape factor then do
    let secret ← ofOption .storage (crypto.secretBytes secretBase32)
    ensure (0 ≤ now) .crypto
    ensure (crypto.buildTotp username secret) .crypto
    ensure (crypto.check username secret factor now.toNat) .invalidFactor
    return .totp
  else do
    let normalized ← ofOption .invalidFactor (normalizeRecoveryCode factor)
    let expected := crypto.recoveryDigest key username normalized
    let index ← ofOption .invalidFactor (digestIndex crypto expected credential.recoveryDigests)
    writeCredential crypto euid
      { credential with recoveryDigests := credential.recoveryDigests.eraseIdx index }
    return .recovery

/-- Check a factor of a user whose credential nobody else changes meanwhile. -/
def verifyLocked (username factor : List Char) (now : ℤ) :
    Helping δ PamMfaMethod := do
  validateDirectory euid
  let key ← loadExistingKey euid
  if ← request (.fileExists (credentialName username)) .ok then do
    let credential ← readCredential euid (credentialName username)
    ensure (credential.username = username ∧ credential.schemaVersion = storeSchemaVersion) .storage
    let secretBase32 ← ofOption .storage (openCredential crypto key credential)
    checkFactor crypto euid key credential secretBase32 username factor now
  else throw .notConfigured

/-- Check a factor, one call after the other. -/
def verify (username factor : List Char) (now : ℤ) :
    Prog (Pam δ) (Except PamMfaError PamMfaMethod) :=
  if validUsername username then do
    Prog.perform (S := Pam δ) .lockGate
    let result ← (verifyLocked crypto euid username factor now).run
    Prog.perform (S := Pam δ) .unlockGate
    return result
  else return .error .invalidUsername

end PamMfa

/-- What the helper is asked for. -/
inductive PamCall
  | start (username : List Char) (now : ℤ)
  | confirm (enrollmentId totpCode : List Char) (now : ℤ)
  | verify (username factor : List Char) (now : ℤ)

/-- What the calls answer. -/
inductive PamReply
  | started (result : Except PamMfaError PamMfaEnrollmentStart)
  | confirmed (result : Except PamMfaError PamMfaEnrollmentComplete)
  | verified (result : Except PamMfaError PamMfaMethod)

namespace PamCall

variable {δ : Type} [DecidableEq δ]

/-- The program of a call. -/
def prog (crypto : PamCrypto δ) (euid : ℕ) : PamCall → Prog (Pam δ) PamReply
  | start username now => .started <$> (PamMfa.startEnrollment crypto euid username now).run
  | confirm id code now => .confirmed <$> PamMfa.confirmEnrollment crypto euid id code now
  | verify username factor now => .verified <$> PamMfa.verify crypto euid username factor now

end PamCall

/-- The calls that are made to the helper, each in some lifetime of it. -/
def pamCalls {δ : Type} [DecidableEq δ] (crypto : PamCrypto δ) (w : PamWorld δ)
    (calls : List (ℕ × PamCall)) : Calls (Pam δ) (PamWorld δ) PamReply where
  now := ⟨w, []⟩
  life := 0
  tasks := calls.map fun call => (call.1, call.2.prog crypto w.euid)

end VpsGuard
