import VpsGuard.Core.Policy
import VpsGuard.System.AtomicStore
import VpsGuard.Effect.Prog

/-!
# The protection manager

The manager of `guard-control` that owns the policy file of the edge. It keeps
the settings of the administrator and the version of the policy, in memory and
in a second file, the *metadata*, so that they can be recovered at a start
(`load`). All its operations — `apply` for new settings, `writeForState` for a
mode, `blockClient` and `unblockClient` for a client — end in the same way
(`writeAndReadBack`): the metadata is written, then the policy; if the policy
could not be written, the metadata is written back; both files are read again,
and only if they are as expected the memory follows.

The operations are programs over the two files, the clock, and the lock of the
writer, which gives the memory of the manager and takes it back.
-/

namespace VpsGuard

open Effect

/-- The settings, and the version of the policy they were written with. -/
structure CurrentProtection where
  settings : ProtectionSettings
  policyVersion : ℕ
  deriving DecidableEq

/-- The metadata, as it is stored. -/
structure PersistedProtection where
  schemaVersion : ℕ
  settings : ProtectionSettings
  policyVersion : ℕ
  /-- The hash of the metadata with an empty text in this place. -/
  contentSha256 : String
  deriving DecidableEq

/-- What is taken from libraries. -/
structure ProtectionCodec extends Codec where
  metadataJson : PersistedProtection → String

/-- Why an operation of the protection manager failed. -/
inductive ProtectionPolicyError
  | invalidSettings (e : ProtectionSettingsError)
  | policy (e : PolicyError)
  | store (e : StoreError)
  | stalePlan
  | planHashMismatch
  | idempotencyConflict
  | versionExhausted
  | time
  | readBackMismatch
  | unsupportedMetadataSchema (version : ℕ)
  | metadataHashMismatch
  | policySettingsMismatch
  | missingPolicy (stateVersion : ℕ)
  | invalidTemporaryBlockTtl (ttlSeconds : ℕ)
  | stateVersionAhead (stateVersion fileVersion : ℕ)
  deriving DecidableEq

/-- What an operation of the protection manager answers. -/
abbrev PolicyResult := Except ProtectionPolicyError

variable (C : ProtectionCodec)

namespace PersistedProtection

/-- The hash of the metadata, over all of them but the hash itself. -/
def calculateHash (m : PersistedProtection) : String :=
  C.sha256Hex (C.metadataJson { m with contentSha256 := "" })

/-- The metadata of what is current. -/
def new (current : CurrentProtection) : PersistedProtection :=
  let m : PersistedProtection :=
    { schemaVersion := 1
      settings := current.settings
      policyVersion := current.policyVersion
      contentSha256 := "" }
  { m with contentSha256 := m.calculateHash C }

/-- The check of the metadata. -/
def validate (m : PersistedProtection) : PolicyResult Unit :=
  if m.schemaVersion ≠ 1 then .error (.unsupportedMetadataSchema m.schemaVersion)
  else
    match m.settings.validate with
    | .error e => .error (.invalidSettings e)
    | .ok () =>
      if m.calculateHash C ≠ m.contentSha256 then .error .metadataHashMismatch else .ok ()

/-- The settings and the version that the metadata are about. -/
def current (m : PersistedProtection) : CurrentProtection := ⟨m.settings, m.policyVersion⟩

@[simp] theorem current_new {c : CurrentProtection} : (new C c).current = c := rfl

/-- New metadata are valid if their settings are. -/
theorem validate_new {current : CurrentProtection} (h : current.settings.Valid) :
    (new C current).validate C = .ok () := by
  have hvalid : current.settings.validate = .ok () := h
  simp [validate, new, calculateHash, hvalid]

variable {C} in
/-- Metadata that are valid have valid settings. -/
theorem settings_valid {m : PersistedProtection} (h : m.validate C = .ok ()) :
    m.settings.Valid := by
  unfold validate at h
  split at h
  · cases h
  · split at h
    · cases h
    · assumption

end PersistedProtection

/-! ## Plans and snapshots -/

/-- What is shown of the manager. -/
structure ProtectionSnapshot where
  settings : ProtectionSettings
  policyVersion : ℕ
  fingerprint : String
  deriving DecidableEq

/-- A setting that a plan changes. -/
structure ProtectionChange where
  field : String
  before : ℕ
  after : ℕ
  deriving DecidableEq

/-- What an administrator confirms. -/
structure ProtectionPlan where
  settings : ProtectionSettings
  currentFingerprint : String
  planHash : String
  currentPolicyVersion : ℕ
  nextPolicyVersion : ℕ
  changes : List ProtectionChange

/-- The settings in which two of them differ. -/
def changes (before after : ProtectionSettings) : List ProtectionChange :=
  (before.fields.zip after.fields).filterMap fun (b, a) =>
    if b.2 ≠ a.2 then some ⟨b.1, b.2, a.2⟩ else none

/-- What is shown of the current protection. -/
def snapshotOf (current : CurrentProtection) : ProtectionSnapshot where
  settings := current.settings
  policyVersion := current.policyVersion
  fingerprint := C.sha256Hex (C.settingsJson current.settings)

/-- The version after this one. There is none after the last. -/
def nextVersion (current : ℕ) : PolicyResult ℕ :=
  match checkedAdd 64 current 1 with
  | some version => .ok version
  | none => .error .versionExhausted

/-- The plan to change the current settings, with the hash by which it is confirmed. -/
def planFrom (current : CurrentProtection) (settings : ProtectionSettings) :
    PolicyResult ProtectionPlan := do
  let snapshot := snapshotOf C current
  let nextPolicyVersion ← nextVersion current.policyVersion
  return {
    settings
    currentFingerprint := snapshot.fingerprint
    planHash := C.sha256Hex (snapshot.fingerprint ++ C.settingsJson settings)
    currentPolicyVersion := current.policyVersion
    nextPolicyVersion
    changes := changes current.settings settings }

/-! ## Policies of the manager -/

/-- A policy is valid for ten minutes. -/
def policyTtl : ℕ := 10 * 60

/-- The policy with the route rules of the settings, and no client rules yet. -/
def buildPolicyAt (mode : GuardMode) (policyVersion : ℕ) (limits : StaticLimits)
    (settings : ProtectionSettings) (now : ℕ) : PolicyResult PolicySnapshot :=
  match settings.validate with
  | .error e => .error (.invalidSettings e)
  | .ok () =>
    match C.formatRfc3339 now, C.formatRfc3339 (now + policyTtl) with
    | some generatedAt, some expiresAt =>
      .ok (PolicySnapshot.sealed C.toCodec
        { schemaVersion := 1
          policyVersion
          generatedAt
          expiresAt
          mode
          routeRules := settings.routeRules mode
          clientRules := []
          staticLimits := limits
          contentSha256 := "" })
    | _, _ => .error .time

/-- The policy with these client rules, sealed again. -/
def withClientRules (policy : PolicySnapshot) (clientRules : List ClientRule) : PolicySnapshot :=
  PolicySnapshot.sealed C.toCodec { policy with clientRules, contentSha256 := "" }

/-- The rules that have not expired. -/
def activeClientRules (rules : List ClientRule) (now : ℕ) : List ClientRule :=
  rules.filter fun rule => (C.parseRfc3339 rule.expiresAt).any (· > now)

/-- The route rules of the policy are those of the settings. -/
def ensurePolicyMatchesSettings (policy : PolicySnapshot) (settings : ProtectionSettings) :
    PolicyResult Unit :=
  if policy.routeRules ≠ settings.routeRules policy.mode then .error .policySettingsMismatch
  else .ok ()

variable {C} in
theorem ensurePolicyMatchesSettings_eq_ok_iff {policy : PolicySnapshot}
    {settings : ProtectionSettings} : ensurePolicyMatchesSettings policy settings = .ok () ↔
    policy.routeRules = settings.routeRules policy.mode := by
  simp [ensurePolicyMatchesSettings]

/-- What is known of a policy made from the settings. -/
structure GeneratedPolicy (mode : GuardMode) (policyVersion : ℕ) (limits : StaticLimits)
    (settings : ProtectionSettings) (now : ℕ) (p : PolicySnapshot) : Prop where
  schemaVersion : p.schemaVersion = 1
  policyVersion : p.policyVersion = policyVersion
  mode : p.mode = mode
  routeRules : p.routeRules = settings.routeRules p.mode
  staticLimits : p.staticLimits = limits
  contentSha256 : p.calculateHash C.toCodec = p.contentSha256
  expiresAt : C.parseRfc3339 p.expiresAt = some (now + policyTtl)
  generatedAt : (C.parseRfc3339 p.generatedAt).isSome

section Generated

variable {C} {mode : GuardMode} {policyVersion : ℕ} {limits : StaticLimits}
  {settings : ProtectionSettings} {now : ℕ} {p : PolicySnapshot}

/-- A policy that was built is as it should be. -/
theorem generatedPolicy_of_buildPolicyAt
    (h : buildPolicyAt C mode policyVersion limits settings now = .ok p) :
    GeneratedPolicy C mode policyVersion limits settings now p := by
  unfold buildPolicyAt at h
  split at h
  · cases h
  · split at h
    · next hgenerated hexpires =>
      cases h
      exact ⟨rfl, rfl, rfl, rfl, rfl, rfl, C.parse_format hexpires,
        Option.isSome_iff_exists.2 ⟨now, C.parse_format hgenerated⟩⟩
    · cases h

/-- A policy is built, if the settings are valid and the times can be written. -/
theorem exists_buildPolicyAt (hsettings : settings.Valid) (hnow : (C.formatRfc3339 now).isSome)
    (hexpires : (C.formatRfc3339 (now + policyTtl)).isSome) :
    ∃ p, buildPolicyAt C mode policyVersion limits settings now = .ok p := by
  obtain ⟨generatedAt, hgenerated⟩ := Option.isSome_iff_exists.1 hnow
  obtain ⟨expiresAt, hexpires⟩ := Option.isSome_iff_exists.1 hexpires
  have hvalid : settings.validate = .ok () := hsettings
  simp [buildPolicyAt, hvalid, hgenerated, hexpires]

namespace GeneratedPolicy

/-- Client rules leave the rest of the policy as it is. -/
theorem withClientRules (h : GeneratedPolicy C mode policyVersion limits settings now p)
    (rules : List ClientRule) :
    GeneratedPolicy C mode policyVersion limits settings now (withClientRules C p rules) where
  schemaVersion := h.schemaVersion
  policyVersion := h.policyVersion
  mode := h.mode
  routeRules := h.routeRules
  staticLimits := h.staticLimits
  contentSha256 := rfl
  expiresAt := h.expiresAt
  generatedAt := h.generatedAt

/-- A policy that was made is valid up to its end. -/
theorem sound (h : GeneratedPolicy C mode policyVersion limits settings now p)
    (hlimits : limits.Positive) : p.Sound C.toCodec (now + policyTtl) where
  schemaVersion := h.schemaVersion
  maxBodyBytes := h.staticLimits ▸ hlimits.1
  maxTrackedClients := h.staticLimits ▸ hlimits.2
  contentSha256 := h.contentSha256
  expiresAt := h.expiresAt
  generatedAt := h.generatedAt

end GeneratedPolicy

end Generated

/-! ## The manager and its surroundings -/

/-- An operation that was applied, and what it answered. -/
structure CompletedOperation where
  operationId : String
  planHash : String
  snapshot : ProtectionSnapshot
  deriving DecidableEq

/-- How many of them are remembered. -/
def completedOperationCapacity : ℕ := 1024

/-- The protection that is in force, and the operations that led to it. -/
structure ProtectionManager where
  limits : StaticLimits
  clientRules : List ClientRule
  current : CurrentProtection
  /-- The oldest first. -/
  completed : List CompletedOperation
  deriving DecidableEq

/-- An applied operation is remembered, in the place of the oldest one if need be. -/
def ProtectionManager.remember (mgr : ProtectionManager) (operationId planHash : String)
    (snapshot : ProtectionSnapshot) : ProtectionManager :=
  let completed :=
    if mgr.completed.length = completedOperationCapacity then mgr.completed.drop 1
    else mgr.completed
  { mgr with completed := completed ++ [⟨operationId, planHash, snapshot⟩] }

/-- An operation that needs the writer. -/
inductive ProtectionCall
  | apply (settings : ProtectionSettings)
  /-- With the version that the guard state refers to. -/
  | writeForState (policyVersion : ℕ)
  | clientRules
  deriving DecidableEq

namespace ProtectionCall

/-- The version that an operation goes on from. -/
def base (mgr : ProtectionManager) : ProtectionCall → ℕ
  | apply _ | clientRules => mgr.current.policyVersion
  | writeForState policyVersion => max mgr.current.policyVersion policyVersion

/-- The settings that a call publishes. -/
def settings (mgr : ProtectionManager) : ProtectionCall → ProtectionSettings
  | apply settings => settings
  | writeForState _ | clientRules => mgr.current.settings

/-- What an operation leads to, if it succeeds. -/
def next (call : ProtectionCall) (mgr : ProtectionManager) : CurrentProtection :=
  ⟨call.settings mgr, call.base mgr + 1⟩

/-- No version is given twice: a call starts from the version in force or a later one. -/
theorem le_base {call : ProtectionCall} {mgr : ProtectionManager} :
    mgr.current.policyVersion ≤ call.base mgr := by
  cases call with
  | apply _ => exact Nat.le_refl _
  | writeForState version => exact Nat.le_max_left _ _
  | clientRules => exact Nat.le_refl _

end ProtectionCall

/-- What the time is asked for. -/
inductive ClockUse
  | generate
  | clientRule
  | readBack
  deriving DecidableEq

/-- What the manager asks for. -/
inductive ProtectionOp
  | lockWriter (call : ProtectionCall)
  /-- The memory after a start or an operation. -/
  | unlockWriter (mgr : ProtectionManager)
  | nowUtc (use : ClockUse)
  | readPolicy
  | writePolicy (policy : PolicySnapshot)
  | readMetadata
  | writeMetadata (metadata : PersistedProtection)
  /-- The metadata from before, after a failure. -/
  | rewriteMetadata (metadata : PersistedProtection)

/-- The answers to the manager. A file that is missing is read as `none`. -/
abbrev ProtectionOp.Ans : ProtectionOp → Type
  | lockWriter _ => ProtectionManager
  | unlockWriter _ => Unit
  | nowUtc _ => ℕ
  | readPolicy => Except StoreError (Option PolicySnapshot)
  | writePolicy _ => Except StoreError Unit
  | readMetadata => Except StoreError (Option PersistedProtection)
  | writeMetadata _ => Except StoreError Unit
  | rewriteMetadata _ => Except StoreError Unit

/-- The surroundings of the manager. -/
abbrev Protection : Sig := ⟨ProtectionOp, ProtectionOp.Ans⟩

namespace ProtectionManager

/-! ## Writing the two files -/

/-- What was read back is what was written, and is valid. -/
def checkReadBack (policy : PolicySnapshot) (expected : CurrentProtection)
    (readBack : PolicySnapshot) (metadata : PersistedProtection) (now : ℕ) :
    PolicyResult Unit :=
  match readBack.validateAt C.toCodec now with
  | .error e => .error (.policy e)
  | .ok () =>
    match metadata.validate C with
    | .error e => .error e
    | .ok () =>
      if readBack.policyVersion ≠ policy.policyVersion ∨
          readBack.contentSha256 ≠ policy.contentSha256 ∨ metadata.current ≠ expected then
        .error .readBackMismatch
      else .ok ()

/-- Read the files that were just written, and compare them. -/
def readBack (policy : PolicySnapshot) (expected : CurrentProtection) :
    Prog Protection (PolicyResult Unit) :=
  .call .readPolicy fun
    | .error e => return .error (.store e)
    | .ok none => return .error (.store (.io "read"))
    | .ok (some readBack) => .call .readMetadata fun
      | .error e => return .error (.store e)
      | .ok none => return .error (.store (.io "read"))
      | .ok (some metadata) => .call (.nowUtc .readBack) fun now =>
        return checkReadBack C policy expected readBack metadata now

/-- The metadata, then the policy. If the policy could not be written, the
    metadata is written back, whether or not that succeeds. -/
def writeAndReadBack (policy : PolicySnapshot) (previous expected : CurrentProtection) :
    Prog Protection (PolicyResult Unit) :=
  .call (.writeMetadata (.new C expected)) fun
    | .error e => return .error (.store e)
    | .ok () => .call (.writePolicy policy) fun
      | .error e => .call (.rewriteMetadata (.new C previous)) fun _ => return .error (.store e)
      | .ok () => readBack C policy expected

/-- A policy for what is next, with the given rules for clients. -/
def publish (mgr : ProtectionManager) (mode : GuardMode) (next : CurrentProtection)
    (rules : List ClientRule) : Prog Protection (PolicyResult Unit) :=
  .call (.nowUtc .generate) fun now =>
    match buildPolicyAt C mode next.policyVersion mgr.limits next.settings now with
    | .error e => return .error e
    | .ok policy => writeAndReadBack C (withClientRules C policy rules) mgr.current next

/-! ## The operations -/

/-- With the writer: the memory is taken, and given back as it is after. -/
def withWriter {α : Type} (call : ProtectionCall)
    (body : ProtectionManager → Prog Protection (PolicyResult α × ProtectionManager)) :
    Prog Protection (PolicyResult α) :=
  .call (.lockWriter call) fun mgr => do
    let (result, mgr) ← body mgr
    .call (.unlockWriter mgr) fun _ => return result

/-- What came of a request for new settings. -/
structure ApplyOutcome where
  applied : Bool
  snapshot : ProtectionSnapshot
  deriving DecidableEq

/-- New settings, as confirmed by the hash of their plan. -/
def apply (operationId expectedFingerprint planHash : String) (settings : ProtectionSettings)
    (mode : GuardMode) : Prog Protection (PolicyResult ApplyOutcome) :=
  match settings.validate with
  | .error e => return .error (.invalidSettings e)
  | .ok () => withWriter (.apply settings) fun mgr =>
    match mgr.completed.find? (·.operationId = operationId) with
    | some completed =>
      -- A repeated request is answered as it was, whatever has changed since then.
      if completed.planHash ≠ planHash then return (.error .idempotencyConflict, mgr)
      else return (.ok ⟨false, completed.snapshot⟩, mgr)
    | none =>
      match planFrom C mgr.current settings with
      | .error e => return (.error e, mgr)
      | .ok plan =>
        -- The plan is made again, and has to be the one that was confirmed.
        if plan.currentFingerprint ≠ expectedFingerprint then return (.error .stalePlan, mgr)
        else if plan.planHash ≠ planHash then return (.error .planHashMismatch, mgr)
        else if plan.changes = [] then
          let snapshot := snapshotOf C mgr.current
          return (.ok ⟨false, snapshot⟩, mgr.remember operationId planHash snapshot)
        else do
          let next : CurrentProtection := ⟨settings, plan.nextPolicyVersion⟩
          match ← mgr.publish C mode next mgr.clientRules with
          | .error e => return (.error e, mgr)
          | .ok () =>
            let snapshot := snapshotOf C next
            return (.ok ⟨true, snapshot⟩,
              { mgr with current := next }.remember operationId planHash snapshot)

/-- The policy of the mode of a guard state, which then refers to its version. -/
def writeForState (state : GuardState) :
    Prog Protection (PolicyResult GuardState) :=
  withWriter (.writeForState state.policyVersion) fun mgr =>
    match nextVersion (max mgr.current.policyVersion state.policyVersion) with
    | .error e => return (.error e, mgr)
    | .ok version => do
      let next : CurrentProtection := ⟨mgr.current.settings, version⟩
      match ← mgr.publish C state.currentMode next mgr.clientRules with
      | .error e => return (.error e, mgr)
      | .ok () => return (.ok { state with policyVersion := version }, { mgr with current := next })

/-- Publish a policy with other client rules. If this fails, the manager stays as it is. -/
def writeClientRules (mgr : ProtectionManager) (mode : GuardMode) (rules : List ClientRule) :
    Prog Protection (PolicyResult ProtectionSnapshot × ProtectionManager) :=
  match nextVersion mgr.current.policyVersion with
  | .error e => return (.error e, mgr)
  | .ok version => do
    let next : CurrentProtection := ⟨mgr.current.settings, version⟩
    match ← mgr.publish C mode next rules with
    | .error e => return (.error e, mgr)
    | .ok () => return (.ok (snapshotOf C next), { mgr with current := next, clientRules := rules })

/-- The bounds, in seconds, of the time for which a client is blocked. -/
def temporaryBlockMinSeconds : ℕ := 60
/-- A client is blocked for a day at most. -/
def temporaryBlockMaxSeconds : ℕ := 86400

/-- Block a client for some time. An earlier block of the same client is replaced. -/
def blockClient (clientIp : IpAddr) (ttlSeconds : ℕ) (mode : GuardMode) :
    Prog Protection (PolicyResult ProtectionSnapshot) :=
  if ¬(temporaryBlockMinSeconds ≤ ttlSeconds ∧ ttlSeconds ≤ temporaryBlockMaxSeconds) then
    return .error (.invalidTemporaryBlockTtl ttlSeconds)
  else withWriter .clientRules fun mgr => .call (.nowUtc .clientRule) fun now =>
    match C.formatRfc3339 (now + ttlSeconds) with
    | none => return (.error .time, mgr)
    | some expiresAt =>
      let rules := (activeClientRules C mgr.clientRules now).filter (·.clientIp ≠ clientIp)
      mgr.writeClientRules C mode (rules ++
        [{ clientIp, action := .deny, expiresAt, reasonCodes := [.automationPattern] }])

/-- End the block of a client. -/
def unblockClient (clientIp : IpAddr) (mode : GuardMode) :
    Prog Protection (PolicyResult ProtectionSnapshot) :=
  withWriter .clientRules fun mgr => .call (.nowUtc .clientRule) fun now =>
    mgr.writeClientRules C mode
      ((activeClientRules C mgr.clientRules now).filter (·.clientIp ≠ clientIp))

/-! ## The start -/

/-- Write the policy anew for what was recovered, and read it back. -/
def writeRecoveredPolicy (mode : GuardMode) (current : CurrentProtection) (limits : StaticLimits) :
    Prog Protection (PolicyResult Unit) :=
  .call (.nowUtc .generate) fun now =>
    match buildPolicyAt C mode current.policyVersion limits current.settings now with
    | .error e => return .error e
    | .ok policy => .call (.writePolicy policy) fun
      | .error e => return .error (.store e)
      | .ok () => .call .readPolicy fun
        | .error e => return .error (.store e)
        | .ok none => return .error (.store (.io "read"))
        | .ok (some readBack) => .call (.nowUtc .readBack) fun now =>
          match readBack.validateAt C.toCodec now with
          | .error e => return .error (.policy e)
          | .ok () =>
            if readBack.policyVersion ≠ current.policyVersion then return .error .readBackMismatch
            else return ensurePolicyMatchesSettings readBack current.settings

/-- Only the policy is out of date: it is written for the metadata. -/
def recoverPolicy (mode : GuardMode) (metadata : PersistedProtection) (limits : StaticLimits) :
    Prog Protection (PolicyResult CurrentProtection) := do
  match ← writeRecoveredPolicy C mode metadata.current limits with
  | .error e => return .error e
  | .ok () => return .ok metadata.current

/-- Only the metadata are missing: they are written for the policy. -/
def writeRecoveredMetadata (current : CurrentProtection) :
    Prog Protection (PolicyResult CurrentProtection) :=
  .call (.writeMetadata (.new C current)) fun
    | .error e => return .error (.store e)
    | .ok () => return .ok current

/-- The metadata leads, unless the policy is of a later version. -/
def recoverFiles (policy : Option PolicySnapshot) (metadata : Option PersistedProtection)
    (statePolicyVersion : ℕ) (stateMode : GuardMode) (limits : StaticLimits) :
    Prog Protection (PolicyResult CurrentProtection) :=
  match policy, metadata with
  | none, none =>
    -- A fresh installation, unless the guard state knows of a policy.
    if statePolicyVersion > 0 then return .error (.missingPolicy statePolicyVersion)
    else writeRecoveredMetadata C ⟨.default, 0⟩
  | some policy, none =>
    -- A policy from before there was metadata has the limits of the default settings.
    match ensurePolicyMatchesSettings policy .default with
    | .error e => return .error e
    | .ok () => writeRecoveredMetadata C ⟨.default, policy.policyVersion⟩
  | none, some metadata =>
    if metadata.policyVersion > 0 then recoverPolicy C stateMode metadata limits
    else return .ok metadata.current
  | some policy, some metadata =>
    if policy.policyVersion > metadata.policyVersion then
      match ensurePolicyMatchesSettings policy metadata.settings with
      | .error e => return .error e
      | .ok () => writeRecoveredMetadata C ⟨metadata.settings, policy.policyVersion⟩
    else if metadata.policyVersion > policy.policyVersion then
      recoverPolicy C stateMode metadata limits
    else
      match ensurePolicyMatchesSettings policy metadata.settings with
      | .error e => return .error e
      | .ok () => return .ok metadata.current

/-- What is recovered is not older than what the guard state refers to. -/
def recoverCurrent (policy : Option PolicySnapshot) (metadata : Option PersistedProtection)
    (statePolicyVersion : ℕ) (stateMode : GuardMode) (limits : StaticLimits) :
    Prog Protection (PolicyResult CurrentProtection) := do
  match ← recoverFiles C policy metadata statePolicyVersion stateMode limits with
  | .error e => return .error e
  | .ok current =>
    if statePolicyVersion > current.policyVersion then
      return .error (.stateVersionAhead statePolicyVersion current.policyVersion)
    else return .ok current

/-- The rules for clients of a policy that is not older than the metadata. -/
def loadedClientRules : Option PolicySnapshot → Option PersistedProtection → List ClientRule
  | some policy, some metadata =>
    if policy.policyVersion ≥ metadata.policyVersion then policy.clientRules else []
  | some policy, none => policy.clientRules
  | none, _ => []

/-- Load the protection when the process starts, and repair what a crash left. -/
def load (statePolicyVersion : ℕ) (stateMode : GuardMode) (limits : StaticLimits) :
    Prog Protection (PolicyResult ProtectionManager) :=
  .call .readPolicy fun
    | .error e => return .error (.store e)
    | .ok policy =>
      -- At the epoch no policy has expired: an old one is as good as any.
      match policy.elim (.ok ()) (·.validateAt C.toCodec 0) with
      | .error e => return .error (.policy e)
      | .ok () => .call .readMetadata fun
        | .error e => return .error (.store e)
        | .ok metadata =>
          match metadata.elim (.ok ()) (·.validate C) with
          | .error e => return .error e
          | .ok () => do
            match ← recoverCurrent C policy metadata statePolicyVersion stateMode limits with
            | .error e => return .error e
            | .ok current =>
              let clientRules := loadedClientRules policy metadata
              return .ok { limits, clientRules, current, completed := [] }

/-! ## What the operations have in common -/

/-- No remembered operation is of a later version. -/
def Ordered (mgr : ProtectionManager) : Prop :=
  ∀ c ∈ mgr.completed, c.snapshot.policyVersion ≤ mgr.current.policyVersion

variable {C} {mgr : ProtectionManager} {call : ProtectionCall}

/-- What is remembered is not newer than what is in force. -/
theorem Ordered.remember {operationId planHash : String} {snapshot : ProtectionSnapshot}
    (h : mgr.Ordered) (hs : snapshot.policyVersion ≤ mgr.current.policyVersion) :
    (mgr.remember operationId planHash snapshot).Ordered := by
  intro c hc
  rcases List.mem_append.1 hc with hc | hc
  · split at hc
    · exact h c (List.mem_of_mem_drop hc)
    · exact h c hc
  · rw [List.mem_singleton.1 hc]
    exact hs

variable (C) in
/-- What an operation does with the writer: it looks at the clock, returns
    without a policy, or writes a policy of the mode for what is next, which the
    memory then follows. `version` is the version that is returned. -/
inductive Operation {α : Type} (version : α → ℕ) (mode : GuardMode) (call : ProtectionCall)
    (mgr : ProtectionManager) :
    Prog Protection (PolicyResult α × ProtectionManager) → Prop
  | done {result : PolicyResult α} {mgr' : ProtectionManager} :
      mgr'.current = mgr.current → mgr'.limits = mgr.limits →
      (mgr.Ordered → mgr'.Ordered ∧ ∀ a, result = .ok a → version a ≤ mgr.current.policyVersion) →
      Operation version mode call mgr (.ret (result, mgr'))
  | clock {use : ClockUse} {k : ℕ → Prog Protection _} :
      (∀ now, Operation version mode call mgr (k now)) →
      Operation version mode call mgr (.call (.nowUtc use) k)
  | publish {rules : List ClientRule} {k : _ → Prog Protection _}
      {a : α} {mgr' : ProtectionManager} :
      (∀ e, ∃ e', k (.error e) = .ret (.error e', mgr)) → k (.ok ()) = .ret (.ok a, mgr') →
      mgr'.current = call.next mgr → mgr'.limits = mgr.limits → (mgr.Ordered → mgr'.Ordered) →
      version a = (call.next mgr).policyVersion →
      Operation version mode call mgr (mgr.publish C mode (call.next mgr) rules >>= k)

variable (C) in
/-- An operation: it is refused, or done with the writer. New settings are valid. -/
inductive Served {α : Type} (version : α → ℕ) (mode : GuardMode) :
    Prog Protection (PolicyResult α) → Prop
  | refused (e : ProtectionPolicyError) : Served version mode (.ret (.error e))
  | served {call : ProtectionCall} {body : ProtectionManager → Prog Protection _} :
      (∀ settings, call = .apply settings → settings.Valid) →
      (∀ mgr, Operation C version mode call mgr (body mgr)) →
      Served version mode (withWriter call body)

/-- The next version is one more. -/
theorem nextVersion_eq_ok {n version : ℕ} (h : nextVersion n = .ok version) : version = n + 1 := by
  unfold nextVersion at h
  split at h
  · next v hv =>
    cases h
    exact (checkedAdd_eq_some_iff.1 hv).2
  · cases h

theorem nextVersion_of_lt {n : ℕ} (h : n + 1 < 2 ^ 64) : nextVersion n = .ok (n + 1) := by
  rw [nextVersion, checkedAdd_eq_some_iff.2 ⟨h, rfl⟩]

variable {settings : ProtectionSettings}

/-- A plan goes to the next version. -/
theorem nextPolicyVersion_of_planFrom {current : CurrentProtection}
    {plan : ProtectionPlan} (h : planFrom C current settings = .ok plan) :
    plan.nextPolicyVersion = current.policyVersion + 1 := by
  unfold planFrom at h
  cases hnext : nextVersion current.policyVersion with
  | error e => rw [hnext] at h; cases h
  | ok version =>
    rw [hnext] at h
    cases h
    exact nextVersion_eq_ok hnext

variable {mode : GuardMode}

/-- An operation that fails leaves the manager as it is. -/
theorem Operation.same {α : Type} {version : α → ℕ}
    {e : ProtectionPolicyError} : Operation C version mode call mgr (.ret (.error e, mgr)) :=
  .done rfl rfl fun h => ⟨h, fun _ h => nomatch h⟩

/-- To change the client rules is such an operation. -/
theorem operation_writeClientRules {rules : List ClientRule} :
    Operation C ProtectionSnapshot.policyVersion mode .clientRules mgr
      (mgr.writeClientRules C mode rules) := by
  unfold writeClientRules
  cases hversion : nextVersion mgr.current.policyVersion with
  | error e => exact .same
  | ok version =>
    obtain rfl := nextVersion_eq_ok hversion
    exact .publish (fun e => ⟨e, rfl⟩) rfl rfl rfl (fun h c hc => Nat.le_succ_of_le (h c hc)) rfl

theorem served_blockClient {clientIp : IpAddr} {ttlSeconds : ℕ} :
    Served C ProtectionSnapshot.policyVersion mode (blockClient C clientIp ttlSeconds mode) := by
  unfold blockClient
  split
  · exact .refused _
  · refine .served (fun _ h => nomatch h) fun mgr => .clock fun now => ?_
    split
    · exact .same
    · exact operation_writeClientRules

theorem served_unblockClient {clientIp : IpAddr} :
    Served C ProtectionSnapshot.policyVersion mode (unblockClient C clientIp mode) :=
  .served (fun _ h => nomatch h) fun _ => .clock fun _ => operation_writeClientRules

theorem served_writeForState {state : GuardState} :
    Served C GuardState.policyVersion state.currentMode (writeForState C state) := by
  refine .served (fun _ h => nomatch h) fun mgr => ?_
  cases hversion : nextVersion (max mgr.current.policyVersion state.policyVersion) with
  | error e => exact .same
  | ok version =>
    obtain rfl := nextVersion_eq_ok hversion
    exact .publish (fun e => ⟨e, rfl⟩) rfl rfl rfl
      (fun h c hc => Nat.le_trans (h c hc) (Nat.le_succ_of_le (Nat.le_max_left _ _))) rfl

theorem served_apply {operationId expectedFingerprint planHash : String} :
    Served C (·.snapshot.policyVersion) mode
      (apply C operationId expectedFingerprint planHash settings mode) := by
  unfold apply
  cases hvalid : settings.validate with
  | error e => exact .refused _
  | ok _ =>
    refine .served (fun _ h => by cases h; exact hvalid) fun mgr => ?_
    cases hfind : mgr.completed.find? (·.operationId = operationId) with
    | some completed =>
      dsimp only
      split
      · exact .same
      · -- the operation of before is answered again
        refine .done rfl rfl fun h => ⟨h, fun a ha => ?_⟩
        cases ha
        exact h completed (List.mem_of_find?_eq_some hfind)
    | none =>
      dsimp only
      split
      · exact .same
      · next plan hplan =>
        split
        · exact .same
        split
        · exact .same
        split
        · refine .done rfl rfl fun h => ⟨h.remember (Nat.le_refl _), fun a ha => ?_⟩
          cases ha
          exact Nat.le_refl _
        · rw [nextPolicyVersion_of_planFrom hplan]
          refine .publish (fun e => ⟨e, rfl⟩) rfl rfl rfl (fun h => ?_) rfl
          exact Ordered.remember (fun c hc => Nat.le_succ_of_le (h c hc)) (Nat.le_refl _)

end ProtectionManager

end VpsGuard
