import VpsGuard.Control.App

/-!
# The requests of an administrator

The requests that change the guard state (`api.rs`, `protection_api.rs`):

* `applyAction`, to hold it or to release it;
* `applyProviderAction`, to enable the external protection or to restore what
  was there before;
* `applyProtection` and `mutateClientRule`, for the settings and the clients of
  the protection manager, whose new policy version the guard state then has.

A request that names the identifier of a completed operation is answered
without being carried out again. The requests return what is answered, or the
code of an error.
-/

namespace VpsGuard

open Effect

/-- What a request is answered. -/
inductive ControlResponse
  | action (applied : Bool) (mode : GuardMode) (operationId : String)
  /-- Without what the edge was seen to have. -/
  | settings (applied : Bool) (operationId : String) (snapshot : ProtectionSnapshot)
  | client (applied : Bool) (operationId : String) (clientIp : IpAddr) (policyVersion : ℕ)

/-- What a request leads to: an answer, or the code of an error. -/
abbrev ControlResult := Except String ControlResponse

abbrev Acting := Prog Control ControlResult

/-- The answer to a request whose identifier is that of a completed operation. -/
def replayed (action : String) (completed : CompletedAction) : ControlResult :=
  if completed.action ≠ action then .error "IDEMPOTENCY_KEY_CONFLICT"
  else .ok (.action false completed.mode completed.operationId)

/-- A request is carried out unless it is refused, or gives no identifier. -/
def identified (operationId : Option String) (body : String → Acting) :
    Acting :=
  .call .authorize fun
    | some code => return .error code
    | none =>
      match operationId with
      | none => return .error "IDEMPOTENCY_KEY_REQUIRED"
      | some operationId => body operationId

/-- A request is carried out unless its identifier is that of a completed operation. -/
def onceOnly (action : String) (operationId : Option String)
    (body : String → Acting) : Acting :=
  identified operationId fun operationId => .call (.completedAction operationId) fun
    | some completed => return replayed action completed
    | none => body operationId

namespace App

variable {allow : ControlOp → ControlChoice → App → Prop} {inv : App → Prop} {w : Sharing App}
  {s : App} {operationId : Option String} {body : String → Acting}
  (hguar : ∀ s, w.guar s s) (hbody : ∀ operationId t, w.rely s t → inv t →
    (body operationId).Safe (setting allow inv) w (fun _ _ => True) t)

include hguar hbody

theorem safe_identified :
    (identified operationId body).Safe (setting allow inv) w (fun _ _ => True) s := by
  refine safe_asking trivial hguar fun code t hst ht => ?_
  rcases code with _ | code
  · rcases operationId with _ | operationId
    · exact .ret_trivial
    · exact hbody operationId t hst ht
  · exact .ret_trivial

theorem safe_onceOnly {action : String} :
    (onceOnly action operationId body).Safe (setting allow inv) w (fun _ _ => True) s := by
  refine safe_identified hguar fun operationId t hst _ => ?_
  refine safe_asking trivial hguar fun completed u htu hu => ?_
  rcases completed with _ | completed
  · exact hbody operationId u (w.rely_trans hst htu) hu
  · exact .ret_trivial

end App

/-! ## Holds and releases -/

/-- The guard state is held, or released: stored, then in memory. -/
def commitAction (hold : Bool) (action : String) (writer : StateWriter) (operationId : String) :
    Acting :=
  .call .currentTimestamp fun now => .call (.readState .action) fun state =>
    let next := if hold then state.hold now else state.resume now
    .call (.writeStore writer next) fun
      | .error _ => return .error "STATE_WRITE_FAILED"
      | .ok () => .call (.writeState writer next) fun _ =>
        .call (.rememberAction ⟨operationId, action, next.currentMode⟩) fun _ =>
          return .ok (.action true next.currentMode operationId)

/-- The guard state is to be held, or released. -/
def applyAction (hold : Bool) (operationId : Option String) (writer : StateWriter) :
    Acting :=
  let action := if hold then "manual_hold" else "resume_auto"
  onceOnly action operationId (commitAction hold action writer)

def manualHold (operationId : Option String) : Acting :=
  applyAction true operationId .hold

/-- The guard state is released. -/
def resumeAuto (operationId : Option String) : Acting :=
  .call .startResume fun holds => applyAction false operationId (.resume holds)

/-! ## Commands to the provider -/

/-- Run a command on the controller, if there is one and nobody else runs one. -/
def providerCommand (command : ProviderCommand) : Prog Control (Except String ProviderStage) :=
  .call (.provider (.lock command)) fun
    | none => .call (.provider (.unlock none)) fun _ => return .error "PROVIDER_NOT_CONFIGURED"
    | some ctl => do
      let (result, ctl) ← (command.run ctl).lift Control.ofProvider
      .call (.provider (.unlock (some ctl))) fun _ => return result.mapError (·.code)

/-- The guard state after a command to the provider, stored and in memory. -/
def commitProviderAction (restore : Bool) (operationId : String) : Acting :=
  let action := if restore then "provider_restore" else "emergency_proxy"
  .call .currentTimestamp fun now => .call (.readState .providerCommit) fun state =>
    let next := afterProviderAction restore operationId now state
    .call (.writeStore .provider next) fun
      | .error _ => return .error "STATE_WRITE_FAILED"
      | .ok () => .call (.writeState .provider next) fun _ =>
        .call (.rememberAction ⟨operationId, action, next.currentMode⟩) fun _ =>
          return .ok (.action true next.currentMode operationId)

/-- The command, with the lease. -/
def runProviderAction (restore : Bool) (operationId : String) : Acting := do
  match ← providerCommand (if restore then .restore else .enable operationId) with
  | .error _ => return .error "PROVIDER_ACTION_FAILED"
  | .ok _ => commitProviderAction restore operationId

/-- The command, unless the state is held or another one is carried out. -/
def leaseProviderAction (task : ℕ) (restore : Bool) (operationId : String) :
    Acting :=
  .call (.readState .holdCheck) fun state =>
    if state.manualHold then return .error "MANUAL_HOLD_ACTIVE"
    else .call (.acquireLease task .request) fun
      | false => return .error "PROVIDER_ACTION_IN_PROGRESS"
      | true => do
        let result ← runProviderAction restore operationId
        .call (.releaseLease task false) fun _ => return result

/-- The external protection is enabled, or what was there before restored. -/
def applyProviderAction (task : ℕ) (restore : Bool) (operationId : Option String) :
    Acting :=
  onceOnly (if restore then "provider_restore" else "emergency_proxy") operationId
    (leaseProviderAction task restore)

/-! ## Operations of the protection manager -/

variable (C : ProtectionCodec)

/-- The version of a new policy, in the guard state. The state is replaced even
    if it could not be stored. -/
def commitPolicyVersion (next : GuardState) : Prog Control Unit :=
  .call (.writeStore .protection next) fun _ => .call (.writeState .protection next) fun _ =>
    return ()

/-- The code with which a failure is answered. -/
def protectionPolicyError : ProtectionPolicyError → String
  | .invalidSettings _ => "PROTECTION_SETTINGS_INVALID"
  | .invalidTemporaryBlockTtl _ => "TEMPORARY_BLOCK_TTL_INVALID"
  | .stalePlan => "PROTECTION_PLAN_STALE"
  | .planHashMismatch => "PROTECTION_PLAN_HASH_MISMATCH"
  | .idempotencyConflict => "IDEMPOTENCY_KEY_CONFLICT"
  | .versionExhausted => "PROTECTION_POLICY_VERSION_EXHAUSTED"
  | .policy _ | .store _ | .time | .readBackMismatch | .unsupportedMetadataSchema _
  | .metadataHashMismatch | .policySettingsMismatch | .missingPolicy _
  | .stateVersionAhead _ _ => "PROTECTION_POLICY_APPLY_FAILED"

/-- Remember an action, unless its identifier is taken. -/
def rememberOnce (action : CompletedAction) : Prog Control Unit :=
  .call (.completedAction action.operationId) fun
    | some _ => return ()
    | none => .call (.rememberAction action) fun _ => return ()

/-- Apply the settings, and take their version over to the guard state. -/
def applyProtectionLocked (operationId currentFingerprint planHash : String)
    (settings : ProtectionSettings) : Acting :=
  .call (.readState .protection) fun state => do
    match ← (ProtectionManager.apply C operationId currentFingerprint planHash settings
      state.currentMode).lift Control.ofProtection with
    | .error e => return .error (protectionPolicyError e)
    | .ok outcome => .call (.readState .protection) fun state => do
      if outcome.snapshot.policyVersion > state.policyVersion then
        commitPolicyVersion { state with policyVersion := outcome.snapshot.policyVersion }
      rememberOnce ⟨operationId, "protection_settings", state.currentMode⟩
      return .ok (.settings outcome.applied operationId outcome.snapshot)

/-- The request to apply settings. An identifier that was used for something else is refused. -/
def applyProtection (task : ℕ) (operationId : Option String) (currentFingerprint planHash : String)
    (settings : ProtectionSettings) : Acting :=
  identified operationId fun operationId => .call (.completedAction operationId) fun completed =>
    if completed.any (·.action ≠ "protection_settings") then
      return .error "IDEMPOTENCY_KEY_CONFLICT"
    else withPolicyOperation task
      (applyProtectionLocked C operationId currentFingerprint planHash settings)

def clientRule (clientIp : IpAddr) (ttlSeconds : Option ℕ) (mode : GuardMode) :
    Prog Protection (PolicyResult ProtectionSnapshot) :=
  match ttlSeconds with
  | some ttlSeconds => ProtectionManager.blockClient C clientIp ttlSeconds mode
  | none => ProtectionManager.unblockClient C clientIp mode

/-- A rule for a client, with the lock. `action` is the fingerprint of the request. -/
def mutateClientRuleLocked (operationId action : String) (clientIp : IpAddr)
    (ttlSeconds : Option ℕ) : Acting :=
  .call (.completedAction operationId) fun
    | some completed =>
      if completed.action ≠ action then return .error "IDEMPOTENCY_KEY_CONFLICT"
      else .call .protectionVersion fun version =>
        return .ok (.client false operationId clientIp version)
    | none => .call (.readState .protection) fun state => do
      match ← (clientRule C clientIp ttlSeconds state.currentMode).lift Control.ofProtection with
      | .error e => return .error (protectionPolicyError e)
      | .ok snapshot => .call (.readState .protection) fun state => do
        commitPolicyVersion
          { state with policyVersion := max state.policyVersion snapshot.policyVersion }
        .call (.rememberAction ⟨operationId, action, state.currentMode⟩) fun _ =>
          return .ok (.client true operationId clientIp snapshot.policyVersion)

/-- The request to block a client or to end the block. -/
def mutateClientRule (task : ℕ) (operationId : Option String) (action : String) (clientIp : IpAddr)
    (ttlSeconds : Option ℕ) : Acting :=
  identified operationId fun operationId => withPolicyOperation task
    (mutateClientRuleLocked C operationId action clientIp ttlSeconds)

/-! ## Requests -/

/-- The requests of the administrators. -/
inductive ControlRequest
  | hold (operationId : Option String)
  | resume (operationId : Option String)
  | emergencyProxy (operationId : Option String)
  | providerRestore (operationId : Option String)
  | protection (operationId : Option String) (currentFingerprint planHash : String)
      (settings : ProtectionSettings)
  | client (operationId : Option String) (action : String) (clientIp : IpAddr)
      (ttlSeconds : Option ℕ)

/-- A request to hold or to release, or for a command to the provider. -/
def ControlRequest.IsModeRequest : ControlRequest → Prop
  | hold _ | resume _ | emergencyProxy _ | providerRestore _ => True
  | protection _ _ _ _ | client _ _ _ _ => False

/-- The identifier that a request gives. -/
def ControlRequest.operationId : ControlRequest → Option String
  | hold operationId | resume operationId | emergencyProxy operationId
  | providerRestore operationId => operationId
  | protection operationId _ _ _ | client operationId _ _ _ => operationId

/-- What is done for a request, by the given task. -/
def ControlRequest.run (task : ℕ) : ControlRequest → Acting
  | hold operationId => manualHold operationId
  | resume operationId => resumeAuto operationId
  | emergencyProxy operationId => applyProviderAction task false operationId
  | providerRestore operationId => applyProviderAction task true operationId
  | protection operationId currentFingerprint planHash settings =>
    applyProtection C task operationId currentFingerprint planHash settings
  | client operationId action clientIp ttlSeconds =>
    mutateClientRule C task operationId action clientIp ttlSeconds

end VpsGuard
