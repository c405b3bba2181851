import Mathlib.Algebra.Ring.Nat
import VpsGuard.System.AtomicStore
import VpsGuard.System.Path

/-!
# Operations on the host

The plans of `guard-system` for the operations that change the host (a release
is applied, updated or restored, the ingress is switched), and the ledger in
which an operation records how far it is. An operation goes through the phases
of its kind in turn (`OperationKind.phases`); each phase has a time limit, and
so have all of them together (`OperationBudgets`).

`OperationPlan.validate` is the check of a plan before anything is done, and
`OperationState.validateFor` the check of a stored ledger against the plan.

The hash of a plan is that of its text. The texts and the hash are those of
libraries, and given by an `OperationCodec`.
-/

namespace VpsGuard

def operationSchemaVersion : ℕ := 1

def maxPreflightMs : ℕ := 60000
def maxPublicInterruptionMs : ℕ := 5000
def maxRollbackMs : ℕ := 10000
def maxApplyMs : ℕ := 60000
def maxRestoreMs : ℕ := 30000

/-! ## Plans -/

/-- The phases of an operation. -/
inductive OperationPhase
  | preflight
  | snapshot
  | stageRelease
  | validateCandidate
  | restoreOwnedState
  | switchIngress
  | activateRelease
  | verifyTarget
  | commit
  | rollback
  deriving DecidableEq

/-- The name of a phase, as it is printed. -/
def OperationPhase.debug : OperationPhase → String
  | preflight => "Preflight"
  | snapshot => "Snapshot"
  | stageRelease => "StageRelease"
  | validateCandidate => "ValidateCandidate"
  | restoreOwnedState => "RestoreOwnedState"
  | switchIngress => "SwitchIngress"
  | activateRelease => "ActivateRelease"
  | verifyTarget => "VerifyTarget"
  | commit => "Commit"
  | rollback => "Rollback"

/-- The kinds of operations. -/
inductive OperationKind
  | apply
  | restore
  | update
  | bypassEnable
  | bypassDisable
  deriving DecidableEq

namespace OperationKind

def phases : OperationKind → List OperationPhase
  | restore => [.preflight, .snapshot, .validateCandidate, .restoreOwnedState, .verifyTarget,
      .commit]
  | update => [.preflight, .snapshot, .stageRelease, .validateCandidate, .activateRelease,
      .verifyTarget, .commit]
  | apply | bypassEnable | bypassDisable => [.preflight, .snapshot, .stageRelease,
      .validateCandidate, .switchIngress, .verifyTarget, .commit]

def maximumOperationMs : OperationKind → ℕ
  | restore | bypassEnable | bypassDisable => maxRestoreMs
  | apply | update => maxApplyMs

theorem nodup_phases (kind : OperationKind) : kind.phases.Nodup := by
  cases kind <;> decide

theorem rollback_not_mem_phases (kind : OperationKind) : OperationPhase.rollback ∉ kind.phases := by
  cases kind <;> decide

end OperationKind

/-- Who owns the public ports. -/
inductive IngressTopology
  | nginxPublic
  | vpsGuardPublic
  | apachePublic
  | apacheGuarded
  deriving DecidableEq

/-- What an operation may keep of the host. -/
inductive SnapshotResource
  | ownedPath (path : String)
  | ownedDirectoryPresence (path : String)
  | protectedPathIdentity (path : String)
  | systemAccount (name : String)
  | ingressFile (path : String)
  | ingressSymlink (path : String)
  | apacheIngressFile (path : String)
  | apacheIngressSymlink (path : String)
  | service (unit : String)
  | certificateFingerprint (path : String)
  | listenerInventory
  deriving DecidableEq

/-- The time limits, in milliseconds. -/
structure OperationBudgets where
  preflightMs : ℕ
  phaseMs : ℕ
  publicInterruptionMs : ℕ
  rollbackMs : ℕ
  operationMs : ℕ
  deriving DecidableEq

namespace OperationBudgets

def forKind (kind : OperationKind) : OperationBudgets where
  preflightMs := maxPreflightMs
  phaseMs := 15000
  publicInterruptionMs := maxPublicInterruptionMs
  rollbackMs := maxRollbackMs
  operationMs := kind.maximumOperationMs

def timeoutFor (budgets : OperationBudgets) : OperationPhase → ℕ
  | .preflight => budgets.preflightMs
  | .switchIngress | .activateRelease => budgets.publicInterruptionMs
  | .rollback => budgets.rollbackMs
  | _ => budgets.phaseMs

end OperationBudgets

/-- What an operation is to do. -/
structure OperationPlan where
  schemaVersion : ℕ
  operationId : String
  operation : OperationKind
  releaseId : String
  sourceTopology : IngressTopology
  targetTopology : IngressTopology
  resources : List SnapshotResource
  budgets : OperationBudgets

/-- Why a plan is not accepted. -/
inductive OperationContractError
  | unsupportedSchema (version : ℕ)
  | invalidIdentifier (field value : String)
  | unchangedTopology
  | excessiveBudget (limit : String)
  | emptySnapshot
  | missingListenerInventory
  | foreignSnapshotPath (path : String)
  | foreignService (unit : String)
  | foreignSystemAccount (name : String)
  deriving DecidableEq

abbrev Checked := Except OperationContractError

/-- What is taken from libraries. -/
structure OperationCodec where
  /-- The hash of a text. -/
  sha256Hex : String → String
  planJson : OperationPlan → String

/-! ## The check of a plan -/

def validateIdentifier (field value : String) : Checked Unit :=
  if value ≠ "" ∧ value.utf8ByteSize ≤ 128 ∧
      value.toList.all (fun c => c.isAlphanum || c = '-' || c = '_' || c = '.') then .ok ()
  else .error (.invalidIdentifier field value)

section Paths

variable (path : String)

/-- A path from the root to a name, without a way up and without a pattern. -/
def validateAbsoluteFile : Checked Unit :=
  if Path.isAbsolute path ∧ (Path.fileName path).isSome ∧
      .parentDir ∉ Path.components path ∧ .curDir ∉ Path.components path ∧
      path.toList.all (· ∉ ['*', '?', '[', ']', '\n', '\r']) then .ok ()
  else .error (.foreignSnapshotPath path)

def validatePath (allowed : Bool) : Checked Unit := do
  validateAbsoluteFile path
  if allowed then .ok () else .error (.foreignSnapshotPath path)

def validateOwnedPath : Checked Unit :=
  validatePath path <|
    ["/etc/vps-guard/", "/var/lib/vps-guard/", "/run/vps-guard/", "/usr/local/libexec/vps-guard/",
      "/etc/systemd/system/vps-guard-"].any (fun start => start.toList.isPrefixOf path.toList) ||
    path ∈ ["/usr/local/bin/vps-guard", "/usr/local/bin/vps-guard-control",
      "/usr/local/bin/vps-guard-privileged", "/usr/local/bin/vps-guard-edge",
      "/usr/local/lib/vps-guard/current", "/usr/lib/tmpfiles.d/vps-guard.conf",
      "/etc/pam.d/vps-guard", "/etc/letsencrypt/renewal-hooks/deploy/vps-guard"]

def validateOwnedDirectory : Checked Unit :=
  validatePath path <| path ∈ ["/usr/local/lib/vps-guard/releases", "/usr/local/lib/vps-guard",
    "/usr/local/libexec/vps-guard", "/etc/systemd/system/vps-guard-control.service.d",
    "/etc/systemd/system/vps-guard-edge.service.d", "/etc/vps-guard/secrets",
    "/etc/vps-guard/apache", "/etc/vps-guard", "/run/vps-guard", "/run/vps-guard-privileged",
    "/var/lib/vps-guard"]

def validateProtectedPath : Checked Unit :=
  validatePath path <|
    path ∈ ["/etc/ssh", "/etc/nginx", "/etc/letsencrypt", "/home/g7devops/public_html"]

def validateIngressPath (symlink : Bool) : Checked Unit :=
  validatePath path <|
    if symlink then Path.startsWith path "/etc/nginx/sites-enabled/"
    else ["/etc/nginx/sites-available/", "/etc/nginx/sites-enabled/", "/etc/nginx/conf.d/"].any
      (Path.startsWith path)

def validateApacheIngressPath (symlink : Bool) : Checked Unit :=
  validatePath path <|
    if symlink then ["/etc/apache2/sites-enabled/", "/etc/apache2/conf-enabled/",
      "/etc/apache2/mods-enabled/"].any (Path.startsWith path)
    else ["/etc/apache2/sites-available/", "/etc/apache2/sites-enabled/",
      "/etc/apache2/conf-available/", "/etc/apache2/conf-enabled/"].any (Path.startsWith path)

end Paths

/-- The resource is one of those that an operation may take a snapshot of. -/
def SnapshotResource.validate : SnapshotResource → Checked Unit
  | ownedPath path => validateOwnedPath path
  | ownedDirectoryPresence path => validateOwnedDirectory path
  | protectedPathIdentity path => validateProtectedPath path
  | systemAccount name => if name = "vps-guard" then .ok () else .error (.foreignSystemAccount name)
  | ingressFile path => validateIngressPath path false
  | ingressSymlink path => validateIngressPath path true
  | apacheIngressFile path => validateApacheIngressPath path false
  | apacheIngressSymlink path => validateApacheIngressPath path true
  | service unit =>
    if unit ∈ ["nginx.service", "apache2.service", "php8.5-fpm.service", "mysql.service",
        "redis-server.service", "g7-queue.service", "g7-scheduler.service", "g7-reverb.service",
        "vps-guard-control.service", "vps-guard-privileged.service", "vps-guard-privileged.socket",
        "vps-guard-edge.service"] then .ok ()
    else .error (.foreignService unit)
  | certificateFingerprint path =>
    validatePath path <|
      Path.startsWith path "/etc/letsencrypt/live/" &&
        (Path.fileName path = some "cert.pem".toList ||
          Path.fileName path = some "fullchain.pem".toList) ||
      Path.startsWith path "/etc/ssl/" &&
        (Path.extension path = some "pem".toList || Path.extension path = some "crt".toList)
  | listenerInventory => .ok ()

/-- The check of the time limits. -/
def validateBudgets (kind : OperationKind) (budgets : OperationBudgets) :
    Checked Unit :=
  if budgets.preflightMs = 0 ∨ budgets.preflightMs > maxPreflightMs then
    .error (.excessiveBudget "preflight 60초")
  else if budgets.phaseMs = 0 ∨ budgets.phaseMs > maxApplyMs then
    .error (.excessiveBudget "일반 단계 60초")
  else if budgets.publicInterruptionMs = 0 ∨
      budgets.publicInterruptionMs > maxPublicInterruptionMs then
    .error (.excessiveBudget "public ingress 순단 5초")
  else if budgets.rollbackMs = 0 ∨ budgets.rollbackMs > maxRollbackMs then
    .error (.excessiveBudget "rollback 10초")
  else if budgets.operationMs = 0 ∨ budgets.operationMs > kind.maximumOperationMs then
    .error (.excessiveBudget "apply/update 60초 또는 restore 30초")
  else .ok ()

namespace OperationPlan

/-- A plan with the largest limits. -/
def new (operationId : String) (operation : OperationKind) (releaseId : String)
    (sourceTopology targetTopology : IngressTopology) (resources : List SnapshotResource) :
    OperationPlan where
  schemaVersion := operationSchemaVersion
  operationId
  operation
  releaseId
  sourceTopology
  targetTopology
  resources
  budgets := .forKind operation

/-- The plan is one that may be executed. -/
def validate (plan : OperationPlan) : Checked Unit := do
  if plan.schemaVersion ≠ operationSchemaVersion then
    throw (.unsupportedSchema plan.schemaVersion)
  validateIdentifier "operation_id" plan.operationId
  validateIdentifier "release_id" plan.releaseId
  if plan.operation ∉ [.update, .restore] ∧ plan.sourceTopology = plan.targetTopology then
    throw .unchangedTopology
  validateBudgets plan.operation plan.budgets
  if plan.resources = [] then throw .emptySnapshot
  plan.resources.forM SnapshotResource.validate
  if .listenerInventory ∉ plan.resources then throw .missingListenerInventory

/-- The hash of a plan that passes the check. -/
def sha256 (C : OperationCodec) (plan : OperationPlan) : Checked String := do
  plan.validate
  return C.sha256Hex (C.planJson plan)

theorem sha256_eq_ok {C : OperationCodec} {plan : OperationPlan} (h : plan.validate = .ok ()) :
    plan.sha256 C = .ok (C.sha256Hex (C.planJson plan)) := by
  rw [sha256, h]
  rfl

end OperationPlan

/-! ## Ledgers -/

/-- What a phase reports. -/
structure PhaseReport where
  phase : OperationPhase
  elapsedMs : ℕ
  publicInterruptionMs : ℕ
  deriving DecidableEq

/-- A report, as it is printed. -/
def PhaseReport.debug (report : PhaseReport) : String :=
  "PhaseReport \x7b phase: " ++ report.phase.debug ++ ", elapsed_ms: " ++ toString report.elapsedMs ++
    ", public_interruption_ms: " ++ toString report.publicInterruptionMs ++ " \x7d"

structure OperationIssue where
  code : String
  problem : String
  cause : String
  impact : String
  nextAction : String
  deriving DecidableEq

/-- A time limit was not kept. -/
def budgetIssue (code cause : String) : OperationIssue where
  code
  problem := "운영 작업이 안전 시간 예산을 벗어났습니다."
  cause
  impact := "새 상태를 완료 처리하지 않고 자동 복구를 시도합니다."
  nextAction := "transaction 단계 duration과 rollback 결과를 확인하십시오."

/-- How far an operation has come. -/
inductive OperationStatus
  | running
  | rollingBack
  | succeeded
  /-- Before anything was changed. -/
  | failed
  | rolledBack
  | rollbackFailed
  deriving DecidableEq

/-- The name of a status, as it is printed. -/
def OperationStatus.debug : OperationStatus → String
  | running => "Running"
  | rollingBack => "RollingBack"
  | succeeded => "Succeeded"
  | failed => "Failed"
  | rolledBack => "RolledBack"
  | rollbackFailed => "RollbackFailed"

/-- The state of an operation, as it is stored. -/
structure OperationState where
  schemaVersion : ℕ
  operationId : String
  planSha256 : String
  status : OperationStatus
  /-- The phase in progress, which a restart performs again. -/
  currentPhase : Option OperationPhase
  completed : List PhaseReport
  lastIssue : Option OperationIssue
  rollbackIssue : Option OperationIssue
  deriving DecidableEq

/-- Why an operation is not executed. -/
inductive OperationEngineError
  | contract (e : OperationContractError)
  | store (e : StoreError)
  | lockIo (operation : String)
  | busy (activeOperationId : String)
  | stateConflict (problem : String)
  | terminalState (status : OperationStatus)
  | operationFailed (operationId : String) (rollbackSucceeded : Bool)
  deriving DecidableEq

namespace OperationState

variable (C : OperationCodec) (plan : OperationPlan) (state : OperationState)

/-- The first ledger of an operation. -/
def new : Checked OperationState := do
  return {
    schemaVersion := operationSchemaVersion
    operationId := plan.operationId
    planSha256 := ← plan.sha256 C
    status := .running
    currentPhase := none
    completed := []
    lastIssue := none
    rollbackIssue := none }

/-- The reports of the phases, without that of the rollback. -/
def normal : List PhaseReport := state.completed.filter (·.phase ≠ .rollback)

def normalPhaseCount : ℕ := state.normal.length

def elapsedMs : ℕ := (state.normal.map (·.elapsedMs)).sum

/-- The time for which there was no service. -/
def interruptionMs : ℕ := (state.normal.map (·.publicInterruptionMs)).sum

def rollbackComplete : Bool := state.completed.getLast?.any (·.phase = .rollback)

def expectedPhase : Option OperationPhase :=
  if state.status = .rollingBack then some .rollback
  else plan.operation.phases[state.normalPhaseCount]?

/-- The status goes with the phases that were run. -/
def validStatus : Bool :=
  match state.status with
  | .running => !state.rollbackComplete
  | .rollingBack => state.currentPhase = some .rollback && !state.rollbackComplete
  | .succeeded => state.currentPhase.isNone &&
      state.normalPhaseCount = plan.operation.phases.length && !state.rollbackComplete &&
      state.lastIssue.isNone && state.rollbackIssue.isNone
  | .failed => state.currentPhase.isNone && !state.rollbackComplete && state.lastIssue.isSome
  | .rolledBack => state.currentPhase.isNone && state.rollbackComplete && state.lastIssue.isSome &&
      state.rollbackIssue.isNone
  | .rollbackFailed => state.currentPhase.isNone && !state.rollbackComplete &&
      state.lastIssue.isSome && state.rollbackIssue.isSome

/-- The first report that is not that of its phase. -/
def misplaced : Option PhaseReport :=
  (state.normal.zipIdx.find? fun report =>
    plan.operation.phases[report.2]? ≠ some report.1.phase).map Prod.fst

def debugPhase : Option OperationPhase → String
  | some phase => "Some(" ++ phase.debug ++ ")"
  | none => "None"

/-- The check of a ledger against the plan. -/
def validateFor : Except OperationEngineError Unit :=
  if state.schemaVersion ≠ operationSchemaVersion then
    .error (.stateConflict
      ("지원하지 않는 operation state schema입니다: " ++ toString state.schemaVersion))
  else
    match plan.sha256 C with
    | .error e => .error (.contract e)
    | .ok expectedHash =>
      if state.operationId ≠ plan.operationId ∨ state.planSha256 ≠ expectedHash then
        .error (.stateConflict "실행 중 state와 요청 plan이 다릅니다.")
      else
        match state.misplaced plan, state.currentPhase.filter (state.expectedPhase plan ≠ some ·) with
        | some report, _ =>
          .error (.stateConflict ("완료 단계 순서가 잘못됐습니다: " ++ report.phase.debug))
        | none, some currentPhase =>
          .error (.stateConflict ("현재 단계가 완료 prefix와 다릅니다: expected=" ++
            debugPhase (state.expectedPhase plan) ++ ", actual=" ++ currentPhase.debug))
        | none, none =>
          if state.validStatus plan then .ok ()
          else .error (.stateConflict
            ("상태와 완료 단계가 일치하지 않습니다: " ++ state.status.debug))

/-! ## Ledgers that pass the check -/

variable {C plan state}

theorem misplaced_eq_none_iff :
    state.misplaced plan = none ↔ state.normal.map (·.phase) <+: plan.operation.phases := by
  rw [misplaced, Option.map_eq_none_iff, List.find?_eq_none, List.prefix_iff_getElem?]
  constructor
  · intro h i hi
    rw [List.length_map] at hi
    have hmem : (state.normal[i], i) ∈ state.normal.zipIdx :=
      List.mk_mem_zipIdx_iff_getElem?.2 (List.getElem?_eq_getElem hi)
    simpa using h _ hmem
  · rintro h ⟨report, i⟩ hmem
    have hi := List.mk_mem_zipIdx_iff_getElem?.1 hmem
    obtain ⟨hlt, rfl⟩ := List.getElem?_eq_some_iff.1 hi
    have hphase := h i (by rwa [List.length_map])
    rw [List.getElem_map] at hphase
    simpa using hphase

/-- What a state that is accepted looks like. -/
structure Accepted (C : OperationCodec) (plan : OperationPlan) (state : OperationState) : Prop where
  schemaVersion : state.schemaVersion = operationSchemaVersion
  plan_valid : plan.validate = .ok ()
  operationId : state.operationId = plan.operationId
  planSha256 : state.planSha256 = C.sha256Hex (C.planJson plan)
  recorded : state.normal.map (·.phase) <+: plan.operation.phases
  currentPhase : ∀ phase, state.currentPhase = some phase → state.expectedPhase plan = some phase
  validStatus : state.validStatus plan = true

theorem accepted_of_validateFor (h : state.validateFor C plan = .ok ()) :
    state.Accepted C plan := by
  unfold OperationState.validateFor at h
  -- Every branch but the last one is an error.
  split at h
  · cases h
  next hschema =>
  split at h
  · cases h
  next expectedHash hhash =>
  split at h
  · cases h
  next hids =>
  split at h
  · cases h
  · cases h
  next hplaced hcurrent =>
  split at h
  · next hstatus =>
    have hplan : plan.validate = .ok () := by
      cases hv : plan.validate with
      | ok u => rfl
      | error e => rw [OperationPlan.sha256, hv] at hhash; cases hhash
    rw [OperationPlan.sha256_eq_ok hplan] at hhash
    cases hhash
    obtain ⟨hid, hsha⟩ := not_or.1 hids
    refine ⟨not_not.1 hschema, hplan, not_not.1 hid, not_not.1 hsha, misplaced_eq_none_iff.1 hplaced,
      fun phase hphase => ?_, hstatus⟩
    rw [Option.filter_eq_none_iff] at hcurrent
    simpa using hcurrent phase hphase
  · cases h

theorem Accepted.validateFor (h : state.Accepted C plan) : state.validateFor C plan = .ok () := by
  have hcurrent : state.currentPhase.filter (state.expectedPhase plan ≠ some ·) = none := by
    rw [Option.filter_eq_none_iff]
    intro phase hphase
    simp [h.currentPhase phase hphase]
  simp only [OperationState.validateFor, h.schemaVersion, OperationPlan.sha256_eq_ok h.plan_valid,
    h.operationId, h.planSha256, misplaced_eq_none_iff.2 h.recorded, hcurrent, h.validStatus,
    ne_self_iff_false, or_self, if_false, if_true]

end OperationState

end VpsGuard
