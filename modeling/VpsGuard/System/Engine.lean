import VpsGuard.Effect.Prog
import VpsGuard.System.Operation

/-!
# The engine of operations

`executeOperation` performs the phases of a plan in turn, under a lock that
only one process has, and stores the ledger before and after every phase. A
ledger that is found is gone on with. When a phase fails, or does not keep its
time limits, the operation ends there (`failOperation`); if the snapshot had
been taken, the host is rolled back first (`completeRollback`).

The engine is a program over the lock, the store of the ledger and the driver
that changes the host, so its traces are those for every behaviour of the
driver and for every pattern of failures of the store.

That a failure after the snapshot is followed by a rollback is true as long as
the ledger can be stored (`exists_rollback`). When a write of the ledger fails,
the engine returns at once, whatever has been done to the host
(`unrecorded_not_rolledBack`).
-/

namespace VpsGuard

open Effect List

inductive LockFault
  | io (operation : String)
  | busy (activeOperationId : String)

def LockFault.error : LockFault → OperationEngineError
  | io operation => .lockIo operation
  | busy activeOperationId => .busy activeOperationId

/-- What the engine asks for. -/
inductive OperationOp
  | acquireLock (operationId : String)
  | readState
  | writeState (state : OperationState)
  | runPhase (plan : OperationPlan) (phase : OperationPhase) (timeout : ℕ)
  | rollback (plan : OperationPlan) (timeout : ℕ)

/-- The answers to the engine. A ledger that is missing is read as `none`. -/
abbrev OperationOp.Ans : OperationOp → Type
  | acquireLock _ => Except LockFault Unit
  | readState => Except StoreError (Option OperationState)
  | writeState _ => Except StoreError Unit
  | runPhase _ _ _ | rollback _ _ => Except OperationIssue PhaseReport

/-- The surroundings of the engine. -/
abbrev Operation : Sig := ⟨OperationOp, OperationOp.Ans⟩

abbrev OperationCall := (o : OperationOp) × o.Ans

abbrev OperationResult := Except OperationEngineError OperationState

def validatePhaseReport (plan : OperationPlan) (state : OperationState) (phase : OperationPhase)
    (report : PhaseReport) : Except OperationIssue Unit :=
  if report.phase ≠ phase then
    .error (budgetIssue "PHASE_REPORT_MISMATCH"
      ("expected=" ++ phase.debug ++ ", actual=" ++ report.phase.debug))
  else if report.elapsedMs > plan.budgets.timeoutFor phase then
    .error (budgetIssue "PHASE_TIMEOUT_EXCEEDED"
      ("phase=" ++ phase.debug ++ ", elapsed_ms=" ++ toString report.elapsedMs ++ ", limit_ms=" ++
        toString (plan.budgets.timeoutFor phase)))
  else if report.publicInterruptionMs > report.elapsedMs then
    .error (budgetIssue "INVALID_INTERRUPTION_MEASUREMENT"
      ("interruption_ms=" ++ toString report.publicInterruptionMs ++ ", elapsed_ms=" ++
        toString report.elapsedMs))
  else if state.elapsedMs + report.elapsedMs > plan.budgets.operationMs then
    .error (budgetIssue "OPERATION_BUDGET_EXCEEDED"
      ("operation limit_ms=" ++ toString plan.budgets.operationMs))
  else if state.interruptionMs + report.publicInterruptionMs > plan.budgets.publicInterruptionMs then
    .error (budgetIssue "PUBLIC_INTERRUPTION_BUDGET_EXCEEDED"
      ("public ingress 순단 limit_ms=" ++ toString plan.budgets.publicInterruptionMs))
  else .ok ()

/-- A report that passes the check. -/
structure PhaseReport.Accepted (plan : OperationPlan) (state : OperationState)
    (phase : OperationPhase) (report : PhaseReport) : Prop where
  phase_eq : report.phase = phase
  elapsedMs : report.elapsedMs ≤ plan.budgets.timeoutFor phase
  operationMs : state.elapsedMs + report.elapsedMs ≤ plan.budgets.operationMs
  interruptionMs :
    state.interruptionMs + report.publicInterruptionMs ≤ plan.budgets.publicInterruptionMs

variable {phase : OperationPhase} {r : OperationResult} {phases : List OperationPhase}
  {e : OperationEngineError}

theorem accepted_of_validatePhaseReport {plan : OperationPlan} {state : OperationState}
    {report : PhaseReport} (h : validatePhaseReport plan state phase report = .ok ()) :
    report.Accepted plan state phase := by
  unfold validatePhaseReport at h
  split_ifs at h with h₁ h₂ h₃ h₄ h₅
  exact ⟨not_not.1 h₁, Nat.not_lt.1 h₂, Nat.not_lt.1 h₄, Nat.not_lt.1 h₅⟩

/-! ## What becomes of the ledger -/

namespace OperationState

variable (state : OperationState) (report : PhaseReport) (issue : OperationIssue)

def begin (phase : OperationPhase) : OperationState :=
  { state with currentPhase := some phase }

def record : OperationState :=
  { state with completed := state.completed ++ [report], currentPhase := none }

/-- There are no phases left. -/
def succeed : OperationState :=
  { state with status := .succeeded, currentPhase := none }

def snapshotComplete : Bool := state.completed.any (·.phase = .snapshot)

def fail : OperationState :=
  { state with lastIssue := some issue, status := .failed, currentPhase := none }

def rollBack : OperationState :=
  { state with lastIssue := some issue, status := .rollingBack, currentPhase := some .rollback }

def rolledBack : OperationState :=
  { state with
    completed := state.completed ++ [report]
    rollbackIssue := none
    status := .rolledBack
    currentPhase := none }

def rollbackFailed : OperationState :=
  { state with rollbackIssue := some issue, status := .rollbackFailed, currentPhase := none }

def afterRollback (plan : OperationPlan) : Except OperationIssue PhaseReport → OperationState × Bool
  | .ok report =>
    if report.phase = .rollback ∧ report.elapsedMs ≤ plan.budgets.rollbackMs ∧
        report.publicInterruptionMs ≤ report.elapsedMs then
      (state.rolledBack report, true)
    else
      (state.rollbackFailed (budgetIssue "ROLLBACK_BUDGET_EXCEEDED"
        ("rollback report가 계약을 위반했습니다: " ++ report.debug)), false)
  | .error issue => (state.rollbackFailed issue, false)

@[simp] theorem status_begin (phase : OperationPhase) :
    (state.begin phase).status = state.status := rfl

@[simp] theorem status_record : (state.record report).status = state.status := rfl

@[simp] theorem status_succeed : state.succeed.status = .succeeded := rfl

@[simp] theorem status_fail : (state.fail issue).status = .failed := rfl

@[simp] theorem status_rollBack : (state.rollBack issue).status = .rollingBack := rfl

@[simp] theorem status_rolledBack : (state.rolledBack report).status = .rolledBack := rfl

@[simp] theorem status_rollbackFailed : (state.rollbackFailed issue).status = .rollbackFailed := rfl

end OperationState

/-! ## The programs -/

/-- The ledger is stored, and then `p` performed. Without the ledger the engine returns. -/
def storeThen (state : OperationState) (p : Prog Operation OperationResult) :
    Prog Operation OperationResult :=
  .call (.writeState state) fun
    | .ok () => p
    | .error e => return .error (.store e)

def completeRollback (plan : OperationPlan) (state : OperationState) :
    Prog Operation OperationResult :=
  .call (.rollback plan (plan.budgets.timeoutFor .rollback)) fun result =>
    storeThen (state.afterRollback plan result).1
      (return .error (.operationFailed plan.operationId (state.afterRollback plan result).2))

/-- The operation has failed. What it changed is rolled back, if there is a snapshot. -/
def failOperation (plan : OperationPlan) (state : OperationState) (issue : OperationIssue) :
    Prog Operation OperationResult :=
  if state.snapshotComplete then
    storeThen (state.rollBack issue) (completeRollback plan (state.rollBack issue))
  else
    storeThen (state.fail issue) (return .error (.operationFailed plan.operationId false))

/-- Run the phases that are left, each recorded before and after. -/
def runPhases (plan : OperationPlan) : List OperationPhase → OperationState →
    Prog Operation OperationResult
  | [], state => storeThen state.succeed (return .ok state.succeed)
  | phase :: phases, state =>
    storeThen (state.begin phase) <|
      .call (.runPhase plan phase (plan.budgets.timeoutFor phase)) fun
        | .ok report =>
          match validatePhaseReport plan (state.begin phase) phase report with
          | .error issue => failOperation plan (state.begin phase) issue
          | .ok () =>
            storeThen ((state.begin phase).record report)
              (runPhases plan phases ((state.begin phase).record report))
        | .error issue => failOperation plan (state.begin phase) issue

variable (C : OperationCodec)

/-- A ledger is gone on with. -/
def resumeOperation (plan : OperationPlan) (state : OperationState) :
    Prog Operation OperationResult :=
  match state.validateFor C plan with
  | .error e => return .error e
  | .ok () =>
    match state.status with
    | .running =>
      storeThen state (runPhases plan (plan.operation.phases.drop state.normalPhaseCount) state)
    | .rollingBack => completeRollback plan state
    | .succeeded => return .ok state
    | status => return .error (.terminalState status)

/-- Start an operation, or go on with the one that was interrupted. -/
def executeOperation (plan : OperationPlan) : Prog Operation OperationResult :=
  match plan.validate with
  | .error e => return .error (.contract e)
  | .ok () => .call (.acquireLock plan.operationId) fun
    | .error fault => return .error fault.error
    | .ok () => .call .readState fun
      | .error e => return .error (.store e)
      | .ok (some state) => resumeOperation C plan state
      | .ok none =>
        match OperationState.new C plan with
        | .error e => return .error (.contract e)
        | .ok state => resumeOperation C plan state

/-! ## Failures after the snapshot -/

def OperationPlan.AfterSnapshot (plan : OperationPlan) (phase : OperationPhase) : Prop :=
  phase ∈ plan.operation.phases ∧
    plan.operation.phases.idxOf .snapshot < plan.operation.phases.idxOf phase

instance (plan : OperationPlan) (phase : OperationPhase) : Decidable (plan.AfterSnapshot phase) :=
  inferInstanceAs (Decidable (_ ∧ _))

def OperationOp.phase? : OperationOp → Option OperationPhase
  | .runPhase _ phase _ => some phase
  | _ => none

def OperationOp.isRollback : OperationOp → Bool
  | .rollback _ _ => true
  | _ => false

def phasesRun (l : List OperationCall) : List OperationPhase := l.filterMap (·.1.phase?)

def RolledBackLast (plan : OperationPlan) (l : List OperationCall) : Prop :=
  ∃ before timeout result after, l = before ++ ⟨.rollback plan timeout, result⟩ :: after ∧
    phasesRun after = []

/-- The ledger could be stored whenever the engine asked for it, or up to a rollback. -/
def storedUntilRollback : List OperationCall → Bool
  | [] => true
  | ⟨.rollback _ _, _⟩ :: _ => true
  | ⟨.writeState _, .error _⟩ :: _ => false
  | _ :: l => storedUntilRollback l

variable {C} {plan : OperationPlan} {state : OperationState} {l : List OperationCall}

theorem RolledBackLast.cons (h : RolledBackLast plan l) (call : OperationCall) :
    RolledBackLast plan (call :: l) := by
  obtain ⟨before, timeout, result, after, rfl, hafter⟩ := h
  exact ⟨call :: before, timeout, result, after, rfl, hafter⟩

variable {p : Prog Operation OperationResult}

theorem traces_storeThen_iff : (storeThen state p).Traces l r ↔
      (∃ e, l = [⟨.writeState state, .error e⟩] ∧ r = .error (.store e)) ∨
        ∃ l', l = ⟨.writeState state, .ok ()⟩ :: l' ∧ p.Traces l' r := by
  rw [storeThen, Prog.traces_call_iff]
  constructor
  · rintro ⟨_ | _, l', rfl, h⟩
    · obtain ⟨rfl, rfl⟩ := Prog.traces_ret_iff.1 h
      exact .inl ⟨_, rfl, rfl⟩
    · exact .inr ⟨l', rfl, h⟩
  · rintro (⟨e, rfl, rfl⟩ | ⟨l', rfl, h⟩)
    · exact ⟨.error e, [], rfl, .ret _⟩
    · exact ⟨.ok (), l', rfl, h⟩

theorem exists_of_traces_storeThen
    (h : (storeThen state p).Traces l r) (hl : storedUntilRollback l) :
    ∃ l', l = ⟨.writeState state, .ok ()⟩ :: l' ∧ p.Traces l' r ∧ storedUntilRollback l' := by
  obtain ⟨e, rfl, rfl⟩ | ⟨l', rfl, hp⟩ := traces_storeThen_iff.1 h
  · cases hl
  · exact ⟨l', rfl, hp, hl⟩

theorem phasesRun_storeThen_ret {r' : OperationResult}
    (h : (storeThen state (.ret r')).Traces l r) : phasesRun l = [] := by
  obtain ⟨e, rfl, rfl⟩ | ⟨l', rfl, hret⟩ := traces_storeThen_iff.1 h
  · rfl
  · obtain ⟨rfl, rfl⟩ := Prog.traces_ret_iff.1 hret
    rfl

theorem rolledBackLast_of_completeRollback (h : (completeRollback plan state).Traces l r) :
    RolledBackLast plan l ∧ phasesRun l = [] := by
  obtain ⟨result, l', rfl, hstore⟩ := Prog.traces_call_iff.1 h
  have hl' := phasesRun_storeThen_ret hstore
  exact ⟨⟨[], _, result, l', rfl, hl'⟩, hl'⟩

/-- An operation that fails performs no other phase. Where the snapshot was
    taken and the ledger can be stored, it is rolled back. -/
theorem rolledBackLast_of_failOperation {issue : OperationIssue}
    (h : (failOperation plan state issue).Traces l r) :
    (storedUntilRollback l → state.snapshotComplete → RolledBackLast plan l) ∧
      phasesRun l = [] := by
  rw [failOperation] at h
  split at h
  · obtain ⟨e, rfl, rfl⟩ | ⟨l', rfl, hrollback⟩ := traces_storeThen_iff.1 h
    · exact ⟨fun hl => (Bool.false_ne_true hl).elim, rfl⟩
    · obtain ⟨hrolled, hruns⟩ := rolledBackLast_of_completeRollback hrollback
      exact ⟨fun _ _ => hrolled.cons _, hruns⟩
  · next hsnapshot =>
    exact ⟨fun _ hany => absurd hany hsnapshot, phasesRun_storeThen_ret h⟩

/-- A phase of `runPhases`: the operation fails there, or the report is
    recorded and the other phases follow. -/
theorem traces_runPhases_cons (h : (runPhases plan (phase :: phases) state).Traces l r)
    (hl : storedUntilRollback l) :
    ∃ timeout result l', l = ⟨.writeState (state.begin phase), .ok ()⟩ ::
        ⟨.runPhase plan phase timeout, result⟩ :: l' ∧ storedUntilRollback l' ∧
      ((∃ issue, (failOperation plan (state.begin phase) issue).Traces l' r) ∨
        ∃ report state' l'', report.phase = phase ∧ state'.completed = state.completed ++ [report] ∧
          l' = ⟨.writeState state', .ok ()⟩ :: l'' ∧ storedUntilRollback l'' ∧
          (runPhases plan phases state').Traces l'' r) := by
  rw [runPhases] at h
  obtain ⟨l₁, rfl, hrun, hl₁⟩ := exists_of_traces_storeThen h hl
  obtain ⟨result, l', rfl, hrest⟩ := Prog.traces_call_iff.1 hrun
  refine ⟨_, result, l', rfl, hl₁, ?_⟩
  cases result with
  | error issue => exact .inl ⟨issue, hrest⟩
  | ok report =>
    dsimp only at hrest
    split at hrest
    · next issue _ => exact .inl ⟨issue, hrest⟩
    · next hvalid =>
      obtain ⟨l'', rfl, hphases, hl''⟩ := exists_of_traces_storeThen hrest hl₁
      exact .inr ⟨report, _, l'', (accepted_of_validatePhaseReport hvalid).phase_eq, rfl, rfl, hl'',
        hphases⟩

theorem rolledBackLast_of_runPhases (h : (runPhases plan phases state).Traces l (.error e))
    (hl : storedUntilRollback l) (hsnapshot : state.snapshotComplete) : RolledBackLast plan l := by
  induction phases generalizing state l with
  | nil =>
    -- The last ledger is stored, and the operation does not fail.
    obtain ⟨l', rfl, hret, _⟩ := exists_of_traces_storeThen h hl
    cases hret
  | cons phase phases ih =>
    obtain ⟨_, _, l', rfl, hl', ⟨issue, hfail⟩ | ⟨_, _, _, _, hstate, rfl, hl'', hrest⟩⟩ :=
      traces_runPhases_cons h hl
    · exact (((rolledBackLast_of_failOperation hfail).1 hl' hsnapshot).cons _).cons _
    · have hrolled := ih hrest hl'' (by
        rw [OperationState.snapshotComplete, hstate, any_append]
        exact Bool.or_eq_true_iff.2 (.inl hsnapshot))
      exact ((hrolled.cons _).cons _).cons _

/-- The reports of the phases `done` are recorded, and the `phases` are left. -/
def Recorded (plan : OperationPlan) (phases : List OperationPhase) (state : OperationState) : Prop :=
  ∃ done, plan.operation.phases = done ++ phases ∧ ∀ phase ∈ done, ∃ report ∈ state.completed,
    report.phase = phase

theorem Recorded.snapshot (h : Recorded plan (phase :: phases) state)
    (hphase : plan.AfterSnapshot phase) : state.snapshotComplete := by
  obtain ⟨done, hphases, hdone⟩ := h
  have hnot : phase ∉ done := by
    have hnodup := plan.operation.nodup_phases
    rw [hphases] at hnodup
    exact fun hmem => (nodup_append.1 hnodup).2.2 phase hmem phase mem_cons_self rfl
  have hidx : plan.operation.phases.idxOf phase = done.length := by
    rw [hphases, idxOf_append, if_neg hnot, idxOf_cons_self, Nat.zero_add]
  have hsnapshot : .snapshot ∈ done := by
    by_contra hmem
    have hlt := hphase.2
    rw [hidx, hphases, idxOf_append, if_neg hmem] at hlt
    omega
  obtain ⟨report, hmem, hreport⟩ := hdone _ hsnapshot
  exact any_eq_true.2 ⟨report, hmem, decide_eq_true hreport⟩

theorem Recorded.append {state' : OperationState} {report : PhaseReport}
    (h : Recorded plan (phase :: phases) state) (hreport : report.phase = phase)
    (hstate : state'.completed = state.completed ++ [report]) : Recorded plan phases state' := by
  obtain ⟨done, hphases, hdone⟩ := h
  refine ⟨done ++ [phase], by rw [hphases, append_assoc]; rfl, fun p hp => ?_⟩
  rw [hstate]
  rcases mem_append.1 hp with hp | hp
  · obtain ⟨r, hr, hrp⟩ := hdone p hp
    exact ⟨r, mem_append_left _ hr, hrp⟩
  · exact ⟨report, by simp, hreport.trans (mem_singleton.1 hp).symm⟩

theorem rolledBackLast_of_run (h : (runPhases plan phases state).Traces l (.error e))
    (hl : storedUntilRollback l) (hstate : Recorded plan phases state)
    (hphase : plan.AfterSnapshot phase) (hrun : phase ∈ phasesRun l) : RolledBackLast plan l := by
  induction phases generalizing state l with
  | nil =>
    obtain ⟨l', rfl, hret, _⟩ := exists_of_traces_storeThen h hl
    cases hret
  | cons first phases ih =>
    by_cases hfirst : plan.AfterSnapshot first
    · -- From here on the snapshot is recorded.
      exact rolledBackLast_of_runPhases h hl (hstate.snapshot hfirst)
    obtain ⟨_, _, l', rfl, hl', hrest⟩ := traces_runPhases_cons h hl
    have hne : phase ≠ first := fun heq => hfirst (heq ▸ hphase)
    have hrun' : phase ∈ phasesRun l' := (mem_cons.1 hrun).resolve_left hne
    obtain ⟨issue, hfail⟩ | ⟨report, _, l'', hreport, hcompleted, rfl, hl'', hphases⟩ := hrest
    · rw [(rolledBackLast_of_failOperation hfail).2] at hrun'
      cases hrun'
    · exact (((ih hphases hl'' (hstate.append hreport hcompleted) hrun').cons _).cons _).cons _

theorem recorded_of_accepted (h : state.Accepted C plan) :
    Recorded plan (plan.operation.phases.drop state.normalPhaseCount) state := by
  have htake := prefix_iff_eq_take.1 h.recorded
  rw [length_map] at htake
  refine ⟨_, (take_append_drop _ _).symm, fun phase hphase => ?_⟩
  have hnormal : phase ∈ state.normal.map (·.phase) := htake ▸ hphase
  obtain ⟨report, hreport, rfl⟩ := mem_map.1 hnormal
  exact ⟨report, (mem_filter.1 hreport).1, rfl⟩

theorem rolledBackLast_of_resume (h : (resumeOperation C plan state).Traces l (.error e))
    (hl : storedUntilRollback l) (hphase : plan.AfterSnapshot phase) (hrun : phase ∈ phasesRun l) :
    RolledBackLast plan l := by
  rw [resumeOperation] at h
  split at h
  · cases h
    cases hrun
  next hvalid =>
  have hstate := recorded_of_accepted (OperationState.accepted_of_validateFor hvalid)
  split at h
  · obtain ⟨l', rfl, hphases, hl'⟩ := exists_of_traces_storeThen h hl
    exact (rolledBackLast_of_run hphases hl' hstate hphase hrun).cons _
  · exact (rolledBackLast_of_completeRollback h).1
  · cases h
  · cases h
    cases hrun

/-- A call of the engine that performed a phase after the snapshot and returns
    an error has rolled the host back after the last phase, if no ledger failed
    to be stored before that. -/
theorem exists_rollback {e : OperationEngineError} {phase : OperationPhase}
    (h : (executeOperation C plan).Traces l (.error e)) (hl : storedUntilRollback l)
    (hphase : plan.AfterSnapshot phase)
    (hrun : phase ∈ phasesRun l) :
    RolledBackLast plan l := by
  rw [executeOperation] at h
  split at h
  · cases h
    cases hrun
  obtain ⟨lock, l₁, rfl, hlock⟩ := Prog.traces_call_iff.1 h
  cases lock with
  | error fault =>
    cases hlock
    cases hrun
  | ok u =>
    obtain ⟨file, l₂, rfl, hfile⟩ := Prog.traces_call_iff.1 hlock
    refine (RolledBackLast.cons ?_ _).cons _
    match file with
    | .error e =>
      cases hfile
      cases hrun
    | .ok (some state) => exact rolledBackLast_of_resume hfile hl hphase hrun
    | .ok none =>
      dsimp only at hfile
      split at hfile
      · cases hfile
        cases hrun
      · exact rolledBackLast_of_resume hfile hl hphase hrun

def updatePlan : OperationPlan :=
  .new "op-1" .update "1.2.0" .vpsGuardPublic .vpsGuardPublic [.listenerInventory]

/-- Texts that are their own hash. -/
def plainCodec : OperationCodec where
  sha256Hex := id
  planJson plan := plan.operationId

/-- Surroundings where a ledger with the report of `phase` cannot be stored,
    and where every phase succeeds but `failing`. -/
def answers (phase failing : OperationPhase) : (o : OperationOp) → o.Ans
  | .acquireLock _ => .ok ()
  | .readState => .ok none
  | .writeState state =>
    if state.completed.any (·.phase = phase) then .error (.io "rename") else .ok ()
  | .runPhase _ phase _ =>
    if phase = failing then .error (budgetIssue "FAILED" "") else .ok ⟨phase, 10, 0⟩
  | .rollback _ _ => .ok ⟨.rollback, 10, 0⟩

/-- The release cannot be activated. -/
theorem exists_rollback_activateRelease : RolledBackLast updatePlan
      ((executeOperation plainCodec updatePlan).answer (answers .commit .activateRelease)).1 := by
  have hresult : ((executeOperation plainCodec updatePlan).answer
      (answers .commit .activateRelease)).2 = .error (.operationFailed "op-1" true) := by decide
  have hphase : updatePlan.AfterSnapshot .activateRelease := by decide
  exact exists_rollback (Prog.traces_of_answer_eq hresult) (by decide) hphase (by decide)

/-- The release is staged, but the ledger with its report cannot be stored. -/
theorem unrecorded_not_rolledBack :
    ∃ l e, (executeOperation plainCodec updatePlan).Traces l (.error e) ∧
      (∃ phase ∈ phasesRun l, updatePlan.AfterSnapshot phase) ∧ ¬ RolledBackLast updatePlan l := by
  have hresult : ((executeOperation plainCodec updatePlan).answer
      (answers .stageRelease .rollback)).2 = .error (.store (.io "rename")) := by decide
  refine ⟨_, _, Prog.traces_of_answer_eq hresult, ⟨.stageRelease, by decide, by decide⟩, ?_⟩
  rintro ⟨before, timeout, result, after, hl, -⟩
  have hnone : ((executeOperation plainCodec updatePlan).answer
      (answers .stageRelease .rollback)).1.all (fun call => !call.1.isRollback) := by decide
  rw [hl] at hnone
  simp [OperationOp.isRollback] at hnone

end VpsGuard
