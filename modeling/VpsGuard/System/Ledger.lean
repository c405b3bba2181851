import Mathlib.Data.List.Destutter
import Mathlib.Data.List.Infix
import VpsGuard.System.Engine

/-!
# The histories of an operation

What happens to an operation, over any number of calls of the engine, is a list
of events: a ledger is stored, a phase is performed, the host is rolled back,
and the engine is called again, because it crashed or because it returned. The
lists have the latest event first. `Next` says which events may come after
which, and a `History` is a list of events each of which may come after those
before it. It knows nothing of programs; that the engine has no other histories
is in `VpsGuard.System.CrashSafety`.

* every ledger stored is `Genuine`: it passes the check against the plan, and
  the reports in it are within the time limits (`History.genuine`);
* a phase performed is the first one that is not recorded (`History.ran`), and
  is performed again only after a restart (`History.restarted_mem`), so that
  without the repetitions the phases performed are the first ones of the plan
  in their order (`History.ordered`);
* after the decision to roll back nothing happens but that (`History.rollingBack`).
-/

namespace VpsGuard

open List OperationState

variable {C : OperationCodec} {plan : OperationPlan}

/-! ## Genuine ledgers -/

namespace OperationState

/-- The ledgers that the engine stores. -/
structure Genuine (C : OperationCodec) (plan : OperationPlan) (state : OperationState) : Prop
    extends state.Accepted C plan where
  running : state.status = .running → state.lastIssue = none ∧ state.rollbackIssue = none
  rollingBack : state.status = .rollingBack → state.lastIssue.isSome
  normal_eq : state.status ≠ .rolledBack → state.normal = state.completed
  within : ∀ report ∈ state.normal, report.elapsedMs ≤ plan.budgets.timeoutFor report.phase
  elapsedMs_le : state.elapsedMs ≤ plan.budgets.operationMs
  interruptionMs_le : state.interruptionMs ≤ plan.budgets.publicInterruptionMs

variable {state : OperationState} {phase : OperationPhase}

theorem new_eq_ok (h : new C plan = .ok state) :
    state.status = .running ∧ state.completed = [] := by
  cases hsha : plan.sha256 C with
  | error e => rw [new, hsha] at h; cases h
  | ok text => rw [new, hsha] at h; cases h; exact ⟨rfl, rfl⟩

theorem genuine_new (h : new C plan = .ok state) : state.Genuine C plan := by
  cases hplan : plan.validate with
  | error e =>
    rw [new, OperationPlan.sha256, hplan] at h
    cases h
  | ok u =>
    rw [new, OperationPlan.sha256_eq_ok hplan] at h
    cases h
    exact {
      schemaVersion := rfl
      plan_valid := hplan
      operationId := rfl
      planSha256 := rfl
      recorded := nil_prefix
      currentPhase := fun phase hphase => absurd hphase (Option.some_ne_none phase).symm
      validStatus := rfl
      running := fun _ => ⟨rfl, rfl⟩
      rollingBack := fun hstatus => OperationStatus.noConfusion hstatus
      normal_eq := fun _ => rfl
      within := fun report hreport => absurd hreport not_mem_nil
      elapsedMs_le := Nat.zero_le _
      interruptionMs_le := Nat.zero_le _ }

variable {report : PhaseReport}

theorem normal_record (hreport : report.phase ≠ .rollback) :
    (state.record report).normal = state.normal ++ [report] := by
  simp [normal, record, filter_append, hreport]

theorem normal_rolledBack (hreport : report.phase = .rollback) :
    (state.rolledBack report).normal = state.normal := by
  simp [normal, rolledBack, filter_append, hreport]

theorem afterRollback_cases (state : OperationState) (plan : OperationPlan)
    (result : Except OperationIssue PhaseReport) :
    (∃ report : PhaseReport, report.phase = .rollback ∧
        (state.afterRollback plan result).1 = state.rolledBack report) ∨
      ∃ issue, (state.afterRollback plan result).1 = state.rollbackFailed issue := by
  cases result with
  | error issue => exact .inr ⟨issue, rfl⟩
  | ok report =>
    rw [afterRollback]
    split
    · next h => exact .inl ⟨report, h.1, rfl⟩
    · exact .inr ⟨_, rfl⟩

variable (h : state.Genuine C plan)

include h

theorem Genuine.normalPhaseCount_le : state.normalPhaseCount ≤ plan.operation.phases.length := by
  have hle := h.recorded.length_le
  rwa [length_map] at hle

theorem Genuine.not_rollbackComplete
    (hstatus : state.status = .running ∨ state.status = .rollingBack) :
    state.rollbackComplete = false := by
  have hvalid := h.validStatus
  unfold validStatus at hvalid
  rcases hstatus with hstatus | hstatus <;> simp [hstatus] at hvalid
  · exact hvalid
  · exact hvalid.2

theorem Genuine.recorded_append
    (hphase : plan.operation.phases[state.normalPhaseCount]? = some phase) :
    state.normal.map (·.phase) ++ [phase] <+: plan.operation.phases := by
  have hlength : (state.normal.map (·.phase)).length = state.normalPhaseCount := List.length_map _
  rw [← hlength] at hphase
  obtain ⟨hlt, rfl⟩ := List.getElem?_eq_some_iff.1 hphase
  exact List.concat_get_prefix h.recorded hlt

theorem Genuine.of_eq {state' : OperationState}
    (hids : state'.schemaVersion = state.schemaVersion ∧ state'.operationId = state.operationId ∧
      state'.planSha256 = state.planSha256)
    (hnormal : state'.normal = state.normal)
    (hcurrent : ∀ phase, state'.currentPhase = some phase → state'.expectedPhase plan = some phase)
    (hvalid : state'.validStatus plan = true) (hrunning : state'.status ≠ .running)
    (hrolling : state'.status = .rollingBack → state'.lastIssue.isSome)
    (hcompleted : state'.status ≠ .rolledBack → state'.normal = state'.completed) :
    state'.Genuine C plan where
  schemaVersion := hids.1.trans h.schemaVersion
  plan_valid := h.plan_valid
  operationId := hids.2.1.trans h.operationId
  planSha256 := hids.2.2.trans h.planSha256
  recorded := hnormal ▸ h.recorded
  currentPhase := hcurrent
  validStatus := hvalid
  running hstatus := absurd hstatus hrunning
  rollingBack := hrolling
  normal_eq := hcompleted
  within := hnormal ▸ h.within
  elapsedMs_le := by rw [elapsedMs, hnormal]; exact h.elapsedMs_le
  interruptionMs_le := by rw [interruptionMs, hnormal]; exact h.interruptionMs_le

section Running

variable (hstatus : state.status = .running)

include hstatus

theorem Genuine.getElem? (hcurrent : state.currentPhase = some phase) :
    plan.operation.phases[state.normalPhaseCount]? = some phase := by
  have hexpected := h.currentPhase phase hcurrent
  rwa [expectedPhase, if_neg (by rw [hstatus]; decide)] at hexpected

theorem Genuine.begin (hphase : plan.operation.phases[state.normalPhaseCount]? = some phase) :
    (state.begin phase).Genuine C plan :=
  { h with
    currentPhase := fun p hp => by
      cases hp
      rw [expectedPhase, if_neg (by rw [OperationState.begin, hstatus]; decide)]
      exact hphase
    validStatus := by
      have hrollback : (state.begin phase).rollbackComplete = false :=
        h.not_rollbackComplete (.inl hstatus)
      unfold validStatus
      rw [hrollback]
      simp only [OperationState.begin, hstatus]
      rfl }

theorem Genuine.record (hphase : plan.operation.phases[state.normalPhaseCount]? = some phase)
    (hreport : report.Accepted plan state phase) : (state.record report).Genuine C plan := by
  have hne : report.phase ≠ .rollback := by
    intro hrollback
    rw [← hreport.phase_eq, hrollback] at hphase
    exact plan.operation.rollback_not_mem_phases (mem_of_getElem? hphase)
  have hnormal : (state.record report).normal = state.normal ++ [report] := normal_record hne
  exact {
    schemaVersion := h.schemaVersion
    plan_valid := h.plan_valid
    operationId := h.operationId
    planSha256 := h.planSha256
    recorded := by
      rw [hnormal, map_append, map_singleton, hreport.phase_eq]
      exact h.recorded_append hphase
    currentPhase := nofun
    validStatus := by
      unfold validStatus
      simp only [OperationState.record, hstatus, rollbackComplete, getLast?_concat]
      simp [hne]
    running := h.running
    rollingBack := h.rollingBack
    normal_eq := fun hrolled => by rw [hnormal, h.normal_eq hrolled]; rfl
    within := by
      rw [hnormal]
      intro r hr
      rcases mem_append.1 hr with hr | hr
      · exact h.within r hr
      · rw [mem_singleton.1 hr, hreport.phase_eq]
        exact hreport.elapsedMs
    elapsedMs_le := by
      rw [elapsedMs, hnormal, map_append, sum_append]
      exact hreport.operationMs
    interruptionMs_le := by
      rw [interruptionMs, hnormal, map_append, sum_append]
      exact hreport.interruptionMs }

theorem Genuine.succeed (hall : state.normalPhaseCount = plan.operation.phases.length) :
    state.succeed.Genuine C plan := by
  have hrollback := h.not_rollbackComplete (.inl hstatus)
  obtain ⟨hlast, hissue⟩ := h.running hstatus
  refine h.of_eq ⟨rfl, rfl, rfl⟩ rfl (by simp [OperationState.succeed]) ?_ (by simp) (by simp)
    fun _ => h.normal_eq (by rw [hstatus]; decide)
  change (true && decide (state.normalPhaseCount = _) && !state.rollbackComplete &&
    state.lastIssue.isNone && state.rollbackIssue.isNone) = true
  simp [hall, hrollback, hlast, hissue]

theorem Genuine.fail (issue : OperationIssue) : (state.fail issue).Genuine C plan := by
  have hrollback := h.not_rollbackComplete (.inl hstatus)
  refine h.of_eq ⟨rfl, rfl, rfl⟩ rfl (by simp [OperationState.fail]) ?_ (by simp) (by simp)
    fun _ => h.normal_eq (by rw [hstatus]; decide)
  change (!state.rollbackComplete && true) = true
  rw [hrollback]
  rfl

theorem Genuine.rollBack (issue : OperationIssue) : (state.rollBack issue).Genuine C plan := by
  have hrollback := h.not_rollbackComplete (.inl hstatus)
  refine h.of_eq ⟨rfl, rfl, rfl⟩ rfl (fun _ hphase => hphase) ?_ (by simp) (fun _ => rfl)
    fun _ => h.normal_eq (by rw [hstatus]; decide)
  change (true && !state.rollbackComplete) = true
  rw [hrollback]
  rfl

end Running

section

variable (hstatus : state.status = .rollingBack)

include hstatus

theorem Genuine.rolledBack
    (hreport : report.phase = .rollback) : (state.rolledBack report).Genuine C plan := by
  refine h.of_eq ⟨rfl, rfl, rfl⟩ (normal_rolledBack hreport)
    (by simp [OperationState.rolledBack]) ?_ (by simp) (by simp) fun hrolled => absurd rfl hrolled
  change (true && (state.completed ++ [report]).getLast?.any (·.phase = .rollback) &&
    state.lastIssue.isSome && true) = true
  simp [hreport, h.rollingBack hstatus]

theorem Genuine.rollbackFailed
    (issue : OperationIssue) : (state.rollbackFailed issue).Genuine C plan := by
  have hrollback := h.not_rollbackComplete (.inr hstatus)
  refine h.of_eq ⟨rfl, rfl, rfl⟩ rfl (by simp [OperationState.rollbackFailed]) ?_ (by simp)
    (by simp) fun _ => h.normal_eq (by rw [hstatus]; decide)
  change (true && !state.rollbackComplete && state.lastIssue.isSome && true) = true
  simp [hrollback, h.rollingBack hstatus]

theorem Genuine.afterRollback (result : Except OperationIssue PhaseReport) :
    (state.afterRollback plan result).1.Genuine C plan := by
  obtain ⟨report, hreport, heq⟩ | ⟨issue, heq⟩ := afterRollback_cases state plan result
  · rw [heq]
    exact h.rolledBack hstatus hreport
  · rw [heq]
    exact h.rollbackFailed hstatus issue

end

theorem Genuine.map_phase_completed (hstatus : state.status = .succeeded) :
    state.completed.map (·.phase) = plan.operation.phases := by
  have hvalid := h.validStatus
  unfold validStatus at hvalid
  simp only [hstatus, Bool.and_eq_true, decide_eq_true_eq] at hvalid
  have hcount : state.normal.length = plan.operation.phases.length := hvalid.1.1.1.2
  rw [← h.normal_eq (by rw [hstatus]; decide)]
  exact h.recorded.eq_of_length (by rw [length_map, hcount])

end OperationState

/-! ## Histories -/

namespace Ledger

/-- What happens to an operation. -/
inductive LedgerEvent
  | restarted
  | stored (state : OperationState)
  | ran (phase : OperationPhase)
  | rolledBack

def lastStored : List LedgerEvent → Option OperationState
  | [] => none
  | .stored state :: _ => some state
  | _ :: log => lastStored log

def LedgerEvent.phase? : LedgerEvent → Option OperationPhase
  | .ran phase => some phase
  | _ => none

def phasesOf (log : List LedgerEvent) : List OperationPhase := log.filterMap LedgerEvent.phase?

def recordedCount (log : List LedgerEvent) : ℕ := (lastStored log).elim 0 (·.normalPhaseCount)

section Next

open OperationState LedgerEvent

/-- What may happen next. -/
inductive Next (C : OperationCodec) (plan : OperationPlan) : List LedgerEvent → LedgerEvent → Prop
  | restarted {log} : Next C plan log restarted
  /-- The first ledger. -/
  | opened {log state} : lastStored log = none → new C plan = .ok state →
      Next C plan log (stored state)
  /-- A ledger that was found is stored again. -/
  | resumed {log state} : lastStored log = some state → state.status = .running →
      Next C plan (restarted :: log) (stored state)
  | begun {log state phase} : state.status = .running →
      plan.operation.phases[state.normalPhaseCount]? = some phase →
      Next C plan (stored state :: log) (stored (state.begin phase))
  | ran {log state phase} : state.status = .running → state.currentPhase = some phase →
      Next C plan (stored state :: log) (ran phase)
  | recorded {log state phase report} : report.Accepted plan state phase →
      Next C plan (ran phase :: stored state :: log) (stored (state.record report))
  | failed {log state phase issue} : Next C plan (ran phase :: stored state :: log)
      (stored (state.fail issue))
  | rollingBack {log state phase issue} : state.snapshotComplete →
      Next C plan (ran phase :: stored state :: log) (stored (state.rollBack issue))
  | succeeded {log state} : state.status = .running →
      state.normalPhaseCount = plan.operation.phases.length →
      Next C plan (stored state :: log) (stored state.succeed)
  | rolledBack {log state} : lastStored log = some state → state.status = .rollingBack →
      Next C plan log rolledBack
  | settled {log state result} : lastStored log = some state → state.status = .rollingBack →
      Next C plan (LedgerEvent.rolledBack :: log) (stored (state.afterRollback plan result).1)

end Next

/-- Everything happened when it might. -/
def History (C : OperationCodec) (plan : OperationPlan) : List LedgerEvent → Prop
  | [] => True
  | event :: log => Next C plan log event ∧ History C plan log

variable {log : List LedgerEvent} {state : OperationState} {phase : OperationPhase}
  {after : List LedgerEvent} {event : LedgerEvent} {before : List LedgerEvent} {n : ℕ}

theorem History.of_append (h : History C plan (after ++ log)) : History C plan log := by
  induction after with
  | nil => exact h
  | cons event after ih => exact ih h.2

theorem mem_of_lastStored (h : lastStored log = some state) : .stored state ∈ log := by
  induction log with
  | nil => cases h
  | cons event log ih =>
    cases event with
    | stored s =>
      cases h
      exact mem_cons_self
    | restarted | ran _ | rolledBack => exact mem_cons_of_mem _ (ih h)

theorem History.running_of_ran (h : History C plan (.ran phase :: .stored state :: log)) :
    state.status = .running ∧ state.currentPhase = some phase := by
  obtain ⟨hnext, _⟩ := h
  cases hnext with
  | ran hstatus hcurrent => exact ⟨hstatus, hcurrent⟩

theorem Next.genuine (hnext : Next C plan log (.stored state)) (hlog : History C plan log)
    (h : ∀ s, .stored s ∈ log → s.Genuine C plan) : state.Genuine C plan := by
  cases hnext with
  | opened _ hnew => exact genuine_new hnew
  | @resumed log _ hlast _ => exact h state (mem_cons_of_mem _ (mem_of_lastStored hlast))
  | @begun log s phase hstatus hphase =>
    exact OperationState.Genuine.begin (h s mem_cons_self) hstatus hphase
  | @recorded log s phase report hreport =>
    obtain ⟨hstatus, hcurrent⟩ := hlog.running_of_ran
    have hs : s.Genuine C plan := h s (mem_cons_of_mem _ mem_cons_self)
    exact hs.record hstatus (hs.getElem? hstatus hcurrent) hreport
  | @failed log s phase issue =>
    have hs : s.Genuine C plan := h s (mem_cons_of_mem _ mem_cons_self)
    exact hs.fail hlog.running_of_ran.1 issue
  | @rollingBack log s phase issue _ =>
    have hs : s.Genuine C plan := h s (mem_cons_of_mem _ mem_cons_self)
    exact hs.rollBack hlog.running_of_ran.1 issue
  | @succeeded log s hstatus hall => exact (h s mem_cons_self).succeed hstatus hall
  | @settled log s result hlast hstatus =>
    have hs : s.Genuine C plan := h s (mem_cons_of_mem _ (mem_of_lastStored hlast))
    exact hs.afterRollback hstatus result

/-- The ledgers stored are genuine. -/
theorem History.genuine (h : History C plan log) :
    ∀ state, .stored state ∈ log → state.Genuine C plan := by
  induction log with
  | nil => exact fun _ hmem => absurd hmem not_mem_nil
  | cons event log ih =>
    have hlog := ih h.2
    intro state hstate
    rcases mem_cons.1 hstate with rfl | hstate
    · exact h.1.genuine h.2 hlog
    · exact hlog state hstate

/-! ## The order of the phases -/

/-- A phase that is performed is the first one that is not recorded. -/
theorem History.ran (h : History C plan (.ran phase :: log)) :
    ∃ state, lastStored log = some state ∧ state.status = .running ∧ state.Genuine C plan ∧
      plan.operation.phases[state.normalPhaseCount]? = some phase := by
  obtain ⟨hnext, hlog⟩ := h
  cases hnext with
  | @ran log state phase hstatus hcurrent =>
    have hstate := hlog.genuine state mem_cons_self
    exact ⟨state, rfl, hstatus, hstate, hstate.getElem? hstatus hcurrent⟩

theorem History.getElem?_recordedCount (h : History C plan (.ran phase :: log)) :
    plan.operation.phases[recordedCount log]? = some phase := by
  obtain ⟨state, hlast, _, _, hphase⟩ := h.ran
  rw [recordedCount, hlast]
  exact hphase

/-- The phase with number `i` is recorded, or the operation does not go on. -/
def Past (i : ℕ) (log : List LedgerEvent) : Prop :=
  ∃ state, lastStored log = some state ∧ (state.status = .running → i < state.normalPhaseCount)

theorem normalPhaseCount_record {report : PhaseReport} (hstate : state.Genuine C plan)
    (hstatus : state.status = .running) (hcurrent : state.currentPhase = some phase)
    (hreport : report.Accepted plan state phase) :
    (state.record report).normalPhaseCount = state.normalPhaseCount + 1 := by
  have hne : report.phase ≠ .rollback := by
    have hphase := hstate.getElem? hstatus hcurrent
    intro hrollback
    rw [← hreport.phase_eq, hrollback] at hphase
    exact plan.operation.rollback_not_mem_phases (mem_of_getElem? hphase)
  rw [normalPhaseCount, normal_record hne, length_append]
  rfl

theorem Past.next {i : ℕ} (h : Past i log) (hlog : History C plan log)
    (hnext : Next C plan log event) : Past i (event :: log) := by
  obtain ⟨state, hlast, hpast⟩ := h
  cases hnext with
  | restarted | ran | rolledBack => exact ⟨state, hlast, hpast⟩
  | opened hnone _ => cases hnone.symm.trans hlast
  | resumed hsome _ =>
    cases hsome.symm.trans hlast
    exact ⟨state, rfl, hpast⟩
  | begun hstatus _ =>
    cases hlast
    exact ⟨_, rfl, hpast⟩
  | recorded hreport =>
    cases hlast
    obtain ⟨hstatus, hcurrent⟩ := hlog.running_of_ran
    have hstate := hlog.genuine state (mem_cons_of_mem _ mem_cons_self)
    refine ⟨_, rfl, fun _ => ?_⟩
    rw [normalPhaseCount_record hstate hstatus hcurrent hreport]
    exact Nat.lt_succ_of_lt (hpast hstatus)
  | failed | rollingBack _ | succeeded _ _ => exact ⟨_, rfl, by simp⟩
  | @settled log s result _ _ =>
    refine ⟨_, rfl, fun hstatus => ?_⟩
    obtain ⟨report, _, heq⟩ | ⟨issue, heq⟩ := s.afterRollback_cases plan result <;>
      simp [heq] at hstatus

theorem Past.of_ran (hlog : History C plan (.ran phase :: log))
    (hnext : Next C plan (.ran phase :: log) event) (hevent : event ≠ .restarted) :
    Past (plan.operation.phases.idxOf phase) (event :: .ran phase :: log) := by
  obtain ⟨state, hlast, hstatus, hstate, hphase⟩ := hlog.ran
  cases hnext with
  | restarted => exact absurd rfl hevent
  | opened hnone _ => cases hnone.symm.trans hlast
  | @recorded log s phase report hreport =>
    cases hlast
    refine ⟨_, rfl, fun _ => ?_⟩
    rw [normalPhaseCount_record hstate hstatus hlog.running_of_ran.2 hreport]
    obtain ⟨hlt, rfl⟩ := List.getElem?_eq_some_iff.1 hphase
    rw [plan.operation.nodup_phases.idxOf_getElem]
    exact Nat.lt_succ_self _
  | failed | rollingBack _ => exact ⟨_, rfl, by simp⟩
  | rolledBack hsome hrolling =>
    cases hsome.symm.trans hlast
    rw [hstatus] at hrolling
    cases hrolling

theorem History.past {mid : List LedgerEvent} (h : History C plan (mid ++ .ran phase :: before))
    (hmid : .restarted ∉ mid) (hne : mid ≠ []) :
    Past (plan.operation.phases.idxOf phase) (mid ++ .ran phase :: before) := by
  induction mid with
  | nil => exact absurd rfl hne
  | cons event mid ih =>
    rw [mem_cons, not_or] at hmid
    cases mid with
    | nil => exact Past.of_ran h.2 h.1 (Ne.symm hmid.1)
    | cons event' mid => exact (ih h.2 hmid.2 (cons_ne_nil _ _)).next h.2 h.1

theorem History.restarted_mem {mid : List LedgerEvent}
    (h : History C plan (.ran phase :: (mid ++ .ran phase :: before))) : .restarted ∈ mid := by
  by_contra hmid
  obtain ⟨state, hlast, hstatus, hstate, hphase⟩ := h.ran
  cases mid with
  | nil =>
    obtain ⟨hnext, _⟩ := h
    cases hnext
  | cons event mid =>
    obtain ⟨state', hlast', hpast⟩ := History.past h.2 hmid (List.cons_ne_nil _ _)
    cases hlast.symm.trans hlast'
    have hlt := hpast hstatus
    obtain ⟨_, rfl⟩ := List.getElem?_eq_some_iff.1 hphase
    rw [plan.operation.nodup_phases.idxOf_getElem] at hlt
    exact Nat.lt_irrefl _ hlt

theorem Next.recordedCount (hnext : Next C plan log event) (hlog : History C plan log) :
    recordedCount (event :: log) = recordedCount log ∨
      ∃ phase log', log = .ran phase :: log' ∧ event.phase? = none ∧
        recordedCount (event :: log) = recordedCount log + 1 := by
  cases hnext with
  | restarted | ran | rolledBack | begun | failed | rollingBack | succeeded => exact .inl rfl
  | opened hnone hnew =>
    left
    simp [Ledger.recordedCount, lastStored, hnone, normalPhaseCount, normal, (new_eq_ok hnew).2]
  | resumed hsome _ =>
    left
    simp [Ledger.recordedCount, lastStored, hsome]
  | @recorded log state phase report hreport =>
    right
    obtain ⟨hstatus, hcurrent⟩ := hlog.running_of_ran
    have hstate := hlog.genuine state (mem_cons_of_mem _ mem_cons_self)
    exact ⟨phase, _, rfl, rfl, normalPhaseCount_record hstate hstatus hcurrent hreport⟩
  | @settled log state result hsome _ =>
    left
    obtain ⟨report, hreport, heq⟩ | ⟨issue, heq⟩ := state.afterRollback_cases plan result
    · simp [Ledger.recordedCount, lastStored, hsome, heq, normalPhaseCount,
        normal_rolledBack hreport]
    · simp only [Ledger.recordedCount, lastStored, hsome, heq]
      rfl

theorem notMem_take (h : plan.operation.phases[n]? = some phase) :
    phase ∉ plan.operation.phases.take n := by
  have hnodup := plan.operation.nodup_phases.sublist (take_sublist (n + 1) _)
  rw [take_add_one, h] at hnodup
  exact fun hmem => (nodup_append.1 hnodup).2.2 phase hmem phase (by simp) rfl

/-- Without repetitions, the phases performed are the first `m`. -/
structure Ordered (plan : OperationPlan) (log : List LedgerEvent) (m : ℕ) : Prop where
  destutter : (phasesOf log).destutter (· ≠ ·) = (plan.operation.phases.take m).reverse
  head? : (phasesOf log).head? = (plan.operation.phases.take m).getLast?

/-- The next phase is performed, or the last one again. -/
theorem Ordered.ran {m : ℕ} (h : Ordered plan log m) (hm : m = n ∨ m = n + 1)
    (hphase : plan.operation.phases[n]? = some phase) :
    Ordered plan (.ran phase :: log) (n + 1) := by
  have htake : plan.operation.phases.take (n + 1) = plan.operation.phases.take n ++ [phase] := by
    rw [take_add_one, hphase]
    rfl
  have hcons : phasesOf (.ran phase :: log) = phase :: phasesOf log := rfl
  refine ⟨?_, by rw [hcons, htake, getLast?_concat]; rfl⟩
  rw [hcons]
  rcases hm with rfl | rfl
  · -- The phase is not among those performed.
    rw [htake, reverse_concat, ← h.destutter]
    cases hrun : phasesOf log with
    | nil => rfl
    | cons last rest =>
      have hlast := h.head?
      rw [hrun] at hlast
      have hmem := mem_of_getLast? hlast.symm
      have hne : phase ≠ last := fun heq => notMem_take hphase (heq ▸ hmem)
      rw [destutter_cons_cons, if_pos hne]
      rfl
  · -- It is the last one.
    have hlast := h.head?
    rw [htake, getLast?_concat] at hlast
    obtain ⟨rest, hrun⟩ := head?_eq_some_iff.1 hlast
    rw [hrun, destutter_cons_cons, if_neg (not_not.2 rfl), ← h.destutter, hrun]
    rfl

theorem Ordered.ne {m : ℕ} (h : Ordered plan (.ran phase :: log) m)
    (hphase : plan.operation.phases[n]? = some phase) : m ≠ n := by
  rintro rfl
  exact notMem_take hphase (mem_of_getLast? h.head?.symm)

theorem History.ordered (h : History C plan log) :
    ∃ m, Ordered plan log m ∧ (m = recordedCount log ∨ m = recordedCount log + 1) := by
  induction log with
  | nil => exact ⟨0, ⟨rfl, rfl⟩, .inl rfl⟩
  | cons event log ih =>
    obtain ⟨m, hm, hcount⟩ := ih h.2
    cases hevent : event.phase? with
    | some phase =>
      obtain rfl : event = .ran phase := by cases event <;> simp_all [LedgerEvent.phase?]
      exact ⟨_, hm.ran hcount h.getElem?_recordedCount, .inr rfl⟩
    | none =>
      -- No phase is performed, but one may be recorded.
      have hruns : phasesOf (event :: log) = phasesOf log := filterMap_cons_none hevent
      have hm' : Ordered plan (event :: log) m := ⟨hruns ▸ hm.destutter, hruns ▸ hm.head?⟩
      obtain heq | ⟨phase, log', rfl, _, heq⟩ := h.1.recordedCount h.2
      · exact ⟨m, hm', by rw [heq]; exact hcount⟩
      · have hne := hm.ne h.2.getElem?_recordedCount
        exact ⟨m, hm', .inl (by rw [heq]; exact hcount.resolve_left hne)⟩

theorem History.snapshot (h : History C plan (.ran phase :: log))
    (hphase : plan.AfterSnapshot phase) :
    ∃ state, .stored state ∈ log ∧ ∃ report ∈ state.completed, report.phase = .snapshot := by
  obtain ⟨state, hlast, _, hstate, hnext⟩ := h.ran
  have hrecorded := recorded_of_accepted hstate.toAccepted
  rw [List.drop_eq_getElem_cons (List.getElem?_eq_some_iff.1 hnext).1,
    (List.getElem?_eq_some_iff.1 hnext).2] at hrecorded
  have hsnapshot := hrecorded.snapshot hphase
  obtain ⟨report, hreport, hphase⟩ := any_eq_true.1 hsnapshot
  exact ⟨state, mem_of_lastStored hlast, report, hreport, of_decide_eq_true hphase⟩

/-! ## Rollbacks -/

def Leaving : OperationStatus → Prop
  | .rollingBack | .rolledBack | .rollbackFailed => True
  | _ => False

theorem leaving_afterRollback (state : OperationState) (plan : OperationPlan)
    (result : Except OperationIssue PhaseReport) :
    (state.afterRollback plan result).1.status = .rolledBack ∨
      (state.afterRollback plan result).1.status = .rollbackFailed := by
  obtain ⟨report, _, heq⟩ | ⟨issue, heq⟩ := state.afterRollback_cases plan result
  · exact .inl (by rw [heq, status_rolledBack])
  · exact .inr (by rw [heq, status_rollbackFailed])

theorem Next.leaving (hnext : Next C plan log event) (hlog : History C plan log)
    (hlast : lastStored log = some state) (hstate : Leaving state.status) :
    event = .restarted ∨ event = .rolledBack ∨
      ∃ later, event = .stored later ∧
        (later.status = .rolledBack ∨ later.status = .rollbackFailed) := by
  have hrunning : state.status ≠ .running := fun heq => by rw [heq] at hstate; exact hstate
  cases hnext with
  | restarted => exact .inl rfl
  | rolledBack => exact .inr (.inl rfl)
  | opened hnone _ => cases hnone.symm.trans hlast
  | resumed hsome hstatus =>
    cases hsome.symm.trans hlast
    exact absurd hstatus hrunning
  | begun hstatus _ | ran hstatus _ | succeeded hstatus _ =>
    cases hlast
    exact absurd hstatus hrunning
  | recorded | failed | rollingBack =>
    cases hlast
    exact absurd hlog.running_of_ran.1 hrunning
  | settled _ _ => exact .inr (.inr ⟨_, rfl, leaving_afterRollback _ _ _⟩)

theorem History.leaving (h : History C plan (after ++ .stored state :: before))
    (hstate : Leaving state.status) :
    ∃ last, lastStored (after ++ .stored state :: before) = some last ∧ Leaving last.status := by
  induction after with
  | nil => exact ⟨state, rfl, hstate⟩
  | cons event after ih =>
    obtain ⟨last, hlast, hleaving⟩ := ih h.2
    obtain rfl | rfl | ⟨later, rfl, hstatus⟩ := h.1.leaving h.2 hlast hleaving
    · exact ⟨last, hlast, hleaving⟩
    · exact ⟨last, hlast, hleaving⟩
    · refine ⟨later, rfl, ?_⟩
      rcases hstatus with hstatus | hstatus <;> rw [hstatus] <;> trivial

theorem History.rollingBack (h : History C plan (after ++ .stored state :: before))
    (hstate : state.status = .rollingBack) :
    phasesOf after = [] ∧ ∀ later, .stored later ∈ after →
      later.status = .rolledBack ∨ later.status = .rollbackFailed := by
  have hleaving : Leaving state.status := by rw [hstate]; trivial
  induction after with
  | nil => exact ⟨rfl, fun _ hmem => absurd hmem not_mem_nil⟩
  | cons event after ih =>
    obtain ⟨last, hlast, hlastLeaving⟩ := History.leaving h.2 hleaving
    obtain ⟨hruns, hlater⟩ := ih h.2
    obtain rfl | rfl | ⟨later, rfl, hstatus⟩ := h.1.leaving h.2 hlast hlastLeaving
    · exact ⟨hruns, by simpa using hlater⟩
    · exact ⟨hruns, by simpa using hlater⟩
    · refine ⟨hruns, fun s hs => ?_⟩
      rcases mem_cons.1 hs with hs | hs
      · cases hs
        exact hstatus
      · exact hlater s hs

end Ledger

end VpsGuard
