import VpsGuard.Effect.Restart
import VpsGuard.System.Ledger

/-!
# Crashes of the engine

The engine is called any number of times with one plan, and may crash before
any of its operations. The file with the ledger survives, and so does what was
done to the host; nothing else does. The driver answers as it likes, the lock
may be refused and the ledger may fail to be read, but it is stored whenever the
engine asks for it.

The events of such a world are a `History` (`executeOperation_safe`), and a
history keeps the order of the phases, their time limits and the decision to
roll back (`CrashSafe`). In particular a ledger that is found always passes the
check of the engine.
-/

namespace VpsGuard.Ledger

open Effect

/-- The file of the operation, and what happened, the latest first. -/
structure LedgerWorld where
  store : Option OperationState
  log : List LedgerEvent

/-- What the surroundings of the engine may do. -/
inductive LedgerChoice
  | done
  | lockFault (fault : LockFault)
  | readFault (e : StoreError)
  | report (result : Except OperationIssue PhaseReport)

namespace LedgerWorld

def fresh : LedgerWorld := ⟨none, []⟩

def add (w : LedgerWorld) (event : LedgerEvent) : LedgerWorld := { w with log := event :: w.log }

def put (w : LedgerWorld) (state : OperationState) : LedgerWorld where
  store := some state
  log := .stored state :: w.log

end LedgerWorld

/-- The operations in the world. -/
def ledgerExec : (o : OperationOp) → LedgerChoice → LedgerWorld → Option (o.Ans × LedgerWorld)
  | .acquireLock _, .done, w => some (.ok (), w)
  | .acquireLock _, .lockFault fault, w => some (.error fault, w)
  | .readState, .done, w => some (.ok w.store, w)
  | .readState, .readFault e, w => some (.error e, w)
  | .writeState state, .done, w => some (.ok (), w.put state)
  | .runPhase _ phase _, .report result, w => some (result, w.add (.ran phase))
  | .rollback _ _, .report result, w => some (result, w.add .rolledBack)
  | _, _, _ => none

variable (C : OperationCodec) (plan : OperationPlan)

def engineProcess : Process Operation LedgerWorld Unit OperationResult where
  boot _ := executeOperation C plan
  crash w := w.add .restarted

/-- What holds at all times: the events are a history, and the file has the last ledger. -/
def ledgerSetting : Setting Operation LedgerWorld LedgerChoice where
  exec := ledgerExec
  allow _ _ _ := True
  inv w := History C plan w.log ∧ w.store = lastStored w.log

def Returned : OperationResult → LedgerWorld → Prop
  | .ok state, w => .stored state ∈ w.log ∧ state.status = .succeeded
  | .error (.stateConflict _), _ => False
  | .error _, _ => True

variable {C plan} {w t : LedgerWorld} {x : LedgerChoice} {state : OperationState}

/-! ## The steps of the world -/

theorem exec_acquireLock {id : String} {a : Except LockFault Unit}
    (h : ledgerExec (.acquireLock id) x w = some (a, t)) : t = w := by
  cases x <;> simp_all [ledgerExec]

theorem exec_readState {a : Except StoreError (Option OperationState)}
    (h : ledgerExec .readState x w = some (a, t)) :
    t = w ∧ (a = .ok w.store ∨ ∃ e, a = .error e) := by
  cases x <;> simp_all [ledgerExec, eq_comm]

theorem exec_writeState {a : Except StoreError Unit}
    (h : ledgerExec (.writeState state) x w = some (a, t)) : a = .ok () ∧ t = w.put state := by
  cases x <;> simp_all [ledgerExec]

variable {a : Except OperationIssue PhaseReport} {phase : OperationPhase} {timeout : ℕ}

theorem exec_runPhase (h : ledgerExec (.runPhase plan phase timeout) x w = some (a, t)) :
    t = w.add (.ran phase) := by
  cases x <;> simp_all [ledgerExec]

theorem exec_rollback (h : ledgerExec (.rollback plan timeout) x w = some (a, t)) :
    t = w.add .rolledBack := by
  cases x <;> simp_all [ledgerExec]

/-! ## The programs -/

theorem storeThen_safe {p : Prog Operation OperationResult}
    (hnext : Next C plan w.log (.stored state))
    (hp : p.Safe (ledgerSetting C plan) .alone Returned (w.put state)) :
    (storeThen state p).Safe (ledgerSetting C plan) .alone Returned w := by
  refine .call_alone fun hinv x a t _ hx => ?_
  obtain ⟨rfl, rfl⟩ := exec_writeState hx
  exact ⟨⟨⟨hnext, hinv.1⟩, rfl⟩, hp⟩

theorem completeRollback_safe (hlast : lastStored w.log = some state)
    (hstatus : state.status = .rollingBack) :
    (completeRollback plan state).Safe (ledgerSetting C plan) .alone Returned w := by
  refine .call_alone fun hinv x a t _ hx => ?_
  obtain rfl := exec_rollback hx
  refine ⟨⟨⟨.rolledBack hlast hstatus, hinv.1⟩, hinv.2⟩, ?_⟩
  exact storeThen_safe (.settled hlast hstatus) (.ret_alone fun _ => trivial)

variable {log : List LedgerEvent}

theorem failOperation_safe (hlog : w.log = .ran phase :: .stored state :: log)
    (issue : OperationIssue) :
    (failOperation plan state issue).Safe (ledgerSetting C plan) .alone Returned w := by
  rw [failOperation]
  split
  · next hsnapshot =>
    exact storeThen_safe (hlog ▸ .rollingBack hsnapshot) (completeRollback_safe rfl rfl)
  · exact storeThen_safe (hlog ▸ .failed) (.ret_alone fun _ => trivial)

theorem runPhases_safe {phases : List OperationPhase}
    (hlog : w.log = .stored state :: log) (hstatus : state.status = .running)
    (hphases : plan.operation.phases.drop state.normalPhaseCount = phases) :
    (runPhases plan phases state).Safe (ledgerSetting C plan) .alone Returned w := by
  induction phases generalizing state w log with
  | nil =>
    refine .of_inv fun hinv => ?_
    have hstate := hinv.1.genuine state (hlog ▸ List.mem_cons_self)
    have hall : state.normalPhaseCount = plan.operation.phases.length :=
      Nat.le_antisymm hstate.normalPhaseCount_le (List.drop_eq_nil_iff.1 hphases)
    refine storeThen_safe (hlog ▸ .succeeded hstatus hall) (.ret_alone fun _ => ?_)
    exact ⟨List.mem_cons_self, rfl⟩
  | cons phase phases ih =>
    have hphase : plan.operation.phases[state.normalPhaseCount]? = some phase := by
      rw [← List.head?_drop, hphases, List.head?_cons]
    refine storeThen_safe (hlog ▸ .begun hstatus hphase) (.call_alone ?_)
    intro hinv x result t _ hx
    obtain rfl := exec_runPhase hx
    have hnext : Next C plan (w.put (state.begin phase)).log (.ran phase) := .ran hstatus rfl
    refine ⟨⟨⟨hnext, hinv.1⟩, hinv.2⟩, ?_⟩
    cases result with
    | error issue => exact failOperation_safe rfl issue
    | ok report =>
      dsimp only
      split
      · exact failOperation_safe rfl _
      · next hvalid =>
        have hreport := accepted_of_validatePhaseReport hvalid
        have hgenuine := hinv.1.genuine (state.begin phase) List.mem_cons_self
        refine storeThen_safe (.recorded hreport) (ih rfl hstatus ?_)
        rw [normalPhaseCount_record hgenuine hstatus rfl hreport, ← List.drop_drop]
        change ((plan.operation.phases.drop state.normalPhaseCount).drop 1) = phases
        rw [hphases, List.drop_one, List.tail_cons]

theorem resumeOperation_safe (hstate : state.Genuine C plan)
    (hnext : state.status = .running → Next C plan w.log (.stored state))
    (hlast : state.status ≠ .running → lastStored w.log = some state) :
    (resumeOperation C plan state).Safe (ledgerSetting C plan) .alone Returned w := by
  rw [resumeOperation, hstate.toAccepted.validateFor]
  dsimp only
  split
  · next hstatus =>
    exact storeThen_safe (hnext hstatus) (runPhases_safe rfl hstatus rfl)
  · next hstatus => exact completeRollback_safe (hlast (by rw [hstatus]; decide)) hstatus
  · next hstatus =>
    have hmem := mem_of_lastStored (hlast (by rw [hstatus]; decide))
    exact .ret_alone fun _ => ⟨hmem, hstatus⟩
  · exact .ret_alone fun _ => trivial

/-- A call of the engine, after a crash or before anything happened. -/
theorem executeOperation_safe (hfresh : w.log = [] ∨ ∃ log, w.log = .restarted :: log) :
    (executeOperation C plan).Safe (ledgerSetting C plan) .alone Returned w := by
  rw [executeOperation]
  split
  · exact .ret_alone fun _ => trivial
  refine .call_alone fun hinv x lock t _ hx => ?_
  obtain rfl := exec_acquireLock hx
  refine ⟨hinv, ?_⟩
  cases lock with
  | error fault => exact .ret_alone fun _ => by cases fault <;> trivial
  | ok u =>
    refine .call_alone fun hinv x file t _ hx => ?_
    obtain ⟨rfl, rfl | ⟨e, rfl⟩⟩ := exec_readState hx
    · refine ⟨hinv, ?_⟩
      rw [hinv.2]
      cases hlast : lastStored t.log with
      | none =>
        dsimp only
        split
        · exact .ret_alone fun _ => trivial
        · next state hnew =>
          exact resumeOperation_safe (OperationState.genuine_new hnew)
            (fun _ => .opened hlast hnew)
            fun hstatus => absurd (OperationState.new_eq_ok hnew).1 hstatus
      | some state =>
        have hstate := hinv.1.genuine state (mem_of_lastStored hlast)
        refine resumeOperation_safe hstate (fun hstatus => ?_) fun _ => hlast
        obtain hlog | ⟨log, hlog⟩ := hfresh
        · rw [hlog] at hlast
          cases hlast
        · rw [hlog] at hlast ⊢
          exact .resumed hlast hstatus
    · exact ⟨hinv, .ret_alone fun _ => trivial⟩

/-! ## Any number of calls -/

/-- What holds of an operation, however often it was interrupted. -/
structure CrashSafe (C : OperationCodec) (plan : OperationPlan) (log : List LedgerEvent) : Prop where
  /-- Every ledger stored passes the check. -/
  validateFor : ∀ state, .stored state ∈ log → state.validateFor C plan = .ok ()
  /-- Without repetitions, the phases performed are the first ones of the plan,
      here with the latest first. -/
  order : ∃ n, (phasesOf log).destutter (· ≠ ·) = (plan.operation.phases.take n).reverse
  /-- A phase performed is the first one that is not recorded. -/
  next : ∀ after phase before, log = after ++ .ran phase :: before →
    ∃ state, lastStored before = some state ∧
      plan.operation.phases[state.normalPhaseCount]? = some phase
  /-- Between two times that a phase is performed there is a restart. -/
  again : ∀ after phase mid before, log = after ++ .ran phase :: (mid ++ .ran phase :: before) →
    .restarted ∈ mid
  /-- Before a phase after the snapshot, the report of the snapshot was stored. -/
  snapshot : ∀ after phase before, log = after ++ .ran phase :: before → plan.AfterSnapshot phase →
    ∃ state, .stored state ∈ before ∧ ∃ report ∈ state.completed, report.phase = .snapshot
  /-- An operation succeeds with a report for every phase, within all limits. -/
  succeeded : ∀ state, .stored state ∈ log → state.status = .succeeded →
    state.completed.map (·.phase) = plan.operation.phases ∧
    (∀ report ∈ state.completed, report.elapsedMs ≤ plan.budgets.timeoutFor report.phase) ∧
    (state.completed.map (·.elapsedMs)).sum ≤ plan.budgets.operationMs ∧
    (state.completed.map (·.publicInterruptionMs)).sum ≤ plan.budgets.publicInterruptionMs
  /-- After the decision to roll back, no phase is performed and only the end of
      the rollback is stored. -/
  rollingBack : ∀ after state before, log = after ++ .stored state :: before →
    state.status = .rollingBack →
    phasesOf after = [] ∧ ∀ later, .stored later ∈ after →
      later.status = .rolledBack ∨ later.status = .rollbackFailed

theorem History.crashSafe (h : History C plan log) : CrashSafe C plan log where
  validateFor state hstate := (h.genuine state hstate).toAccepted.validateFor
  order := by
    obtain ⟨n, hn, _⟩ := h.ordered
    exact ⟨n, hn.destutter⟩
  next := by
    rintro after phase before rfl
    obtain ⟨state, hlast, _, _, hphase⟩ := h.of_append.ran
    exact ⟨state, hlast, hphase⟩
  again := by
    rintro after phase mid before rfl
    exact h.of_append.restarted_mem
  snapshot := by
    rintro after phase before rfl hphase
    exact h.of_append.snapshot hphase
  succeeded state hmem hstatus := by
    have hstate := h.genuine state hmem
    have hnormal := hstate.normal_eq (by rw [hstatus]; decide)
    exact ⟨hstate.map_phase_completed hstatus, hnormal ▸ hstate.within,
      hnormal ▸ hstate.elapsedMs_le, hnormal ▸ hstate.interruptionMs_le⟩
  rollingBack := by
    rintro after state before rfl hstatus
    exact h.rollingBack hstatus

/-- Over any number of calls of the engine with one plan, and with crashes at
    any time, the order of the phases, their limits and the decision to roll
    back are kept, and no call finds a ledger that is in conflict with the plan. -/
theorem crashSafe_executeOperation {p : Prog Operation OperationResult}
    (h : Restarts ⟨ledgerExec⟩ (engineProcess C plan) (fun _ _ => True) (fun _ _ _ => True) .fresh
      w p) :
    CrashSafe C plan w.log ∧ ∀ result, p = .ret result → Returned result w := by
  have hsafe := Restarts.safe (E := ledgerSetting C plan) (Q := Returned)
    (fun w => w.log = [] ∨ ∃ log, w.log = .restarted :: log) h ⟨⟨trivial, rfl⟩, .inl rfl⟩
    (fun s hs => ⟨⟨⟨.restarted, hs.1⟩, hs.2⟩, .inr ⟨_, rfl⟩⟩)
    (fun _ _ _ hfresh _ => executeOperation_safe hfresh)
  refine ⟨hsafe.1.1.crashSafe, ?_⟩
  rintro result rfl
  exact hsafe.2.value hsafe.1

/-- A call that crashes in the snapshot, one that takes it again, fails to stage
    the release and crashes before the rollback, and one that rolls back. -/
def interruptedUpdate : List (Unit ⊕ LedgerChoice) :=
  [.inr .done, .inr .done, .inr .done,
    .inr .done, .inr (.report (.ok ⟨.preflight, 10, 0⟩)), .inr .done,
    .inr .done, .inr (.report (.ok ⟨.snapshot, 10, 0⟩)),
    .inl (),
    .inr .done, .inr .done, .inr .done,
    .inr .done, .inr (.report (.ok ⟨.snapshot, 10, 0⟩)), .inr .done,
    .inr .done, .inr (.report (.error (budgetIssue "FAILED" ""))), .inr .done,
    .inl (),
    .inr .done, .inr .done, .inr (.report (.ok ⟨.rollback, 10, 0⟩)), .inr .done]

theorem crashSafe_interruptedUpdate :
    ∃ w : LedgerWorld, phasesOf w.log = [.stageRelease, .snapshot, .snapshot, .preflight] ∧
      w.store.map (·.status) = some .rolledBack ∧ CrashSafe plainCodec updatePlan w.log := by
  obtain ⟨w, p, h, hw⟩ := Restarts.exists_of_run ⟨ledgerExec⟩ (engineProcess plainCodec updatePlan)
    (fun _ _ _ => True) .fresh () interruptedUpdate
    (R := fun w => phasesOf w.log = [.stageRelease, .snapshot, .snapshot, .preflight] ∧
      w.store.map (·.status) = some .rolledBack) (by decide)
  obtain ⟨hruns, hstatus⟩ := of_decide_eq_true hw
  exact ⟨w, hruns, hstatus, (crashSafe_executeOperation h).1⟩

end VpsGuard.Ledger
