import VpsGuard.Effect.Fallible
import Mathlib.Data.List.Infix

/-!
# The supervisor of the edge

The edge is a worker process, and `guard-edge` as the service manager knows it is a
process that looks after workers. On a reload it starts a second worker, waits until
that one is ready to take the listeners over, tells the first one to quit, and waits
until the listeners have been handed over. The first one serves the connections that
it has until they are closed; it is *draining* then.

The supervisor knows its workers by the handles in `current` and `draining`. The
model is that of its calls (`reload`, `childEvent`, `shutdown`) as programs over what
they ask of the system, and of the processes with what they were told.

* Handles are lost where a call gives up halfway: a reload that fails after its
  worker was started keeps neither that worker nor the current one from quitting, and
  a draining worker whose state cannot be read takes the others with it
  (`loses_worker`).
* If waiting never fails, a reload that has told the current worker to quit goes
  through, and signals reach the workers that run, then every running worker is known or
  was told to end because it did not get ready, and the current one is not told to quit
  by a reload that fails. A shutdown reaches all of them, once those that did not get
  ready have ended (`Supervised.keeps`).
-/

namespace VpsGuard

open Effect Prog List

inductive WorkerLaunch
  | preflight (tlsReload : Bool)
  | initial
  | upgrade
  deriving DecidableEq

inductive WorkerSignal
  | int
  | term
  | quit
  deriving DecidableEq

/-- The name of a launch, in errors. -/
def WorkerLaunch.phase : WorkerLaunch → String
  | .preflight _ => "preflight"
  | .initial => "initial"
  | .upgrade => "upgrade"

def WorkerSignal.name : WorkerSignal → String
  | .int => "SIGINT"
  | .term => "SIGTERM"
  | .quit => "SIGQUIT"

inductive SignalFault
  | invalidPid
  | errno
  deriving DecidableEq

/-- What the supervisor fails with. An exit status is a number, zero for success. -/
inductive EdgeSupervisorError
  | spawn (phase : String)
  | wait
  | preflightFailed (status : ℕ)
  | workerExited (status : ℕ)
  | unsafeReloadBundle
  | reloadInProgress
  | invalidPid
  | signal (signal : String)
  | upgradeSocketTimeout
  | transferTimeout

/-- What the supervisor looks at a worker for. -/
inductive Awaiting
  | nothing
  | socket
  | transfer
  deriving DecidableEq

/-- What the supervisor asks of the system. A worker is known by its number. -/
inductive SupervisorOp
  | spawn (launch : WorkerLaunch)
  | wait (child : ℕ)
  | tryWait (child : ℕ) (awaiting : Awaiting)
  | signal (child : ℕ) (signal : WorkerSignal)
  /-- The files of the reload are there, and are safe. -/
  | reloadBundle
  | timeLeft (awaiting : Awaiting)
  /-- The upgrade socket exists. There are so many looks at it left. -/
  | socketExists (awaiting : Awaiting) (left : ℕ)

/-- The operations with their answers. -/
abbrev SupervisorSys : Sig where
  Op := SupervisorOp
  Ans
    | .spawn _ => Except Unit ℕ
    | .wait _ => Except Unit ℕ
    | .tryWait _ _ => Except Unit (Option ℕ)
    | .signal _ _ => Except SignalFault Unit
    | .reloadBundle => Bool
    | .timeLeft _ => Bool
    | .socketExists _ _ => Bool

abbrev Supervising := Fallible SupervisorSys EdgeSupervisorError

/-! ## The calls -/

def spawnWorker (launch : WorkerLaunch) : Supervising ℕ :=
  .request (.spawn launch) fun r => r.mapError fun _ => .spawn launch.phase

/-- A worker that checks whether it could start. -/
def runPreflight (tlsReload : Bool) : Supervising Unit := do
  let worker ← spawnWorker (.preflight tlsReload)
  let status ← .request (.wait worker) fun r => r.mapError fun _ => .wait
  .ensure (status = 0) (.preflightFailed status)

/-- The files that the new worker is to read. -/
def validateReloadBundle : Supervising Unit :=
  .request .reloadBundle fun r => if r then .ok () else .error .unsafeReloadBundle

/-- The worker has not exited. -/
def stillRunning (child : ℕ) (awaiting : Awaiting) : Supervising Unit :=
  .request (.tryWait child awaiting) fun
    | .error _ => .error .wait
    | .ok (some status) => .error (.workerExited status)
    | .ok none => .ok ()

def signalChild (child : ℕ) (signal : WorkerSignal) : Supervising Unit :=
  .request (.signal child signal) fun
    | .error .invalidPid => .error .invalidPid
    | .error .errno => .error (.signal signal.name)
    | .ok _ => .ok ()

def inTime (awaiting : Awaiting) (late : EdgeSupervisorError) : Supervising Unit :=
  .request (.timeLeft awaiting) fun r => if r then .ok () else .error late

def socketExists (awaiting : Awaiting) (left : ℕ) : Supervising Bool :=
  .request (.socketExists awaiting left) .ok

/-- Wait until the new worker has its socket. There are at most so many looks before
    the time is over. -/
def waitForUpgradeSocket (next : ℕ) : ℕ → Supervising Unit
  | 0 => throw .upgradeSocketTimeout
  | left + 1 => do
    inTime .socket .upgradeSocketTimeout
    stillRunning next .socket
    let ready ← socketExists .socket left
    if ready then pure () else waitForUpgradeSocket next left

/-- Wait until the listeners have been handed over: the socket is gone, and the new
    worker is still there a moment later. -/
def waitForFdTransfer (next : ℕ) : ℕ → Supervising Unit
  | 0 => throw .transferTimeout
  | left + 1 => do
    inTime .transfer .transferTimeout
    stillRunning next .transfer
    let there ← socketExists .transfer left
    if there then waitForFdTransfer next left else stillRunning next .transfer

/-- A look every 50 ms, for five and for twelve seconds. -/
def socketPolls : ℕ := 100
def transferPolls : ℕ := 240

structure EdgeSupervisor where
  current : ℕ
  draining : List ℕ

namespace EdgeSupervisor

abbrev Call := Prog SupervisorSys (Except EdgeSupervisorError Unit × EdgeSupervisor)

def start : Supervising EdgeSupervisor := do
  runPreflight false
  let current ← spawnWorker .initial
  pure ⟨current, []⟩

/-- The workers among those left that have not exited, after the ones found so far. -/
def reap (active : List ℕ) : List ℕ → Supervising (List ℕ)
  | [] => pure active
  | worker :: workers => do
    let status ← .request (.tryWait worker .nothing) fun r => r.mapError fun _ => .wait
    match status with
    | some _ => reap active workers
    | none => reap (active ++ [worker]) workers

variable (supervisor : EdgeSupervisor)

/-- Forget the draining workers that have exited. The list is taken out first, and
    put back only in the end. -/
def reapDraining : Call := do
  match ← (reap [] supervisor.draining).run with
  | .ok active => pure (.ok (), { supervisor with draining := active })
  | .error e => pure (.error e, { supervisor with draining := [] })

def startNext : Supervising ℕ := do
  validateReloadBundle
  runPreflight true
  spawnWorker .upgrade

/-- Tell the current worker to quit, and wait until the next one has the listeners. -/
def handOver (current next : ℕ) : Supervising Unit := do
  signalChild current .quit
  waitForFdTransfer next transferPolls

/-- Replace the current worker by a new one. -/
def reload : Call := do
  let (reaped, supervisor) ← supervisor.reapDraining
  match reaped with
  | .error e => pure (.error e, supervisor)
  | .ok _ =>
    if supervisor.draining ≠ [] then pure (.error .reloadInProgress, supervisor)
    else
      match ← startNext.run with
      | .error e => pure (.error e, supervisor)
      | .ok next =>
        match ← (waitForUpgradeSocket next socketPolls).run with
        | .error e => do
          let _ ← (signalChild next .int).run
          pure (.error e, supervisor)
        | .ok _ =>
          -- From here on the new worker is forgotten with an error.
          match ← (handOver supervisor.current next).run with
          | .error e => pure (.error e, supervisor)
          | .ok _ => pure (.ok (), ⟨next, supervisor.draining ++ [supervisor.current]⟩)

def childEvent : Call := do
  match ← (stillRunning supervisor.current .nothing).run with
  | .error e => pure (.error e, supervisor)
  | .ok _ => supervisor.reapDraining

def signalAll (signal : WorkerSignal) : List ℕ → Prog SupervisorSys PUnit
  | [] => pure ⟨⟩
  | worker :: workers => do
    let _ ← (signalChild worker signal).run
    signalAll signal workers

def shutdown (signal : WorkerSignal) : Prog SupervisorSys PUnit :=
  signalAll signal (supervisor.draining ++ [supervisor.current])

end EdgeSupervisor

/-! ## The processes -/

/-- The processes that were started, those that have exited, and what was told to
    which. -/
structure WorkerProcesses where
  spawned : List WorkerLaunch
  exited : List ℕ
  told : List (ℕ × WorkerSignal)

structure SupervisorChoice where
  exits : List ℕ
  fault : Option SignalFault
  status : ℕ
  answer : Bool

namespace WorkerProcesses

def exit (w : WorkerProcesses) (exits : List ℕ) : WorkerProcesses :=
  { w with exited := exits.filter (· < w.spawned.length) ++ w.exited }

/-- The process was started, and has not exited. -/
def Running (w : WorkerProcesses) (p : ℕ) : Prop := p < w.spawned.length ∧ p ∉ w.exited

instance (w : WorkerProcesses) (p : ℕ) : Decidable (w.Running p) := inferInstanceAs (Decidable (_ ∧ _))

end WorkerProcesses

/-- What the system does. An answer about a worker is true. -/
def supervisorExec (op : SupervisorOp) (c : SupervisorChoice) (w : WorkerProcesses) :
    Option (SupervisorSys.Ans op × WorkerProcesses) :=
  let w := w.exit c.exits
  match op with
  | .spawn launch =>
    if c.fault.isSome then some (.error (), w)
    else some (.ok w.spawned.length, { w with spawned := w.spawned ++ [launch] })
  | .wait child =>
    if c.fault.isSome then some (.error (), w) else some (.ok c.status, w.exit [child])
  | .tryWait child _ =>
    if c.fault.isSome then some (.error (), w)
    else some (.ok (if child ∈ w.exited then some c.status else none), w)
  | .signal child signal =>
    match c.fault with
    | some fault => some (.error fault, w)
    | none => some (.ok (), { w with told := (child, signal) :: w.told })
  | .reloadBundle => some (c.answer, w)
  | .timeLeft _ => some (c.answer, w)
  | .socketExists _ _ => some (c.answer, w)

def supervisorMachine : Machine SupervisorSys WorkerProcesses SupervisorChoice := ⟨supervisorExec⟩

inductive SupervisorCall
  | start
  | reload
  | childEvent
  | shutdown
  deriving DecidableEq

/-- What is considered of the system, in which call. -/
abbrev SupervisorAllow := SupervisorCall → SupervisorOp → SupervisorChoice → WorkerProcesses → Prop

inductive Supervised (allow : SupervisorAllow) : EdgeSupervisor → WorkerProcesses → Prop
  | start {supervisor w} :
      Runs supervisorMachine (allow .start) EdgeSupervisor.start.run ⟨[], [], []⟩
        (.ok supervisor) w → Supervised allow supervisor w
  | exits {supervisor w} (exits : List ℕ) : Supervised allow supervisor w →
      Supervised allow supervisor (w.exit exits)
  | reload {supervisor supervisor' w w' r} : Supervised allow supervisor w →
      Runs supervisorMachine (allow .reload) supervisor.reload w (r, supervisor') w' →
      Supervised allow supervisor' w'
  | childEvent {supervisor supervisor' w w' r} : Supervised allow supervisor w →
      Runs supervisorMachine (allow .childEvent) supervisor.childEvent w (r, supervisor') w' →
      Supervised allow supervisor' w'
  | shutdown {supervisor w w'} {signal : WorkerSignal} : signal ≠ .quit →
      Supervised allow supervisor w →
      Runs supervisorMachine (allow .shutdown) (supervisor.shutdown signal) w ⟨⟩ w' →
      Supervised allow supervisor w'

/-! ## Steady systems -/

/-- Waiting does not fail. A worker that is told to quit by a reload is told, and the
    listeners are then handed over in time. A signal reaches a worker that is running. -/
def steady : SupervisorAllow
  | _, .wait _, c, _ => c.fault = none
  | _, .tryWait child .transfer, c, w => c.fault = none ∧ child ∉ (w.exit c.exits).exited
  | _, .tryWait _ _, c, _ => c.fault = none
  | .reload, .signal _ .quit, c, _ => c.fault = none
  | _, .signal child _, c, w => (w.exit c.exits).Running child → c.fault = none
  | _, .timeLeft .transfer, c, _ => c.answer = true
  | _, .socketExists .transfer left, c, _ => left = 0 → c.answer = false
  | _, _, _, _ => True

instance (call : SupervisorCall) (op : SupervisorOp) (c : SupervisorChoice) (w : WorkerProcesses) :
    Decidable (steady call op c w) := by
  unfold steady
  split <;> infer_instance

def steadySetting (call : SupervisorCall) :
    Setting SupervisorSys WorkerProcesses SupervisorChoice where
  toMachine := supervisorMachine
  allow := steady call
  inv _ := True

section Parts

variable {call : SupervisorCall} {w : WorkerProcesses} {β : Type}

/-- Nothing more is running than before, nobody was told anything, and nothing was
    forgotten. -/
structure Calmer (w w' : WorkerProcesses) : Prop where
  running : ∀ p, w'.Running p → w.Running p
  told : w'.told = w.told
  exited : w.exited ⊆ w'.exited
  length : w.spawned.length ≤ w'.spawned.length

theorem Calmer.refl (w : WorkerProcesses) : Calmer w w :=
  ⟨fun _ h => h, rfl, List.Subset.refl _, le_rfl⟩

variable {w' : WorkerProcesses} {Q : Except EdgeSupervisorError β → WorkerProcesses → Prop}
  {awaiting : Awaiting} {child left next : ℕ} {w'' : WorkerProcesses}

theorem Calmer.trans (h : Calmer w w') (h' : Calmer w' w'') :
    Calmer w w'' :=
  ⟨fun p hp => h.running p (h'.running p hp), h'.told.trans h.told,
    fun _ hp => h'.exited (h.exited hp), h.length.trans h'.length⟩

theorem calmer_exit (w : WorkerProcesses) (exits : List ℕ) : Calmer w (w.exit exits) where
  running _ hp := ⟨hp.1, fun hmem => hp.2 (mem_append_right _ hmem)⟩
  told := rfl
  exited _ hp := mem_append_right _ hp
  length := le_rfl

variable {o : SupervisorOp}

theorem attempt_op {α : Type} {f : SupervisorSys.Ans o → Except EdgeSupervisorError α}
    {k : α → Supervising β} (h : ∀ c a w', steady call o c w → supervisorExec o c w = some (a, w') →
      (∀ b, f a = .ok b → (k b).run.Safe (steadySetting call) .alone Q w') ∧ ∀ e, f a = .error e → Q
      (.error e) w') : (Fallible.request o f >>= k).run.Safe (steadySetting call) .alone Q w := by
  refine .request ?_
  rintro _ rfl - c a w' hallow hexec
  obtain ⟨hok, herror⟩ := h c a w' hallow hexec
  refine ⟨trivial, trivial, hok, ?_⟩
  rintro e he _ rfl -
  exact herror e he

theorem op_safe {f : SupervisorSys.Ans o → Except EdgeSupervisorError β}
    (h : ∀ c a w', steady call o c w → supervisorExec o c w = some (a, w') → Q (f a) w') :
    (Fallible.request o f : Supervising β).run.Safe (steadySetting call) .alone Q w := by
  refine .request_last ?_
  rintro _ rfl - c a w' hallow hexec
  refine ⟨trivial, trivial, ?_⟩
  rintro _ rfl -
  exact h c a w' hallow hexec

theorem inTime_safe {late : EdgeSupervisorError} :
    (inTime awaiting late).run.Safe (steadySetting call) .alone
      (fun r w' => Calmer w w' ∧ (awaiting = .transfer → r = .ok ())) w := by
  refine op_safe fun c a w' hallow hexec => ?_
  cases hexec
  refine ⟨calmer_exit w _, ?_⟩
  rintro rfl
  have hanswer : c.answer = true := hallow
  rw [hanswer]
  rfl

variable {c : SupervisorChoice}

theorem steady_tryWait (h : steady call (.tryWait child awaiting) c w) : c.fault = none := by
  cases awaiting with
  | nothing => exact h
  | socket => exact h
  | transfer => exact h.1

theorem exec_tryWait {a : Except Unit (Option ℕ)} (h : steady call (.tryWait child awaiting) c w)
    (hexec : supervisorExec (.tryWait child awaiting) c w = some (a, w')) :
    w' = w.exit c.exits ∧ a = .ok (if child ∈ w'.exited then some c.status else none) := by
  rw [supervisorExec, steady_tryWait h] at hexec
  cases hexec
  exact ⟨rfl, rfl⟩

theorem stillRunning_safe : (stillRunning child awaiting).run.Safe (steadySetting call) .alone
      (fun r w' => Calmer w w' ∧ (awaiting = .transfer → r = .ok ())) w := by
  refine op_safe fun c a w' hallow hexec => ?_
  obtain ⟨rfl, rfl⟩ := exec_tryWait hallow hexec
  refine ⟨calmer_exit w _, ?_⟩
  rintro rfl
  rw [if_neg hallow.2]

theorem socketExists_safe : (socketExists awaiting left).run.Safe (steadySetting call) .alone
      (fun r w' => Calmer w w' ∧ ∃ there, r = .ok there ∧
        (awaiting = .transfer → left = 0 → there = false)) w := by
  refine op_safe fun c a w' hallow hexec => ?_
  cases hexec
  refine ⟨calmer_exit w _, c.answer, rfl, ?_⟩
  rintro rfl hleft
  exact hallow hleft

theorem attempt_calmer {α : Type} {x : Supervising α} {k : α → Supervising β}
    {Y : Except EdgeSupervisorError α → Prop}
    (hx : x.run.Safe (steadySetting call) .alone (fun r w' => Calmer w w' ∧ Y r) w)
    (herror : ∀ e w', Calmer w w' → Y (.error e) → Q (.error e) w')
    (hk : ∀ a w', Calmer w w' → Y (.ok a) → (k a).run.Safe (steadySetting call) .alone Q w') :
    (x >>= k).run.Safe (steadySetting call) .alone Q w := by
  refine .attempt_alone (R := fun a w' => Calmer w w' ∧ Y (.ok a)) (hx.weaken ?_)
    fun a w' _ h => hk a w' h.1 h.2
  rintro (e | a) w' - ⟨hcalmer, hY⟩
  · exact herror e w' hcalmer hY
  · exact ⟨hcalmer, hY⟩

theorem waitForUpgradeSocket_safe :
    (waitForUpgradeSocket next left).run.Safe (steadySetting call) .alone
      (fun _ w' => Calmer w w') w := by
  induction left generalizing w with
  | zero => exact .ret_alone fun _ => Calmer.refl w
  | succ left ih =>
    refine attempt_calmer inTime_safe (fun _ _ h _ => h) fun _ w₁ h₁ _ => ?_
    refine attempt_calmer stillRunning_safe (fun _ _ h _ => h₁.trans h) fun _ w₂ h₂ _ => ?_
    refine attempt_calmer socketExists_safe (fun _ _ h _ => h₁.trans (h₂.trans h))
      fun ready w₃ h₃ _ => ?_
    have hcalmer := h₁.trans (h₂.trans h₃)
    split
    · exact .ret_alone fun _ => hcalmer
    · exact ih.weaken fun _ _ _ h => hcalmer.trans h

theorem waitForFdTransfer_step (hrest : left ≠ 0 → ∀ w,
      (waitForFdTransfer next left).run.Safe (steadySetting call) .alone
      (fun r w' => Calmer w w' ∧ r = .ok ()) w) :
    (waitForFdTransfer next (left + 1)).run.Safe (steadySetting call) .alone
      (fun r w' => Calmer w w' ∧ r = .ok ()) w := by
  refine attempt_calmer inTime_safe (fun _ _ _ h => by cases h rfl) fun _ w₁ h₁ _ => ?_
  refine attempt_calmer stillRunning_safe (fun _ _ _ h => by cases h rfl) fun _ w₂ h₂ _ => ?_
  refine attempt_calmer socketExists_safe (fun _ _ _ h => by cases h.choose_spec.1)
    fun there w₃ h₃ hthere => ?_
  have hcalmer := h₁.trans (h₂.trans h₃)
  obtain ⟨_, hsame, hfalse⟩ := hthere
  cases hsame
  cases there with
  | false => exact stillRunning_safe.weaken fun _ _ _ h => ⟨hcalmer.trans h.1, h.2 rfl⟩
  | true =>
    have hleft : left ≠ 0 := fun h => Bool.noConfusion (hfalse rfl h)
    exact (hrest hleft w₃).weaken fun _ _ _ h => ⟨hcalmer.trans h.1, h.2⟩

theorem waitForFdTransfer_safe :
    (waitForFdTransfer next (left + 1)).run.Safe (steadySetting call) .alone
      (fun r w' => Calmer w w' ∧ r = .ok ()) w := by
  induction left generalizing w with
  | zero => exact waitForFdTransfer_step fun h => absurd rfl h
  | succ left ih => exact waitForFdTransfer_step fun _ w => ih

/-- A new process, which is the only one that is running and was not before. -/
structure Started (p : ℕ) (w w' : WorkerProcesses) : Prop where
  running : ∀ q, w'.Running q → w.Running q ∨ q = p
  told : w'.told = w.told
  exited : w.exited ⊆ w'.exited
  fresh : w.spawned.length ≤ p ∧ p < w'.spawned.length

theorem Started.calmer (h : Started next w w') (h' : Calmer w' w'') :
    Started next w w'' :=
  ⟨fun q hq => h.running q (h'.running q hq), h'.told.trans h.told,
    fun _ hq => h'.exited (h.exited hq), h.fresh.1, h.fresh.2.trans_le h'.length⟩

theorem spawnWorker_safe {launch : WorkerLaunch} :
    (spawnWorker launch).run.Safe (steadySetting call) .alone
      (Outcome (fun p w' => Started p w w') fun _ w' => Calmer w w') w := by
  refine op_safe fun c a w' hallow hexec => ?_
  rw [supervisorExec] at hexec
  split at hexec
  · cases hexec
    exact calmer_exit w _
  · cases hexec
    refine ⟨fun q hq => ?_, rfl, (calmer_exit w _).exited, le_rfl, ?_⟩
    · have hcases : q < w.spawned.length ∨ q = w.spawned.length := by
        have hlt : q < (w.spawned ++ [launch]).length := hq.1
        rw [length_append, length_singleton] at hlt
        omega
      rcases hcases with hlt | heq
      · exact .inl ((calmer_exit w _).running q ⟨hlt, hq.2⟩)
      · exact .inr heq
    · change w.spawned.length < (w.spawned ++ [launch]).length
      simp

theorem runPreflight_safe {tlsReload : Bool} :
    (runPreflight tlsReload).run.Safe (steadySetting call) .alone
      (fun _ w' => Calmer w w') w := by
  refine .attempt_alone spawnWorker_safe fun p w₁ _ h₁ => ?_
  refine attempt_op fun c a w₂ hallow hexec => ?_
  have hfault : c.fault = none := hallow
  rw [supervisorExec, hfault] at hexec
  cases hexec
  have hcalmer : Calmer w (((w₁.exit c.exits).exit [p])) := by
    have hexit := (calmer_exit w₁ c.exits).trans (calmer_exit (w₁.exit c.exits) [p])
    refine ⟨fun q hq => ?_, hexit.told.trans h₁.told, fun q hq => hexit.exited (h₁.exited hq),
      h₁.fresh.1.trans (h₁.fresh.2.le.trans hexit.length)⟩
    refine (h₁.running q (hexit.running q hq)).resolve_right fun heq => hq.2 ?_
    refine mem_append_left _ (mem_filter.2 ⟨by simp [heq], ?_⟩)
    exact decide_eq_true hq.1
  refine ⟨fun status _ => ?_, fun _ _ => hcalmer⟩
  rw [Fallible.ensure]
  split
  · exact .ret_alone fun _ => hcalmer
  · exact .ret_alone fun _ => hcalmer

theorem startNext_safe : EdgeSupervisor.startNext.run.Safe (steadySetting call) .alone
      (Outcome (fun p w' => Started p w w') fun _ w' => Calmer w w') w := by
  refine attempt_op fun c a w₁ _ hexec => ?_
  cases hexec
  have h₁ := calmer_exit w c.exits
  refine ⟨fun _ _ => ?_, fun _ _ => h₁⟩
  refine .attempt_alone (R := fun _ w' => Calmer w w')
    (runPreflight_safe.weaken ?_) fun _ w₂ _ h₂ => spawnWorker_safe.weaken ?_
  · rintro (e | _) w' - h
    · exact h₁.trans h
    · exact h₁.trans h
  · rintro (e | p) w' - h
    · exact h₂.trans h
    · exact ⟨fun q hq => (h.running q hq).imp_left (h₂.running q), h.told.trans h₂.told,
        fun q hq => h.exited (h₂.exited hq), h₂.length.trans h.fresh.1, h.fresh.2⟩

theorem reap_safe {active workers : List ℕ} :
    (EdgeSupervisor.reap active workers).run.Safe (steadySetting call) .alone
      (fun r w' => Calmer w w' ∧ ∃ active', r = .ok active' ∧ active' ⊆ active ++ workers ∧
        ∀ p ∈ active ++ workers, p ∈ active' ∨ p ∈ w'.exited) w := by
  induction workers generalizing active w with
  | nil =>
    exact .ret_alone fun _ => ⟨Calmer.refl w, active, rfl, by simp,
      fun p hp => .inl (by simpa using hp)⟩
  | cons worker workers ih =>
    refine attempt_op fun c a w₁ hallow hexec => ?_
    obtain ⟨rfl, rfl⟩ := exec_tryWait hallow hexec
    have h₁ := calmer_exit w c.exits
    refine ⟨fun status hstatus => ?_, fun _ he => by cases he⟩
    cases hstatus
    by_cases hexited : worker ∈ (w.exit c.exits).exited
    · rw [if_pos hexited]
      refine ih.weaken ?_
      rintro r w' - ⟨h, active', rfl, hsub, hall⟩
      have hless : active ++ workers ⊆ active ++ worker :: workers :=
        fun p hp => by
          rw [mem_append, mem_cons]
          exact (mem_append.1 hp).imp_right .inr
      refine ⟨h₁.trans h, active', rfl, List.Subset.trans hsub hless, fun p hp => ?_⟩
      rcases mem_append.1 hp with hp | hp
      · exact hall p (mem_append_left _ hp)
      · rcases mem_cons.1 hp with rfl | hp
        · exact .inr (h.exited hexited)
        · exact hall p (mem_append_right _ hp)
    · rw [if_neg hexited]
      refine ih.weaken ?_
      rintro r w' - ⟨h, active', rfl, hsub, hall⟩
      rw [append_assoc] at hsub hall
      exact ⟨h₁.trans h, active', rfl, hsub, hall⟩

end Parts

namespace EdgeSupervisor

variable {supervisor : EdgeSupervisor} {w w' : WorkerProcesses}

/-- The workers that the supervisor has a handle of. -/
def Known (supervisor : EdgeSupervisor) (p : ℕ) : Prop :=
  p = supervisor.current ∨ p ∈ supervisor.draining

/-- The running workers are known, or were told to end before they got ready; and the current
    one was not told to quit. -/
structure Keeps (supervisor : EdgeSupervisor) (w : WorkerProcesses) : Prop where
  known : ∀ p, w.Running p → supervisor.Known p ∨ (p, .int) ∈ w.told
  unquit : (supervisor.current, .quit) ∉ w.told
  current : supervisor.current < w.spawned.length
  draining : ∀ p ∈ supervisor.draining, p < w.spawned.length
  told : ∀ message ∈ w.told, message.1 < w.spawned.length

section Kept

variable (h : supervisor.Keeps w)

include h

theorem Keeps.calmer (hcalmer : Calmer w w') : supervisor.Keeps w' where
  known p hp := hcalmer.told ▸ h.known p (hcalmer.running p hp)
  unquit := hcalmer.told ▸ h.unquit
  current := h.current.trans_le hcalmer.length
  draining p hp := (h.draining p hp).trans_le hcalmer.length
  told message hmessage := (h.told message (hcalmer.told ▸ hmessage)).trans_le hcalmer.length

theorem reapDraining_safe {call : SupervisorCall} :
    supervisor.reapDraining.Safe (steadySetting call) .alone
      (fun r w' => r.2.Keeps w' ∧ r.2.current = supervisor.current) w := by
  refine reap_safe.bind ?_
  rintro _ w' - ⟨hcalmer, active, rfl, hsub, hall⟩
  have hkeeps := h.calmer hcalmer
  refine .ret_alone fun _ => ⟨⟨fun p hp => ?_, hkeeps.unquit, hkeeps.current,
    fun p hp => hkeeps.draining p (hsub hp), hkeeps.told⟩, rfl⟩
  exact (hkeeps.known p hp).imp_left (·.imp_right fun h => (hall p h).resolve_right hp.2)

variable {next : ℕ}

theorem Keeps.handedOver (hempty : supervisor.draining = [])
    (hnext : Started next w w') :
    (⟨next, supervisor.draining ++ [supervisor.current]⟩ : EdgeSupervisor).Keeps
      { w' with told := (supervisor.current, .quit) :: w'.told } where
  known p hp := by
    rcases hnext.running p hp with hold | hnew
    · rcases h.known p hold with hknown | htold
      · have hcurrent := hknown.resolve_right (by simp [hempty])
        exact .inl (.inr (by simp [hcurrent]))
      · exact .inr (mem_cons_of_mem _ (hnext.told ▸ htold))
    · exact .inl (.inl hnew)
  unquit hmem := by
    rcases mem_cons.1 hmem with hsame | hold
    · have hcurrent : next = supervisor.current := congrArg Prod.fst hsame
      have hlt := h.current
      have hge := hnext.fresh.1
      omega
    · have hlt : next < w.spawned.length := h.told _ (hnext.told ▸ hold)
      have hge := hnext.fresh.1
      omega
  current := hnext.fresh.2
  draining p hp := by
    have hcurrent : p = supervisor.current := by simpa [hempty] using hp
    rw [hcurrent]
    exact h.current.trans (hnext.fresh.1.trans_lt hnext.fresh.2)
  told message hmessage := by
    have hgrown := hnext.fresh.1.trans_lt hnext.fresh.2
    rcases mem_cons.1 hmessage with rfl | hold
    · exact h.current.trans hgrown
    · exact (h.told message (hnext.told ▸ hold)).trans hgrown

/-- A worker was told something other than to quit. -/
theorem Keeps.tell {p : ℕ} {signal : WorkerSignal} (hp : p < w.spawned.length)
    (hquit : signal ≠ .quit) : supervisor.Keeps { w with told := (p, signal) :: w.told } where
  known q hq := (h.known q hq).imp_right (mem_cons_of_mem _)
  unquit hmem := by
    rcases mem_cons.1 hmem with hsame | hold
    · exact hquit (congrArg Prod.snd hsame).symm
    · exact h.unquit hold
  current := h.current
  draining := h.draining
  told message hmessage := by
    rcases mem_cons.1 hmessage with rfl | hold
    · exact hp
    · exact h.told message hold

/-- A worker that did not get ready was told to end, or has ended. -/
theorem Keeps.discarded (hnext : Started next w w')
    {told : List (ℕ × WorkerSignal)} (hsub : w'.told ⊆ told)
    (htold : ∀ message ∈ told, message = (next, .int) ∨ message ∈ w'.told)
    (hend : w'.Running next → (next, .int) ∈ told) :
    supervisor.Keeps { w' with told } where
  known p hp := by
    rcases hnext.running p hp with hold | rfl
    · exact (h.known p hold).imp_right fun hint => hsub (hnext.told ▸ hint)
    · exact .inr (hend hp)
  unquit hmem := by
    rcases htold _ hmem with hsame | hold
    · cases hsame
    · exact h.unquit (hnext.told ▸ hold)
  current := h.current.trans (hnext.fresh.1.trans_lt hnext.fresh.2)
  draining p hp := (h.draining p hp).trans (hnext.fresh.1.trans_lt hnext.fresh.2)
  told message hmessage := by
    rcases htold message hmessage with rfl | hold
    · exact hnext.fresh.2
    · exact (h.told message (hnext.told ▸ hold)).trans (hnext.fresh.1.trans_lt hnext.fresh.2)

theorem reload_safe :
    supervisor.reload.Safe (steadySetting .reload) .alone (fun r w' => r.2.Keeps w') w := by
  refine (reapDraining_safe h).bind ?_
  rintro ⟨_ | _, supervisor⟩ w₁ - ⟨h, -⟩
  · exact .ret_alone fun _ => h
  dsimp only
  split
  · exact .ret_alone fun _ => h
  · next hempty =>
    refine startNext_safe.bind ?_
    rintro (e | next) w₂ - hnext
    · exact .ret_alone fun _ => h.calmer hnext
    refine waitForUpgradeSocket_safe.bind ?_
    rintro (e | _) w₃ - hcalmer
    · -- The new worker is not ready, and is told to end.
      have hsignal : (signalChild next .int).run.Safe (steadySetting .reload) .alone
          (fun _ w' => supervisor.Keeps w') w₃ := by
        refine op_safe fun c a w₄ hallow hexec => ?_
        have hexit := hnext.calmer (hcalmer.trans (calmer_exit w₃ c.exits))
        cases hfault : c.fault with
        | none =>
          simp only [supervisorExec, hfault] at hexec
          cases hexec
          exact h.discarded hexit (subset_cons_self _ _) (fun _ => mem_cons.1)
            fun _ => mem_cons_self
        | some fault =>
          simp only [supervisorExec, hfault] at hexec
          cases hexec
          refine h.discarded hexit (List.Subset.refl _) (fun _ => .inr) fun hrunning => ?_
          rw [hallow hrunning] at hfault
          cases hfault
      exact hsignal.bind fun _ w' _ hkeeps => Safe.ret_alone fun _ => hkeeps
    · have hhandOver : (handOver supervisor.current next).run.Safe (steadySetting .reload) .alone
          (fun r w' => r = .ok () ∧
            (⟨next, supervisor.draining ++ [supervisor.current]⟩ : EdgeSupervisor).Keeps w') w₃ := by
        refine attempt_op fun c a w₄ hallow hexec => ?_
        have hfault : c.fault = none := hallow
        simp only [supervisorExec, hfault] at hexec
        cases hexec
        refine ⟨fun _ _ => ?_, fun _ he => by cases he⟩
        have hkeeps := h.handedOver (not_not.1 hempty)
          (hnext.calmer (hcalmer.trans (calmer_exit w₃ c.exits)))
        exact waitForFdTransfer_safe.weaken fun r w' _ hr => ⟨hr.2, hkeeps.calmer hr.1⟩
      refine hhandOver.bind ?_
      rintro _ w' - ⟨rfl, hkeeps⟩
      exact .ret_alone fun _ => hkeeps

theorem childEvent_safe :
    supervisor.childEvent.Safe (steadySetting .childEvent) .alone (fun r w' => r.2.Keeps w') w := by
  refine stillRunning_safe.bind ?_
  rintro (e | _) w₁ - ⟨hcalmer, -⟩
  · exact .ret_alone fun _ => h.calmer hcalmer
  · exact (reapDraining_safe (h.calmer hcalmer)).weaken fun _ _ _ hr => hr.1

variable {signal : WorkerSignal} (hquit : signal ≠ .quit)

include hquit

theorem signalChild_safe {worker : ℕ} (hworker : worker < w.spawned.length) :
    (signalChild worker signal).run.Safe (steadySetting .shutdown) .alone
      (fun _ w' => supervisor.Keeps w' ∧ w.told ⊆ w'.told ∧ w'.spawned = w.spawned ∧
        (∀ p, w'.Running p → w.Running p) ∧
        (w'.Running worker → (worker, signal) ∈ w'.told)) w := by
  refine op_safe fun c a w' hallow hexec => ?_
  have hexit := calmer_exit w c.exits
  have hkeeps := h.calmer hexit
  cases hfault : c.fault with
  | some fault =>
    simp only [supervisorExec, hfault] at hexec
    cases hexec
    refine ⟨hkeeps, List.Subset.refl _, rfl, hexit.running, fun hrunning => ?_⟩
    have hnone : c.fault = none := by
      cases signal with
      | int => exact hallow hrunning
      | term => exact hallow hrunning
      | quit => exact absurd rfl hquit
    rw [hnone] at hfault
    cases hfault
  | none =>
    simp only [supervisorExec, hfault] at hexec
    cases hexec
    exact ⟨hkeeps.tell hworker hquit, subset_cons_self _ _, rfl, hexit.running,
      fun _ => mem_cons_self⟩

theorem signalAll_safe {workers : List ℕ} (hworkers : ∀ p ∈ workers, p < w.spawned.length) :
    (signalAll signal workers).Safe (steadySetting .shutdown) .alone
      (fun _ w' => supervisor.Keeps w' ∧ w.told ⊆ w'.told ∧ (∀ p, w'.Running p → w.Running p) ∧
        ∀ p ∈ workers, w'.Running p → (p, signal) ∈ w'.told) w := by
  induction workers generalizing w with
  | nil =>
    exact .ret_alone fun _ => ⟨h, List.Subset.refl _, fun _ hp => hp, fun p hp => by cases hp⟩
  | cons worker workers ih =>
    rw [forall_mem_cons] at hworkers
    refine (signalChild_safe h hquit hworkers.1).bind ?_
    rintro _ w₁ - ⟨h₁, htold₁, hspawned, hrunning₁, hworker⟩
    refine (ih h₁ (hspawned ▸ hworkers.2)).weaken ?_
    rintro _ w₂ - ⟨h₂, htold₂, hrunning₂, hall⟩
    refine ⟨h₂, List.Subset.trans htold₁ htold₂, fun p hp => hrunning₁ p (hrunning₂ p hp), ?_⟩
    rw [forall_mem_cons]
    exact ⟨fun hp => htold₂ (hworker (hrunning₂ worker hp)), hall⟩

theorem shutdown_safe : (supervisor.shutdown signal).Safe (steadySetting .shutdown) .alone
      (fun _ w' => supervisor.Keeps w' ∧ (∀ p, w'.Running p → w.Running p) ∧
        ∀ p, supervisor.Known p → w'.Running p → (p, signal) ∈ w'.told) w := by
  have hworkers : ∀ p, p ∈ supervisor.draining ++ [supervisor.current] ↔ supervisor.Known p :=
    fun p => by rw [mem_append, mem_singleton, or_comm, Known]
  refine (signalAll_safe h hquit fun p hp => ?_).weaken ?_
  · rcases (hworkers p).1 hp with rfl | hp
    · exact h.current
    · exact h.draining p hp
  · rintro _ w' - ⟨hkeeps, -, hrunning, hall⟩
    exact ⟨hkeeps, hrunning, fun p hp => hall p ((hworkers p).2 hp)⟩

end Kept

theorem start_safe : start.run.Safe (steadySetting .start) .alone
      (Outcome (fun supervisor w' => supervisor.Keeps w') fun _ _ => True) ⟨[], [], []⟩ := by
  refine .attempt_alone (R := fun _ w' => Calmer ⟨[], [], []⟩ w') (runPreflight_safe.weaken ?_)
    fun _ w₁ _ h₁ => ?_
  · rintro (e | _) w' - h
    · trivial
    · exact h
  · refine .attempt_alone (R := fun p w' => Started p w₁ w') (spawnWorker_safe.weaken ?_)
      fun p w₂ _ h₂ => Safe.ret_alone fun _ => ?_
    · rintro (e | p) w' - h
      · trivial
      · exact h
    have hnobody : ∀ q, ¬ w₁.Running q := fun q hq => by cases (h₁.running q hq).1
    have htold : w₂.told = [] := h₂.told.trans h₁.told
    exact ⟨fun q hq => .inl (.inl ((h₂.running q hq).resolve_left (hnobody q))), by simp [htold],
      h₂.fresh.2,
      fun _ hq => absurd hq not_mem_nil, by simp [htold]⟩

end EdgeSupervisor

theorem Supervised.keeps_all {supervisor : EdgeSupervisor} {w : WorkerProcesses}
    (h : Supervised steady supervisor w) : supervisor.Keeps w := by
  induction h with
  | start hruns =>
    exact (Runs.safe (E := steadySetting .start) hruns EdgeSupervisor.start_safe trivial).1
  | exits exits _ ih => exact ih.calmer (calmer_exit _ exits)
  | reload _ hruns ih =>
    exact (Runs.safe (E := steadySetting .reload) hruns (EdgeSupervisor.reload_safe ih) trivial).1
  | childEvent _ hruns ih =>
    exact (Runs.safe (E := steadySetting .childEvent) hruns (EdgeSupervisor.childEvent_safe ih)
      trivial).1
  | shutdown hquit _ hruns ih =>
    exact (Runs.safe (E := steadySetting .shutdown) hruns (EdgeSupervisor.shutdown_safe ih hquit)
      trivial).1.1

/-- A worker that was started to serve and has been told nothing is known; a reload
    that fails leaves a current worker that was not told to quit; and a shutdown
    reaches every worker that is running, if the system is steady and no worker that a
    reload told to end is running any more. -/
theorem Supervised.keeps (supervisor : EdgeSupervisor) (w : WorkerProcesses)
    (h : Supervised steady supervisor w) :
    (∀ p, w.spawned[p]? = some .initial ∨ w.spawned[p]? = some .upgrade → p ∉ w.exited →
      (∀ signal, (p, signal) ∉ w.told) → p = supervisor.current ∨ p ∈ supervisor.draining) ∧
    (∀ e supervisor' w', Runs supervisorMachine (steady .reload) supervisor.reload w
        (.error e, supervisor') w' →
      supervisor'.current < w'.spawned.length ∧ (supervisor'.current, .quit) ∉ w'.told) ∧
    ((∀ p, w.Running p → (p, .int) ∈ w.told → p = supervisor.current ∨ p ∈ supervisor.draining) →
      ∀ signal w', signal ≠ .quit → Runs supervisorMachine (steady .shutdown)
        (supervisor.shutdown signal) w ⟨⟩ w' →
      ∀ p, w'.Running p → (p, signal) ∈ w'.told) := by
  have hkeeps := h.keeps_all
  refine ⟨fun p hspawned hexited huntold => ?_, fun e supervisor' w' hruns => ?_,
    fun hended signal w' hquit hruns p hp => ?_⟩
  · have hrunning : w.Running p := by
      refine ⟨?_, hexited⟩
      rcases hspawned with hspawned | hspawned
      · exact (List.getElem?_eq_some_iff.1 hspawned).1
      · exact (List.getElem?_eq_some_iff.1 hspawned).1
    exact (hkeeps.known p hrunning).resolve_right (huntold _)
  · have hafter := (Runs.safe (E := steadySetting .reload) hruns
      (EdgeSupervisor.reload_safe hkeeps) trivial).1
    exact ⟨hafter.current, hafter.unquit⟩
  · obtain ⟨-, hrunning, hall⟩ := (Runs.safe (E := steadySetting .shutdown) hruns
      (EdgeSupervisor.shutdown_safe hkeeps hquit) trivial).1
    exact hall p ((hkeeps.known p (hrunning p hp)).elim id (hended p (hrunning p hp))) hp

/-- Nothing fails, and everything is answered with yes. -/
def SupervisorChoice.fine : SupervisorChoice := ⟨[], none, 0, true⟩

def SupervisorChoice.failing : SupervisorChoice := ⟨[], some .errno, 0, false⟩

/-- The same, but the answer is no. -/
def SupervisorChoice.no : SupervisorChoice := ⟨[], none, 0, false⟩

/-- The processes after a reload, and after another one whose worker was not ready in time: the
    worker `1` was told to quit, and `5` to end, which is still running. -/
def reloadedTwice : WorkerProcesses :=
  ⟨[.preflight false, .initial, .preflight true, .upgrade, .preflight true, .upgrade], [4, 1, 2, 0],
    [(5, .int), (1, .quit)]⟩

/-- The supervisor keeps the worker of the first reload, and reaches it by a shutdown, when the
    worker of the second one has ended. -/
theorem Supervised.keeps_reloads : ∃ w, Supervised steady ⟨3, []⟩ reloadedTwice ∧
    reloadedTwice.Running 5 ∧ (3, .quit) ∉ reloadedTwice.told ∧
    Runs supervisorMachine (steady .shutdown) ((⟨3, []⟩ : EdgeSupervisor).shutdown .term)
      (reloadedTwice.exit [5]) ⟨⟩ w ∧ (3, .term) ∈ w.told := by
  have hstart : Supervised steady ⟨1, []⟩ ⟨[.preflight false, .initial], [0], []⟩ :=
    .start (runs_of_run (r := (_, _)) (l := List.replicate 3 .fine) rfl)
  have hfirst : Supervised steady ⟨3, [1]⟩
      ⟨[.preflight false, .initial, .preflight true, .upgrade], [2, 0], [(1, .quit)]⟩ :=
    hstart.reload (r := .ok ()) (runs_of_run (r := ((_, _), _))
      (l := List.replicate 10 .fine ++ [.no, .fine]) rfl)
  have hreload : Runs supervisorMachine (steady .reload) (⟨3, [1]⟩ : EdgeSupervisor).reload
      ⟨[.preflight false, .initial, .preflight true, .upgrade], [1, 2, 0], [(1, .quit)]⟩
      (.error .upgradeSocketTimeout, ⟨3, []⟩) reloadedTwice :=
    runs_of_run (r := ((_, _), _)) (l := List.replicate 5 .fine ++ [.no, .fine]) rfl
  have hsecond := (hfirst.exits [1]).reload hreload
  have hshutdown : Runs supervisorMachine (steady .shutdown)
      ((⟨3, []⟩ : EdgeSupervisor).shutdown .term) (reloadedTwice.exit [5]) ⟨⟩
      { reloadedTwice.exit [5] with told := [(3, .term), (5, .int), (1, .quit)] } :=
    runs_of_run (r := (_, _)) (l := [SupervisorChoice.fine]) rfl
  refine ⟨_, hsecond, by decide, ((keeps _ _ (hfirst.exits [1])).2.1 _ _ _ hreload).2, hshutdown,
    (keeps _ _ (hsecond.exits [5])).2.2 ?_ .term _ nofun hshutdown 3 (by decide)⟩
  intro p hrunning hint
  obtain rfl : p = 5 := by simpa [reloadedTwice, WorkerProcesses.exit] using hint
  exact absurd hrunning (by decide)

/-- The new worker cannot be looked at while the listeners are handed over. The reload
    fails; the current worker was told to quit, and the new one is not known, nor
    reached by a shutdown. -/
theorem EdgeSupervisor.loses_worker :
    ∃ supervisor w e supervisor' w' w'', Supervised (fun _ _ _ _ => True) supervisor w ∧
      Runs supervisorMachine (fun _ _ _ => True) supervisor.reload w (.error e, supervisor') w' ∧
      (supervisor'.current, .quit) ∈ w'.told ∧
      (w'.spawned[3]? = some .upgrade ∧ 3 ∉ w'.exited ∧ (∀ signal, (3, signal) ∉ w'.told) ∧
        3 ≠ supervisor'.current ∧ 3 ∉ supervisor'.draining) ∧
      Runs supervisorMachine (fun _ _ _ => True) (supervisor'.shutdown .term) w' ⟨⟩ w'' ∧
      w''.Running 3 ∧ (3, .term) ∉ w''.told := by
  have hstart : Supervised (fun _ _ _ _ => True) ⟨1, []⟩
      ⟨[.preflight false, .initial], [0], []⟩ := by
    refine .start (.call (x := .fine) trivial rfl (.call (x := .fine) trivial rfl ?_))
    exact .call (x := .fine) trivial rfl (.ret _ _)
  have hreload : Runs supervisorMachine (fun _ _ _ => True) (⟨1, []⟩ : EdgeSupervisor).reload
      ⟨[.preflight false, .initial], [0], []⟩ (.error .wait, ⟨1, []⟩)
      ⟨[.preflight false, .initial, .preflight true, .upgrade], [2, 0], [(1, .quit)]⟩ :=
    runs_of_run (r := ((_, _), _)) (l := List.replicate 9 .fine ++ [SupervisorChoice.failing]) rfl
  have hshutdown : Runs supervisorMachine (fun _ _ _ => True)
      ((⟨1, []⟩ : EdgeSupervisor).shutdown .term)
      ⟨[.preflight false, .initial, .preflight true, .upgrade], [2, 0], [(1, .quit)]⟩ ⟨⟩
      ⟨[.preflight false, .initial, .preflight true, .upgrade], [2, 0], [(1, .term), (1, .quit)]⟩ :=
    runs_of_run (r := (_, _)) (l := [SupervisorChoice.fine]) rfl
  refine ⟨_, _, _, _, _, _, hstart, hreload, by decide, ⟨rfl, by decide, ?_, by decide, by decide⟩,
    hshutdown, by decide, by decide⟩
  intro signal
  simp

end VpsGuard
