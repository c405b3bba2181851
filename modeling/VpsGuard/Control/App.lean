import VpsGuard.Control.Update
import VpsGuard.Provider.World
import VpsGuard.Protection.Publication
import VpsGuard.Effect.Pool

/-!
# The shared state of the control process

The control process runs a detection loop and serves requests, side by side.
They share the guard state, in memory and in its store, the provider
controller and the protection manager. Some of what they do is under a lock:

* the lock `policyOperation`, for the operations that write a policy;
* the lease `providerActionActive`, for the commands to the provider; whoever
  does not get it is refused;
* the lock of the provider controller, for the time of a command.

Reading the guard state and writing it are two steps. Everything that an
administrator or the loop asks for is an operation here (`ControlOp`), together
with the label that says who asks for what; the answers are those of the shared
state (`App.exec`). The state also keeps a log of what happened (`ControlEvent`),
which nothing depends on but the statements about it.
-/

namespace VpsGuard

open Effect

/-! ## Events -/

/-- Who writes the guard state. -/
inductive StateWriter
  | hold
  /-- A release, with the number of holds written before it started. -/
  | resume (holds : ℕ)
  | provider
  /-- An operation of the protection manager. -/
  | protection
  /-- The detection loop, with the state that it goes on from. -/
  | loop (read : GuardState)
  deriving DecidableEq

/-- What is on record of a run. -/
inductive ControlEvent
  | tickStarted
  | tickDone
  /-- The detection loop read the guard state, held or not. -/
  | loopRead (held : Bool)
  /-- A guard state was handed to the store. -/
  | stored (writer : StateWriter) (state : GuardState)
  /-- The guard state was replaced. -/
  | committed (writer : StateWriter) (state : GuardState)
  /-- The detection loop asked to enable the external protection. -/
  | automaticEnable
  /-- That succeeded, in a window that led to the emergency. -/
  | emergencyActivated
  | resumeStarted

/-- A log, the latest event first. -/
abbrev ControlLog := List ControlEvent

namespace ControlLog

/-- How many holds were written. -/
def holds (log : ControlLog) : ℕ :=
  log.countP fun
    | .committed .hold _ => true
    | _ => false

/-- A tick of the detection loop is under way. -/
def inTick : ControlLog → Bool
  | [] => false
  | .tickStarted :: _ => true
  | .tickDone :: _ => false
  | _ :: log => inTick log

end ControlLog

/-! ## The shared state -/

/-- An operation that was completed: its identifier, the action, and the mode after it. -/
structure CompletedAction where
  operationId : String
  action : String
  mode : GuardMode

/-- What the tasks of the process share. -/
structure App where
  state : GuardState
  stateStore : Option GuardState
  /-- The task that has the lock of the policy operations. -/
  policyOperation : Option ℕ
  /-- The task that has the lease of the provider. -/
  providerActionActive : Option ℕ
  provider : ProviderWorld
  protection : ProtectionWorld
  /-- The oldest first. -/
  completedActions : List CompletedAction
  log : ControlLog

/-- Who reads the guard state, and what for. -/
inductive StateReader
  | loop
  /-- To hold or to release it. -/
  | action
  /-- To see whether it is held, before a command to the provider. -/
  | holdCheck
  /-- To update it, after a command to the provider. -/
  | providerCommit
  /-- For an operation of the protection manager. -/
  | protection

/-- Who asks for the lease on the provider actions. -/
inductive LeaseCaller
  | request
  /-- The detection loop, for an activation that is pending. -/
  | pending
  /-- The detection loop, for a window that leads to the emergency from a mode. -/
  | emergency (current : GuardMode)
  deriving DecidableEq

/-- What the monotonic clock is asked for. -/
inductive InstantUse
  /-- Whether the policy, written last at some time, is to be written again. -/
  | renewal (last : Option ℕ)
  /-- When the policy was written. -/
  | refreshed

/-- What the handlers and the detection loop ask of their surroundings. -/
inductive ControlOp
  | provider (o : HostOp)
  | protection (o : ProtectionOp)
  | readState (reader : StateReader)
  | writeStore (writer : StateWriter) (state : GuardState)
  | writeState (writer : StateWriter) (state : GuardState)
  | lockPolicyOperation (task : ℕ)
  | unlockPolicyOperation (task : ℕ)
  | acquireLease (task : ℕ) (caller : LeaseCaller)
  /-- The lease is given back; by the detection loop also whether an emergency was activated. -/
  | releaseLease (task : ℕ) (activated : Bool)
  /-- The provider controller, unless it is locked. -/
  | tryProvider
  | currentTimestamp
  | instantNow (use : InstantUse)
  | newUuid
  | takeDetectionInput
  /-- Whether a request is refused, with the code of the error. -/
  | authorize
  | completedAction (operationId : String)
  | rememberAction (action : CompletedAction)
  /-- The version in the memory of the protection manager. -/
  | protectionVersion
  | startResume
  | intervalTick
  | tickDone

/-- The answers to the tasks. -/
abbrev ControlOp.Ans : ControlOp → Type
  | provider o => o.Ans
  | protection o => o.Ans
  | readState _ => GuardState
  | writeStore _ _ => Except StoreError Unit
  | acquireLease _ _ => Bool
  | tryProvider => Option ProviderController
  | currentTimestamp | newUuid => String
  | instantNow _ | protectionVersion => ℕ
  | takeDetectionInput => Option DetectionInput
  | authorize => Option String
  | completedAction _ => Option CompletedAction
  | startResume => ℕ
  | writeState _ _ | lockPolicyOperation _ | unlockPolicyOperation _ | releaseLease _ _
  | rememberAction _ | intervalTick | tickDone => Unit

/-- The surroundings of the tasks. -/
abbrev Control : Sig := ⟨ControlOp, ControlOp.Ans⟩

/-- The surroundings of the provider controller among those of the tasks. -/
def Control.ofProvider : Sig.Hom Provider Control where
  op o := .provider (.provider o)
  ans _ a := a

/-- The surroundings of the protection manager among those of the tasks. -/
def Control.ofProtection : Sig.Hom Protection Control where
  op := .protection
  ans _ a := a

/-- The program, run while it has the lock on policy operations. -/
def withPolicyOperation {α : Type} (task : ℕ) (p : Prog Control α) : Prog Control α :=
  .call (.lockPolicyOperation task) fun _ => do
    let result ← p
    .call (.unlockPolicyOperation task) fun _ => return result

/-- What the surroundings choose when a task asks. -/
inductive ControlChoice
  | proceed
  | provider (x : Option ProviderChoice)
  | protection (x : ProtectionChoice)
  | write (fault : Option WriteFault)
  | text (text : String)
  | instant (now : ℕ)
  | input (input : Option DetectionInput)
  | refusal (code : Option String)
  /-- What the audit storage knows of an operation. -/
  | completed (action : Option CompletedAction)

namespace App

/-- How many completed actions are remembered. -/
def maxCompletedActions : ℕ := 1024

/-- Put an event on record. -/
def note (s : App) (event : ControlEvent) : App := { s with log := event :: s.log }

/-- A completed operation is remembered, in the place of the oldest one if need be. -/
def remember (s : App) (action : CompletedAction) : App :=
  let actions :=
    if s.completedActions.length = maxCompletedActions then s.completedActions.drop 1
    else s.completedActions
  { s with completedActions := actions ++ [action] }

/-- A read of the guard state. Only that of the detection loop is on record. -/
def read (s : App) : StateReader → App
  | .loop => s.note (.loopRead s.state.manualHold)
  | _ => s

/-- The lease is asked for. That the detection loop does so is on record. -/
def askLease (s : App) : LeaseCaller → App
  | .request => s
  | .pending | .emergency _ => s.note .automaticEnable

/-- The shared state answers the tasks. -/
def exec : (o : ControlOp) → ControlChoice → App → Option (o.Ans × App)
  | .provider o, .provider x, s =>
    (ProviderWorld.hostExec o x s.provider).map fun r => (r.1, { s with provider := r.2 })
  | .protection o, .protection x, s =>
    (ProtectionWorld.exec o x s.protection).map fun r => (r.1, { s with protection := r.2 })
  | .readState reader, .proceed, s => some (s.state, s.read reader)
  | .writeStore writer state, .write fault, s =>
    some (AtomicStore.writeResult fault,
      { s with stateStore := AtomicStore.written state s.stateStore fault }.note
        (.stored writer state))
  | .writeState writer state, .proceed, s =>
    some ((), { s with state }.note (.committed writer state))
  | .lockPolicyOperation task, .proceed, s =>
    -- Otherwise the task waits: there is no such step.
    if s.policyOperation = none then some ((), { s with policyOperation := some task }) else none
  | .unlockPolicyOperation _, .proceed, s => some ((), { s with policyOperation := none })
  | .acquireLease task caller, .proceed, s =>
    if s.providerActionActive = none then
      some (true, { s.askLease caller with providerActionActive := some task })
    else some (false, s.askLease caller)
  | .releaseLease _ activated, .proceed, s =>
    let s := { s with providerActionActive := none }
    some ((), if activated then s.note .emergencyActivated else s)
  | .tryProvider, .proceed, s =>
    some (if s.provider.locked then none else s.provider.controller, s)
  | .currentTimestamp, .text text, s => some (text, s)
  | .newUuid, .text text, s => some (text, s)
  | .instantNow _, .instant now, s => some (now, s)
  | .takeDetectionInput, .input input, s => some (input, s)
  | .authorize, .refusal code, s => some (code, s)
  | .completedAction operationId, .completed action, s =>
    -- What is not remembered is looked up in the audit storage.
    some ((s.completedActions.find? (·.operationId = operationId)).or action, s)
  | .rememberAction action, .proceed, s => some ((), s.remember action)
  | .protectionVersion, .proceed, s =>
    some (s.protection.memory.elim 0 (·.current.policyVersion), s)
  | .startResume, .proceed, s => some (s.log.holds, s.note .resumeStarted)
  | .intervalTick, .proceed, s => some ((), s.note .tickStarted)
  | .tickDone, .proceed, s => some ((), s.note .tickDone)
  | _, _, _ => none

/-- The application, as a machine. -/
def machine : Machine Control App ControlChoice where
  exec := exec

/-- The tasks, by the steps considered, with an invariant. -/
def setting (allow : ControlOp → ControlChoice → App → Prop) (inv : App → Prop) :
    Setting Control App ControlChoice where
  exec := exec
  allow := allow
  inv := inv

/-- No store fails, the policies can be generated and are read back. -/
def smooth (C : ProtectionCodec) : ControlOp → ControlChoice → App → Prop
  | .protection o, .protection x, s => ProtectionWorld.Flowing C o x s.protection
  | .provider (.provider (.writeStore _)), .provider (some (.write fault)), _ => fault = none
  | .writeStore _ _, .write fault, _ => fault = none
  | _, _, _ => True

instance (C : ProtectionCodec) (o : ControlOp) (x : ControlChoice) (s : App) :
    Decidable (smooth C o x s) := by
  unfold smooth
  split <;> infer_instance

/-! ## What the operations do, one by one -/

variable {s t : App} {x : ControlChoice}

/-- An operation of the provider changes nothing but the provider. -/
theorem of_exec_provider {o : HostOp} {a : o.Ans} (h : exec (.provider o) x s = some (a, t)) :
    ∃ y u, x = .provider y ∧ ProviderWorld.hostExec o y s.provider = some (a, u) ∧
      t = { s with provider := u } := by
  cases x with
  | provider y =>
    obtain ⟨⟨b, u⟩, hu, h⟩ := Option.map_eq_some_iff.1 h
    cases h
    exact ⟨y, u, rfl, hu, rfl⟩
  | _ => cases h

/-- An operation of the protection manager changes nothing but the protection. -/
theorem of_exec_protection {o : ProtectionOp} {a : o.Ans}
    (h : exec (.protection o) x s = some (a, t)) :
    ∃ y u, x = .protection y ∧ ProtectionWorld.exec o y s.protection = some (a, u) ∧
      t = { s with protection := u } := by
  cases x with
  | protection y =>
    obtain ⟨⟨b, u⟩, hu, h⟩ := Option.map_eq_some_iff.1 h
    cases h
    exact ⟨y, u, rfl, hu, rfl⟩
  | _ => cases h

variable {reader : StateReader}

theorem of_exec_readState {a : GuardState} (h : exec (.readState reader) x s = some (a, t)) :
    a = s.state ∧ t = s.read reader := by
  cases x with
  | proceed => cases h; exact ⟨rfl, rfl⟩
  | _ => cases h

variable {writer : StateWriter} {state : GuardState}

/-- What is handed to the store is on record, whether or not it is stored. -/
theorem of_exec_writeStore {a : Except StoreError Unit}
    (h : exec (.writeStore writer state) x s = some (a, t)) :
    ∃ fault, x = .write fault ∧ a = AtomicStore.writeResult fault ∧ t =
      { s with stateStore := AtomicStore.written state s.stateStore fault }.note
      (.stored writer state) := by
  cases x with
  | write fault => cases h; exact ⟨fault, rfl, rfl, rfl⟩
  | _ => cases h

variable {a : Unit} {task : ℕ} {o : ControlOp}

/-- A write replaces the state in memory, and not the one in the store. -/
theorem of_exec_writeState (h : exec (.writeState writer state) x s = some (a, t)) :
    t = { s with state }.note (.committed writer state) := by
  cases x with
  | proceed => cases h; rfl
  | _ => cases h

/-- The lock on policy operations is got only while nobody has it. -/
theorem of_exec_lockPolicyOperation (h : exec (.lockPolicyOperation task) x s = some (a, t)) :
    s.policyOperation = none ∧ t = { s with policyOperation := some task } := by
  cases x with
  | proceed =>
    by_cases hfree : s.policyOperation = none
    · simp only [exec, hfree, if_true] at h
      cases h
      exact ⟨hfree, rfl⟩
    · simp only [exec, hfree, if_false] at h
      cases h
  | _ => cases h

theorem of_exec_unlockPolicyOperation (h : exec (.unlockPolicyOperation task) x s = some (a, t)) :
    t = { s with policyOperation := none } := by
  cases x with
  | proceed => cases h; rfl
  | _ => cases h

/-- The lease is given to one task at a time. Who asks for it while another one has it, is
    refused. -/
theorem of_exec_acquireLease {caller : LeaseCaller} {a : Bool}
    (h : exec (.acquireLease task caller) x s = some (a, t)) :
    (a = true ∧ s.providerActionActive = none ∧
      t = { s.askLease caller with providerActionActive := some task }) ∨
    (a = false ∧ s.providerActionActive ≠ none ∧ t = s.askLease caller) := by
  cases x with
  | proceed =>
    by_cases hfree : s.providerActionActive = none
    · simp only [exec, hfree, if_true] at h
      cases h
      exact .inl ⟨rfl, hfree, rfl⟩
    · simp only [exec, hfree, if_false] at h
      cases h
      exact .inr ⟨rfl, hfree, rfl⟩
  | _ => cases h

theorem of_exec_releaseLease {activated : Bool}
    (h : exec (.releaseLease task activated) x s = some (a, t)) :
    t = if activated then { s with providerActionActive := none }.note .emergencyActivated
      else { s with providerActionActive := none } := by
  cases x with
  | proceed => cases h; rfl
  | _ => cases h

/-- The controller is seen only while no command runs on it. -/
theorem of_exec_tryProvider {a : Option ProviderController}
    (h : exec .tryProvider x s = some (a, t)) :
    t = s ∧ a = if s.provider.locked then none else s.provider.controller := by
  cases x with
  | proceed => cases h; exact ⟨rfl, rfl⟩
  | _ => cases h

/-- A release starts with the number of the holds before it. -/
theorem of_exec_startResume {a : ℕ} (h : exec .startResume x s = some (a, t)) :
    a = s.log.holds ∧ t = s.note .resumeStarted := by
  cases x with
  | proceed => cases h; exact ⟨rfl, rfl⟩
  | _ => cases h

theorem of_exec_intervalTick (h : exec .intervalTick x s = some (a, t)) :
    t = s.note .tickStarted := by
  cases x with
  | proceed => cases h; rfl
  | _ => cases h

theorem of_exec_tickDone (h : exec .tickDone x s = some (a, t)) : t = s.note .tickDone := by
  cases x with
  | proceed => cases h; rfl
  | _ => cases h

/-- The operations that only ask: the clocks, the identifiers, the requests and
    the traffic, what was completed, and the version of the manager. -/
def Asking : ControlOp → Prop
  | .currentTimestamp | .instantNow _ | .newUuid | .takeDetectionInput | .authorize
  | .completedAction _ | .protectionVersion => True
  | _ => False

/-- What only asks leaves the application as it is. -/
theorem of_exec_asking {a : o.Ans} (h : exec o x s = some (a, t)) (ho : Asking o) : t = s := by
  cases o with
  | completedAction operationId => cases x <;> cases h; rfl
  | protectionVersion => cases x <;> cases h; rfl
  | currentTimestamp | newUuid => cases x <;> cases h; rfl
  | instantNow use => cases x <;> cases h; rfl
  | takeDetectionInput => cases x <;> cases h; rfl
  | authorize => cases x <;> cases h; rfl
  | _ => exact ho.elim

variable {allow : ControlOp → ControlChoice → App → Prop} {inv : App → Prop} {w : Sharing App}

/-- To ask something is safe if the rest is, whatever the answer. -/
theorem safe_asking {α : Type} {Q : α → App → Prop} {k : o.Ans → Prog Control α} (ho : Asking o)
    (hguar : ∀ s, w.guar s s)
    (hk : ∀ a t, w.rely s t → inv t → (k a).Safe (setting allow inv) w Q t) :
    (Prog.call o k).Safe (setting allow inv) w Q s := by
  refine .call fun t hst ht x a u _ hx => ?_
  rw [of_exec_asking hx ho]
  exact ⟨hguar t, ht, hk a t hst ht⟩

/-- To read the state is safe if the rest is, for the state as it is then. -/
theorem safe_readState {α : Type} {Q : α → App → Prop} {k : GuardState → Prog Control α}
    (hreader : reader ≠ .loop) (hguar : ∀ s, w.guar s s)
    (hk : ∀ t, w.rely s t → inv t → (k t.state).Safe (setting allow inv) w Q t) :
    (Prog.call (ControlOp.readState reader) k : Prog Control α).Safe (setting allow inv) w Q s := by
  refine .call fun t hst ht x a u _ hx => ?_
  obtain ⟨ha, hu⟩ := of_exec_readState hx
  obtain rfl : u = t := by
    cases reader with
    | loop => exact absurd rfl hreader
    | _ => exact hu
  exact ⟨hguar u, ht, ha ▸ hk u hst ht⟩

/-- What an operation leaves alone: the parts of the state that are not its own. -/
structure Framed (o : ControlOp) (s t : App) : Prop where
  provider : (∀ o', o ≠ .provider o') → t.provider = s.provider
  protection : (∀ o', o ≠ .protection o') → t.protection = s.protection
  policyOperation : (∀ i, o ≠ .lockPolicyOperation i) → (∀ i, o ≠ .unlockPolicyOperation i) →
    t.policyOperation = s.policyOperation
  providerActionActive : (∀ i caller, o ≠ .acquireLease i caller) →
    (∀ i activated, o ≠ .releaseLease i activated) →
    t.providerActionActive = s.providerActionActive

/-- What an operation puts on record. -/
def eventOf (held : Bool) : ControlOp → Option ControlEvent
  | .readState .loop => some (.loopRead held)
  | .writeStore writer state => some (.stored writer state)
  | .writeState writer state => some (.committed writer state)
  | .acquireLease _ .pending | .acquireLease _ (.emergency _) => some .automaticEnable
  | .releaseLease _ true => some .emergencyActivated
  | .startResume => some .resumeStarted
  | .intervalTick => some .tickStarted
  | .tickDone => some .tickDone
  | _ => none

/-- What an operation does beside: it replaces the guard state, and leaves an event. -/
structure Traced (o : ControlOp) (s t : App) : Prop extends Framed o s t where
  state : t.state = s.state ∨ ∃ writer, o = .writeState writer t.state
  log : t.log = (eventOf s.state.manualHold o).toList ++ s.log

/-- No operation puts anything else on record than `eventOf` says. -/
theorem of_exec_traced {a : o.Ans} (h : exec o x s = some (a, t)) : Traced o s t := by
  cases o with
  | provider =>
    obtain ⟨_, _, -, -, rfl⟩ := of_exec_provider h
    refine ⟨⟨?_, ?_, ?_, ?_⟩, ?_, ?_⟩ <;> simp [eventOf]
  | protection =>
    obtain ⟨_, _, -, -, rfl⟩ := of_exec_protection h
    refine ⟨⟨?_, ?_, ?_, ?_⟩, ?_, ?_⟩ <;> simp [eventOf]
  | readState reader =>
    obtain ⟨-, rfl⟩ := of_exec_readState h
    cases reader <;> refine ⟨⟨?_, ?_, ?_, ?_⟩, ?_, ?_⟩ <;> simp [eventOf, read, note]
  | lockPolicyOperation =>
    obtain ⟨-, rfl⟩ := of_exec_lockPolicyOperation h
    refine ⟨⟨?_, ?_, ?_, ?_⟩, ?_, ?_⟩ <;> simp [eventOf]
  | acquireLease task caller =>
    rcases of_exec_acquireLease h with ⟨-, -, rfl⟩ | ⟨-, -, rfl⟩ <;> cases caller <;>
      refine ⟨⟨?_, ?_, ?_, ?_⟩, ?_, ?_⟩ <;> simp [eventOf, askLease, note]
  | releaseLease task activated =>
    rw [of_exec_releaseLease h]
    cases activated <;> refine ⟨⟨?_, ?_, ?_, ?_⟩, ?_, ?_⟩ <;> simp [eventOf, note]
  | _ =>
    cases x <;> cases h
    refine ⟨⟨?_, ?_, ?_, ?_⟩, ?_, ?_⟩ <;> simp [eventOf, note, remember]

/-- The operations that leave the guard state and the log alone. -/
def Silent : ControlOp → Prop
  | .provider _ | .protection _ | .lockPolicyOperation _ | .unlockPolicyOperation _
  | .acquireLease _ .request | .releaseLease _ false | .rememberAction _ | .tryProvider
  | .currentTimestamp | .instantNow _ | .newUuid | .takeDetectionInput | .authorize
  | .completedAction _ | .protectionVersion => True
  | .readState reader => reader ≠ .loop
  | .writeStore _ _ | .writeState _ _ | .acquireLease _ .pending | .acquireLease _ (.emergency _)
  | .releaseLease _ true | .startResume | .intervalTick | .tickDone => False

theorem of_exec_silent {a : o.Ans} (h : exec o x s = some (a, t)) (ho : Silent o) :
    t.state = s.state ∧ t.log = s.log := by
  obtain ⟨-, hstate, hlog⟩ := of_exec_traced h
  have hnone : eventOf s.state.manualHold o = none := by
    unfold eventOf
    split <;> first | rfl | exact (ho rfl).elim | exact ho.elim
  rw [hnone] at hlog
  refine ⟨hstate.resolve_right ?_, hlog⟩
  rintro ⟨writer, rfl⟩
  exact ho

end App

end VpsGuard
