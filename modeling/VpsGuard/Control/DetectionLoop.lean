import VpsGuard.Control.Actions

/-!
# The detection loop

The loop of the control process (`spawn_detection_loop` of `runtime.rs`). A tick
has two parts:

* `resumeActivation`: where an activation of the external protection was
  started and is not complete, the mode becomes the emergency and the
  activation goes on, unless the guard state is held;
* `detect`: the window since the last tick is assessed, and the guard state
  changes as `GuardState.transition` says. Where it enters the emergency, the
  external protection is enabled first (`escalate`). What has changed is
  committed: the policy of a new mode, then the state, stored and in memory
  (`commitDetection`). Without traffic, the policy is only written again when
  that is due (`renewPolicy`).

The loop goes on from a state that it read at the beginning: it takes the lock
of the policy operations to write, not from where it read.

At the end are the tasks of the whole process, side by side (`controlPool`).
-/

namespace VpsGuard

open Effect

/-- The external protection is enabled, or waits for what is in the DNS to expire. -/
def activated : Except String ProviderStage → Bool
  | .ok .complete | .ok .proxyDrain => true
  | _ => false

/-- The loop enables the external protection, if nobody else is at it. -/
def runProviderTransaction (caller : LeaseCaller) : Prog Control (Except String ProviderStage) :=
  .call (.acquireLease 0 caller) fun
    | false => return .error "PROVIDER_ACTION_IN_PROGRESS"
    | true => .call .newUuid fun uuid => do
      let result ← providerCommand (.enable ("auto-" ++ uuid))
      .call (.releaseLease 0 (caller ≠ .pending && activated result)) fun _ => return result

/-- The state after a window, before the external protection is asked for. -/
def windowState (enforce : Bool) (current : GuardState) (input : DetectionInput)
    (occurredAt : String) (provider : Option ProviderController) : GuardState :=
  let assessment := Detector.assess input
  let next := current.transition
    { assessment
      distributedPressure := isDistributedPressure input assessment
      providerVerified := provider.any (·.protectionActive)
      occurredAt }
  if enforce then next else observeOnly next

/-- A window that leads to the emergency asks for the external protection, and
    to local protection where there is none. -/
def escalate (enforce : Bool) (current next : GuardState) : Prog Control GuardState :=
  if enforce ∧ current.currentMode ≠ .emergencyProxy ∧ next.currentMode = .emergencyProxy then do
    let result ← runProviderTransaction (.emergency current.currentMode)
    return if activated result then next else keepLocalGuard current next
  else return next

variable (C : ProtectionCodec)

/-- The policy of the mode of a state, which then refers to its version. -/
def writePolicyForMode (state : GuardState) : Prog Control (Option GuardState) := do
  let result ← (ProtectionManager.writeForState C state).lift Control.ofProtection
  return result.toOption

/-- Store the state, and take it over only if it is stored. -/
def persistState (read next : GuardState) : Prog Control Bool :=
  .call (.writeStore (.loop read) next) fun
    | .error _ => return false
    | .ok () => .call (.writeState (.loop read) next) fun _ => return true

/-- The time of the policy written last: the present, or still that of `last`. -/
def refreshedAt (refreshed : Bool) (last : Option ℕ) : Prog Control (Option ℕ) :=
  if refreshed then .call (.instantNow .refreshed) fun now => return some now else return last

/-- Write the policy for a state, and store the state with the version of the policy. -/
def publishState (read next : GuardState) (last : Option ℕ) : Prog Control (Option ℕ) := do
  match ← writePolicyForMode C next with
  | none => return last
  | some refreshed => do
    let persisted ← persistState read refreshed
    refreshedAt persisted last

/-! ## A tick -/

/-- The mode is that of the emergency. -/
def reconcile (last : Option ℕ) : Prog Control (Option ℕ) :=
  .call (.readState .loop) fun current => .call .currentTimestamp fun occurredAt =>
    .call .newUuid fun uuid =>
      match reconcileProviderActivationState occurredAt uuid current with
      | none => return last
      | some reconciled => publishState C current reconciled last

/-- Go on with an activation that a crash interrupted, unless the state is held. -/
def resumeActivation (last : Option ℕ) : Prog Control (Option ℕ) :=
  .call .tryProvider fun provider => .call (.readState .loop) fun state =>
    if provider.any (·.activationPending) && !state.manualHold then do
      let last ← withPolicyOperation 0 (reconcile C last)
      let _ ← runProviderTransaction .pending
      return last
    else return last

def renewPolicy (last : Option ℕ) : Prog Control (Option ℕ) :=
  .call (.readState .loop) fun current => publishState C current current last

def writePolicyIf (refreshPolicy : Bool) (state : GuardState) : Prog Control (Option GuardState) :=
  if refreshPolicy then writePolicyForMode C state else return some state

/-- The policy of a window, where it is asked for, then the state. -/
def commitDetection (current next : GuardState) (refreshPolicy : Bool) (last : Option ℕ) :
    Prog Control (Option ℕ) := do
  match ← writePolicyIf C refreshPolicy next with
  | none => return last
  | some next => .call .newUuid fun uuid => do
    let persisted ← persistState current (updateIncident uuid next)
    refreshedAt (persisted && refreshPolicy) last

/-- Whether the policy is to be written again. -/
def refreshDue (enforce : Bool) (last : Option ℕ) : Prog Control Bool :=
  if enforce then .call (.instantNow (.renewal last)) fun now => return policyRenewalDue last now
  else return false

/-- One window: what was observed in it may lead to another state. -/
def detect (enforce : Bool) (last : Option ℕ) : Prog Control (Option ℕ) := do
  let due ← refreshDue enforce last
  .call .takeDetectionInput fun input => .call .currentTimestamp fun occurredAt =>
    .call (.readState .loop) fun current =>
      match input with
      | none => if due then withPolicyOperation 0 (renewPolicy C last) else return last
      | some input => .call .tryProvider fun provider => do
        let next ← escalate enforce current (windowState enforce current input occurredAt provider)
        let commit := detectionCommit current next due enforce
        if commit.persist then
          withPolicyOperation 0 (commitDetection C current next commit.refreshPolicy last)
        else return last

/-- A tick. It is given, and returns, the time of the policy written last. -/
def tick (enforce : Bool) (last : Option ℕ) : Prog Control (Option ℕ) :=
  .call .intervalTick fun _ => do
    let last ← resumeActivation C last
    let last ← detect C enforce last
    .call .tickDone fun _ => return last

/-- So many ticks of the loop. -/
def detectionLoop (enforce : Bool) : ℕ → Option ℕ → Prog Control Unit
  | 0, _ => return ()
  | n + 1, last => tick C enforce last >>= detectionLoop enforce n

/-- The tasks of the process: the detection loop, and a task for every request.
    The loop is the task `0`. -/
def controlPool (enforce : Bool) (s : App) (n : ℕ) (requests : List ControlRequest) :
    Pool Control App Unit where
  state := s
  tasks := detectionLoop C enforce n none ::
    requests.mapIdx fun i request => do
      let _ ← request.run C (i + 1)
      return ()

variable {C} in
theorem exists_request_of_task {enforce : Bool} {s : App} {n i : ℕ}
    {requests : List ControlRequest} {p : Prog Control Unit}
    (h : (controlPool C enforce s n requests).tasks[i + 1]? = some p) :
    ∃ request ∈ requests, p = request.run C (i + 1) >>= fun _ => return () := by
  rw [controlPool, List.getElem?_cons_succ, List.getElem?_mapIdx, Option.map_eq_some_iff] at h
  obtain ⟨request, hrequest, rfl⟩ := h
  exact ⟨request, List.mem_of_getElem? hrequest, rfl⟩

/-- The loop is safe if its ticks are, and keep an invariant. -/
theorem safe_ticks {σ κ : Type} {E : Setting Control σ κ} {w : Sharing σ} {I : σ → Prop} {s : σ}
    {enforce : Bool} (h : ∀ last s, I s → (tick C enforce last).Safe E w (fun _ => I) s) (n : ℕ)
    (last : Option ℕ) (hs : I s) :
    (detectionLoop C enforce n last).Safe E w (fun _ _ => True) s := by
  induction n generalizing last s with
  | zero => exact .ret_trivial
  | succ n ih => exact (h last s hs).bind fun last t _ ht => ih last ht

/-! ## What the parts perform and return -/

section Parts

variable {C} {A : ControlOp → Prop} {B : (o : ControlOp) → o.Ans → Prop}

theorem meets_refreshedAt (hA : ∀ use, A (.instantNow use)) (refreshed : Bool) (last : Option ℕ) :
    (refreshedAt refreshed last).Meets A B fun _ => True := by
  cases refreshed
  · trivial
  · exact ⟨hA _, fun _ _ => trivial⟩

theorem valid_policyVersion {state : GuardState} (h : state.Valid) (version : ℕ) :
    ({ state with policyVersion := version } : GuardState).Valid := h

theorem valid_windowState {current : GuardState} {input : DetectionInput} {occurredAt : String}
    {provider : Option ProviderController} {enforce : Bool}
    (h : current.Valid) :
    (windowState enforce current input occurredAt provider).Valid := by
  unfold windowState
  dsimp only
  split
  · exact GuardState.Valid.transition h
  · exact valid_observeOnly (GuardState.Valid.transition h)

theorem yields_writeForState {state : GuardState} :
    (ProtectionManager.writeForState C state).Yields fun r =>
      ∀ next, r = .ok next → ∃ version, next = { state with policyVersion := version } := by
  intro mgr
  refine Prog.Yields.bind
    (R := fun r : PolicyResult GuardState × ProtectionManager =>
      ∀ next, r.1 = .ok next → ∃ version, next = { state with policyVersion := version }) ?_
    fun r hr _ => hr
  dsimp only
  split
  · exact fun _ h => nomatch h
  · next version _ =>
    refine (Prog.yields_true _).bind fun r _ => ?_
    split
    · exact fun _ h => nomatch h
    · rintro _ ⟨⟩
      exact ⟨version, rfl⟩

theorem meets_writePolicyForMode (hA : ∀ o, A (.protection o)) (state : GuardState) :
    (writePolicyForMode C state).Meets A B fun r =>
      ∀ next, r = some next → ∃ version, next = { state with policyVersion := version } := by
  refine Prog.Meets.bind ((Prog.performs_lift Control.ofProtection hA _).meets
    (yields_writeForState.lift _)) fun r hr => ?_
  cases r with
  | error e => exact fun _ h => nomatch h
  | ok next =>
    intro _ h
    exact Option.some.inj h ▸ hr next rfl

theorem meets_providerCommand (hA : ∀ o, A (.provider o)) (command : ProviderCommand) :
    (providerCommand command).Meets A B fun _ => True := by
  refine Prog.meets_call.2 ⟨hA _, fun ctl _ => ?_⟩
  cases ctl with
  | none => exact Prog.meets_call.2 ⟨hA _, fun _ _ => trivial⟩
  | some ctl =>
    refine Prog.Meets.bind ((Prog.performs_lift Control.ofProvider (fun o => hA (.provider o))
      (command.run ctl)).meets (Prog.yields_true _)) fun _ _ => ?_
    exact Prog.meets_call.2 ⟨hA _, fun _ _ => trivial⟩

/-- The operations `A` are enough to commit the states `K`, which the version of
    a policy and an incident do not change. -/
structure Commits (A : ControlOp → Prop) (K : GuardState → Prop) : Prop where
  protection : ∀ o, A (.protection o)
  newUuid : A .newUuid
  instantNow : ∀ use, A (.instantNow use)
  lock : ∀ i, A (.lockPolicyOperation i) ∧ A (.unlockPolicyOperation i)
  writing : ∀ read state, K state →
    A (.writeStore (.loop read) state) ∧ A (.writeState (.loop read) state)
  policyVersion : ∀ state version, K state → K { state with policyVersion := version }
  incident : ∀ uuid state, K state → K (updateIncident uuid state)

namespace Commits

variable {K : GuardState → Prop} {current read next : GuardState} {last : Option ℕ}

section

variable (h : Commits A K)

include h

theorem withPolicyOperation {α : Type} {i : ℕ} {p : Prog Control α}
    {Y : α → Prop} (hp : p.Meets A B Y) : (withPolicyOperation i p).Meets A B Y :=
  ⟨(h.lock i).1, fun _ _ => hp.bind fun _ ha => ⟨(h.lock i).2, fun _ _ => ha⟩⟩

theorem writePolicyForMode (hnext : K next) :
    (writePolicyForMode C next).Meets A B fun r => ∀ state, r = some state → K state := by
  refine (meets_writePolicyForMode h.protection next).weaken fun r hr state hstate => ?_
  obtain ⟨version, rfl⟩ := hr state hstate
  exact h.policyVersion next version hnext

theorem persistState (hnext : K next) : (persistState read next).Meets A B fun _ => True := by
  refine ⟨(h.writing read next hnext).1, fun r _ => ?_⟩
  rcases r with e | _
  · trivial
  · exact ⟨(h.writing read next hnext).2, fun _ _ => trivial⟩

theorem publishState (hnext : K next) :
    (publishState C read next last).Meets A B fun _ => True := by
  refine (h.writePolicyForMode hnext).bind fun r hr => ?_
  rcases r with _ | refreshed
  · trivial
  · exact (h.persistState (hr refreshed rfl)).bind fun _ _ =>
      meets_refreshedAt h.instantNow _ _

theorem commitDetection (hnext : K next) (refreshPolicy : Bool) :
    (commitDetection C current next refreshPolicy last).Meets A B fun _ => True := by
  refine Prog.Meets.bind (Z := fun r => ∀ state : GuardState, r = some state → K state) ?_
    fun r hr => ?_
  · unfold writePolicyIf
    split
    · exact h.writePolicyForMode hnext
    · rintro _ ⟨⟩
      exact hnext
  · rcases r with _ | refreshed
    · trivial
    · refine ⟨h.newUuid, fun uuid _ => ?_⟩
      exact (h.persistState (h.incident uuid refreshed (hr refreshed rfl))).bind fun _ _ =>
        meets_refreshedAt h.instantNow _ _

end

end Commits

end Parts

/-! ## Processes to compute -/

/-- A process to compute with, as it is after a start: in the given state, and
    with a transaction of the provider at the given stage. -/
def App.started (state : GuardState) (stage : ProviderStage) : App :=
  let transaction : ProviderTransaction :=
    { idempotencyKey := "key"
      recordName := "www"
      stage
      snapshot := some ⟨"www", [], false⟩
      lastError := none
      attempts := 0
      proxyDrainDeadlineUnixSeconds := none }
  { state
    stateStore := some state
    policyOperation := none
    providerActionActive := none
    provider :=
      { controller := some
          { transaction := some transaction
            recordName := "www"
            allowedRecords := ["www"]
            preflightError := none
            maxDnsTtlSeconds := 300 }
        locked := false
        store := some transaction
        taken := none
        changed := false
        original := none }
    protection :=
      { ProtectionWorld.fresh with
        memory := some
          { limits := ⟨1, 1⟩, clientRules := [], current := ⟨.default, 0⟩, completed := [] } }
    completedActions := []
    log := [] }

namespace ControlChoice

def holds (task : ℕ) : List (ℕ × ControlChoice) :=
  [.refusal none, .completed none, .text "t1", .proceed, .write none, .proceed, .proceed].map
    (task, ·)

def leases (task : ℕ) : List (ℕ × ControlChoice) :=
  [.refusal none, .completed none, .proceed, .proceed].map (task, ·)

/-- A command to the provider that finds the external protection enabled. -/
def enables (task : ℕ) : List (ℕ × ControlChoice) :=
  [.provider none, .provider (some (.time 0)), .provider (some (.write none)), .provider none].map
    (task, ·)

def commits (task : ℕ) : List (ℕ × ControlChoice) :=
  [.text "t2", .proceed, .write none, .proceed, .proceed, .proceed].map (task, ·)

/-- The loop starts a tick, finds no activation to go on with, no traffic, and a
    policy to be written again. -/
def beginsRenewal (now : ℕ) : List (ℕ × ControlChoice) :=
  [.proceed, .proceed, .proceed, .instant now, .input none, .text "t", .proceed, .proceed,
    .proceed].map (0, ·)

/-- The loop writes the policy, then the state. -/
def endsRenewal (now : ℕ) : List (ℕ × ControlChoice) :=
  [.protection .proceed, .protection (.time now), .protection (.write none),
    .protection (.write none), .protection (.read none), .protection (.read none),
    .protection (.time now), .protection .proceed, .write none, .proceed].map (0, ·)

/-- The loop notes the time, releases the lock, and completes the tick. -/
def endsTick (now : ℕ) : List (ℕ × ControlChoice) :=
  [.instant now, .proceed, .proceed].map (0, ·)

def idleTick : List (ℕ × ControlChoice) :=
  [.proceed, .proceed, .proceed, .instant 5, .input none, .text "t", .proceed, .proceed].map (0, ·)

end ControlChoice

end VpsGuard
