import VpsGuard.Control.DetectionLoop
import VpsGuard.Control.Telemetry
import VpsGuard.Profiles

/-!
# Windows without pressure

The detection loop, with the telemetry that it looks at: the requests that were
answered between two looks are in the window of the later one (`Observed`). If
none of them was refused and none failed, if they are few and were answered
fast, and if the host is at rest, there is no pressure (`quiet`).

Without pressure the mode should stay `normal` or `watch`. It does not: a route
of cost ten is enough for a window to be protective, and three such windows in a
row lead to local protection (`local_guard_by_searches`). The searches of a board
have this cost.

What is true: the mode stays so if every window with such a route comes while
less than two protective windows in a row are counted (`calm_without_pressure`),
in particular if there is no such route.
-/

namespace VpsGuard

open Effect

/-- The control process, and what it has counted. -/
structure Observed where
  app : App
  traffic : TrafficAggregator

/-- What the surroundings choose. -/
inductive ObservedChoice
  | control (x : ControlChoice)
  /-- What was received since the last look, and the pressure on the host. -/
  | window (received : List TelemetryEnvelope) (hostPressure : HostPressure)

namespace Observed

/-- The loop is answered by the process, and its look by what was counted. -/
def exec (o : ControlOp) (x : ObservedChoice) (s : Observed) : Option (o.Ans × Observed) :=
  match x with
  | .control x =>
    match o with
    | .takeDetectionInput => none
    | o => (App.exec o x s.app).map fun r => (r.1, { s with app := r.2 })
  | .window received hostPressure =>
    match o with
    | .takeDetectionInput =>
      let looked := (s.traffic.ingestAll received).takeDetectionInput hostPressure
      some (looked.1, { s with traffic := looked.2 })
    | _ => none

def machine : Machine Control Observed ObservedChoice where
  exec := exec

/-- There is no sign of pressure. -/
def quiet : ControlOp → ObservedChoice → Observed → Prop
  | _, .control _, _ => True
  | _, .window received hostPressure, s =>
    let traffic := s.traffic.ingestAll received
    (∀ telemetry ∈ received, telemetry.schemaVersion = 1 →
      telemetry.protective = false ∧ telemetry.status < 500) ∧
    traffic.window.maxLatencyMicros < 1000000 ∧ traffic.window.requests < 100 ∧
    traffic.baseline.pressure traffic.window.requests = 0 ∧
    (hostPressure.score = 0 ∨ hostPressure.signalsAvailable = false)

/-- No window has a route of cost ten when two protective windows in a row are counted. -/
def sparing : ControlOp → ObservedChoice → Observed → Prop
  | _, .control _, _ => True
  | _, .window received _, s =>
    10 ≤ (s.traffic.ingestAll received).window.maxRouteCost → s.app.state.breachWindows < 2

instance (o : ControlOp) (x : ObservedChoice) (s : Observed) : Decidable (quiet o x s) :=
  match x with
  | .control _ => inferInstanceAs (Decidable True)
  | .window _ _ => inferInstanceAs (Decidable (_ ∧ _))

instance (o : ControlOp) (x : ObservedChoice) (s : Observed) : Decidable (sparing o x s) :=
  match x with
  | .control _ => inferInstanceAs (Decidable True)
  | .window _ _ => inferInstanceAs (Decidable (_ → _))

def loop (C : ProtectionCodec) (s : Observed) (n : ℕ) : Pool Control Observed Unit where
  state := s
  tasks := [detectionLoop C true n none]

/-! ## Steps -/

variable {s t : Observed} {o : ControlOp} {x : ObservedChoice} {a : o.Ans}

theorem of_exec (h : exec o x s = some (a, t)) (ho : o ≠ .takeDetectionInput) :
    (∃ y, App.exec o y s.app = some (a, t.app)) ∧ t.traffic = s.traffic := by
  unfold exec at h
  split at h
  · next y =>
    split at h
    · exact absurd rfl ho
    · obtain ⟨r, hr, heq⟩ := Option.map_eq_some_iff.1 h
      cases heq
      exact ⟨⟨y, hr⟩, rfl⟩
  · split at h
    · exact absurd rfl ho
    · cases h

theorem of_exec_takeDetectionInput {input : Option DetectionInput}
    (h : exec .takeDetectionInput x s = some (input, t)) :
    ∃ received hostPressure, x = .window received hostPressure ∧ t.app = s.app ∧
      (input, t.traffic) = (s.traffic.ingestAll received).takeDetectionInput hostPressure := by
  cases x with
  | control y => cases h
  | window received hostPressure =>
    cases h
    exact ⟨received, hostPressure, rfl, rfl, rfl⟩

end Observed

/-- The mode is one without protection. -/
def GuardState.Unprotected (s : GuardState) : Prop :=
  s.currentMode = .normal ∨ s.currentMode = .watch

namespace GuardState

variable {s : GuardState} {input : TransitionInput}

/-- A window that is not protective, or comes when less than two protective ones
    are counted, does not lead to protection. -/
theorem Unprotected.transition (h : s.Unprotected)
    (hbreach : input.risky = true → s.breachWindows < 2) : (s.transition input).Unprotected := by
  cases hheld : s.manualHold with
  | true => rwa [transition_of_held hheld]
  | false =>
    have hcount : (s.count input).breachWindows < 3 := by
      unfold count
      split
      · next hrisky =>
        have hlt := hbreach hrisky
        simp only [saturatingAdd]
        omega
      · exact Nat.zero_lt_succ _
    rw [transition_of_not_held hheld, Unprotected, setMode_currentMode, nextMode, count_currentMode]
    rcases h with hmode | hmode
    · simp only [hmode]
      split
      · exact .inr rfl
      · exact .inl rfl
    · simp only [hmode, Nat.not_le.2 hcount, ge_iff_le, if_false]
      split
      · exact .inl rfl
      · exact .inr rfl

end GuardState

/-! ## The loop -/

namespace Observed

/-- The mode is one without protection, nothing is to be activated, and nothing
    in the window was refused. -/
structure Calm (s : Observed) : Prop where
  state : s.app.state.Unprotected
  pending : s.app.provider.controller.any (·.activationPending) = false
  window : s.traffic.window.Unharmed

/-- The loop where there is no sign of pressure. -/
def calmly : Setting Control Observed ObservedChoice where
  exec := exec
  allow o x s := quiet o x s ∧ sparing o x s
  inv := Calm

/-- The operations that leave a quiet guard as it is. -/
def Calming : ControlOp → Prop
  | .writeState _ state => state.Unprotected
  | .provider _ | .takeDetectionInput => False
  | _ => True

theorem commits_unprotected : Commits Calming GuardState.Unprotected where
  protection _ := trivial
  newUuid := trivial
  instantNow _ := trivial
  lock _ := ⟨trivial, trivial⟩
  writing _ _ h := ⟨trivial, h⟩
  policyVersion _ _ h := h
  incident _ _ h := by rwa [GuardState.Unprotected, updateIncident_currentMode]

theorem Calm.exec {o : ControlOp} {a : o.Ans} (h : s.Calm) (ho : Calming o)
    (hx : exec o x s = some (a, t)) : t.Calm := by
  have hlook : o ≠ .takeDetectionInput := by
    rintro rfl
    exact ho
  obtain ⟨⟨y, hy⟩, htraffic⟩ := of_exec hx hlook
  have hframe := App.of_exec_traced hy
  refine ⟨?_, ?_, htraffic ▸ h.window⟩
  · rcases hframe.state with hstate | ⟨writer, hwrite⟩
    · exact hstate ▸ h.state
    · rw [hwrite] at ho
      exact ho
  · rw [hframe.provider fun o' heq => by rw [heq] at ho; exact ho]
    exact h.pending

variable {C : ProtectionCodec} {last : Option ℕ} {α : Type} {Q : α → Observed → Prop}

theorem safe_calming {o : ControlOp} {k : o.Ans → Prog Control α} (ho : Calming o)
    (hk : ∀ x a t, s.Calm → t.Calm → Observed.exec o x s = some (a, t) →
      (k a).Safe calmly .alone Q t) : (Prog.call o k).Safe calmly .alone Q s := by
  refine .call_alone fun hs x a t _ hx => ?_
  have ht : t.Calm := Calm.exec hs ho hx
  exact ⟨ht, hk x a t hs ht hx⟩

theorem safe_of_calming {p : Prog Control α} (hp : p.Meets Calming (fun _ _ => True) fun _ => True) :
    p.Safe calmly .alone (fun _ _ => True) s := by
  refine (Prog.Safe.of_meets (P := fun _ => True) hp (fun _ _ _ _ _ => trivial) ?_ trivial).weaken
    fun _ _ _ _ => trivial
  exact fun o x s a t ho _ hs _ hx => ⟨trivial, Calm.exec hs ho hx, trivial, trivial⟩

theorem safe_resumeActivation :
    (resumeActivation C last).Safe calmly .alone (fun _ _ => True) s := by
  refine safe_calming trivial fun x provider t _ ht hx => ?_
  refine safe_calming trivial fun y state u _ _ _ => ?_
  obtain ⟨⟨y, hy⟩, -⟩ := of_exec hx (by simp)
  have hnone : provider.any (·.activationPending) = false := by
    rw [(App.of_exec_tryProvider hy).2]
    split
    · rfl
    · rw [← (App.of_exec_tryProvider hy).1]
      exact ht.pending
  rw [hnone, Bool.false_and, if_neg Bool.false_ne_true]
  exact .ret_trivial

/-- The signals are those of a window without pressure, which leads from the
    state to no protection. -/
def Bearable (current : GuardState) (input : DetectionInput) : Prop :=
  ∃ (window : DetectionWindow) (baseline : TrafficBaseline) (hostPressure : HostPressure),
    input = window.input baseline hostPressure ∧ window.Quiet baseline hostPressure ∧
      (10 ≤ window.maxRouteCost → current.breachWindows < 2)

theorem unprotected_windowState {current : GuardState} {input : DetectionInput} {occurredAt : String}
    {provider : Option ProviderController} (hcurrent : current.Unprotected)
    (hinput : Bearable current input) :
    (windowState true current input occurredAt provider).Unprotected := by
  obtain ⟨window, baseline, hostPressure, rfl, hquiet, hsparing⟩ := hinput
  refine hcurrent.transition fun hrisky => hsparing ?_
  exact (DetectionWindow.isProtective_iff_of_quiet hquiet).1 hrisky

theorem safe_takeDetectionInput {k : Option DetectionInput → Prog Control α}
    (hk : ∀ input t, t.app = s.app → (∀ i, input = some i → Bearable s.app.state i) →
      (k input).Safe calmly .alone Q t) :
    (Prog.call (S := Control) .takeDetectionInput k).Safe calmly .alone Q s := by
  refine .call_alone fun hs x input t hallow hx => ?_
  obtain ⟨received, hostPressure, rfl, happ, heq⟩ := of_exec_takeDetectionInput hx
  obtain ⟨⟨hanswered, hlatency, hrequests, hbaseline, hhost⟩, hsparing⟩ := hallow
  -- What is in the window was in it before, or was received.
  have hunharmed : (s.traffic.ingestAll received).window.Unharmed := by
    rw [TrafficAggregator.ingestAll_window]
    refine hs.window.foldl fun telemetry hmem => ?_
    obtain ⟨hmem, hschema⟩ := List.mem_filter.1 hmem
    exact hanswered telemetry hmem (of_decide_eq_true hschema)
  have htraffic : t.traffic = _ := congrArg Prod.snd heq
  have hinput : input = _ := congrArg Prod.fst heq
  refine ⟨⟨happ ▸ hs.state, happ ▸ hs.pending, htraffic ▸ hunharmed.takeDetectionInput⟩, ?_⟩
  refine hk input t happ fun i hi => ?_
  rw [hi, TrafficAggregator.takeDetectionInput] at hinput
  split at hinput
  · cases hinput
  · exact ⟨_, _, hostPressure, Option.some.inj hinput,
      ⟨hunharmed, hlatency, hrequests, hbaseline, hhost⟩, hsparing⟩

theorem safe_readState {k : GuardState → Prog Control α}
    (hk : ∀ t, s.app.state.Unprotected → (k s.app.state).Safe calmly .alone Q t) :
    (Prog.call (S := Control) (.readState .loop) k).Safe calmly .alone Q s := by
  refine safe_calming trivial fun x current t hs _ hx => ?_
  obtain ⟨⟨y, hy⟩, -⟩ := of_exec hx (by simp)
  obtain ⟨rfl, -⟩ := App.of_exec_readState hy
  exact hk t hs.state

theorem safe_detect : (detect C true last).Safe calmly .alone (fun _ _ => True) s := by
  refine .bind (R := fun _ _ => True) (safe_of_calming ⟨trivial, fun _ _ => trivial⟩)
    fun due s _ _ => ?_
  refine safe_takeDetectionInput fun input t happ hinput => ?_
  rw [← happ] at hinput
  refine safe_calming trivial fun x occurredAt u _ _ hx => ?_
  obtain ⟨⟨y, hy⟩, -⟩ := of_exec hx (by simp)
  rw [← App.of_exec_asking hy trivial] at hinput
  refine safe_readState fun v hcurrent => ?_
  rcases input with _ | input
  · -- Without traffic the policy may be written again.
    dsimp only
    split
    · refine safe_calming trivial fun _ _ w _ _ _ => ?_
      refine .bind (R := fun _ _ => True) (safe_readState fun _ hstate =>
        safe_of_calming (commits_unprotected.publishState hstate)) fun last w _ _ => ?_
      exact safe_calming trivial fun _ _ _ _ _ _ => .ret_trivial
    · exact .ret_trivial
  · refine safe_calming trivial fun _ provider w _ _ _ => ?_
    have hnext : (windowState true u.app.state input occurredAt provider).Unprotected :=
      unprotected_windowState hcurrent (hinput input rfl)
    -- The emergency is not entered, so that nothing is asked of the provider.
    have hescalate : escalate true u.app.state
        (windowState true u.app.state input occurredAt provider) =
        return windowState true u.app.state input occurredAt provider := by
      refine if_neg fun h => ?_
      rcases hnext with hmode | hmode <;> simp [hmode] at h
    rw [hescalate]
    change Prog.Safe _ _ _ (if _ then _ else _) _
    split
    · exact safe_of_calming
        (commits_unprotected.withPolicyOperation (commits_unprotected.commitDetection hnext _))
    · exact .ret_trivial

theorem safe_tick (last : Option ℕ) (s : Observed) (_ : True) :
    (tick C true last).Safe calmly .alone (fun _ _ => True) s := by
  refine safe_calming trivial fun _ _ t _ _ _ => ?_
  refine safe_resumeActivation.bind fun last t _ _ => safe_detect.bind fun last t _ _ => ?_
  exact safe_calming trivial fun _ _ _ _ _ _ => .ret_trivial

/-- **No protection without pressure.** In a run of the loop in which there is no
    sign of pressure, and every window with a route of cost ten comes while less
    than two protective windows in a row are counted, the mode is always `normal`
    or `watch`. -/
theorem calm_without_pressure (C : ProtectionCodec) (s : Observed) (now : String)
    (hstate : s.app.state = .normal now)
    (hpending : s.app.provider.controller.any (·.activationPending) = false)
    (maxClients liveSeconds : ℕ) (htraffic : s.traffic = .withLiveWindow maxClients liveSeconds)
    (n : ℕ) (q : Pool Control Observed Unit)
    (hq : Pool.Reaches machine (fun o x s => quiet o x s ∧ sparing o x s) (loop C s n) q) :
    q.state.app.state.currentMode = .normal ∨ q.state.app.state.currentMode = .watch := by
  have hstart : s.Calm := by
    refine ⟨.inl ?_, hpending, ?_⟩
    · rw [hstate]
      rfl
    · rw [htraffic]
      exact ⟨rfl, rfl⟩
  exact (Pool.Reaches.inv_single (E := calmly) hq hstart (safe_ticks C safe_tick n none trivial)).state

/-! ## A board that is searched -/

def searchRequest : TelemetryEnvelope where
  schemaVersion := 1
  routeCost := (classify .gnuboard5 "/bbs/search.php?stx=word".toList).baseCost
  status := 200
  latencyMicros := 1000
  clientIp := none
  requestBodyBytes := 0
  responseBodyBytes := 1000
  upstreamConnectionReused := some true
  decision := "allow"
  botClass := .undeclared
  botVerified := false
  sessionContinuity := false
  inFlightRequests := 1
  edgeTelemetryEmitted := 0
  edgeTelemetryDropped := 0
  edgeTelemetryReconnected := 0
  occurredAtUnixMs := 0

def fresh : Observed where
  app := .started (.normal "t0") .complete
  traffic := .new 100

/-- A tick with one search in its window; the policy is written if the mode changes. -/
def searchTick (changes : Bool) : List (ℕ × ObservedChoice) :=
  let begins : List ObservedChoice :=
    [.control .proceed, .control .proceed, .control .proceed, .control (.instant 0),
      .window [searchRequest] (.available 0), .control (.text "t"), .control .proceed,
      .control .proceed, .control .proceed]
  let publishes : List ObservedChoice :=
    [ProtectionChoice.proceed, .time 0, .write none, .write none, .read none, .read none, .time 0,
      .proceed].map fun x => .control (.protection x)
  let stores : List ObservedChoice := [.control (.text "u"), .control (.write none), .control .proceed]
  let refreshes : List ObservedChoice := [.control (.instant 0)]
  let ends : List ObservedChoice := [.control .proceed, .control .proceed]
  (begins ++ (if changes then publishes else []) ++ stores ++ (if changes then refreshes else []) ++
    ends).map (0, ·)

/-- One search leads to `watch`. -/
theorem calm_without_pressure_search : ∃ q : Pool Control Observed Unit,
    Pool.Reaches machine (fun o x s => quiet o x s ∧ sparing o x s) (loop .plain fresh 1) q ∧
    q.state.app.state.breachWindows = 1 ∧
    (q.state.app.state.currentMode = .normal ∨ q.state.app.state.currentMode = .watch) := by
  obtain ⟨q, hq, hcount⟩ := Pool.exists_reaches_of_run machine
    (fun o x s => quiet o x s ∧ sparing o x s) (loop .plain fresh 1) (searchTick true)
    (P := fun q => decide (q.state.app.state.breachWindows = 1)) (by decide +kernel)
  refine ⟨q, hq, of_decide_eq_true hcount, ?_⟩
  exact calm_without_pressure .plain fresh "t0" rfl rfl 100 900 rfl 1 q hq

/-- Three searches, in three windows, lead to local protection. -/
theorem local_guard_by_searches : fresh.app.state = .normal "t0" ∧
    fresh.app.provider.controller.any (·.activationPending) = false ∧
    fresh.traffic = .withLiveWindow 100 900 ∧
    ∃ q : Pool Control Observed Unit, Pool.Reaches machine quiet (loop .plain fresh 3) q ∧
      q.state.app.state.currentMode = .localGuard := by
  refine ⟨rfl, rfl, rfl, ?_⟩
  obtain ⟨q, hq, hmode⟩ := Pool.exists_reaches_of_run machine quiet (loop .plain fresh 3)
    (searchTick true ++ searchTick false ++ searchTick true)
    (P := fun q => decide (q.state.app.state.currentMode = .localGuard)) (by decide +kernel)
  exact ⟨q, hq, of_decide_eq_true hmode⟩

end Observed

end VpsGuard
