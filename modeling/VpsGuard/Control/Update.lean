import VpsGuard.Core.Hysteresis

/-!
# Updates of the control state

The updates that `guard-control` makes of the guard state beside those of
`guard-core`: those of the detection loop, around a window, and that of an
administrator's command to the provider. They are pure: the time of the clock
and the identifier of a new incident are given.

Most of them keep the state valid. The one of a command to the provider does
so only if the state is not held (`valid_afterProviderAction_iff`): it sets the
mode, and leaves the hold as it is.

The last section is on escalation. Five protective and distributed windows in
a row lead to the emergency from every mode that is not held, with one
exception: a state that is recovering stays so (`escalates_iff`).
-/

namespace VpsGuard

open GuardState

/-- An incident is opened in the modes of protection, and closed in `normal`. -/
def updateIncident (incidentId : String) (s : GuardState) : GuardState :=
  if (s.currentMode = .localGuard ∨ s.currentMode = .emergencyProxy ∨
      s.currentMode = .recoveryReady) ∧ s.activeIncidentId = none then
    { s with activeIncidentId := some incidentId }
  else if s.currentMode = .normal then { s with activeIncidentId := none }
  else s

/-- The state while an activation of the provider is pending: the emergency,
    unless the mode is of the emergency already, or held. -/
def reconcileProviderActivationState (occurredAt incidentId : String) (s : GuardState) :
    Option GuardState :=
  if s.currentMode = .emergencyProxy ∨ s.currentMode = .recoveryReady ∨
      s.currentMode = .manualHold then none
  else some (updateIncident incidentId
    { s with currentMode := .emergencyProxy, lastTransitionAt := occurredAt })

/-- Without external protection, the mode is that of local protection. -/
def keepLocalGuard (current next : GuardState) : GuardState :=
  { next with currentMode := .localGuard, lastTransitionAt := current.lastTransitionAt }

/-- Without enforcement, the guard only watches. -/
def observeOnly (s : GuardState) : GuardState :=
  if s.currentMode = .localGuard ∨ s.currentMode = .emergencyProxy then
    { s with currentMode := .watch }
  else s

def isDistributedPressure (input : DetectionInput) (assessment : Assessment) : Bool :=
  assessment.botLikelihood ≥ 80 || input.hostPressure.score ≥ 80

def policyRefreshInterval : ℕ := 300

def policyRenewalDue (lastRefresh : Option ℕ) (now : ℕ) : Bool :=
  match lastRefresh with
  | none => true
  | some last => now - last ≥ policyRefreshInterval

/-- What is to be done after a window. -/
structure DetectionCommit where
  persist : Bool
  refreshPolicy : Bool
  emitTransition : Bool

/-- What a window asks to commit, from the states before and after it. -/
def detectionCommit (current next : GuardState) (policyRefreshDue enforce : Bool) :
    DetectionCommit where
  persist := current ≠ next || policyRefreshDue
  refreshPolicy := enforce && (current.currentMode ≠ next.currentMode || policyRefreshDue)
  emitTransition := current.currentMode ≠ next.currentMode

/-- The state after a command to the provider, to enable or to restore. -/
def afterProviderAction (restore : Bool) (operationId now : String) (s : GuardState) : GuardState :=
  let s := { s with currentMode := if restore then .recovering else .emergencyProxy }
  let s := if restore then { s with breachWindows := 0, stableWindows := 0 } else s
  let s := { s with lastTransitionAt := now }
  if !restore && s.activeIncidentId.isNone then
    { s with activeIncidentId := some ("provider-" ++ operationId) }
  else s

/-! ## What the updates change -/

section Fields

variable {s t : GuardState} {incidentId occurredAt operationId now : String} {restore : Bool}

@[simp] theorem updateIncident_currentMode :
    (updateIncident incidentId s).currentMode = s.currentMode := by
  unfold updateIncident; split_ifs <;> rfl

@[simp] theorem updateIncident_manualHold :
    (updateIncident incidentId s).manualHold = s.manualHold := by
  unfold updateIncident; split_ifs <;> rfl

@[simp] theorem updateIncident_schemaVersion :
    (updateIncident incidentId s).schemaVersion = s.schemaVersion := by
  unfold updateIncident; split_ifs <;> rfl

@[simp] theorem afterProviderAction_currentMode :
    (afterProviderAction restore operationId now s).currentMode =
      if restore then .recovering else .emergencyProxy := by
  cases restore <;> simp [afterProviderAction]; split <;> rfl

@[simp] theorem afterProviderAction_manualHold :
    (afterProviderAction restore operationId now s).manualHold = s.manualHold := by
  cases restore <;> simp [afterProviderAction]; split <;> rfl

@[simp] theorem afterProviderAction_schemaVersion :
    (afterProviderAction restore operationId now s).schemaVersion = s.schemaVersion := by
  cases restore <;> simp [afterProviderAction]; split <;> rfl

theorem valid_updateIncident_iff : (updateIncident incidentId s).Valid ↔ s.Valid := by
  simp [valid_iff]

theorem valid_observeOnly (h : s.Valid) : (observeOnly s).Valid := by
  have hm := (valid_iff.1 h).2
  unfold observeOnly
  split
  · next hl =>
    have hh : s.manualHold ≠ true := fun hh => by
      have := hm.1 hh
      simp [this] at hl
    exact valid_iff.2 ⟨(valid_iff.1 h).1, by simpa using hh⟩
  · exact h

theorem reconcile_eq_some (h : reconcileProviderActivationState occurredAt incidentId s = some t) :
    t.currentMode = .emergencyProxy ∧ t.manualHold = s.manualHold ∧
      t.schemaVersion = s.schemaVersion ∧ s.currentMode ≠ .manualHold := by
  unfold reconcileProviderActivationState at h
  split at h
  · cases h
  · next hm =>
    cases h
    exact ⟨by simp, by simp, by simp, fun hh => hm (.inr (.inr hh))⟩

theorem GuardState.Valid.reconcile (hs : s.Valid)
    (h : reconcileProviderActivationState occurredAt incidentId s = some t) : t.Valid := by
  obtain ⟨hmode, hheld, hschema, hm⟩ := reconcile_eq_some h
  rw [valid_iff] at hs ⊢
  refine ⟨hschema.trans hs.1, ?_⟩
  rw [hmode, hheld, hs.2]
  simp [hm]

theorem valid_keepLocalGuard (h : t.schemaVersion = 1) (hheld : t.manualHold = false) :
    (keepLocalGuard s t).Valid := by
  simp [valid_iff, keepLocalGuard, h, hheld]

/-- A command to the provider leads to a valid state exactly from one that is not held. -/
theorem valid_afterProviderAction_iff : (afterProviderAction restore operationId now s).Valid ↔
    s.schemaVersion = 1 ∧ s.manualHold = false := by
  rw [valid_iff]
  cases restore <;> simp

end Fields

/-! ## Escalation -/

namespace GuardState

/-- The states reached from that of a fresh installation by windows, holds and
    releases, and commands to restore. -/
inductive Reached (start : String) : GuardState → Prop
  | normal : Reached start (.normal start)
  | step {s : GuardState} (step : Step) : Reached start s → Reached start (s.apply step)
  | restore {s : GuardState} (operationId now : String) : Reached start s →
      Reached start (afterProviderAction true operationId now s)

variable {s : GuardState} {start : String} {n : ℕ}

theorem Reached.manualHold (h : Reached start s) (hm : s.currentMode = .manualHold) :
    s.manualHold = true := by
  induction h with
  | normal => cases hm
  | step step _ ih =>
    cases step with
    | transition input =>
      rw [apply, transition_currentMode_eq_manualHold_iff] at hm
      rw [apply, transition_manualHold]
      exact ih hm
    | hold now => rfl
    | resume now => cases hm
  | restore operationId now _ _ => simp at hm

/-- After `n` protective and distributed windows in a row: the emergency, or
    what there is still time to leave for it. -/
structure Climbed (n : ℕ) (s : GuardState) : Prop where
  manualHold : s.manualHold = false
  breachWindows : n ≤ s.breachWindows
  currentMode : s.currentMode = .emergencyProxy ∨ s.currentMode = .localGuard ∧ n < 5 ∨
    s.currentMode = .watch ∧ n < 3 ∨
    (s.currentMode = .normal ∨ s.currentMode = .recoveryReady) ∧ n = 0

/-- One more window. The count of a window is `n + 1` at least, since `n` is
    far from where the counter stops. -/
theorem Climbed.step (h : Climbed n s) (hn : n < 5) {input : TransitionInput}
    (hr : input.risky = true) (hd : input.distributedPressure = true) :
    Climbed (n + 1) (s.transition input) := by
  have hcount : n + 1 ≤ (s.count input).breachWindows := by
    have := h.breachWindows
    simp only [count, hr, if_true, saturatingAdd]
    omega
  rw [transition_of_not_held h.manualHold]
  refine ⟨by simp [h.manualHold], by simpa using hcount, ?_⟩
  rw [setMode_currentMode]
  rcases h.currentMode with hm | ⟨hm, -⟩ | ⟨hm, hlt⟩ | ⟨hm | hm, rfl⟩
  · simp [nextMode, hm, hr]
  · by_cases hfive : 5 ≤ (s.count input).breachWindows
    · simp [nextMode, hm, hfive, hd]
    · have hstable : (s.count input).stableWindows = 0 := by simp [count, hr]
      simp [nextMode, hm, hfive, hstable]
      omega
  · by_cases hthree : 3 ≤ (s.count input).breachWindows
    · simp [nextMode, hm, hthree]
      omega
    · have hstable : (s.count input).stableWindows = 0 := by simp [count, hr]
      simp [nextMode, hm, hthree, hstable]
      omega
  · simp [nextMode, hm, hr]
  · simp [nextMode, hm, hr]

variable {inputs : List TransitionInput}

theorem Climbed.run (h : Climbed n s) (hn : n + inputs.length ≤ 5)
    (hi : ∀ i ∈ inputs, i.risky = true ∧ i.distributedPressure = true) :
    Climbed (n + inputs.length) (inputs.foldl transition s) := by
  induction inputs generalizing n s with
  | nil => exact h
  | cons input inputs ih =>
    rw [List.length_cons] at hn ⊢
    obtain ⟨hr, hd⟩ := hi input List.mem_cons_self
    have hstep := h.step (by omega) hr hd
    rw [List.foldl_cons, show n + (inputs.length + 1) = n + 1 + inputs.length by omega]
    exact ih hstep (by omega) fun i hmem => hi i (List.mem_cons_of_mem _ hmem)

theorem transition_recovering (h : s.currentMode = .recovering) {input : TransitionInput}
    (hr : input.risky = true) : (s.transition input).currentMode = .recovering := by
  unfold transition
  split
  · exact h
  · have hstable : (s.count input).stableWindows = 0 := by simp [count, hr]
    simp [nextMode, h, hstable]

theorem foldl_transition_recovering
    (h : s.currentMode = .recovering) (hi : ∀ i ∈ inputs, i.risky = true) :
    (inputs.foldl transition s).currentMode = .recovering := by
  induction inputs generalizing s with
  | nil => exact h
  | cons input inputs ih =>
    exact ih (transition_recovering h (hi input List.mem_cons_self))
      fun i hmem => hi i (List.mem_cons_of_mem _ hmem)

/-- **Escalation.** Five protective and distributed windows in a row lead a
    reached state that is not held to the emergency exactly if it is not
    recovering. -/
theorem escalates_iff (start : String) (s : GuardState) (hs : Reached start s)
    (hheld : s.manualHold = false) (inputs : List TransitionInput) (hlen : inputs.length = 5)
    (hi : ∀ i ∈ inputs, i.risky = true ∧ i.distributedPressure = true) :
    (inputs.foldl transition s).currentMode = .emergencyProxy ↔ s.currentMode ≠ .recovering := by
  constructor
  · intro hE hrec
    have hstay := foldl_transition_recovering hrec fun i hmem => (hi i hmem).1
    rw [hE] at hstay
    cases hstay
  · intro hne
    have hmanual : s.currentMode ≠ .manualHold := fun hm => by
      have := hs.manualHold hm
      rw [hheld] at this
      cases this
    have hclimbed : Climbed 0 s := by
      refine ⟨hheld, Nat.zero_le _, ?_⟩
      cases hm : s.currentMode <;> simp_all
    rcases (hclimbed.run (by omega) hi).currentMode with hE | ⟨-, hlt⟩ | ⟨-, hlt⟩ | ⟨-, hzero⟩
    · exact hE
    all_goals omega

def distributedAttack (now : String) : TransitionInput where
  assessment :=
    { trustScore := 0, botLikelihood := 100, resourceCost := 100, confidence := 100
      decision := .deny, reasonCodes := [] }
  distributedPressure := true
  providerVerified := false
  occurredAt := now

/-- Five attacks on a fresh installation lead to the emergency. -/
theorem escalates_iff_normal : ((List.replicate 5 (distributedAttack "t1")).foldl transition
      (normal "t0")).currentMode = .emergencyProxy := by
  refine (escalates_iff "t0" _ .normal rfl _ rfl fun i hi => ?_).2 (by decide)
  rw [List.eq_of_mem_replicate hi]
  decide

/-- After a command to restore, five attacks do not lead to the emergency. -/
theorem not_escalates_after_restore : ∃ s : GuardState, Reached "t0" s ∧ s.manualHold = false ∧
      (∀ i ∈ List.replicate 5 (distributedAttack "t2"),
        i.risky = true ∧ i.distributedPressure = true) ∧
      ((List.replicate 5 (distributedAttack "t2")).foldl transition s).currentMode =
        .recovering := by
  refine ⟨afterProviderAction true "op" "t1" (.normal "t0"), .restore "op" "t1" .normal, rfl,
    ?_, by decide⟩
  intro i hi
  rw [List.eq_of_mem_replicate hi]
  decide

end GuardState

end VpsGuard
