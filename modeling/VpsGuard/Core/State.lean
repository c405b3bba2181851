import VpsGuard.Core.Detection

/-!
# The guard state

The control state that `guard-core` keeps over restarts (`GuardState`): the
mode of protection, whether an administrator holds it, and the counts of the
windows behind the hysteresis. It changes by three operations:

* `transition`, at every window of detection: the counts follow the window,
  and the mode follows the counts. A held state does not change;
* `hold`, which fixes the mode, and `resume`, which releases it into `watch`
  with fresh counts.

`validate` is the check made when a stored state is loaded again: of the known
schema, and held exactly when its mode says so (`Valid`). The three operations
keep it.
-/

namespace VpsGuard

/-- The modes of the guard. -/
inductive GuardMode
  /-- Observing. -/
  | normal
  /-- Observing in detail. -/
  | watch
  | localGuard
  /-- In need of external protection. -/
  | emergencyProxy
  /-- Waiting, externally protected, for an administrator to end it. -/
  | recoveryReady
  /-- Releasing the limits. -/
  | recovering
  /-- Held by an administrator. -/
  | manualHold
  deriving DecidableEq

/-- The state of the guard, as it is stored. -/
structure GuardState where
  schemaVersion : ℕ
  currentMode : GuardMode
  /-- Automatic changes of the mode are suspended. -/
  manualHold : Bool
  /-- The version of the policy applied last. -/
  policyVersion : ℕ
  lastTransitionAt : String
  lastHealthyAt : String
  activeIncidentId : Option String
  bypassEnabled : Bool
  /-- The protective windows in a row, up to `255`. -/
  breachWindows : ℕ
  /-- The stable windows in a row, up to `255`. -/
  stableWindows : ℕ
  deriving DecidableEq

/-- What a change of the mode depends on. -/
structure TransitionInput where
  assessment : Assessment
  distributedPressure : Bool
  /-- The external protection is in effect. -/
  providerVerified : Bool
  occurredAt : String
  deriving DecidableEq

inductive StateError
  | unsupportedSchema (version : ℕ)
  | manualHoldMismatch

/-- The window asks for protection. -/
def TransitionInput.risky (input : TransitionInput) : Bool := input.assessment.decision.isProtective

namespace GuardState

/-- The state of a fresh installation. -/
def normal (now : String) : GuardState where
  schemaVersion := 1
  currentMode := .normal
  manualHold := false
  policyVersion := 0
  lastTransitionAt := now
  lastHealthyAt := now
  activeIncidentId := none
  bypassEnabled := false
  breachWindows := 0
  stableWindows := 0

variable (s : GuardState)

/-- The check of a stored state. -/
def validate : Except StateError Unit :=
  if s.schemaVersion ≠ 1 then .error (.unsupportedSchema s.schemaVersion)
  else if s.manualHold ≠ decide (s.currentMode = .manualHold) then .error .manualHoldMismatch
  else .ok ()

/-- A window counts as risky or as stable, and ends the other row. -/
def count (input : TransitionInput) : GuardState :=
  if input.risky then
    { s with breachWindows := saturatingAdd 8 s.breachWindows 1, stableWindows := 0 }
  else
    { s with
      stableWindows := saturatingAdd 8 s.stableWindows 1
      breachWindows := 0
      lastHealthyAt := input.occurredAt }

/-- The mode after a window, with the hysteresis. -/
def nextMode (input : TransitionInput) : GuardMode :=
  match s.currentMode with
  | .normal => if input.risky then .watch else .normal
  | .watch =>
    if s.breachWindows ≥ 3 then .localGuard
    else if s.stableWindows ≥ 2 then .normal
    else .watch
  | .localGuard =>
    if s.breachWindows ≥ 5 && input.distributedPressure then .emergencyProxy
    else if s.stableWindows ≥ 3 then .recovering
    else .localGuard
  | .emergencyProxy =>
    if !input.risky && s.stableWindows ≥ 5 && input.providerVerified then .recoveryReady
    else .emergencyProxy
  | .recoveryReady => if input.risky then .emergencyProxy else .recoveryReady
  | .recovering => if s.stableWindows ≥ 5 then .normal else .recovering
  | .manualHold => .manualHold

/-- The mode changes to `mode`, at the given time if it is another one. -/
def setMode (mode : GuardMode) (now : String) : GuardState :=
  if mode ≠ s.currentMode then { s with currentMode := mode, lastTransitionAt := now } else s

/-- A window, with the hysteresis. -/
def transition (input : TransitionInput) : GuardState :=
  if s.manualHold then s
  else
    let s := s.count input
    s.setMode (s.nextMode input) input.occurredAt

/-- An operator holds the guard. -/
def hold (now : String) : GuardState :=
  { s with currentMode := .manualHold, manualHold := true, lastTransitionAt := now }

/-- The hold is released. The guard watches, and counts anew. -/
def resume (now : String) : GuardState :=
  { s with
    currentMode := .watch
    manualHold := false
    breachWindows := 0
    stableWindows := 0
    lastTransitionAt := now }

/-! ## Valid states -/

/-- A state that a start accepts. -/
def Valid : Prop := s.validate = .ok ()

instance (s : GuardState) : Decidable s.Valid :=
  decidable_of_iff (s.schemaVersion = 1 ∧ s.manualHold = decide (s.currentMode = .manualHold)) <| by
    unfold Valid validate
    split
    · next h => simp [h]
    · split
      · next h h' => simp [h']
      · next h h' => simpa using ⟨not_not.1 h, not_not.1 h'⟩

theorem valid_iff {s : GuardState} :
    s.Valid ↔ s.schemaVersion = 1 ∧ (s.manualHold = true ↔ s.currentMode = .manualHold) := by
  unfold Valid validate
  split
  · next h => simp [h]
  · split
    · next h h' =>
      simp only [reduceCtorEq, false_iff, not_and]
      intro _ hiff
      exact h' (by rw [Bool.eq_iff_iff, hiff, decide_eq_true_iff])
    · next h h' =>
      have hm : s.manualHold = decide (s.currentMode = .manualHold) := not_not.1 h'
      simp [not_not.1 h, hm]

/-! ## What the operations change -/

variable {s : GuardState} {input : TransitionInput} {now : String}

@[simp] theorem count_currentMode : (s.count input).currentMode = s.currentMode := by
  unfold count; split <;> rfl

@[simp] theorem count_manualHold : (s.count input).manualHold = s.manualHold := by
  unfold count; split <;> rfl

@[simp] theorem count_schemaVersion : (s.count input).schemaVersion = s.schemaVersion := by
  unfold count; split <;> rfl

variable {m : GuardMode}

@[simp] theorem setMode_currentMode : (s.setMode m now).currentMode = m := by
  unfold setMode
  split
  · rfl
  · next h => exact (not_not.1 h).symm

@[simp] theorem setMode_manualHold : (s.setMode m now).manualHold = s.manualHold := by
  unfold setMode; split <;> rfl

@[simp] theorem setMode_schemaVersion : (s.setMode m now).schemaVersion = s.schemaVersion := by
  unfold setMode; split <;> rfl

@[simp] theorem setMode_breachWindows : (s.setMode m now).breachWindows = s.breachWindows := by
  unfold setMode; split <;> rfl

@[simp] theorem setMode_stableWindows : (s.setMode m now).stableWindows = s.stableWindows := by
  unfold setMode; split <;> rfl

theorem transition_of_held (h : s.manualHold = true) : s.transition input = s := by
  simp [transition, h]

theorem transition_of_not_held (h : s.manualHold = false) : s.transition input =
    (s.count input).setMode ((s.count input).nextMode input) input.occurredAt := by
  simp [transition, h]

@[simp] theorem transition_manualHold : (s.transition input).manualHold = s.manualHold := by
  unfold transition; split <;> simp

@[simp] theorem transition_schemaVersion :
    (s.transition input).schemaVersion = s.schemaVersion := by
  unfold transition; split <;> simp

theorem nextMode_eq_manualHold_iff :
    s.nextMode input = .manualHold ↔ s.currentMode = .manualHold := by
  unfold nextMode
  split <;> simp_all <;> split_ifs <;> simp

theorem transition_currentMode_eq_manualHold_iff :
    (s.transition input).currentMode = .manualHold ↔ s.currentMode = .manualHold := by
  unfold transition
  split
  · rfl
  · simp [nextMode_eq_manualHold_iff]

/-! ## The operations keep validity -/

theorem valid_normal : (normal now).Valid := by
  simp [valid_iff, normal]

theorem Valid.transition (h : s.Valid) : (s.transition input).Valid := by
  rw [valid_iff] at h ⊢
  rw [transition_schemaVersion, transition_manualHold, transition_currentMode_eq_manualHold_iff]
  exact h

theorem Valid.hold (h : s.Valid) : (s.hold now).Valid := by
  rw [valid_iff] at h ⊢
  exact ⟨h.1, by simp [GuardState.hold]⟩

theorem Valid.resume (h : s.Valid) : (s.resume now).Valid := by
  rw [valid_iff] at h ⊢
  exact ⟨h.1, by simp [GuardState.resume]⟩

end GuardState

end VpsGuard
