import VpsGuard.Core.State
import Mathlib.Data.List.Infix
import Mathlib.Data.List.TakeWhile

/-!
# Hysteresis

What the history of a guard state says about it. A *history* is what an
observer of the steps — windows, holds and releases — remembers: whether the
state is held, and the windows that counted, i.e., those that came while it
was not held, since the last release (`History`).

* The counters of the state are the lengths, up to `255`, of the protective
  and of the stable windows at the end of its history (`Follows`).
* Without three protective windows in a row, the mode stays below local
  protection (`sustained_of_beyond`).
* The emergency is entered from below after five protective windows in a row,
  the last one distributed (`of_enters_emergencyProxy`), and is left by no
  window, except for the wait for its end, after five stable windows in a row,
  the last one with the protection verified (`of_enters_recoveryReady`).
* Wherever a run has led, five stable windows in a row settle the mode
  (`GuardState.calm_returns`).
-/

namespace VpsGuard

open GuardState

/-- What may be done to a guard state. -/
inductive GuardState.Step
  | transition (input : TransitionInput)
  | hold (now : String)
  | resume (now : String)

namespace GuardState

def apply (s : GuardState) : Step → GuardState
  | .transition input => s.transition input
  | .hold now => s.hold now
  | .resume now => s.resume now

/-- The state after the steps, in turn. -/
def run (s : GuardState) (steps : List Step) : GuardState := steps.foldl apply s

@[simp] theorem run_append_singleton (s : GuardState) (steps : List Step) (step : Step) :
    s.run (steps ++ [step]) = (s.run steps).apply step := by
  simp [run]

end GuardState

/-! ## Histories -/

/-- What an observer of the steps remembers. -/
structure History where
  held : Bool
  /-- The windows since the last release that came while not held, the latest first. -/
  windows : List TransitionInput

namespace History

/-- What a step adds. A window does not count while the guard is held. -/
def record (h : History) : GuardState.Step → History
  | .transition input => if h.held then h else { h with windows := input :: h.windows }
  | .hold _ => { h with held := true }
  | .resume _ => { held := false, windows := [] }

def ofSteps (steps : List GuardState.Step) : History :=
  steps.foldl record { held := false, windows := [] }

@[simp] theorem ofSteps_append_singleton (steps : List GuardState.Step) (step : GuardState.Step) :
    ofSteps (steps ++ [step]) = (ofSteps steps).record step := by
  simp [ofSteps]

/-- The protective windows in a row, up to now. -/
def breaches (h : History) : List TransitionInput := h.windows.takeWhile (·.risky)

/-- The stable windows in a row, up to now. -/
def calms (h : History) : List TransitionInput := h.windows.takeWhile (!·.risky)

end History

/-- At some time of the steps, `n` protective windows came in a row. -/
def Sustained (n : ℕ) (steps : List GuardState.Step) : Prop :=
  ∃ pre, pre <+: steps ∧ ∃ block, block <:+: (History.ofSteps pre).windows ∧
    block.length = n ∧ ∀ input ∈ block, input.risky

variable {steps : List GuardState.Step}

theorem Sustained.append {n : ℕ} (h : Sustained n steps)
    (more : List GuardState.Step) : Sustained n (steps ++ more) := by
  obtain ⟨pre, hpre, hblock⟩ := h
  exact ⟨pre, hpre.trans (List.prefix_append steps more), hblock⟩

theorem sustained_of_le_breaches {n : ℕ}
    (h : n ≤ (History.ofSteps steps).breaches.length) : Sustained n steps := by
  refine ⟨steps, List.prefix_rfl, (History.ofSteps steps).breaches.take n, ?_, by simp [h], ?_⟩
  · exact ((List.take_prefix _ _).trans (List.takeWhile_prefix _)).isInfix
  · exact fun input hi => List.mem_takeWhile_imp (List.mem_of_mem_take hi)

/-! ## The counters -/

/-- The state follows the history: it is held when the history says so, and
    its counters are those of the windows in a row. -/
structure Follows (s : GuardState) (h : History) : Prop where
  manualHold : s.manualHold = h.held
  currentMode : s.currentMode = .manualHold ↔ h.held = true
  breachWindows : s.breachWindows = min h.breaches.length 255
  stableWindows : s.stableWindows = min h.calms.length 255

namespace Follows

variable {s : GuardState} {h : History}

theorem normal (now : String) : Follows (.normal now) (.ofSteps []) := by
  constructor <;> simp [GuardState.normal, History.ofSteps, History.breaches, History.calms]

theorem count (hs : Follows s h) (input : TransitionInput) : (s.count input).breachWindows =
        min (List.takeWhile (·.risky) (input :: h.windows)).length 255 ∧
      (s.count input).stableWindows =
        min (List.takeWhile (!·.risky) (input :: h.windows)).length 255 := by
  have hb := hs.breachWindows
  have hc := hs.stableWindows
  unfold History.breaches at hb
  unfold History.calms at hc
  unfold GuardState.count
  cases hr : input.risky
  · simp [hr, saturatingAdd, hc]
    omega
  · simp [hr, saturatingAdd, hb]
    omega

theorem step (hs : Follows s h) (step : GuardState.Step) :
    Follows (s.apply step) (h.record step) := by
  cases step with
  | transition input =>
    cases hheld : h.held with
    | true =>
      rw [apply, transition_of_held (hs.manualHold.trans hheld)]
      simpa [History.record, hheld] using hs
    | false =>
      have hrec : h.record (.transition input) = { h with windows := input :: h.windows } := by
        simp [History.record, hheld]
      obtain ⟨hb, hc⟩ := hs.count input
      rw [hrec, apply]
      refine ⟨by rw [transition_manualHold, hs.manualHold], ?_, ?_, ?_⟩
      · rw [transition_currentMode_eq_manualHold_iff]
        exact hs.currentMode
      · rw [transition_of_not_held (hs.manualHold.trans hheld)]
        simpa [History.breaches] using hb
      · rw [transition_of_not_held (hs.manualHold.trans hheld)]
        simpa [History.calms] using hc
  | hold now =>
    exact ⟨rfl, by simp [apply, hold, History.record], hs.breachWindows, hs.stableWindows⟩
  | resume now =>
    constructor <;> simp [apply, resume, History.record, History.breaches, History.calms]

theorem run (now : String) (steps : List GuardState.Step) :
    Follows ((GuardState.normal now).run steps) (.ofSteps steps) := by
  induction steps using List.reverseRecOn with
  | nil => exact normal now
  | append_singleton steps step ih =>
    rw [run_append_singleton, History.ofSteps_append_singleton]
    exact ih.step step

end Follows

/-! ## The modes -/

namespace GuardState

variable {s : GuardState} {input : TransitionInput} {step : Step}

/-- Local protection, or more. -/
def Beyond (m : GuardMode) : Prop := m ≠ .normal ∧ m ≠ .watch ∧ m ≠ .manualHold

/-- The emergency, or the wait for its end. -/
def External (m : GuardMode) : Prop := m = .emergencyProxy ∨ m = .recoveryReady

instance : DecidablePred Beyond := fun _ => inferInstanceAs (Decidable (_ ∧ _))

instance : DecidablePred External := fun _ => inferInstanceAs (Decidable (_ ∨ _))

theorem of_nextMode_beyond (h : Beyond (s.nextMode input)) :
    Beyond s.currentMode ∨ s.currentMode = .watch ∧ 3 ≤ s.breachWindows := by
  unfold nextMode at h
  split at h
  · next hm => split at h <;> simp [Beyond] at h
  · next hm =>
    split at h
    · next hb => exact .inr ⟨hm, hb⟩
    · split at h <;> simp [Beyond] at h
  all_goals next hm => first | exact .inl (by rw [hm]; decide) | simp [Beyond] at h

theorem of_nextMode_emergencyProxy (h : s.nextMode input = .emergencyProxy) :
    External s.currentMode ∨
      s.currentMode = .localGuard ∧ 5 ≤ s.breachWindows ∧ input.distributedPressure = true := by
  unfold nextMode at h
  split at h
  · split at h <;> cases h
  · split_ifs at h
  · next hm =>
    split at h
    · next hc =>
      rw [Bool.and_eq_true, decide_eq_true_iff] at hc
      exact .inr ⟨hm, hc⟩
    · split at h <;> cases h
  · next hm => exact .inl (.inl hm)
  · next hm => exact .inl (.inr hm)
  · split at h <;> cases h
  · cases h

theorem of_nextMode_recoveryReady (h : s.nextMode input = .recoveryReady) :
    s.currentMode = .recoveryReady ∨
      5 ≤ s.stableWindows ∧ input.providerVerified = true := by
  unfold nextMode at h
  split at h
  · split at h <;> cases h
  · split_ifs at h
  · split_ifs at h
  · split at h
    · next hc =>
      rw [Bool.and_eq_true, Bool.and_eq_true, decide_eq_true_iff] at hc
      exact .inr ⟨hc.1.2, hc.2⟩
    · cases h
  · next hm => exact .inl hm
  · split at h <;> cases h
  · cases h

theorem External.nextMode (h : External s.currentMode) : External (s.nextMode input) := by
  unfold GuardState.nextMode
  rcases h with h | h <;> rw [h] <;> simp only <;> split <;> simp [External]

theorem External.transition (h : External s.currentMode) :
    External (s.transition input).currentMode := by
  unfold GuardState.transition
  split
  · exact h
  · simp only [setMode_currentMode]
    exact External.nextMode (by rwa [count_currentMode])

theorem of_apply_currentMode {m : GuardMode} (h : (s.apply step).currentMode = m)
    (hm : s.currentMode ≠ m) (hw : m ≠ .watch) (hh : m ≠ .manualHold) :
    ∃ input, step = .transition input ∧ s.manualHold = false ∧
      (s.count input).nextMode input = m := by
  cases step with
  | transition input =>
    cases hheld : s.manualHold with
    | true => exact absurd (by rwa [apply, transition_of_held hheld] at h) hm
    | false =>
      rw [apply, transition_of_not_held hheld, setMode_currentMode] at h
      exact ⟨input, rfl, rfl, h⟩
  | hold now => exact absurd h.symm hh
  | resume now => exact absurd h.symm hw

end GuardState

open GuardState

variable {now : String} {steps : List GuardState.Step} {step : GuardState.Step}

theorem record_transition (input : TransitionInput)
    (h : ((normal now).run steps).manualHold = false) :
    (((normal now).run steps).count input).breachWindows =
        min ((History.ofSteps steps).record (.transition input)).breaches.length 255 ∧
      (((normal now).run steps).count input).stableWindows =
        min ((History.ofSteps steps).record (.transition input)).calms.length 255 := by
  have hf := Follows.run now steps
  have hheld : (History.ofSteps steps).held = false := hf.manualHold ▸ h
  simpa [History.record, hheld, History.breaches, History.calms] using hf.count input

/-- Local protection needs three protective windows in a row. -/
theorem sustained_of_beyond (h : Beyond ((normal now).run steps).currentMode) :
    Sustained 3 steps := by
  induction steps using List.reverseRecOn with
  | nil => exact absurd rfl h.1
  | append_singleton steps step ih =>
    rw [run_append_singleton] at h
    by_cases hb : Beyond ((normal now).run steps).currentMode
    · exact (ih hb).append [step]
    · -- The step goes beyond: it is a window from `watch`, the third protective one in a row.
      obtain ⟨input, rfl, hheld, hnext⟩ := of_apply_currentMode rfl
        (fun he => hb (he ▸ h)) h.2.1 h.2.2
      have hcount := (record_transition input hheld).1
      rcases of_nextMode_beyond (hnext ▸ h) with hb' | ⟨_, hthree⟩
      · exact absurd (count_currentMode ▸ hb') hb
      · refine sustained_of_le_breaches ?_
        rw [History.ofSteps_append_singleton]
        omega

theorem of_enters_emergencyProxy
    (h : (((normal now).run steps).apply step).currentMode = .emergencyProxy)
    (hm : ¬External ((normal now).run steps).currentMode) :
    ∃ input, step = .transition input ∧ input.distributedPressure = true ∧
      5 ≤ (History.ofSteps (steps ++ [step])).breaches.length := by
  obtain ⟨input, rfl, hheld, hnext⟩ := of_apply_currentMode h (fun he => hm (.inl he))
    (by decide) (by decide)
  have hcount := (record_transition input hheld).1
  rcases of_nextMode_emergencyProxy hnext with hext | ⟨_, hfive, hdist⟩
  · exact absurd (count_currentMode ▸ hext) hm
  · refine ⟨input, rfl, hdist, ?_⟩
    rw [History.ofSteps_append_singleton]
    omega

theorem of_enters_recoveryReady
    (h : (((normal now).run steps).apply step).currentMode = .recoveryReady)
    (hm : ((normal now).run steps).currentMode ≠ .recoveryReady) :
    ∃ input, step = .transition input ∧ input.providerVerified = true ∧
      5 ≤ (History.ofSteps (steps ++ [step])).calms.length := by
  obtain ⟨input, rfl, hheld, hnext⟩ := of_apply_currentMode h hm (by decide) (by decide)
  have hcount := (record_transition input hheld).2
  rcases of_nextMode_recoveryReady hnext with hrec | ⟨hfive, hver⟩
  · exact absurd (count_currentMode ▸ hrec) hm
  · refine ⟨input, rfl, hver, ?_⟩
    rw [History.ofSteps_append_singleton]
    omega

theorem External.foldl_transition {s : GuardState} (h : External s.currentMode)
    (inputs : List TransitionInput) : External (inputs.foldl transition s).currentMode := by
  induction inputs generalizing s with
  | nil => exact h
  | cons input inputs ih => exact ih h.transition

/-- **Hysteresis.** After any steps from the state of a fresh installation:

* the counters are the lengths, up to `255`, of the protective and of the
  stable windows in a row, among those that counted since the last release;
* the mode was below local protection all along if three protective windows
  never came in a row;
* a step enters the emergency, from another mode than the wait for its end,
  only as a distributed window ending five protective ones in a row;
* windows alone leave the emergency only for the wait for its end and back,
  and a step enters that wait only as a window, with the protection verified,
  ending five stable ones in a row. -/
theorem hysteresis (now : String) (steps : List GuardState.Step) :
    (((normal now).run steps).breachWindows =
        min (History.ofSteps steps).breaches.length 255 ∧
      ((normal now).run steps).stableWindows =
        min (History.ofSteps steps).calms.length 255) ∧
    (¬Sustained 3 steps → ∀ pre, pre <+: steps →
      ((normal now).run pre).currentMode = .normal ∨
        ((normal now).run pre).currentMode = .watch ∨
        ((normal now).run pre).currentMode = .manualHold) ∧
    (∀ step, (((normal now).run steps).apply step).currentMode = .emergencyProxy →
      ((normal now).run steps).currentMode ≠ .emergencyProxy →
      ((normal now).run steps).currentMode ≠ .recoveryReady →
      ∃ input, step = .transition input ∧ input.distributedPressure = true ∧
        5 ≤ (History.ofSteps (steps ++ [step])).breaches.length) ∧
    (External ((normal now).run steps).currentMode → ∀ inputs : List TransitionInput,
      External (inputs.foldl transition ((normal now).run steps)).currentMode) ∧
    ∀ step, (((normal now).run steps).apply step).currentMode = .recoveryReady →
      ((normal now).run steps).currentMode ≠ .recoveryReady →
      ∃ input, step = .transition input ∧ input.providerVerified = true ∧
        5 ≤ (History.ofSteps (steps ++ [step])).calms.length := by
  have hf := Follows.run now steps
  refine ⟨⟨hf.breachWindows, hf.stableWindows⟩, fun hs pre hpre => ?_, fun step h hE hR => ?_,
    External.foldl_transition, fun step => of_enters_recoveryReady⟩
  · by_contra hne
    push Not at hne
    obtain ⟨more, rfl⟩ := hpre
    exact hs ((sustained_of_beyond hne).append more)
  · exact of_enters_emergencyProxy h fun hext => hext.elim hE hR

/-! ## Calm -/

namespace GuardState

/-- The state after `n` calm windows. -/
def Settling (n : ℕ) (s : GuardState) : Prop :=
  s.manualHold = false ∧ min n 255 ≤ s.stableWindows ∧
    match s.currentMode with
    | .normal | .recoveryReady => True
    | .watch => n < 2
    | .localGuard => n < 3
    | .recovering | .emergencyProxy => n < 5
    | .manualHold => False

theorem settling_transition {n : ℕ} {s : GuardState} {input : TransitionInput} (h : s.Settling n)
    (hcalm : input.risky = false)
    (hverified : External s.currentMode → input.providerVerified = true) :
    (s.transition input).Settling (n + 1) ∧
      (External (s.transition input).currentMode ↔ External s.currentMode) := by
  obtain ⟨hheld, hstable, hmode⟩ := h
  rw [transition_of_not_held hheld]
  refine ⟨⟨by simpa using hheld, ?_, ?_⟩, ?_⟩
  · simp [count, hcalm, saturatingAdd]
    omega
  · -- A mode is left when as many calm windows have come as it asks for.
    simp only [setMode_currentMode, nextMode, count_currentMode]
    cases hs : s.currentMode <;> simp_all [count, saturatingAdd, External]
    all_goals split_ifs <;> simp_all <;> omega
  · simp only [External, setMode_currentMode, nextMode, count_currentMode]
    cases hs : s.currentMode <;> simp_all [count] <;> grind

theorem settling_foldl {n : ℕ} {s : GuardState} (h : s.Settling n) {inputs : List TransitionInput}
    (hcalm : ∀ input ∈ inputs, input.risky = false)
    (hverified : External s.currentMode → ∀ input ∈ inputs, input.providerVerified = true) :
    (inputs.foldl transition s).Settling (n + inputs.length) ∧
      (External (inputs.foldl transition s).currentMode ↔ External s.currentMode) := by
  induction inputs generalizing n s with
  | nil => exact ⟨h, .rfl⟩
  | cons input inputs ih =>
    simp only [List.mem_cons, forall_eq_or_imp] at hcalm hverified
    obtain ⟨hsettling, hexternal⟩ := settling_transition h hcalm.1 fun he => (hverified he).1
    obtain ⟨hend, hend'⟩ := ih hsettling hcalm.2 fun he => (hverified (hexternal.1 he)).2
    rw [List.length_cons, add_comm inputs.length, ← add_assoc]
    exact ⟨hend, hend'.trans hexternal⟩

/-- From wherever a run has led, five calm windows in a row end the protection by the guard
    itself, and make external protection ready to be ended, if it is verified. -/
theorem calm_returns {s : GuardState} (hs : s.Valid) (hheld : s.manualHold = false)
    (inputs : List TransitionInput) (hlength : 5 ≤ inputs.length)
    (hcalm : ∀ input ∈ inputs, input.risky = false)
    (hverified : External s.currentMode → ∀ input ∈ inputs, input.providerVerified = true) :
    (inputs.foldl transition s).currentMode =
      if External s.currentMode then .recoveryReady else .normal := by
  have hstart : s.Settling 0 := by
    have hmode := (valid_iff.1 hs).2
    refine ⟨hheld, Nat.zero_le _, ?_⟩
    cases hm : s.currentMode <;> simp_all
  obtain ⟨⟨-, -, hmode⟩, hexternal⟩ := settling_foldl hstart hcalm hverified
  rw [zero_add] at hmode
  rw [← if_congr hexternal rfl rfl]
  cases hm : (inputs.foldl transition s).currentMode <;> simp [hm, External] at hmode ⊢ <;> omega

theorem calm_returns_normal :
    ((List.replicate 5 ⟨Detector.assess ⟨90, 0, 0, 0, .unavailable, true, false⟩, false, false,
      ""⟩).foldl transition
      { normal "" with currentMode := .localGuard, breachWindows := 9 }).currentMode = .normal :=
  calm_returns (by decide) rfl _ (by decide) (by decide) (by decide)

end GuardState

end VpsGuard
