import Mathlib.Algebra.Group.Nat.Defs
import Mathlib.Tactic.Common

/-!
# Detection

The rule-based detector of `guard-core`: from the signals of one window
(`DetectionInput`) to an assessment with its scores, its recommended decision
and the reasons for it (`Detector.assess`). Worse signals are never answered by
a milder decision (`Detector.assess_mono`).

The machine integers of the source are natural numbers here. Where one of them
may leave its range the source says what happens, and so does the model: it
stays at the largest value (`saturatingAdd`, `saturatingProd`), or there is no
result (`checkedAdd`).
-/

namespace VpsGuard

/-! ## Machine integers -/

/-- `a + b` in unsigned integers of `bits` bits, stopping at the largest one. -/
def saturatingAdd (bits a b : ℕ) : ℕ := min (a + b) (2 ^ bits - 1)

/-- `a * b` in unsigned integers of `bits` bits, stopping at the largest one. -/
def saturatingProd (bits a b : ℕ) : ℕ := min (a * b) (2 ^ bits - 1)

/-- `a + b` in unsigned integers of `bits` bits, if it is one. -/
def checkedAdd (bits a b : ℕ) : Option ℕ := if a + b < 2 ^ bits then some (a + b) else none

theorem checkedAdd_eq_some_iff {bits a b c : ℕ} :
    checkedAdd bits a b = some c ↔ a + b < 2 ^ bits ∧ c = a + b := by
  unfold checkedAdd
  split
  · next h => simp [h, eq_comm]
  · next h => simp [h]

/-! ## Signals -/

/-- How busy the host is. -/
structure HostPressure where
  score : ℕ
  signalsAvailable : Bool
  score_le : score ≤ 100
  deriving DecidableEq

/-- The pressure when the collector has recent signals. -/
def HostPressure.available (score : ℕ) : HostPressure where
  score := if score > 100 then 100 else score
  signalsAvailable := true
  score_le := by split <;> omega

/-- The pressure when the collector has none. -/
def HostPressure.unavailable : HostPressure where
  score := 0
  signalsAvailable := false
  score_le := by omega

/-- The signals of one window. -/
structure DetectionInput where
  /-- The trust in a verified identity or session. -/
  trust : ℕ
  automation : ℕ
  routeCost : ℕ
  upstreamPressure : ℕ
  hostPressure : HostPressure
  sessionContinuity : Bool
  crawlerVerified : Bool
  deriving DecidableEq

/-! ## Assessments -/

/-- What an assessment gives as a reason. -/
inductive ReasonCode
  | automationPattern
  | expensiveRoute
  | upstreamPressure
  | hostResourcePressure
  | noSessionContinuity
  | verifiedCrawler
  | resourceSignalsMissing
  | trustedIdentity
  deriving DecidableEq

/-- What to do with the requests. -/
inductive Decision
  | allow
  | observe
  | throttle
  | challenge
  | deny
  deriving DecidableEq

def Decision.isProtective : Decision → Bool
  | throttle | challenge | deny => true
  | allow | observe => false

/-- The scores, the decision and its reasons. -/
structure Assessment where
  trustScore : ℕ
  botLikelihood : ℕ
  resourceCost : ℕ
  /-- How complete the signals were. -/
  confidence : ℕ
  decision : Decision
  reasonCodes : List ReasonCode
  deriving DecidableEq

namespace Detector

/-- The decision follows from what the requests cost, and how far the client is trusted. -/
def decisionOf (cost bot trustScore : ℕ) : Decision :=
  if cost ≥ 80 && bot ≥ 80 && trustScore < 40 then .deny
  else if cost ≥ 65 && bot ≥ 60 && trustScore < 60 then .challenge
  else if cost ≥ 60 then .throttle
  else if bot ≥ 60 && trustScore < 50 then .observe
  else .allow

/-- The assessment of a window. -/
def assess (input : DetectionInput) : Assessment :=
  let trustScore := min input.trust 100
  let hostPressure := if input.hostPressure.signalsAvailable then input.hostPressure.score else 0
  let effectivePressure := max (min input.upstreamPressure 100) hostPressure
  let cost := min (saturatingAdd 8 (min input.routeCost 100) (effectivePressure / 2)) 100
  let bot := min input.automation 100
  let bot := if input.sessionContinuity then bot - 20 else bot
  let bot := if input.crawlerVerified then bot - 35 else bot
  let reasons :=
    (if input.automation ≥ 50 then [.automationPattern] else []) ++
    (if input.routeCost ≥ 50 then [.expensiveRoute] else []) ++
    (if input.upstreamPressure ≥ 50 then [.upstreamPressure] else []) ++
    (if hostPressure ≥ 50 then [.hostResourcePressure] else []) ++
    (if input.sessionContinuity then [.trustedIdentity] else [.noSessionContinuity]) ++
    (if input.crawlerVerified then [.verifiedCrawler] else []) ++
    (if input.hostPressure.signalsAvailable then [] else [.resourceSignalsMissing])
  { trustScore
    botLikelihood := bot
    resourceCost := cost
    confidence := if input.hostPressure.signalsAvailable then 100 else 60
    decision := decisionOf cost bot trustScore
    reasonCodes := reasons }

theorem reasonCodes_ne_nil (input : DetectionInput) : (assess input).reasonCodes ≠ [] := by
  simp only [assess, ne_eq, List.append_eq_nil_iff]
  rintro ⟨⟨⟨_, hsession⟩, _⟩, _⟩
  -- The session continues or it does not, and both are reasons.
  split at hsession <;> cases hsession

theorem scores_le (input : DetectionInput) : (assess input).trustScore ≤ 100 ∧
    (assess input).botLikelihood ≤ 100 ∧ (assess input).resourceCost ≤ 100 := by
  refine ⟨Nat.min_le_right _ _, ?_, Nat.min_le_right _ _⟩
  have hbot : min input.automation 100 ≤ 100 := Nat.min_le_right _ _
  simp only [assess]
  split <;> split <;> omega

end Detector

/-! ## Worse signals -/

def HostPressure.known (p : HostPressure) : ℕ := if p.signalsAvailable then p.score else 0

/-- The signals of a window are not worse than those of another one. A signal that is not there
    counts for nothing. -/
structure DetectionInput.Milder (a b : DetectionInput) : Prop where
  trust : b.trust ≤ a.trust
  automation : a.automation ≤ b.automation
  routeCost : a.routeCost ≤ b.routeCost
  upstreamPressure : a.upstreamPressure ≤ b.upstreamPressure
  hostPressure : a.hostPressure.known ≤ b.hostPressure.known
  sessionContinuity : b.sessionContinuity = true → a.sessionContinuity = true
  crawlerVerified : b.crawlerVerified = true → a.crawlerVerified = true

def Decision.severity : Decision → ℕ
  | allow => 0
  | observe => 1
  | throttle => 2
  | challenge => 3
  | deny => 4

namespace Detector

/-- What lowers a score lowers it for whoever has it. -/
theorem discount_mono {p q : Bool} {m n : ℕ} (h : q = true → p = true) (hle : m ≤ n) (k : ℕ) :
    (if p then m - k else m) ≤ if q then n - k else n := by
  cases p <;> cases q <;> simp at h ⊢ <;> omega

theorem severity_decisionOf {cost cost' bot bot' trust trust' : ℕ} (hcost : cost ≤ cost')
    (hbot : bot ≤ bot') (htrust : trust' ≤ trust) :
    (decisionOf cost bot trust).severity ≤ (decisionOf cost' bot' trust').severity := by
  -- The conditions of a decision that is more severe are met by the worse scores, too.
  simp only [decisionOf, Bool.and_eq_true, decide_eq_true_eq]
  split_ifs <;> simp only [Decision.severity] <;> omega

/-- Worse signals are never answered by a milder decision. -/
theorem assess_mono {a b : DetectionInput} (h : a.Milder b) :
    (assess a).decision.severity ≤ (assess b).decision.severity ∧
      ((assess a).decision.isProtective → (assess b).decision.isProtective) := by
  have hle : (assess a).decision.severity ≤ (assess b).decision.severity := by
    obtain ⟨htrust, hautomation, hroute, hupstream, hhost, hsession, hcrawler⟩ := h
    rw [HostPressure.known, HostPressure.known] at hhost
    refine severity_decisionOf ?_ ?_ (by omega)
    · rw [saturatingAdd, saturatingAdd]
      omega
    · exact discount_mono hcrawler (discount_mono hsession (by omega) 20) 35
  have hprotective (d : Decision) : d.isProtective ↔ 2 ≤ d.severity := by cases d <;> decide
  rw [hprotective, hprotective]
  exact ⟨hle, fun h => Nat.le_trans h hle⟩

theorem assess_mono_crawler :
    (assess ⟨10, 90, 90, 80, .unavailable, false, true⟩).decision.severity ≤
      (assess ⟨10, 90, 90, 80, .unavailable, false, false⟩).decision.severity :=
  (assess_mono ⟨by decide, by decide, by decide, by decide, by decide, by decide, by decide⟩).1

end Detector

end VpsGuard
