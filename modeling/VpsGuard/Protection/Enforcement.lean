import VpsGuard.Edge.PolicyRuntime
import VpsGuard.Protection.Linearization

/-!
# Clients that are blocked

A client is blocked for a time: the manager writes a rule for it into the policy,
with the time until which it is to hold, as text; the edge loads the policy and
refuses the client as long as this time is not over. In between the rules are
written again with every policy, and rules that have expired are left out when a
client is blocked or unblocked.

A run (`Enforcement`) consists of operations of the manager that succeed, each
with what the clock showed for the rules, and of looks of the edge at the policy
file. If the edge has the policy of the file, a client is refused if and only if
the last operation about it was to block it, for a time that is not over
(`blocks_enforced`). This is at times that are not before those at which clients
were blocked or unblocked: a rule that was left out because it had expired is
missing at an earlier time (`block_forgotten`).
-/

namespace VpsGuard

open Effect PolicyRuntime

def lastFor (clientIp : IpAddr) (l : List (ProtectionRequest × ℕ)) : Option (ProtectionRequest × ℕ) :=
  l.reverse.find? (·.1.client = some clientIp)

/-- The last operation about a client was to block it, for a time that is not over. -/
def blockedAt (l : List (ProtectionRequest × ℕ)) (clientIp : IpAddr) (now : ℕ) : Bool :=
  match lastFor clientIp l with
  | some (.blockClient _ ttlSeconds _, created) => now < created + ttlSeconds
  | _ => false

section LastFor

variable {l : List (ProtectionRequest × ℕ)} {request : ProtectionRequest} {clientIp : IpAddr}
  {created now : ℕ}

theorem lastFor_append_of_ne (h : request.client ≠ some clientIp) :
    lastFor clientIp (l ++ [(request, created)]) = lastFor clientIp l := by
  simp [lastFor, h]

theorem blockedAt_append_of_ne (h : request.client ≠ some clientIp) :
    blockedAt (l ++ [(request, created)]) clientIp now = blockedAt l clientIp now := by
  rw [blockedAt, lastFor_append_of_ne h, blockedAt]

theorem lastFor_append_of_eq (h : request.client = some clientIp) :
    lastFor clientIp (l ++ [(request, created)]) = some (request, created) := by
  simp [lastFor, h]

end LastFor

namespace ProtectionWorld

variable (C : ProtectionCodec)

def ruleClock (now : ℕ) : ProtectionCondition
  | .nowUtc .clientRule, x, _ => x = .time now
  | _, _, _ => True

instance (now : ℕ) (o : ProtectionOp) (x : ProtectionChoice) (s : ProtectionWorld) :
    Decidable (ruleClock now o x s) := by
  unfold ruleClock
  split <;> infer_instance

/-- Runs of operations that succeed, with the time of each, and of looks of the edge. -/
inductive Enforcement : List (ProtectionRequest × ℕ) → ProtectionWorld → PolicyRuntime → Prop
  | start {s : ProtectionWorld} {mgr : ProtectionManager} : s.memory = some mgr → mgr.Regular →
      mgr.clientRules = [] → s.policy = none → Enforcement [] s .new
  | serve {l : List (ProtectionRequest × ℕ)} {s t : ProtectionWorld} {rt : PolicyRuntime}
      {request : ProtectionRequest} {now : ℕ} {answer : ProtectionAnswer} : Enforcement l s rt →
      Prog.Runs machine (ruleClock now) (request.serve C) s (.ok answer) t →
      Enforcement (l ++ [(request, now)]) t rt
  | reload {l : List (ProtectionRequest × ℕ)} {s : ProtectionWorld} {rt : PolicyRuntime} (now : ℕ) :
      Enforcement l s rt → Enforcement l s (rt.reloadAt C.toCodec (.ok s.policy) now).2

def Ruled (rules : List ClientRule) (clientIp : IpAddr) (now : ℕ) : Prop :=
  ∃ rule ∈ rules, rule.clientIp = clientIp ∧ (C.parseRfc3339 rule.expiresAt).any (· > now) = true

variable {now : ℕ} {a : AbstractProtection} {limits : StaticLimits} {request : ProtectionRequest}
  {ruleNow genNow : ℕ} {clientIp : IpAddr} {out : ProtectionOutcome} {answer : ProtectionAnswer}

theorem any_gt_iff {time : Option ℕ} :
    time.any (· > now) = true ↔ ∃ expires, time = some expires ∧ now < expires := by
  simp [Option.any_eq_true]

/-- The rules are those of the operations, and the policy file has them. -/
structure Enforcing (l : List (ProtectionRequest × ℕ)) (s : ProtectionWorld)
    (mgr : ProtectionManager) : Prop where
  memory : s.memory = some mgr
  regular : mgr.Regular
  single : (mgr.clientRules.map (·.clientIp)).Nodup
  deny : ∀ rule ∈ mgr.clientRules, rule.action = .deny
  ruled : ∀ clientIp now, (∀ e ∈ l, e.1.client ≠ none → e.2 ≤ now) →
    (Ruled C mgr.clientRules clientIp now ↔ blockedAt l clientIp now = true)
  policy : ∀ p, s.policy = some p → p.clientRules = mgr.clientRules

variable {C} {l : List (ProtectionRequest × ℕ)} {s t : ProtectionWorld} {rt : PolicyRuntime}

theorem perform_of_client_eq_none (h : request.client = none) :
    a.perform C limits request ruleNow now = a.perform C limits request 0 now := by
  cases request with
  | apply | writeForState => rfl
  | blockClient | unblockClient => cases h

theorem ruled_iff_of_ne (hout : a.perform C limits request ruleNow genNow = out)
    (hne : request.client ≠ some clientIp) (hnow : request.client ≠ none → ruleNow ≤ now) :
    Ruled C out.state.clientRules clientIp now ↔ Ruled C a.clientRules clientIp now := by
  obtain ⟨shown, hshown, rfl⟩ :
      ∃ shown ≤ now, a.perform C limits request shown genNow = out := by
    by_cases hclient : request.client = none
    · exact ⟨0, Nat.zero_le _, (perform_of_client_eq_none hclient).symm.trans hout⟩
    · exact ⟨ruleNow, hnow hclient, hout⟩
  have horderly := a.orderly_perform C limits request shown genNow
  constructor
  · rintro ⟨rule, hrule, rfl, hactive⟩
    exact ⟨rule, horderly.rules_from rule hrule hne, rfl, hactive⟩
  · -- What has not expired `now` had not when rules that had expired were left out.
    rintro ⟨rule, hrule, rfl, hactive⟩
    refine ⟨rule, horderly.rules_kept rule hrule hne ?_, rfl, hactive⟩
    obtain ⟨expires, hexpires, hlt⟩ := any_gt_iff.1 hactive
    exact any_gt_iff.2 ⟨expires, hexpires, Nat.lt_of_le_of_lt hshown hlt⟩

section

variable (horderly : a.Orderly C limits request ruleNow genNow out)
  (hresult : out.result = .ok answer) (hclient : request.client = some clientIp)

include horderly hresult hclient

theorem rules_of_client :
    (∃ ttlSeconds mode expiresAt, request = .blockClient clientIp ttlSeconds mode ∧
      C.parseRfc3339 expiresAt = some (ruleNow + ttlSeconds) ∧
      ∀ rule, rule ∈ out.state.clientRules ∧ rule.clientIp = clientIp ↔
        rule = ⟨clientIp, .deny, expiresAt, [.automationPattern]⟩) ∨
    (∃ mode, request = .unblockClient clientIp mode) ∧
      ∀ rule ∈ out.state.clientRules, rule.clientIp ≠ clientIp := by
  cases request with
  | apply | writeForState => cases hclient
  | blockClient ip ttlSeconds mode =>
    cases hclient
    obtain ⟨expiresAt, hformat, hfilter⟩ := horderly.blocked _ _ _ _ rfl hresult
    refine .inl ⟨ttlSeconds, mode, expiresAt, rfl, C.parse_format hformat, fun rule => ?_⟩
    have hmem : rule ∈ out.state.clientRules.filter (·.clientIp = clientIp) ↔ _ :=
      hfilter ▸ List.mem_singleton
    rwa [List.mem_filter, decide_eq_true_iff] at hmem
  | unblockClient ip mode =>
    cases hclient
    have hfilter := horderly.unblocked _ _ _ rfl hresult
    refine .inr ⟨⟨mode, rfl⟩, fun rule hrule hip => ?_⟩
    have hmem : rule ∈ out.state.clientRules.filter (·.clientIp = clientIp) :=
      List.mem_filter.2 ⟨hrule, decide_eq_true hip⟩
    rw [hfilter] at hmem
    cases hmem

theorem ruled_iff_of_eq : Ruled C out.state.clientRules clientIp now ↔
      blockedAt (l ++ [(request, ruleNow)]) clientIp now = true := by
  rw [blockedAt, lastFor_append_of_eq hclient]
  rcases rules_of_client horderly hresult hclient with
    ⟨ttlSeconds, mode, expiresAt, rfl, hparse, hrules⟩ | ⟨⟨mode, rfl⟩, hnone⟩
  · rw [decide_eq_true_iff]
    constructor
    · rintro ⟨rule, hrule, hip, hactive⟩
      obtain ⟨expires, hexpires, hlt⟩ := any_gt_iff.1 hactive
      rw [(hrules rule).1 ⟨hrule, hip⟩, hparse] at hexpires
      exact Option.some.inj hexpires ▸ hlt
    · intro hlt
      obtain ⟨hrule, hip⟩ := (hrules _).2 rfl
      exact ⟨_, hrule, hip, any_gt_iff.2 ⟨_, hparse, hlt⟩⟩
  · constructor
    · rintro ⟨rule, hrule, hip, -⟩
      exact absurd hip (hnone rule hrule)
    · intro h
      cases h

end

theorem Enforcing.serve {mgr : ProtectionManager} (h : Enforcing C l s mgr)
    (hruns : Prog.Runs machine (ruleClock now) (request.serve C) s (.ok answer) t) :
    ∃ mgr', Enforcing C (l ++ [(request, now)]) t mgr' := by
  have hclock : ∀ n s, ruleClock now (.nowUtc .clientRule) (.time n) s → n = now :=
    fun n s hn => ProtectionChoice.time.inj hn
  have hsafe := safe_serve (C := C) (fun (h : False) => h.elim) hclock ⟨now, rfl⟩ h.memory h.regular
    request
  obtain ⟨hrefines, -⟩ := Prog.Runs.safe (E := setting (ruleClock now) fun _ => True) hruns hsafe
    trivial
  cases hrefines with
  | failed _ hresult => cases hresult
  | @performed ruleNow genNow mgr' out hnow hout hresult hmgr' hstate _ hregular hpolicy =>
    subst hnow
    have horderly := mgr.abstract.orderly_perform C mgr.limits request ruleNow genNow
    rw [hout] at horderly
    have hrules : mgr'.clientRules = out.state.clientRules :=
      congrArg AbstractProtection.clientRules hstate
    refine ⟨mgr', hmgr', hregular, ?_, ?_, ?_, ?_⟩
    · rw [hrules]
      exact horderly.single h.single
    · rw [hrules]
      intro rule hrule
      by_cases hclient : request.client = some rule.clientIp
      · rcases rules_of_client horderly hresult hclient with
          ⟨_, _, expiresAt, -, -, hone⟩ | ⟨-, hnone⟩
        · rw [(hone rule).1 ⟨hrule, rfl⟩]
        · exact absurd rfl (hnone rule hrule)
      · exact h.deny rule (horderly.rules_from rule hrule hclient)
    · rw [hrules]
      intro clientIp now' hnow'
      by_cases hclient : request.client = some clientIp
      · exact ruled_iff_of_eq horderly hresult hclient
      · rw [blockedAt_append_of_ne hclient, ← h.ruled clientIp now' fun e he => hnow' e (by simp [he])]
        exact ruled_iff_of_ne hout hclient (hnow' (request, ruleNow) (by simp))
    · rw [hpolicy, hrules]
      intro p hp
      cases hpublished : out.published with
      | none =>
        rw [hpublished] at hp
        exact (h.policy p hp).trans (horderly.unpublished hpublished).2.1.symm
      | some p' =>
        rw [hpublished] at hp
        cases hp
        exact (horderly.sealed p hpublished).1

theorem exists_enforcing (h : Enforcement C l s rt) : ∃ mgr, Enforcing C l s mgr := by
  induction h with
  | @start s mgr hmgr hregular hrules hpolicy =>
    refine ⟨mgr, hmgr, hregular, by simp [hrules], by simp [hrules], fun clientIp now _ => ?_,
      by simp [hpolicy]⟩
    simp [Ruled, hrules, blockedAt, lastFor]
  | serve _ hruns ih =>
    obtain ⟨mgr, hmgr⟩ := ih
    exact hmgr.serve hruns
  | reload _ _ ih => exact ih

/-- Where all rules are to deny, the first one for a client that has not expired
    is as good as any. -/
theorem findSome?_ruleAction {rules : List ClientRule}
    (hdeny : ∀ rule ∈ rules, rule.action = .deny) {blocked : Bool}
    (hblocked : Ruled C rules clientIp now ↔ blocked = true) :
    rules.findSome? (ruleAction C.toCodec clientIp now) =
      if blocked = true then some .deny else none := by
  split
  · next h =>
    obtain ⟨rule, hrule, hip, hactive⟩ := hblocked.2 h
    cases hfind : rules.findSome? (ruleAction C.toCodec clientIp now) with
    | none =>
      have hnone := List.findSome?_eq_none_iff.1 hfind rule hrule
      rw [ruleAction_eq_some_iff.2 ⟨hip, rfl, any_gt_iff.1 hactive⟩] at hnone
      cases hnone
    | some action =>
      obtain ⟨rule', hrule', haction⟩ := List.exists_of_findSome?_eq_some hfind
      obtain ⟨-, rfl, -⟩ := ruleAction_eq_some_iff.1 haction
      rw [hdeny rule' hrule']
  · next h =>
    rw [List.findSome?_eq_none_iff]
    intro rule hrule
    cases haction : ruleAction C.toCodec clientIp now rule with
    | none => rfl
    | some action =>
      obtain ⟨hip, -, hexpires⟩ := ruleAction_eq_some_iff.1 haction
      exact absurd (hblocked.1 ⟨rule, hrule, hip, any_gt_iff.2 hexpires⟩) h

/-- **Blocks.** If the edge has the policy of the file, a client is refused if and
    only if the last operation about it was to block it, for a time that is not
    over; and the policy has at most one rule for a client. -/
theorem blocks_enforced (C : ProtectionCodec) (l : List (ProtectionRequest × ℕ))
    (s : ProtectionWorld) (rt : PolicyRuntime) (h : Enforcement C l s rt) (p : PolicySnapshot)
    (hfile : s.policy = some p) (now : ℕ) (hactive : rt.Active C.toCodec now p)
    (hnow : ∀ e ∈ l, e.1.client ≠ none → e.2 ≤ now) :
    (∀ clientIp routeClass, (rt.decisionAt C.toCodec (some clientIp) routeClass now).action =
      if blockedAt l clientIp now = true then some .deny else none) ∧
    (p.clientRules.map (·.clientIp)).Nodup := by
  obtain ⟨mgr, hmgr⟩ := exists_enforcing h
  have hrules := hmgr.policy p hfile
  refine ⟨fun clientIp routeClass => ?_, hrules ▸ hmgr.single⟩
  rw [hactive.decisionAt_eq]
  exact findSome?_ruleAction (hrules ▸ hmgr.deny) (hrules ▸ hmgr.ruled clientIp now hnow)

end ProtectionWorld

/-! ## Runs to compute -/

namespace ProtectionWorld

/-- The operations in turn, with their times and choices; they have to succeed. -/
def serveAll (C : ProtectionCodec) :
    List (ProtectionRequest × ℕ × List ProtectionChoice) → ProtectionWorld → Option ProtectionWorld
  | [], s => some s
  | (request, now, choices) :: events, s =>
    match Prog.run (machine.restrict (ruleClock now)) choices (request.serve C) s with
    | some (.ok _, t) => serveAll C events t
    | _ => none

theorem Enforcement.serveAll {C : ProtectionCodec} {l : List (ProtectionRequest × ℕ)}
    {s t : ProtectionWorld} {rt : PolicyRuntime}
    {events : List (ProtectionRequest × ℕ × List ProtectionChoice)} (h : Enforcement C l s rt)
    (ht : ProtectionWorld.serveAll C events s = some t) :
    Enforcement C (l ++ events.map fun e => (e.1, e.2.1)) t rt := by
  induction events generalizing l s with
  | nil =>
    cases ht
    rwa [List.map_nil, List.append_nil]
  | cons event events ih =>
    obtain ⟨request, now, choices⟩ := event
    rw [ProtectionWorld.serveAll] at ht
    split at ht
    · next answer u hrun =>
      rw [List.map_cons, List.append_cons]
      exact ih (h.serve (Prog.runs_of_run hrun)) ht
    · cases ht

/-- The choices of an operation about a client that succeeds, at a time. -/
def succeedsAt (now : ℕ) : List ProtectionChoice :=
  [.proceed, .time now, .time now, .write none, .write none, .read none, .read none, .time now,
    .proceed]

theorem enforcement_first (C : ProtectionCodec) :
    Enforcement C [] { fresh with memory := some firstMemory } .new :=
  .start rfl ⟨⟨ProtectionSettings.valid_default, by decide⟩, by decide⟩ rfl rfl

/-- The edge looks at the file, and then has its policy, which has not expired
    `now`, and decides so about a client. -/
def decides (C : ProtectionCodec) (loaded now : ℕ) (clientIp : IpAddr) (action : Option Decision)
    (t : ProtectionWorld) : Bool :=
  let rt := (new.reloadAt C.toCodec (.ok t.policy) loaded).2
  t.policy.any (fun p => rt.current = some p && (C.parseRfc3339 p.expiresAt).any (· > now)) &&
    (rt.decisionAt C.toCodec (some clientIp) "strict" now).action = action

theorem exists_enforcement (C : ProtectionCodec)
    (events : List (ProtectionRequest × ℕ × List ProtectionChoice)) (loaded now : ℕ)
    (clientIp : IpAddr) (action : Option Decision)
    (h : (serveAll C events { fresh with memory := some firstMemory }).any
      (decides C loaded now clientIp action) = true) :
    ∃ (s : ProtectionWorld) (rt : PolicyRuntime) (p : PolicySnapshot),
      Enforcement C (events.map fun e => (e.1, e.2.1)) s rt ∧ s.policy = some p ∧
      rt.Active C.toCodec now p ∧
      (rt.decisionAt C.toCodec (some clientIp) "strict" now).action = action := by
  obtain ⟨t, ht, hdecides⟩ := (Option.any_eq_true _ _).1 h
  obtain ⟨hpolicy, haction⟩ := Bool.and_eq_true_iff.1 hdecides
  obtain ⟨p, hp, hactive⟩ := (Option.any_eq_true _ _).1 hpolicy
  obtain ⟨hcurrent, hexpires⟩ := Bool.and_eq_true_iff.1 hactive
  refine ⟨t, _, p, ((enforcement_first C).serveAll ht).reload loaded, hp, ?_,
    of_decide_eq_true haction⟩
  exact ⟨of_decide_eq_true hcurrent, any_gt_iff.1 hexpires⟩

/-- A client that is blocked for a minute is refused fifty seconds later. -/
theorem blocks_enforced_minute : ∃ (s : ProtectionWorld) (rt : PolicyRuntime),
    Enforcement .plain [(.blockClient (.v4 1) 60 .watch, 0)] s rt ∧
    (rt.decisionAt ProtectionCodec.plain.toCodec (some (.v4 1)) "strict" 50).action = some .deny := by
  obtain ⟨s, rt, p, h, hp, hactive, -⟩ := exists_enforcement .plain
    [(.blockClient (.v4 1) 60 .watch, 0, succeedsAt 0)] 0 50 (.v4 1) (some .deny) (by decide)
  refine ⟨s, rt, h, ?_⟩
  have henforced := blocks_enforced .plain _ s rt h p hp 50 hactive (by simp)
  exact henforced.1 (.v4 1) "strict"

/-- A client is blocked for a minute. At `100`, when another one is unblocked, its
    rule has expired and is left out. So it is not refused at the time `50`, at
    which the policy has not expired, and the block would not be over. -/
theorem block_forgotten : ∃ (s : ProtectionWorld) (rt : PolicyRuntime) (p : PolicySnapshot),
    Enforcement .plain [(.blockClient (.v4 1) 60 .watch, 0), (.unblockClient (.v4 2) .watch, 100)]
      s rt ∧ s.policy = some p ∧ rt.Active ProtectionCodec.plain.toCodec 50 p ∧
    blockedAt [(.blockClient (.v4 1) 60 .watch, 0), (.unblockClient (.v4 2) .watch, 100)] (.v4 1) 50 =
      true ∧
    (rt.decisionAt ProtectionCodec.plain.toCodec (some (.v4 1)) "strict" 50).action = none := by
  obtain ⟨s, rt, p, h, hp, hactive, hnone⟩ := exists_enforcement .plain
    [(.blockClient (.v4 1) 60 .watch, 0, succeedsAt 0),
      (.unblockClient (.v4 2) .watch, 100, succeedsAt 100)] 100 50 (.v4 1) none (by decide)
  exact ⟨s, rt, p, h, hp, hactive, by decide, hnone⟩

end ProtectionWorld

end VpsGuard
