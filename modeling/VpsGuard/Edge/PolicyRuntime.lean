import Mathlib.Data.List.Induction
import VpsGuard.Core.Policy

/-!
# The policy of the edge

The edge keeps the last policy it accepted. It looks at the policy file again
and again (`reloadAt`), and replaces the policy if that in the file passes the
check and is of a later version; otherwise it goes on with the one it has. So
it only follows the file if every content of the file is of a later version
than the contents before (`current_follow`).

For a request the policy says what is to be done with the client, and the limit
of the route (`decisionAt`). Both the policy and the rule of a client are looked
at only until they expire. Whatever the file contains, the version of the edge is
that of the policy it has, which once passed the check, and what is said of a
request is said by this policy before it has expired (`reloads_safe`).
-/

namespace VpsGuard

/-- Why a file is not loaded. -/
inductive PolicyReloadError
  | read
  | json
  | policy (e : PolicyError)

structure PolicyRuntime where
  current : Option PolicySnapshot
  version : ℕ

namespace PolicyRuntime

def new : PolicyRuntime := ⟨none, 0⟩

/-- A look at the file, which is `none` if it is missing: whether the policy
    was replaced, and the policy after it. -/
def reloadAt (C : Codec) (rt : PolicyRuntime) (file : Except PolicyReloadError (Option PolicySnapshot))
    (now : ℕ) : Except PolicyReloadError Bool × PolicyRuntime :=
  match file with
  | .error e => (.error e, rt)
  | .ok none => (.ok false, rt)
  | .ok (some policy) =>
    match policy.validateAt C now with
    | .error e => (.error (.policy e), rt)
    | .ok () =>
      if policy.policyVersion ≤ rt.version then (.ok false, rt)
      else (.ok true, ⟨some policy, policy.policyVersion⟩)

/-- What the policy says of a request. -/
structure RuntimeDecision where
  action : Option Decision
  requestsPerMinute : Option ℕ
  policyVersion : ℕ

/-- Nothing is said of the request. -/
def inactiveDecision (policyVersion : ℕ) : RuntimeDecision := ⟨none, none, policyVersion⟩

def ruleAction (C : Codec) (clientIp : IpAddr) (now : ℕ) (rule : ClientRule) : Option Decision :=
  if rule.clientIp ≠ clientIp then none
  else (C.parseRfc3339 rule.expiresAt).bind fun expires =>
    if expires > now then some rule.action else none

/-- What the policy says of a request of a client for a class of routes, until it expires. -/
def decisionAt (C : Codec) (rt : PolicyRuntime) (clientIp : Option IpAddr) (routeClass : String)
    (now : ℕ) : RuntimeDecision :=
  match rt.current with
  | none => inactiveDecision 0
  | some policy =>
    if (C.parseRfc3339 policy.expiresAt).all (· ≤ now) then inactiveDecision policy.policyVersion
    else
      { action := clientIp.bind fun ip => policy.clientRules.findSome? (ruleAction C ip now)
        requestsPerMinute :=
          ((policy.routeRules.find? (·.routeClass = routeClass)).map (·.requestsPerMinute)).filter
            (· > 0)
        policyVersion := policy.policyVersion }

/-- The policy after looks at the given contents of the file, at the given times. -/
def follow (C : Codec) (looks : List (PolicySnapshot × ℕ)) : PolicyRuntime :=
  looks.foldl (fun rt look => (rt.reloadAt C (.ok (some look.1)) look.2).2) new

variable {C : Codec} {looks : List (PolicySnapshot × ℕ)} {p : PolicySnapshot} {now : ℕ}

@[simp] theorem follow_append_singleton : follow C (looks ++ [(p, now)]) =
    ((follow C looks).reloadAt C (.ok (some p)) now).2 := by
  simp [follow]

/-- A look leads to what the file contains, if that passes the check and is of a
    later version, or changes nothing. -/
theorem reloadAt_or (C : Codec) (rt : PolicyRuntime)
    (file : Except PolicyReloadError (Option PolicySnapshot)) (now : ℕ) :
    (∃ p, file = .ok (some p) ∧ p.validateAt C now = .ok () ∧ rt.version < p.policyVersion ∧
      rt.reloadAt C file now = (.ok true, ⟨some p, p.policyVersion⟩)) ∨
    (rt.reloadAt C file now).1 ≠ .ok true ∧ (rt.reloadAt C file now).2 = rt := by
  unfold reloadAt
  split
  · exact .inr ⟨by simp, rfl⟩
  · exact .inr ⟨by simp, rfl⟩
  · next p =>
    split
    · exact .inr ⟨by simp, rfl⟩
    · next hvalid =>
      split
      · exact .inr ⟨by simp, rfl⟩
      · next hlt => exact .inl ⟨p, rfl, hvalid, Nat.not_le.1 hlt, rfl⟩

theorem version_follow_lt {n : ℕ} (hn : 0 < n) (h : ∀ look ∈ looks, look.1.policyVersion < n) :
    (follow C looks).version < n := by
  induction looks using List.reverseRecOn with
  | nil => exact hn
  | append_singleton looks look ih =>
    obtain ⟨p, now⟩ := look
    rw [follow_append_singleton]
    rcases reloadAt_or C (follow C looks) (.ok (some p)) now with ⟨p', hfile, -, -, hrt⟩ | ⟨-, hrt⟩
    · cases hfile
      rw [hrt]
      exact h (p, now) (by simp)
    · rw [hrt]
      exact ih fun l hl => h l (by simp [hl])

/-- The policy is that of the last look, if it passes the check and is of a
    later version than those before it. -/
theorem current_follow (hpos : 0 < p.policyVersion)
    (hlt : ∀ look ∈ looks, look.1.policyVersion < p.policyVersion)
    (hvalid : p.validateAt C now = .ok ()) :
    (follow C (looks ++ [(p, now)])).current = some p := by
  have hversion := version_follow_lt (C := C) hpos hlt
  rw [follow_append_singleton, reloadAt]
  simp only [hvalid, Nat.not_le.2 hversion, if_false]

/-! ## Whatever is in the file -/

/-- The policy after looks at the file, whatever it contains. -/
def reloads (C : Codec) (looks : List (Except PolicyReloadError (Option PolicySnapshot) × ℕ)) :
    PolicyRuntime :=
  looks.foldl (fun rt look => (rt.reloadAt C look.1 look.2).2) new

section Reloads

variable {rt : PolicyRuntime} {file : Except PolicyReloadError (Option PolicySnapshot)}
  {contents : List (Except PolicyReloadError (Option PolicySnapshot) × ℕ)}

@[simp] theorem reloads_append_singleton : reloads C (contents ++ [(file, now)]) =
    ((reloads C contents).reloadAt C file now).2 := by
  simp [reloads]

theorem version_reloads (C : Codec)
    (contents : List (Except PolicyReloadError (Option PolicySnapshot) × ℕ)) :
    (reloads C contents).version = (reloads C contents).current.elim 0 (·.policyVersion) := by
  induction contents using List.reverseRecOn with
  | nil => rfl
  | append_singleton contents look ih =>
    rw [reloads_append_singleton]
    rcases reloadAt_or C (reloads C contents) look.1 look.2 with ⟨p, -, -, -, h⟩ | ⟨-, h⟩
    · rw [h]
      rfl
    · rw [h]
      exact ih

theorem validateAt_of_reloads (h : (reloads C contents).current = some p) :
    ∃ loaded, (.ok (some p), loaded) ∈ contents ∧ p.validateAt C loaded = .ok () := by
  induction contents using List.reverseRecOn with
  | nil => cases h
  | append_singleton contents look ih =>
    rw [reloads_append_singleton] at h
    rcases reloadAt_or C (reloads C contents) look.1 look.2 with ⟨p', hfile, hvalid, -, h'⟩ | ⟨-, h'⟩
    · rw [h'] at h
      cases h
      exact ⟨look.2, by simp [← hfile], hvalid⟩
    · rw [h'] at h
      obtain ⟨loaded, hmem, hvalid⟩ := ih h
      exact ⟨loaded, List.mem_append_left _ hmem, hvalid⟩

/-- The policy of the edge, not expired. -/
structure Active (C : Codec) (rt : PolicyRuntime) (now : ℕ) (p : PolicySnapshot) : Prop where
  current : rt.current = some p
  expiresAt : ∃ expires, C.parseRfc3339 p.expiresAt = some expires ∧ now < expires

theorem Active.decisionAt_eq (h : Active C rt now p) (clientIp : Option IpAddr)
    (routeClass : String) : rt.decisionAt C clientIp routeClass now =
      { action := clientIp.bind fun ip => p.clientRules.findSome? (ruleAction C ip now)
        requestsPerMinute :=
          ((p.routeRules.find? (·.routeClass = routeClass)).map (·.requestsPerMinute)).filter (· > 0)
        policyVersion := p.policyVersion } := by
  obtain ⟨expires, hexpires, hlt⟩ := h.expiresAt
  have hall : ¬(C.parseRfc3339 p.expiresAt).all (· ≤ now) = true := by
    rw [hexpires]
    simpa using hlt
  rw [decisionAt, h.current]
  exact if_neg hall

theorem exists_active (C : Codec) (rt : PolicyRuntime) (clientIp : Option IpAddr)
    (routeClass : String) (now : ℕ) : (∃ p, Active C rt now p) ∨
      ∃ version, rt.decisionAt C clientIp routeClass now = inactiveDecision version := by
  cases hcurrent : rt.current with
  | none => exact .inr ⟨0, by rw [decisionAt, hcurrent]⟩
  | some p =>
    by_cases hall : (C.parseRfc3339 p.expiresAt).all (· ≤ now) = true
    · refine .inr ⟨p.policyVersion, ?_⟩
      rw [decisionAt, hcurrent]
      exact if_pos hall
    · refine .inl ⟨p, hcurrent, ?_⟩
      cases hexpires : C.parseRfc3339 p.expiresAt with
      | none => rw [hexpires] at hall; exact absurd rfl hall
      | some expires =>
        rw [hexpires] at hall
        exact ⟨expires, rfl, by simpa using hall⟩

theorem ruleAction_eq_some_iff {clientIp : IpAddr} {rule : ClientRule} {action : Decision} :
    ruleAction C clientIp now rule = some action ↔ rule.clientIp = clientIp ∧
      rule.action = action ∧ ∃ expires, C.parseRfc3339 rule.expiresAt = some expires ∧
        now < expires := by
  unfold ruleAction
  split
  · next hne => simp [hne]
  · next heq =>
    simp only [Option.bind_eq_some_iff, gt_iff_lt, Option.ite_none_right_eq_some, Option.some.injEq,
      not_not.1 heq, true_and]
    constructor
    · rintro ⟨expires, hexpires, hlt, haction⟩
      exact ⟨haction, expires, hexpires, hlt⟩
    · rintro ⟨haction, expires, hexpires, hlt⟩
      exact ⟨expires, hexpires, hlt, haction⟩

variable {clientIp : Option IpAddr}

theorem exists_rule_of_action {routeClass : String} {action : Decision}
    (h : (rt.decisionAt C clientIp routeClass now).action = some action) :
    ∃ p, Active C rt now p ∧ ∃ rule ∈ p.clientRules, some rule.clientIp = clientIp ∧
      rule.action = action ∧
      ∃ expires, C.parseRfc3339 rule.expiresAt = some expires ∧ now < expires := by
  rcases exists_active C rt clientIp routeClass now with ⟨p, hp⟩ | ⟨version, hinactive⟩
  · rw [hp.decisionAt_eq] at h
    obtain ⟨ip, rfl, hrule⟩ := Option.bind_eq_some_iff.1 h
    obtain ⟨rule, hmem, hrule⟩ := List.exists_of_findSome?_eq_some hrule
    obtain ⟨rfl, haction, hexpires⟩ := ruleAction_eq_some_iff.1 hrule
    exact ⟨p, hp, rule, hmem, rfl, haction, hexpires⟩
  · rw [hinactive] at h
    cases h

theorem exists_rule_of_limit {routeClass : String} {limit : ℕ}
    (h : (rt.decisionAt C clientIp routeClass now).requestsPerMinute = some limit) :
    ∃ p, Active C rt now p ∧ 0 < limit ∧ ⟨routeClass, limit⟩ ∈ p.routeRules := by
  rcases exists_active C rt clientIp routeClass now with ⟨p, hp⟩ | ⟨version, hinactive⟩
  · rw [hp.decisionAt_eq] at h
    obtain ⟨hmap, hpos⟩ := Option.filter_eq_some_iff.1 h
    obtain ⟨rule, hfind, rfl⟩ := Option.map_eq_some_iff.1 hmap
    have hclass : rule.routeClass = routeClass := by simpa using List.find?_some hfind
    refine ⟨p, hp, of_decide_eq_true hpos, ?_⟩
    rw [← hclass]
    exact List.mem_of_find?_eq_some hfind
  · rw [hinactive] at h
    cases h

end Reloads

/-- **The edge.** Whatever the file contained, and whenever it was looked at, the
    version never decreases and is that of the policy, which passed the check
    when it was loaded; a look that does not load leaves everything as it was;
    and what is said of a request comes from the policy, and from a rule of the
    client, that have not expired. -/
theorem reloads_safe (C : Codec)
    (contents : List (Except PolicyReloadError (Option PolicySnapshot) × ℕ)) :
    let rt := reloads C contents
    rt.version = rt.current.elim 0 (·.policyVersion) ∧
    (∀ file now, rt.version ≤ (rt.reloadAt C file now).2.version ∧
      ((rt.reloadAt C file now).1 ≠ .ok true → (rt.reloadAt C file now).2 = rt)) ∧
    (∀ p, rt.current = some p →
      ∃ loaded, (.ok (some p), loaded) ∈ contents ∧ p.validateAt C loaded = .ok ()) ∧
    ∀ clientIp routeClass now,
      (∀ action, (rt.decisionAt C clientIp routeClass now).action = some action →
        ∃ p, Active C rt now p ∧ ∃ rule ∈ p.clientRules, some rule.clientIp = clientIp ∧
          rule.action = action ∧
          ∃ expires, C.parseRfc3339 rule.expiresAt = some expires ∧ now < expires) ∧
      ∀ limit, (rt.decisionAt C clientIp routeClass now).requestsPerMinute = some limit →
        ∃ p, Active C rt now p ∧ 0 < limit ∧ ⟨routeClass, limit⟩ ∈ p.routeRules := by
  refine ⟨version_reloads C contents, fun file now => ?_, fun p => validateAt_of_reloads,
    fun clientIp routeClass now => ⟨fun _ => exists_rule_of_action, fun _ => exists_rule_of_limit⟩⟩
  rcases reloadAt_or C (reloads C contents) file now with ⟨p, -, -, hlt, h⟩ | ⟨hne, h⟩
  · rw [h]
    exact ⟨Nat.le_of_lt hlt, fun hne => absurd rfl hne⟩
  · rw [h]
    exact ⟨Nat.le_refl _, fun _ => rfl⟩

end PolicyRuntime

end VpsGuard
