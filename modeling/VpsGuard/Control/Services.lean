import VpsGuard.Core.Detection

/-!
# The state of the collectors

The services are polled in turn (`spawnServiceCollectors`). One that fails keeps what it
had, with a state that says how old that is: as old as the last poll in which it was
live, if there is one (`exists_dated`). So it is shown as live or delayed if it was live
lately (`spawnServiceCollectors_fresh`). One that never was live is as old as its first
poll, and may be shown as delayed all the same (`spawnServiceCollectors_delayed`).

The services have different names, and lists of them are functions of the name here.
-/

namespace VpsGuard

/-- How a collector is doing. -/
inductive CollectorState
  | live | delayed | stale | unavailable | error
  deriving DecidableEq

/-- What a service was seen to use. -/
structure CgroupSnapshot where
  collectedAtUnixMs : ℕ
  cpuUsageUsec : ℕ
  cpuUsageMilliPercent : Option ℕ

/-- The load since an earlier snapshot, if time has passed. -/
def CgroupSnapshot.since (resource old : CgroupSnapshot) : CgroupSnapshot :=
  let elapsedMs := resource.collectedAtUnixMs - old.collectedAtUnixMs
  if elapsedMs > 0 then
    let deltaUsec := resource.cpuUsageUsec - old.cpuUsageUsec
    { resource with cpuUsageMilliPercent := some (saturatingProd 64 deltaUsec 100 / elapsedMs) }
  else resource

inductive CgroupError
  | invalidPath | unavailable | invalidValue

def CgroupError.code : CgroupError → String
  | invalidPath => "CGROUP_PATH_INVALID"
  | unavailable => "CGROUP_UNAVAILABLE"
  | invalidValue => "CGROUP_VALUE_INVALID"

inductive ProbeError
  | invalidUrl | timeout | connect | authentication | permission | unhealthy | invalidResponse
  | credential

def ProbeError.code : ProbeError → String
  | invalidUrl => "TARGET_URL_INVALID"
  | timeout => "TIMEOUT"
  | connect => "CONNECT_FAILED"
  | authentication => "AUTHENTICATION_FAILED"
  | permission => "PERMISSION_DENIED"
  | unhealthy => "UNHEALTHY_RESPONSE"
  | invalidResponse => "INVALID_RESPONSE"
  | credential => "CREDENTIAL_INVALID"

/-- What is known of a service. -/
structure CollectorHealth (σ : Type) where
  name : String
  state : CollectorState
  lastSuccessAt : Option String
  errorCode : Option String
  unit : Option String
  collectedAtUnixMs : Option ℕ
  resourceState : Option CollectorState
  semanticState : Option CollectorState
  resourceErrorCode : Option String
  semanticErrorCode : Option String
  resources : Option CgroupSnapshot
  semantic : Option σ

structure ServiceTarget where
  unit : Option String
  cgroupPath : Option String

structure ServiceProbed (σ : Type) where
  collectedAtUnixMs : ℕ
  resource : Except CgroupError (Option CgroupSnapshot)
  semantic : Except ProbeError σ
  currentTimestamp : String

/-- What a poll finds, and when. -/
structure ServicePoll (σ : Type) where
  probed : String → ServiceProbed σ
  now : ℕ

variable {σ : Type}

/-- One look at a service. -/
def collectService (name : String) (target : ServiceTarget) (probed : ServiceProbed σ) :
    CollectorHealth σ :=
  let resourceState := if target.cgroupPath.isNone then none
    else if probed.resource.isOk then some CollectorState.live else some .error
  let semanticState := some (if probed.semantic.isOk then CollectorState.live else .error)
  let resourceErrorCode := match probed.resource with | .ok _ => none | .error e => some e.code
  let semanticErrorCode := match probed.semantic with | .ok _ => none | .error e => some e.code
  let state := if resourceState = none ∧ semanticState = some .live ∨
      resourceState = some .live ∧ semanticState = some .live then CollectorState.live else .error
  { name
    state
    lastSuccessAt := if state = .live then some probed.currentTimestamp else none
    errorCode := resourceErrorCode.or semanticErrorCode
    unit := target.unit
    collectedAtUnixMs := some probed.collectedAtUnixMs
    resourceState
    semanticState
    resourceErrorCode
    semanticErrorCode
    resources := probed.resource.toOption.join
    semantic := probed.semantic.toOption }

def collectServices (targets : String → Option ServiceTarget) (probed : String → ServiceProbed σ)
    (name : String) : Option (CollectorHealth σ) :=
  (targets name).map (collectService name · (probed name))

/-- The health of a service that had an old one. -/
def CollectorHealth.merge (snapshot old : CollectorHealth σ) (nowUnixMs staleAfter : ℕ) :
    CollectorHealth σ :=
  let resources := match old.resources, snapshot.resources with
    | some oldResource, some resource => some (resource.since oldResource)
    | _, resources => resources
  if snapshot.state = .live then { snapshot with resources }
  else
    let ageMs := old.collectedAtUnixMs.elim (2 ^ 64 - 1) (nowUnixMs - ·)
    { snapshot with
      resources := resources.or old.resources
      semantic := snapshot.semantic.or old.semantic
      lastSuccessAt := old.lastSuccessAt
      state := if ageMs ≥ staleAfter then .stale else .delayed
      collectedAtUnixMs := old.collectedAtUnixMs }

/-- What is shown after a poll: a failure does not hide what was seen before. -/
def mergeServiceHistory (previous current : String → Option (CollectorHealth σ))
    (nowUnixMs staleAfter : ℕ) (name : String) : Option (CollectorHealth σ) :=
  (current name).map fun snapshot =>
    (previous name).elim snapshot (snapshot.merge · nowUnixMs staleAfter)

/-- What is shown after the polls, of which the last comes first. -/
def spawnServiceCollectors (targets : String → Option ServiceTarget) :
    List (ServicePoll σ) → String → Option (CollectorHealth σ)
  | [] => fun _ => none
  | poll :: polls =>
    mergeServiceHistory (spawnServiceCollectors targets polls) (collectServices targets poll.probed)
      poll.now 30000

section Service

variable (name : String) (target : ServiceTarget)

abbrev ServicePoll.collectedAt (poll : ServicePoll σ) : ℕ := (poll.probed name).collectedAtUnixMs

abbrev ServicePoll.Live (poll : ServicePoll σ) : Prop :=
  (collectService name target (poll.probed name)).state = .live

variable {name target} {targets : String → Option ServiceTarget} {polls : List (ServicePoll σ)}
  {poll : ServicePoll σ} (htarget : targets name = some target)
  (htimes : (poll :: polls).Pairwise fun p q => q.collectedAt name ≤ p.collectedAt name)

include htarget

theorem spawnServiceCollectors_cons : spawnServiceCollectors targets (poll :: polls) name =
    some ((spawnServiceCollectors targets polls name).elim
      (collectService name target (poll.probed name))
      ((collectService name target (poll.probed name)).merge · poll.now 30000)) := by
  rw [spawnServiceCollectors, mergeServiceHistory, collectServices, htarget, Option.map_some,
    Option.map_some]

include htimes

/-- What is shown is dated by the last poll in which the service was live, if there is
    one. -/
theorem exists_dated : ∃ health, spawnServiceCollectors targets (poll :: polls) name = some health ∧
    ∃ p ∈ poll :: polls, health.collectedAtUnixMs = some (p.collectedAt name) ∧
      (∀ q ∈ poll :: polls, q.Live name target →
        p.Live name target ∧ q.collectedAt name ≤ p.collectedAt name) ∧
      health.state = if poll.Live name target then .live else if polls = [] then .error
        else if poll.now - p.collectedAt name ≥ 30000 then .stale else .delayed := by
  induction polls generalizing poll with
  | nil =>
    refine ⟨_, spawnServiceCollectors_cons htarget, poll, List.mem_cons_self, rfl, by simp, ?_⟩
    by_cases hlive : poll.Live name target
    · rwa [if_pos hlive]
    · rw [if_neg hlive, if_pos rfl]
      exact if_neg fun h => hlive (if_pos h)
  | cons last polls ih =>
    obtain ⟨hlast, hbefore⟩ := List.pairwise_cons.1 htimes
    obtain ⟨old, hold, p, hp, hdate, hlatest, -⟩ := ih hbefore
    refine ⟨_, spawnServiceCollectors_cons htarget, ?_⟩
    rw [hold, Option.elim_some, CollectorHealth.merge]
    by_cases hlive : poll.Live name target
    · refine ⟨poll, List.mem_cons_self, ?_⟩
      rw [if_pos hlive, if_pos hlive]
      exact ⟨rfl, List.forall_mem_cons.2
        ⟨fun _ => ⟨hlive, Nat.le_refl _⟩, fun q hq _ => ⟨hlive, hlast q hq⟩⟩, hlive⟩
    · refine ⟨p, List.mem_cons_of_mem _ hp, ?_⟩
      rw [if_neg hlive, if_neg hlive, if_neg (List.cons_ne_nil _ _), hdate]
      exact ⟨rfl, List.forall_mem_cons.2 ⟨fun h => absurd h hlive, hlatest⟩, rfl⟩

/-- A service is shown as live or delayed if it was live lately, and only then if it has
    been live at all and the last poll was fast. -/
theorem spawnServiceCollectors_fresh :
    ∃ health, spawnServiceCollectors targets (poll :: polls) name = some health ∧
      let fresh := ∃ p ∈ poll :: polls, p.Live name target ∧ poll.now < p.collectedAt name + 30000
      (fresh → health.state ∈ [.live, .delayed]) ∧
        (polls = [] ∨ (∃ p ∈ poll :: polls, p.Live name target) →
          (poll.Live name target → poll.now < poll.collectedAt name + 30000) →
          health.state ∈ [.live, .delayed] → fresh) := by
  obtain ⟨health, hhealth, p, hp, -, hlatest, hstate⟩ := exists_dated htarget htimes
  refine ⟨health, hhealth, ?_⟩
  rw [hstate]
  split_ifs with hlive hnil hstale
  · exact ⟨fun _ => by simp, fun _ hfast _ => ⟨poll, List.mem_cons_self, hlive, hfast hlive⟩⟩
  · subst hnil
    simp [hlive]
  · refine ⟨fun ⟨q, hq, hq', hnow⟩ => ?_, by simp⟩
    have hle := (hlatest q hq hq').2
    omega
  · refine ⟨fun _ => by simp, fun hever _ _ => ?_⟩
    obtain ⟨q, hq, hq'⟩ := hever.resolve_left hnil
    exact ⟨p, hp, (hlatest q hq hq').1, by omega⟩

end Service

def mysqlOnly (name : String) : Option ServiceTarget :=
  if name = "mysql" then some ⟨none, none⟩ else none

def polledAt (now : ℕ) (semantic : Except ProbeError Unit) : ServicePoll Unit :=
  ⟨fun _ => ⟨now, .ok none, semantic, ""⟩, now⟩

theorem spawnServiceCollectors_fresh_once : ∃ health, spawnServiceCollectors mysqlOnly
      [polledAt 5000 (.error .timeout), polledAt 0 (.ok ())] "mysql" = some health ∧
    health.state ∈ [.live, .delayed] := by
  obtain ⟨health, h, hshown, -⟩ := @spawnServiceCollectors_fresh Unit "mysql" ⟨none, none⟩ mysqlOnly
    [polledAt 0 (.ok ())] (polledAt 5000 (.error .timeout)) rfl
    (by simp [polledAt, ServicePoll.collectedAt])
  exact ⟨health, h, hshown ⟨polledAt 0 (.ok ()), by simp, rfl, by decide⟩⟩

/-- A service that never was live is shown as delayed. -/
theorem spawnServiceCollectors_delayed :
    let polls := [polledAt 5000 (.error .timeout), polledAt 0 (.error .timeout)]
    (spawnServiceCollectors mysqlOnly polls "mysql").map (·.state) = some .delayed ∧
      ∀ poll ∈ polls, ¬ poll.Live "mysql" ⟨none, none⟩ := by
  refine ⟨rfl, ?_⟩
  simp [ServicePoll.Live, collectService, polledAt, Except.isOk, Except.toBool]

end VpsGuard
