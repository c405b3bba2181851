import VpsGuard.Edge.Filter

/-!
# Edges that only observe

An edge that only observes is not to interfere with the application. What it is
told to protect with (`EdgeProtection`: the limits, and what is done with bots),
the policies that it loads, and what its limiter has counted are then without
effect: two edges that differ in nothing else give the same outcomes to the same
requests for the application (`outcomes_of_observe`).

What remains of the filter does not depend on any of this. It is the checks of
the request itself, of where it goes, of the length of its body, and of the room
at the origin (`filterRequest_of_observe`).

The requests for the pages of the administrator are not meant: the logins among
them are limited in any case.
-/

namespace VpsGuard

/-- What of a configuration protects the application. -/
structure EdgeProtection where
  botPolicy : BotPolicyConfig
  rateLimitRpm : Option ℕ
  strictRateLimitRpm : Option ℕ
  uploadRateLimitRpm : Option ℕ
  authRateLimitRpm : ℕ
  prefixRateLimitMultiplier : UInt32
  routeRateLimitMultiplier : UInt32
  globalRateLimitMultiplier : UInt32

def EdgeConfig.withProtection (config : EdgeConfig) (protection : EdgeProtection) : EdgeConfig :=
  { config with
    botPolicy := protection.botPolicy
    rateLimitRpm := protection.rateLimitRpm
    strictRateLimitRpm := protection.strictRateLimitRpm
    uploadRateLimitRpm := protection.uploadRateLimitRpm
    authRateLimitRpm := protection.authRateLimitRpm
    prefixRateLimitMultiplier := protection.prefixRateLimitMultiplier
    routeRateLimitMultiplier := protection.routeRateLimitMultiplier
    globalRateLimitMultiplier := protection.globalRateLimitMultiplier }

def EdgeConfig.protection (config : EdgeConfig) : EdgeProtection where
  botPolicy := config.botPolicy
  rateLimitRpm := config.rateLimitRpm
  strictRateLimitRpm := config.strictRateLimitRpm
  uploadRateLimitRpm := config.uploadRateLimitRpm
  authRateLimitRpm := config.authRateLimitRpm
  prefixRateLimitMultiplier := config.prefixRateLimitMultiplier
  routeRateLimitMultiplier := config.routeRateLimitMultiplier
  globalRateLimitMultiplier := config.globalRateLimitMultiplier

/-- What may happen at the edge. -/
inductive EdgeEvent
  | request (session : EdgeSession)
  /-- A request that was forwarded is over. -/
  | finished
  /-- The origin has answered, or has not. -/
  | originReady (ready : Bool)
  /-- A look at the policy file. -/
  | reload (file : Except PolicyReloadError (Option PolicySnapshot)) (now : ℕ)

/-- The event is a look at the policy file. -/
def EdgeEvent.isReload : EdgeEvent → Bool
  | .reload _ _ => true
  | _ => false

def EdgeEvent.ForApplication (config : EdgeConfig) : EdgeEvent → Prop
  | .request session => config.upstreamKind session.header.requestHost = .application
  | _ => True

namespace GuardEdge

section Runs

variable (E : EdgeCodec)

/-- The edge after an event, and what becomes of a request. -/
def step (edge : GuardEdge) : EdgeEvent → Option FilterOutcome × GuardEdge
  | .request session =>
    (some (edge.filterRequest E session).outcome, (edge.filterRequest E session).edge)
  | .finished => (none, { edge with originInFlightRequests := edge.originInFlightRequests - 1 })
  | .originReady ready => (none, { edge with originReady := ready })
  | .reload file now => (none, { edge with policy := (edge.policy.reloadAt E.toCodec file now).2 })

/-- What becomes of the requests, one after the other. -/
def outcomes : GuardEdge → List EdgeEvent → List FilterOutcome
  | _, [] => []
  | edge, event :: events =>
    (edge.step E event).1.toList ++ outcomes (edge.step E event).2 events

end Runs

/-- The edges differ in their protection, policy and limiter only. -/
structure Alike (edge edge' : GuardEdge) : Prop where
  config : ∃ protection, edge'.config = edge.config.withProtection protection
  originReady : edge'.originReady = edge.originReady
  clearance : edge'.clearance = edge.clearance
  originInFlightRequests : edge'.originInFlightRequests = edge.originInFlightRequests

variable {E : EdgeCodec} {edge edge' : GuardEdge} {session : EdgeSession} {context : EdgeContext}

/-! ## What remains of the filter -/

/-- The checks that do not protect: of the request itself, and of where it goes. -/
def plainChecks (edge : GuardEdge) (session : EdgeSession) (context : EdgeContext) :
    Option FilterOutcome :=
  (edge.protocolChecks session context).or <| (edge.checkHealth session context).or <|
    (edge.checkHttps session context).or <| edge.checkCanonical session context

def plainFilter (edge : GuardEdge) (session : EdgeSession) (context : EdgeContext) :
    FilterOutcome × GuardEdge :=
  match edge.plainChecks session context with
  | some outcome => (outcome, edge)
  | none => edge.roomChecks session context

section Observe

variable (hmode : edge.config.detectionMode = .observe)

include hmode

theorem enforces_of_observe : edge.config.enforcesCommonProtection = false := by
  rw [EdgeRuntimeConfig.enforcesCommonProtection, hmode]
  rfl

theorem checkBot_of_observe : edge.checkBot session context = none := by
  rw [checkBot, enforces_of_observe hmode, Bool.false_and, Bool.false_and,
    if_neg Bool.false_ne_true]

theorem checkPolicy_of_observe : edge.checkPolicy E session context = none := by
  rw [checkPolicy, enforces_of_observe hmode, Bool.false_and, if_neg Bool.false_ne_true]

theorem checkLimit_of_observe (happlication : context.upstreamKind = .application) :
    edge.checkLimit E session context = (none, edge) := by
  have henforces := enforces_of_observe hmode
  have hlimit (decision : PolicyRuntime.RuntimeDecision) :
      edge.config.requestLimit decision context.toRequestContext = none := by
    simp [EdgeRuntimeConfig.requestLimit, EdgeRuntimeConfig.rateLimit,
      EdgeRuntimeConfig.authenticationRateLimit, happlication, henforces, stricterLimit]
  have hcheck : edge.limitCheck E session context = none := by
    rw [limitCheck, hlimit]
    cases context.clientIp <;> rfl
  rw [checkLimit, hcheck]

theorem routingChecks_of_observe : edge.routingChecks session (edge.classifyBot context) =
    ((edge.checkHealth session context).or <| (edge.checkHttps session context).or <|
      edge.checkCanonical session context) := by
  rw [routingChecks, checkBot_of_observe hmode, Option.none_or]
  rfl

/-- The filter of an edge that only observes, for the application. -/
theorem filterRequest_of_observe
    (happlication : edge.config.upstreamKind session.header.requestHost = .application) :
    (edge.filterRequest E session).outcome =
        (edge.plainFilter session (edge.requestContext E session)).1 ∧
      (edge.filterRequest E session).edge =
        (edge.plainFilter session (edge.requestContext E session)).2 := by
  rw [plainFilter, plainChecks, ← routingChecks_of_observe hmode]
  unfold filterRequest
  dsimp only
  cases edge.protocolChecks session (edge.requestContext E session) with
  | some outcome => exact ⟨rfl, rfl⟩
  | none =>
    rw [Option.none_or]
    cases edge.routingChecks session (edge.classifyBot (edge.requestContext E session)) with
    | some outcome => exact ⟨rfl, rfl⟩
    | none =>
      -- Neither the policy nor the limiter is asked.
      dsimp only
      rw [checkPolicy_of_observe hmode, checkLimit_of_observe hmode happlication]
      exact ⟨rfl, rfl⟩

end Observe

/-! ## Two edges -/

namespace Alike

variable (h : Alike edge edge')

include h

theorem detectionMode : edge'.config.detectionMode = edge.config.detectionMode := by
  obtain ⟨protection, hconfig⟩ := h.config
  rw [hconfig]
  rfl

theorem upstreamKind (host : Option (List Char)) :
    edge'.config.upstreamKind host = edge.config.upstreamKind host := by
  obtain ⟨protection, hconfig⟩ := h.config
  rw [hconfig]
  rfl

theorem requestContext : edge'.requestContext E session = edge.requestContext E session := by
  obtain ⟨protection, hconfig⟩ := h.config
  rw [GuardEdge.requestContext, GuardEdge.requestContext, hconfig, h.clearance]
  rfl

theorem plainChecks : edge'.plainChecks session context = edge.plainChecks session context := by
  obtain ⟨protection, hconfig⟩ := h.config
  simp only [GuardEdge.plainChecks, protocolChecks, checkHost, checkHealth, checkHttps,
    checkCanonical, hconfig, h.originReady]
  rfl

theorem roomChecks : (edge'.roomChecks session context).1 = (edge.roomChecks session context).1 ∧
    Alike (edge.roomChecks session context).2 (edge'.roomChecks session context).2 := by
  obtain ⟨protection, hconfig⟩ := h.config
  have hbody : edge'.checkBody session context = edge.checkBody session context := by
    rw [checkBody, checkBody, hconfig]
    rfl
  have hmax : edge'.config.maxInFlightRequests = edge.config.maxInFlightRequests := by
    rw [hconfig]
    rfl
  rw [GuardEdge.roomChecks, GuardEdge.roomChecks, hbody]
  cases edge.checkBody session context with
  | some outcome => exact ⟨rfl, h⟩
  | none =>
    dsimp only
    rw [checkCapacity, checkCapacity, hmax, h.originInFlightRequests]
    split_ifs
    · exact ⟨rfl, h⟩
    · exact ⟨rfl, ⟨protection, hconfig⟩, h.originReady, h.clearance, rfl⟩
    · exact ⟨rfl, h⟩

theorem plainFilter : (edge'.plainFilter session context).1 = (edge.plainFilter session context).1 ∧
    Alike (edge.plainFilter session context).2 (edge'.plainFilter session context).2 := by
  rw [GuardEdge.plainFilter, GuardEdge.plainFilter, h.plainChecks]
  cases edge.plainChecks session context with
  | some outcome => exact ⟨rfl, h⟩
  | none => exact h.roomChecks

theorem filterRequest (hmode : edge.config.detectionMode = .observe)
    (happlication : edge.config.upstreamKind session.header.requestHost = .application) :
    (edge'.filterRequest E session).outcome = (edge.filterRequest E session).outcome ∧
      Alike (edge.filterRequest E session).edge (edge'.filterRequest E session).edge := by
  have happlication' : edge'.config.upstreamKind session.header.requestHost = .application :=
    (h.upstreamKind _).trans happlication
  obtain ⟨houtcome, hedge⟩ := filterRequest_of_observe (E := E) hmode happlication
  obtain ⟨houtcome', hedge'⟩ := filterRequest_of_observe (E := E) (h.detectionMode.trans hmode)
    happlication'
  rw [houtcome, houtcome', hedge, hedge', h.requestContext]
  exact h.plainFilter

theorem step {event : EdgeEvent} (hmode : edge.config.detectionMode = .observe)
    (hevent : event.ForApplication edge.config) :
    (edge'.step E event).1 = (edge.step E event).1 ∧
      Alike (edge.step E event).2 (edge'.step E event).2 := by
  cases event with
  | request session =>
    obtain ⟨houtcome, halike⟩ := h.filterRequest (E := E) hmode hevent
    exact ⟨congrArg some houtcome, halike⟩
  | finished =>
    exact ⟨rfl, h.config, h.originReady, h.clearance, congrArg (· - 1) h.originInFlightRequests⟩
  | originReady ready => exact ⟨rfl, h.config, rfl, h.clearance, h.originInFlightRequests⟩
  | reload file now => exact ⟨rfl, h.config, h.originReady, h.clearance, h.originInFlightRequests⟩

end Alike

theorem step_config (edge : GuardEdge) (event : EdgeEvent) :
    (edge.step E event).2.config = edge.config := by
  cases event with
  | request session => exact filterRequest_config E edge session
  | _ => rfl

theorem Alike.outcomes {events : List EdgeEvent} (h : Alike edge edge')
    (hmode : edge.config.detectionMode = .observe)
    (hevents : ∀ event ∈ events, event.ForApplication edge.config) :
    edge'.outcomes E events = edge.outcomes E events := by
  induction events generalizing edge edge' with
  | nil => rfl
  | cons event events ih =>
    rw [List.forall_mem_cons] at hevents
    obtain ⟨houtcome, halike⟩ := h.step (E := E) hmode hevents.1
    have hconfig := step_config (E := E) edge event
    rw [GuardEdge.outcomes, GuardEdge.outcomes, houtcome,
      ih halike (hconfig ▸ hmode) (hconfig ▸ hevents.2)]

theorem outcomes_filter {events : List EdgeEvent} (hmode : edge.config.detectionMode = .observe)
    (hevents : ∀ event ∈ events, event.ForApplication edge.config) :
    edge.outcomes E events = edge.outcomes E (events.filter (!·.isReload)) := by
  induction events generalizing edge with
  | nil => rfl
  | cons event events ih =>
    rw [List.forall_mem_cons] at hevents
    have hconfig := step_config (E := E) edge event
    have hrest := ih (hconfig ▸ hmode) (hconfig ▸ hevents.2)
    cases event with
    | reload file now =>
      have halike : Alike edge (edge.step E (.reload file now)).2 :=
        ⟨⟨edge.config.protection, rfl⟩, rfl, rfl, rfl⟩
      have hfiltered : ∀ event ∈ events.filter (!·.isReload), event.ForApplication edge.config :=
        fun event hmem => hevents.2 event (List.mem_filter.1 hmem).1
      exact hrest.trans (halike.outcomes hmode hfiltered)
    | _ => exact congrArg (_ ++ ·) hrest

/-- **Observing.** Two edges that only observe, and differ in their protection,
    their policy and their limiter only, give the same outcomes to the same
    requests for the application, whatever the policies are that they load on the
    way. -/
theorem outcomes_of_observe (E : EdgeCodec) (edge edge' : GuardEdge) (h : Alike edge edge')
    (hmode : edge.config.detectionMode = .observe) (events events' : List EdgeEvent)
    (hsame : events.filter (!·.isReload) = events'.filter (!·.isReload))
    (hevents : ∀ session, .request session ∈ events →
      edge.config.upstreamKind session.header.requestHost = .application) :
    edge.outcomes E events = edge'.outcomes E events' := by
  have hone : ∀ event ∈ events, event.ForApplication edge.config := by
    intro event hmem
    cases event with
    | request session => exact hevents session hmem
    | _ => trivial
  -- A request of the second run is one of the first.
  have htwo : ∀ event ∈ events', event.ForApplication edge'.config := by
    intro event hmem
    cases event with
    | request session =>
      have hfiltered : .request session ∈ events.filter (!·.isReload) := by
        rw [hsame]
        exact List.mem_filter.2 ⟨hmem, rfl⟩
      exact (h.upstreamKind _).trans (hevents session (List.mem_filter.1 hfiltered).1)
    | _ => trivial
  calc edge.outcomes E events
      = edge.outcomes E (events.filter (!·.isReload)) := outcomes_filter hmode hone
    _ = edge'.outcomes E (events.filter (!·.isReload)) :=
        (h.outcomes hmode fun event hmem => hone event (List.mem_filter.1 hmem).1).symm
    _ = edge'.outcomes E (events'.filter (!·.isReload)) := by rw [hsame]
    _ = edge'.outcomes E events' := (outcomes_filter (h.detectionMode.trans hmode) htwo).symm

/-! ## A bot that is let through -/

/-- Libraries to compute with. -/
def tallyEdge : EdgeCodec where
  toCodec := EdgeRuntimeConfig.tally
  hmacSha256 secret _ := secret
  encode _ := []
  decode _ := none
  printIp _ := []
  parseIp _ := none

/-- An edge that observes, without any protection. -/
def unguarded : GuardEdge where
  config :=
    { EdgeRuntimeConfig.fromConfig .default with
      tls := false
      allowedHosts := ["example.com".toList]
      canonicalHost := none
      trustedProxyCidrs := []
      maxBodyBytes := 1000
      uploadMaxBodyBytes := 1000
      uploadPathPrefixes := []
      strictPathPrefixes := []
      maxInFlightRequests := 10
      applicationProfile := .gnuboard5
      botPolicy := ⟨false, [], []⟩ }
  rateLimiter := .new 10
  originReady := true
  policy := .new
  clearance := none
  originInFlightRequests := 0

/-- The same edge, told to refuse bots and to let one request in a minute through,
    in the middle of an incident. -/
def guarded : GuardEdge :=
  { unguarded with
    config := unguarded.config.withProtection ⟨⟨true, [], []⟩, some 1, some 1, some 1, 1, 1, 1, 1⟩
    policy := EdgeRuntimeConfig.loaded .default .localGuard }

def botSearch : EdgeSession where
  header :=
    { method := "GET".toList
      path := "/bbs/search.php".toList
      pathAndQuery := none
      authority := none
      headers := [("host".toList, asciiBytes "example.com".toList),
        ("user-agent".toList, asciiBytes "GPTBot/1.0".toList)] }
  rawHeader := []
  directPeer := some (.v4 0xc0000201#32)
  encrypted := false
  reachable := true
  readings := ⟨"id", 0, 0, 0, 0, 0, 0, 0, 0, 0, 0⟩

theorem outcomes_of_observe_bot : Alike unguarded guarded ∧
    guarded.outcomes tallyEdge [.reload (.ok none) 0, .request botSearch, .request botSearch] =
      [.forwarded, .forwarded] ∧
    unguarded.outcomes tallyEdge [.request botSearch, .request botSearch] =
      guarded.outcomes tallyEdge
        [.reload (.ok none) 0, .request botSearch, .request botSearch] := by
  have halike : Alike unguarded guarded := ⟨⟨_, rfl⟩, rfl, rfl, rfl⟩
  refine ⟨halike, by decide +kernel, ?_⟩
  refine outcomes_of_observe tallyEdge unguarded guarded halike rfl _ _ rfl fun session hmem => ?_
  rfl

/-- The same edge refuses the bot when it enforces. -/
example : ({ guarded with config := { guarded.config with detectionMode := .enforce } } :
      GuardEdge).outcomes tallyEdge [.request botSearch] =
    [.answered (.text 403 "automated client denied\n" none []) .deny] := by
  decide +kernel

end GuardEdge

end VpsGuard
