import VpsGuard.Core.Crawler
import VpsGuard.Edge.Clearance
import VpsGuard.Edge.Limits
import VpsGuard.Edge.Request
import VpsGuard.Profiles

/-!
# The filter of the edge

Every request goes through the filter of the edge (`filterRequest`). It is
looked at once (`requestContext`), and then goes from check to check, in a fixed order.
The first check that refuses it answers it; if none does, it is forwarded:

* whether it is clear where it ends, its host, and its method;
* what its client says it is;
* the two paths of the edge itself, which it answers;
* whether it has to be sent to `https`, or to another host;
* what the policy says of its client;
* its limit, at the limiter;
* the length of its body, and the number of requests at the origin.

An edge that only observes protects nothing: what the policy says, what a client
says it is, and the limits do not matter then. Two edges that differ in these
only do the same with the same requests (`Edge.Observation`).
-/

namespace VpsGuard

/-! ## The configuration -/

/-- What is done with clients that say they are programs. -/
structure BotPolicyConfig where
  blockUnapprovedDeclaredBots : Bool
  allowedCrawlers : List CrawlerProvider
  crawlerNetworks : List CrawlerNetwork
  deriving DecidableEq

/-- The configuration of the edge. -/
structure EdgeConfig extends EdgeRuntimeConfig where
  /-- The edge serves `https` itself. -/
  tls : Bool
  allowedHosts : List (List Char)
  canonicalHost : Option (List Char)
  trustedProxyCidrs : List IpNet
  maxBodyBytes : ℕ
  uploadMaxBodyBytes : ℕ
  uploadPathPrefixes : List (List Char)
  strictPathPrefixes : List (List Char)
  maxInFlightRequests : ℕ
  applicationProfile : ApplicationProfile
  botPolicy : BotPolicyConfig
  deriving DecidableEq

/-- Where the class of a route comes from. -/
inductive RouteClassSource
  | coreDefault
  | applicationProfile
  | siteStrictOverride
  | siteUploadOverride
  | managementAuth
  deriving DecidableEq

/-- What the edge makes of a path. -/
structure EffectiveRouteProfile where
  routeClass : RouteClass
  normalizedRoute : List Char
  baseCost : ℕ
  source : RouteClassSource
  authenticationRoute : Bool

def RouteKind.routeClass : RouteKind → RouteClass × RouteClassSource
  | .upload => (.upload, .applicationProfile)
  | .admin | .authentication | .search | .write | .remoteProcedure =>
    (.strict, .applicationProfile)
  | .static | .publicPage | .board | .media | .dynamic | .api => (.general, .coreDefault)

namespace EdgeConfig

variable (config : EdgeConfig)

/-- What serves the requests for a host. -/
def upstreamKind (host : Option (List Char)) : UpstreamKind :=
  if config.management.any fun management =>
      host.any fun value => Text.eqIgnoreCase (normalizeHost value) management.host.toList then
    .management
  else .application

/-- The class that the configuration gives to a path. -/
def siteOverride (path : List Char) : RouteClass × RouteClassSource :=
  if pathMatchesAny path config.uploadPathPrefixes then (.upload, .siteUploadOverride)
  else if pathMatchesAny path config.strictPathPrefixes then (.strict, .siteStrictOverride)
  else (.general, .coreDefault)

/-- What the edge makes of a path. What the site says comes before the profile. -/
def effectiveRouteProfile (upstream : UpstreamKind) (path target : List Char) :
    EffectiveRouteProfile :=
  if upstream = .management then
    let managementAuth := decide (path = "/api/v1/session".toList)
    { routeClass := if managementAuth then .managementAuth else .general
      normalizedRoute := normalizeRoute path
      baseCost := if managementAuth then 12 else 2
      source := if managementAuth then .managementAuth else .coreDefault
      authenticationRoute := false }
  else
    let site := config.siteOverride path
    if config.inspectionMode = .protocolOnly then
      { routeClass := site.1
        normalizedRoute := normalizeRoute target
        baseCost := 1
        source := site.2
        authenticationRoute := false }
    else
      let application := classify config.applicationProfile target
      let chosen := if site.2 ≠ .coreDefault then site else application.kind.routeClass
      { routeClass := chosen.1
        normalizedRoute := application.normalizedRoute
        baseCost := application.baseCost
        source := chosen.2
        authenticationRoute := application.kind = .authentication }

def bodyLimit (routeClass : RouteClass) : ℕ :=
  if routeClass = .upload then config.uploadMaxBodyBytes else config.maxBodyBytes

end EdgeConfig

/-! ## The edge and a request -/

/-- What is taken from libraries. -/
structure EdgeCodec extends Codec, ClearanceCodec where
  parseIp : List Char → Option IpAddr

/-- What the edge reads while it looks at a request: its clocks, and what it has
    told the control process. -/
structure EdgeReadings where
  requestId : String
  verifiedAt : ℕ
  decidedAt : ℕ
  issuedAt : ℕ
  limitedAt : ℤ
  latencyMicros : ℕ
  occurredAtUnixMs : ℕ
  telemetryEmitted : ℕ
  telemetryDropped : ℕ
  telemetryReconnected : ℕ
  inFlightRequests : ℕ
  deriving DecidableEq

/-- A request, with its connection. -/
structure EdgeSession where
  header : RequestHeader
  /-- The bytes that the head was parsed from. -/
  rawHeader : List UInt8
  directPeer : Option IpAddr
  encrypted : Bool
  reachable : Bool
  readings : EdgeReadings

/-- What was decided of a request. -/
inductive DecisionKind
  | allow
  | throttle
  | challenge
  | deny
  deriving DecidableEq

/-- What the edge answers itself. -/
inductive EdgeResponse
  | text (status : ℕ) (body : String) (retryAfterSeconds : Option ℕ)
      (headers : List (String × List Char))
  | redirect (location : List Char)
  deriving DecidableEq

def EdgeResponse.status : EdgeResponse → ℕ
  | text status _ _ _ => status
  | redirect _ => 308

/-- What becomes of a request. -/
inductive FilterOutcome
  | forwarded
  | answered (response : EdgeResponse) (decision : DecisionKind)
  /-- An answer did not reach the client. -/
  | failed
  deriving DecidableEq

/-- The edge, between two requests. -/
structure GuardEdge where
  config : EdgeConfig
  rateLimiter : BoundedRateLimiter
  originReady : Bool
  policy : PolicyRuntime
  clearance : Option ClearanceSigner
  /-- The requests that are at the origin. -/
  originInFlightRequests : ℕ

/-- What is known of a request. -/
structure EdgeContext extends RequestContext where
  host : Option (List Char)
  target : List Char
  requestPath : List Char
  requestMethod : List Char
  forwardedHeadersTrusted : Bool
  sessionContinuity : Bool
  normalizedRoute : List Char
  routeCost : ℕ
  contentLength : Option ℕ
  userAgent : Option (List Char)
  /-- What is made of what the client says it is. -/
  bot : DeclaredBotDisposition
  userAgentFamily : UserAgentFamily
  policyVersion : ℕ

/-- What the control process is told of a request that the edge answered. -/
structure RequestTelemetry where
  schemaVersion : ℕ
  requestId : String
  method : List Char
  routeClass : RouteClass
  normalizedRoute : List Char
  routeCost : ℕ
  status : ℕ
  latencyMicros : ℕ
  clientIp : Option IpAddr
  requestBodyBytes : ℕ
  responseBodyBytes : ℕ
  upstreamConnectionReused : Option Bool
  decision : DecisionKind
  policyVersion : ℕ
  botClass : BotClass
  botProvider : Option CrawlerProvider
  botVerified : Bool
  sessionContinuity : Bool
  botReason : BotReason
  userAgentFamily : UserAgentFamily
  inFlightRequests : ℕ
  edgeTelemetryEmitted : ℕ
  edgeTelemetryDropped : ℕ
  edgeTelemetryReconnected : ℕ
  occurredAtUnixMs : ℕ

/-- What becomes of a request, what is told of it, and the edge after it. -/
structure FilterResult where
  outcome : FilterOutcome
  telemetry : Option RequestTelemetry
  edge : GuardEdge

namespace EdgeSession

variable (session : EdgeSession)

/-- The scheme of the request. A proxy that is not trusted has no say in it. -/
def currentProto (forwardedHeadersTrusted : Bool) : List Char :=
  let forwarded :=
    if forwardedHeadersTrusted then
      ((session.header.headerValue "x-forwarded-proto".toList).map Text.toLower).filter fun proto =>
        proto = "http".toList || proto = "https".toList
    else none
  forwarded.getD (if session.encrypted then "https".toList else "http".toList)

def respondText (status : ℕ) (body : String) (retryAfterSeconds : Option ℕ)
    (headers : List (String × List Char)) (decision : DecisionKind) : FilterOutcome :=
  if session.reachable then .answered (.text status body retryAfterSeconds headers) decision
  else .failed

/-- The client is sent somewhere else. -/
def respondRedirect (location : List Char) : FilterOutcome :=
  if session.reachable then .answered (.redirect location) .allow else .failed

end EdgeSession

def httpsRedirectLocation (tlsEnabled requestIsHttps : Bool) (canonicalHost : Option (List Char))
    (currentHost target : List Char) : Option (List Char) :=
  if !tlsEnabled || requestIsHttps ||
      Text.startsWith "/.well-known/acme-challenge/".toList (targetPath target) then none
  else
    some ("https://".toList ++ normalizeHost (canonicalHost.getD currentHost) ++ target)

namespace GuardEdge

variable (E : EdgeCodec) (edge : GuardEdge) (session : EdgeSession)

/-- What is known of the request before the checks. -/
def requestContext : EdgeContext :=
  let host := session.header.requestHost
  let clientIp := session.directPeer.map fun direct =>
    effectiveClientIp E.parseIp direct (session.header.headerValue "x-forwarded-for".toList)
      edge.config.trustedProxyCidrs
  let upstreamKind := edge.config.upstreamKind host
  let profile := edge.config.effectiveRouteProfile upstreamKind session.header.path
    session.header.target
  { upstreamKind
    method := String.ofList session.header.method
    path := String.ofList session.header.path
    clientIp
    routeClass := profile.routeClass
    authenticationRoute := profile.authenticationRoute
    host
    target := session.header.target
    requestPath := session.header.path
    requestMethod := session.header.method
    forwardedHeadersTrusted :=
      session.directPeer.any fun peer => ipIsTrusted peer edge.config.trustedProxyCidrs
    sessionContinuity := clientIp.any fun clientIp => edge.clearance.any fun signer =>
      signer.verifyCookie E.toClearanceCodec (session.header.headerValue "cookie".toList) clientIp
        session.readings.verifiedAt
    normalizedRoute := profile.normalizedRoute
    routeCost := profile.baseCost
    contentLength :=
      (session.header.headerValue "content-length".toList).bind (Text.parseUnsigned (2 ^ 64))
    userAgent := session.header.headerValue "user-agent".toList
    bot := .undeclared
    userAgentFamily := .missing
    policyVersion := 0 }

/-- What is told of an answer. Nothing is told of the pages of the administrator. -/
def emitTelemetry (session : EdgeSession) (context : EdgeContext) (status : ℕ)
    (decision : DecisionKind) : Option RequestTelemetry :=
  if context.upstreamKind = .management then none
  else
    some
      { schemaVersion := 1
        requestId := session.readings.requestId
        method := context.requestMethod
        routeClass := context.routeClass
        normalizedRoute := context.normalizedRoute
        routeCost := context.routeCost
        status
        latencyMicros := session.readings.latencyMicros
        clientIp := context.clientIp
        requestBodyBytes := 0
        responseBodyBytes := 0
        upstreamConnectionReused := none
        decision
        policyVersion := context.policyVersion
        botClass := context.bot.botClass
        botProvider := context.bot.provider
        botVerified := context.bot.verified
        sessionContinuity := context.sessionContinuity
        botReason := context.bot.reason
        userAgentFamily := context.userAgentFamily
        inFlightRequests := session.readings.inFlightRequests
        edgeTelemetryEmitted := session.readings.telemetryEmitted
        edgeTelemetryDropped := session.readings.telemetryDropped
        edgeTelemetryReconnected := session.readings.telemetryReconnected
        occurredAtUnixMs := session.readings.occurredAtUnixMs }

/-- The filter is done with the request. -/
def finish (session : EdgeSession) (context : EdgeContext) (outcome : FilterOutcome)
    (edge : GuardEdge) : FilterResult where
  outcome
  telemetry :=
    match outcome with
    | .answered response decision => emitTelemetry session context response.status decision
    | .forwarded | .failed => none
  edge

/-! ## The checks -/

variable (context : EdgeContext)

/-- It is clear where the request ends. -/
def checkFraming : Option FilterOutcome :=
  match validateRequestFraming session.rawHeader session.header with
  | .error _ => some (session.respondText 400 "invalid request framing\n" none [] .deny)
  | .ok () => none

/-- The host is one of those that are served. -/
def checkHost : Option FilterOutcome :=
  if !hostAllowed context.host edge.config.allowedHosts then
    some (session.respondText 400 "invalid host\n" none [] .deny)
  else none

/-- The method is not one of those that are never served. -/
def checkMethod : Option FilterOutcome :=
  if rejectsMethod context.requestMethod then
    some (session.respondText 405 "method not allowed\n" none
      [("allow", "GET, HEAD, POST, PUT, PATCH, DELETE, OPTIONS".toList)] .deny)
  else none

/-- The context, with what is made of what the client says it is. -/
def classifyBot : EdgeContext :=
  let bot := declaredBotDisposition context.userAgent context.clientIp
    edge.config.botPolicy.allowedCrawlers edge.config.botPolicy.crawlerNetworks
  { context with bot, userAgentFamily := userAgentFamily context.userAgent bot }

/-- The client is not to be refused for what it says it is. -/
def checkBot : Option FilterOutcome :=
  if edge.config.enforcesCommonProtection && edge.config.botPolicy.blockUnapprovedDeclaredBots &&
      context.bot.blocked then
    some (session.respondText 403 "automated client denied\n" none [] .deny)
  else none

/-- The paths of the edge itself. -/
def checkHealth : Option FilterOutcome :=
  if context.requestPath = "/health/live".toList then
    some (session.respondText 200 "live\n" none
      [("x-vpsguard-telemetry-emitted", Nat.toDigits 10 session.readings.telemetryEmitted),
        ("x-vpsguard-telemetry-dropped", Nat.toDigits 10 session.readings.telemetryDropped),
        ("x-vpsguard-telemetry-reconnected", Nat.toDigits 10 session.readings.telemetryReconnected),
        ("x-vpsguard-in-flight-requests", Nat.toDigits 10 session.readings.inFlightRequests)] .allow)
  else if context.requestPath = "/health/ready".toList then
    some (if edge.originReady then session.respondText 200 "ready\n" none [] .allow
      else session.respondText 503 "origin unavailable\n" none [] .allow)
  else none

/-- A plain request is sent to `https`. -/
def checkHttps : Option FilterOutcome :=
  context.host.bind fun currentHost =>
    (httpsRedirectLocation edge.config.tls
      (session.currentProto context.forwardedHeadersTrusted = "https".toList)
      (if context.upstreamKind = .application then edge.config.canonicalHost else none)
      currentHost context.target).map session.respondRedirect

/-- A request for another host is sent to the canonical one. -/
def checkCanonical : Option FilterOutcome :=
  match edge.config.canonicalHost, context.host with
  | some canonical, some current =>
    if context.upstreamKind = .application ∧ normalizeHost current ≠ normalizeHost canonical then
      some (session.respondRedirect (session.currentProto context.forwardedHeadersTrusted ++
        "://".toList ++ canonical ++ context.target))
    else none
  | _, _ => none

/-- What the policy says of the request. -/
def runtimeDecision : PolicyRuntime.RuntimeDecision :=
  edge.policy.decisionAt E.toCodec context.clientIp context.routeClass.asStr
    session.readings.decidedAt

/-- What the policy says of the client and the route is done. -/
def checkPolicy : Option FilterOutcome :=
  if edge.config.enforcesCommonProtection && context.upstreamKind = .application then
    context.clientIp.bind fun clientIp =>
      match (edge.runtimeDecision E session context).action with
      | some .deny => some (session.respondText 403 "request denied\n" none [] .deny)
      | some .challenge =>
        -- A client that was challenged before, and came back, goes on.
        if context.sessionContinuity then none
        else
          let secure := decide
            (session.currentProto context.forwardedHeadersTrusted = "https".toList)
          let headers := edge.clearance.elim [] fun signer =>
            [("set-cookie", signer.issueCookie E.toClearanceCodec clientIp session.readings.issuedAt
              secure)]
          some (session.respondText 401 "browser verification required; retry request\n" none headers
            .challenge)
      | some .throttle =>
        some (session.respondText 429 "temporarily throttled\n" (some 60) [] .throttle)
      | some .allow | some .observe | none => none
  else none

/-- What the limiter is asked, if there is a limit. -/
def limitCheck : Option LimitCheck :=
  context.clientIp.bind fun clientIp =>
    (edge.config.requestLimit (edge.runtimeDecision E session context)
      context.toRequestContext).map fun limit =>
      { clientIp
        routeClass := if context.authenticationRoute then .authentication else context.routeClass
        policy := edge.config.rateLimitPolicy (.ofNat limit)
        now := session.readings.limitedAt }

/-- The request is within its limits, and counts. -/
def checkLimit : Option FilterOutcome × GuardEdge :=
  match edge.limitCheck E session context with
  | none => (none, edge)
  | some check =>
    let (decision, rateLimiter) := edge.rateLimiter.check check
    match decision with
    | .deny _ =>
      (some (session.respondText 429 "too many requests\n" (some 60) [] .throttle),
        { edge with rateLimiter })
    | .allow | .allowFallback => (none, { edge with rateLimiter })

/-- The body is not too large. -/
def checkBody : Option FilterOutcome :=
  if context.contentLength.any (· > edge.config.bodyLimit context.routeClass) then
    some (session.respondText 413 "payload too large\n" none [] .deny)
  else none

/-- There is room at the origin, where the request then is. -/
def checkCapacity : Option FilterOutcome × GuardEdge :=
  if context.upstreamKind = .application then
    if edge.originInFlightRequests ≥ edge.config.maxInFlightRequests then
      (some (session.respondText 503 "server busy; retry request\n" (some 1) [] .throttle), edge)
    else (none, { edge with originInFlightRequests := edge.originInFlightRequests + 1 })
  else (none, edge)

def protocolChecks : Option FilterOutcome :=
  (checkFraming session).or <| (edge.checkHost session context).or <| checkMethod session context

def routingChecks : Option FilterOutcome :=
  (edge.checkBot session context).or <| (edge.checkHealth session context).or <|
    (edge.checkHttps session context).or <| edge.checkCanonical session context

/-- The checks of the room for the request: in its body, and at the origin. -/
def roomChecks : FilterOutcome × GuardEdge :=
  match edge.checkBody session context with
  | some outcome => (outcome, edge)
  | none =>
    match edge.checkCapacity session context with
    | (some outcome, edge) => (outcome, edge)
    | (none, edge) => (.forwarded, edge)

/-- The checks, in turn. The first one that does not pass is the answer. -/
def filterRequest : FilterResult :=
  let context := edge.requestContext E session
  match edge.protocolChecks session context with
  | some outcome => finish session context outcome edge
  | none =>
    let context := edge.classifyBot context
    match edge.routingChecks session context with
    | some outcome => finish session context outcome edge
    | none =>
      let context :=
        { context with policyVersion := (edge.runtimeDecision E session context).policyVersion }
      match edge.checkPolicy E session context with
      | some outcome => finish session context outcome edge
      | none =>
        match edge.checkLimit E session context with
        | (some outcome, edge) => finish session context outcome edge
        | (none, edge) =>
          let (outcome, edge) := edge.roomChecks session context
          finish session context outcome edge

/-! ## What the filter leaves alone -/

theorem checkLimit_config : (edge.checkLimit E session context).2.config = edge.config := by
  unfold checkLimit
  cases edge.limitCheck E session context with
  | none => rfl
  | some check =>
    dsimp only
    split <;> rfl

theorem roomChecks_config : (edge.roomChecks session context).2.config = edge.config := by
  unfold roomChecks checkCapacity
  cases edge.checkBody session context with
  | some outcome => rfl
  | none =>
    dsimp only
    split_ifs <;> rfl

theorem filterRequest_config : (edge.filterRequest E session).edge.config = edge.config := by
  have hlimit (context : EdgeContext) := edge.checkLimit_config E session context
  unfold filterRequest
  dsimp only
  split
  · rfl
  split
  · rfl
  split
  · rfl
  split
  · next heq => exact (congrArg (·.2.config) heq).symm.trans (hlimit _)
  · next heq =>
    exact (roomChecks_config _ _ _).trans ((congrArg (·.2.config) heq).symm.trans (hlimit _))

end GuardEdge

end VpsGuard
