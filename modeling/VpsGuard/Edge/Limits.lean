import VpsGuard.Edge.PolicyRuntime
import VpsGuard.Edge.RateLimit

/-!
# The limit of a request

The limit that the edge hands to the limiter for a request comes from three
places: the configuration has limits of its own for the classes of routes, the
policy of an incident may have one, and there may be one for the attempts to
authenticate (`requestLimit`). The limit of the policy is taken *instead of* that
of the configuration, even if it is the larger one (`strict_loosened`). So a policy
never loosens a limit exactly where the rule of its stage for the class is no larger, or
the attempts to authenticate are limited to less anyway (`requestLimit_le_iff`).
-/

namespace VpsGuard

open PolicyRuntime

/-- Whether the edge acts, or only observes. -/
inductive DetectionMode
  | observe
  | enforce
  deriving DecidableEq

/-- What of a request is looked at. -/
inductive InspectionMode
  | profiled
  | protocolOnly
  deriving DecidableEq

/-- What a request is served by. -/
inductive UpstreamKind
  | application
  | management
  deriving DecidableEq

structure ConfigError where
  field : String
  reason : String
  deriving DecidableEq

/-- The configuration, as far as it limits requests. -/
structure GuardConfig where
  prefixRateLimitMultiplier : UInt32
  routeRateLimitMultiplier : UInt32
  globalRateLimitMultiplier : UInt32
  rateLimitRpm : Option ℕ
  strictRateLimitRpm : Option ℕ
  uploadRateLimitRpm : Option ℕ
  authRateLimitRpm : ℕ
  publicHost : Option String
  loginRateLimitRpm : ℕ
  inspection : InspectionMode
  mode : DetectionMode
  deriving DecidableEq

namespace GuardConfig

/-- The limits of a fresh installation. -/
def default : GuardConfig where
  prefixRateLimitMultiplier := 32
  routeRateLimitMultiplier := 128
  globalRateLimitMultiplier := 256
  rateLimitRpm := none
  strictRateLimitRpm := none
  uploadRateLimitRpm := none
  authRateLimitRpm := 10
  publicHost := none
  loginRateLimitRpm := 10
  inspection := .profiled
  mode := .observe

/-- The checks of a configuration that are about limits. -/
def validate (config : GuardConfig) : Except ConfigError Unit :=
  if config.prefixRateLimitMultiplier = 0 ∨
      config.routeRateLimitMultiplier < config.prefixRateLimitMultiplier ∨
      config.globalRateLimitMultiplier < config.routeRateLimitMultiplier then
    .error ⟨"edge.rate_limit_multiplier", "prefix > 0, prefix <= route <= global 순서여야 합니다"⟩
  else if [config.rateLimitRpm, config.strictRateLimitRpm, config.uploadRateLimitRpm].any
      (·.any (· = 0)) then
    .error ⟨"edge.rate_limit_rpm", "설정된 한도는 0보다 커야 합니다"⟩
  else if config.authRateLimitRpm > 600 then
    .error ⟨"security.auth_rate_limit_rpm", "0 또는 1..=600 범위여야 합니다"⟩
  else if config.loginRateLimitRpm = 0 ∨ config.loginRateLimitRpm > 60 then
    .error ⟨"ui.login_rate_limit_rpm", "1..=60 범위여야 합니다"⟩
  else .ok ()

/-- The configuration passes the checks. -/
def Valid (config : GuardConfig) : Prop := config.validate = .ok ()

instance (config : GuardConfig) : Decidable config.Valid :=
  inferInstanceAs (Decidable (config.validate = .ok ()))

theorem valid_default : default.Valid := by
  decide

end GuardConfig

/-- The pages of the administrator, if they are public. -/
structure RuntimeManagementConfig where
  host : String
  loginRateLimitRpm : ℕ
  deriving DecidableEq

/-- The configuration that the edge runs with. -/
structure EdgeRuntimeConfig where
  management : Option RuntimeManagementConfig
  prefixRateLimitMultiplier : UInt32
  routeRateLimitMultiplier : UInt32
  globalRateLimitMultiplier : UInt32
  rateLimitRpm : Option ℕ
  strictRateLimitRpm : Option ℕ
  uploadRateLimitRpm : Option ℕ
  authRateLimitRpm : ℕ
  inspectionMode : InspectionMode
  detectionMode : DetectionMode
  deriving DecidableEq

/-- What is known of a request that is to be limited. -/
structure RequestContext where
  upstreamKind : UpstreamKind
  method : String
  path : String
  clientIp : Option IpAddr
  routeClass : RouteClass
  authenticationRoute : Bool
  deriving DecidableEq

/-- The lower one, if there are limits. -/
def stricterLimit : Option ℕ → Option ℕ → Option ℕ
  | some left, some right => some (min left right)
  | some limit, none | none, some limit => some limit
  | none, none => none

namespace EdgeRuntimeConfig

def fromConfig (config : GuardConfig) : EdgeRuntimeConfig where
  management := config.publicHost.map fun host => ⟨host.toLower, config.loginRateLimitRpm⟩
  prefixRateLimitMultiplier := config.prefixRateLimitMultiplier
  routeRateLimitMultiplier := config.routeRateLimitMultiplier
  globalRateLimitMultiplier := config.globalRateLimitMultiplier
  rateLimitRpm := config.rateLimitRpm
  strictRateLimitRpm := config.strictRateLimitRpm
  uploadRateLimitRpm := config.uploadRateLimitRpm
  authRateLimitRpm := config.authRateLimitRpm
  inspectionMode := config.inspection
  detectionMode := config.mode

variable (config : EdgeRuntimeConfig)

/-- Requests are limited at all. -/
def enforcesCommonProtection : Bool := config.detectionMode = .enforce

/-- The limit for a class of routes. -/
def rateLimit (routeClass : RouteClass) : Option ℕ :=
  if !config.enforcesCommonProtection then none
  else
    match routeClass with
    | .general => config.rateLimitRpm
    -- Without limits of their own, these have the general one.
    | .strict => config.strictRateLimitRpm.or config.rateLimitRpm
    | .upload => config.uploadRateLimitRpm.or config.rateLimitRpm
    | .authentication => none
    | .managementAuth => none

/-- The limit for attempts to log in to the application. -/
def authenticationRateLimit : Option ℕ :=
  if config.enforcesCommonProtection && config.inspectionMode = .profiled &&
      config.authRateLimitRpm > 0 then
    some config.authRateLimitRpm
  else none

/-- The limit for attempts to log in to the management. -/
def managementLoginRateLimit (method path : String) : Option ℕ :=
  if method = "POST" ∧ path = "/api/v1/session" then config.management.map (·.loginRateLimitRpm)
  else none

def rateLimitPolicy (clientRpm : UInt32) : RateLimitPolicy :=
  .fromMultipliers clientRpm config.prefixRateLimitMultiplier config.routeRateLimitMultiplier
    config.globalRateLimitMultiplier

/-- The limit of a request, as `filter_request` hands it to the limiter. -/
def requestLimit (decision : PolicyRuntime.RuntimeDecision) (context : RequestContext) : Option ℕ :=
  let commonProtectionEnabled :=
    config.enforcesCommonProtection && context.upstreamKind = .application
  if context.upstreamKind = .management then
    config.managementLoginRateLimit context.method context.path
  else
    -- The limit of the policy hides that of the configuration, and is not compared with it.
    let routeLimit := (if commonProtectionEnabled then decision.requestsPerMinute else none).or
      (config.rateLimit context.routeClass)
    let authLimit := if context.authenticationRoute then config.authenticationRateLimit else none
    stricterLimit routeLimit authLimit

end EdgeRuntimeConfig

/-! ## What the policy changes -/

theorem stricterLimit_le_iff (left left' : ℕ) (right : Option ℕ) :
    (∃ limit limit', stricterLimit (some left) right = some limit ∧
      stricterLimit (some left') right = some limit' ∧ limit ≤ limit') ↔
      left ≤ left' ∨ ∃ bound, right = some bound ∧ bound ≤ left' := by
  cases right with
  | none => simp [stricterLimit]
  | some right =>
    constructor
    · rintro ⟨_, _, ⟨⟩, ⟨⟩, hle⟩
      have hor : left ≤ left' ∨ right ≤ left' := by omega
      exact hor.imp_right fun h => ⟨right, rfl, h⟩
    · rintro (h | ⟨_, ⟨⟩, h⟩) <;> exact ⟨_, _, rfl, rfl, by omega⟩

namespace ProtectionSettings

variable (s : ProtectionSettings)

/-- What a stage allows for a class of routes, if it has a rule for the class. -/
def stageLimit : GuardMode → RouteClass → Option ℕ
  | .watch, .strict | .recovering, .strict => some s.watchStrictRequestsPerMinute
  | .localGuard, .strict => some s.localStrictRequestsPerMinute
  | .localGuard, .upload => some s.localUploadRequestsPerMinute
  | .emergencyProxy, .strict | .recoveryReady, .strict => some s.emergencyStrictRequestsPerMinute
  | .emergencyProxy, .upload | .recoveryReady, .upload => some s.emergencyUploadRequestsPerMinute
  | _, _ => none

theorem find?_routeRules (mode : GuardMode) (routeClass : RouteClass) :
    ((s.routeRules mode).find? (·.routeClass = routeClass.asStr)).map (·.requestsPerMinute) =
      s.stageLimit mode routeClass := by
  cases mode <;> cases routeClass <;> simp [routeRules, RouteClass.asStr, stageLimit]

variable {s}

/-- The settings that pass the check have no limit of zero. -/
theorem Valid.stageLimit_pos (h : s.Valid) {mode : GuardMode} {routeClass : RouteClass} {limit : ℕ}
    (hlimit : s.stageLimit mode routeClass = some limit) : 0 < limit := by
  unfold Valid validate at h
  split at h
  · cases h
  next hnone =>
  have hfields : ∀ field ∈ s.fields, 0 < field.2 := fun field hfield => by
    have hrange := List.find?_eq_none.1 hnone field hfield
    simp only [Bool.not_eq_true, Bool.not_eq_false', Bool.and_eq_true, decide_eq_true_eq] at hrange
    exact hrange.1
  simp only [fields, List.forall_mem_cons] at hfields
  cases mode <;> cases routeClass <;> cases hlimit <;> grind

end ProtectionSettings

namespace EdgeRuntimeConfig

variable {config : EdgeRuntimeConfig} {settings : ProtectionSettings} {C : Codec}
  {rt : PolicyRuntime} {now : ℕ} {p : PolicySnapshot} {context : RequestContext}

theorem requestLimit_of_application (happlication : context.upstreamKind = .application)
    {limit : ℕ} (hlimit : config.rateLimit context.routeClass = some limit)
    (decision : PolicyRuntime.RuntimeDecision) : config.requestLimit decision context =
      stricterLimit (some (decision.requestsPerMinute.getD limit))
        (if context.authenticationRoute then config.authenticationRateLimit else none) := by
  -- A class has a limit only where limits are enforced, and then the policy counts, too.
  have henforces : config.enforcesCommonProtection = true := by
    unfold rateLimit at hlimit
    split at hlimit
    · cases hlimit
    · next h => simpa using h
  simp only [requestLimit, happlication, henforces, hlimit]
  cases decision.requestsPerMinute <;> simp

/-- **The limits of an incident.** The policy of a mode does not make the limit of a request
    larger than it is without a policy, exactly if the stage has no rule for the class of the
    route, or one that is no larger than the limit of the configuration, or if the attempts to
    authenticate are limited to no more than that. -/
theorem requestLimit_le_iff (mode : GuardMode) (hsettings : settings.Valid)
    (hp : PolicyRuntime.Active C rt now p) (hrules : p.routeRules = settings.routeRules mode)
    (happlication : context.upstreamKind = .application) {static : ℕ}
    (hstatic : config.rateLimit context.routeClass = some static) :
    (∃ limit limit',
      config.requestLimit
        (rt.decisionAt C context.clientIp context.routeClass.asStr now) context = some limit ∧
      config.requestLimit
        (new.decisionAt C context.clientIp context.routeClass.asStr now) context =
          some limit' ∧
      limit ≤ limit') ↔
    ∀ stage, settings.stageLimit mode context.routeClass = some stage → stage ≤ static ∨
      context.authenticationRoute ∧
        ∃ attempts, config.authenticationRateLimit = some attempts ∧ attempts ≤ static := by
  have hnew : (new.decisionAt C context.clientIp context.routeClass.asStr
      now).requestsPerMinute = none := rfl
  have hpolicy : (rt.decisionAt C context.clientIp context.routeClass.asStr
      now).requestsPerMinute = settings.stageLimit mode context.routeClass := by
    rw [hp.decisionAt_eq, hrules, settings.find?_routeRules]
    cases hstage : settings.stageLimit mode context.routeClass with
    | none => rfl
    | some stage =>
      have hpos : decide (stage > 0) = true := decide_eq_true (hsettings.stageLimit_pos hstage)
      exact if_pos hpos
  rw [requestLimit_of_application happlication hstatic,
    requestLimit_of_application happlication hstatic, hnew, hpolicy, stricterLimit_le_iff]
  cases settings.stageLimit mode context.routeClass with
  | none => simp
  | some stage =>
    simp only [Option.getD_some, Option.getD_none, Option.some.injEq, forall_eq', ite_eq_iff]
    cases context.authenticationRoute <;> simp

def tally : Codec where
  sha256Hex := id
  policyJson _ := ""
  settingsJson _ := ""
  formatRfc3339 t := some (String.ofList (List.replicate t '|'))
  parseRfc3339 text := some text.length
  parse_format := by
    rintro t _ ⟨⟩
    simp

/-- A policy for a mode, which expires after two seconds. -/
def leased (settings : ProtectionSettings) (mode : GuardMode) : PolicySnapshot :=
  PolicySnapshot.sealed tally
    { schemaVersion := 1, policyVersion := 1, generatedAt := "", expiresAt := "||", mode
      routeRules := settings.routeRules mode, clientRules := [], staticLimits := ⟨1, 1⟩
      contentSha256 := "" }

def loaded (settings : ProtectionSettings) (mode : GuardMode) : PolicyRuntime :=
  (new.reloadAt tally (.ok (some (leased settings mode))) 0).2

def limiting (strict : ℕ) : GuardConfig :=
  { GuardConfig.default with strictRateLimitRpm := some strict, mode := .enforce }

def search : RequestContext where
  upstreamKind := .application
  method := "GET"
  path := "/search"
  clientIp := some (.v4 0xc0000201#32)
  routeClass := .strict
  authenticationRoute := false

/-- A search under attack may be limited to 120 requests in a minute by the configuration, and
    to 60 when nothing happens. -/
theorem requestLimit_le_iff_search :
    (∃ limit limit',
      (fromConfig (limiting 120)).requestLimit
        ((loaded .default .localGuard).decisionAt tally search.clientIp search.routeClass.asStr 1)
          search = some limit ∧
      (fromConfig (limiting 120)).requestLimit
        (new.decisionAt tally search.clientIp search.routeClass.asStr 1) search =
          some limit' ∧
      limit ≤ limit') ∧
    ∃ limit limit',
      (fromConfig (limiting 60)).requestLimit
        ((loaded .default .normal).decisionAt tally search.clientIp search.routeClass.asStr 1)
          search = some limit ∧
      (fromConfig (limiting 60)).requestLimit
        (new.decisionAt tally search.clientIp search.routeClass.asStr 1) search =
          some limit' ∧
      limit ≤ limit' := by
  have hactive (mode : GuardMode) (hmode : mode = .localGuard ∨ mode = .normal) :
      PolicyRuntime.Active tally (loaded .default mode) 1 (leased .default mode) := by
    rcases hmode with rfl | rfl <;> exact ⟨by decide, 2, by decide, by decide⟩
  constructor
  · refine (requestLimit_le_iff .localGuard ProtectionSettings.valid_default
      (hactive _ (.inl rfl)) rfl rfl rfl).2 ?_
    rintro _ ⟨⟩
    exact .inl (by decide)
  · refine (requestLimit_le_iff .normal ProtectionSettings.valid_default
      (hactive _ (.inr rfl)) rfl rfl rfl).2 ?_
    rintro _ ⟨⟩

/-- A search is limited to 60 requests in a minute by the configuration, and to
    120 once there is something to watch. -/
theorem strict_loosened : (limiting 60).Valid ∧ ProtectionSettings.default.Valid ∧
      (loaded .default .watch).current = some (leased .default .watch) ∧
      (fromConfig (limiting 60)).requestLimit
        (new.decisionAt tally search.clientIp search.routeClass.asStr 1) search =
          some 60 ∧
      (fromConfig (limiting 60)).requestLimit
        ((loaded .default .watch).decisionAt tally search.clientIp search.routeClass.asStr 1)
          search = some 120 := by
  decide

end EdgeRuntimeConfig

end VpsGuard
