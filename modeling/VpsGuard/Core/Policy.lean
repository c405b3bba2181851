import VpsGuard.Core.State

/-!
# Policies

A policy of `guard-core` is what the control process tells the edge: the
limits of the routes, which follow from the mode and the settings of the
administrator (`ProtectionSettings.routeRules`), and the clients to refuse. It
is sealed by a hash of its content, and leased: it expires some time after it
was generated (`PolicySnapshot.validateAt`).

Hashes, encodings and times as text are those of libraries. They are given by
a `Codec`, of which it is only known that a time that is written is read back.
Times are counted in seconds, from the epoch.
-/

namespace VpsGuard

inductive IpAddr
  | v4 (address : BitVec 32)
  | v6 (address : BitVec 128)
  deriving DecidableEq

/-- An address with the length of the network part. -/
structure IpNet where
  addr : IpAddr
  prefixLen : ℕ
  deriving DecidableEq

/-- The address is of the network: the bits of the network part agree. -/
def IpNet.contains (net : IpNet) (ip : IpAddr) : Bool :=
  match net.addr, ip with
  | .v4 a, .v4 b => (a ^^^ b) >>> (32 - net.prefixLen) = 0
  | .v6 a, .v6 b => (a ^^^ b) >>> (128 - net.prefixLen) = 0
  | _, _ => false

/-- What a route is limited to. -/
structure RouteRule where
  routeClass : String
  requestsPerMinute : ℕ
  deriving DecidableEq

/-- What is done to a client, and until when. -/
structure ClientRule where
  clientIp : IpAddr
  action : Decision
  expiresAt : String
  reasonCodes : List ReasonCode
  deriving DecidableEq

/-- The limits that the edge has in any case. -/
structure StaticLimits where
  maxBodyBytes : ℕ
  maxTrackedClients : ℕ
  deriving DecidableEq

/-- The limits are as the configuration accepts them. -/
def StaticLimits.Positive (limits : StaticLimits) : Prop :=
  0 < limits.maxBodyBytes ∧ 0 < limits.maxTrackedClients

instance (limits : StaticLimits) : Decidable limits.Positive := inferInstanceAs (Decidable (_ ∧ _))

theorem StaticLimits.positive_one : Positive ⟨1, 1⟩ := by
  decide

/-! ## Settings -/

/-- The limits, in requests per minute, that an administrator sets. -/
structure ProtectionSettings where
  watchStrictRequestsPerMinute : ℕ
  localStrictRequestsPerMinute : ℕ
  localUploadRequestsPerMinute : ℕ
  emergencyStrictRequestsPerMinute : ℕ
  emergencyUploadRequestsPerMinute : ℕ
  deriving DecidableEq

/-- Why settings are not accepted. -/
inductive ProtectionSettingsError
  | outOfRange (field : String)
  | stageOrder (field : String)
  deriving DecidableEq

namespace ProtectionSettings

/-- The settings of a fresh installation. -/
def default : ProtectionSettings where
  watchStrictRequestsPerMinute := 120
  localStrictRequestsPerMinute := 30
  localUploadRequestsPerMinute := 15
  emergencyStrictRequestsPerMinute := 10
  emergencyUploadRequestsPerMinute := 5

def maxRequestsPerMinute : ℕ := 6000

variable (s : ProtectionSettings)

def fields : List (String × ℕ) :=
  [("watch_strict_requests_per_minute", s.watchStrictRequestsPerMinute),
    ("local_strict_requests_per_minute", s.localStrictRequestsPerMinute),
    ("local_upload_requests_per_minute", s.localUploadRequestsPerMinute),
    ("emergency_strict_requests_per_minute", s.emergencyStrictRequestsPerMinute),
    ("emergency_upload_requests_per_minute", s.emergencyUploadRequestsPerMinute)]

/-- The fields that have to be at most another one. -/
def order : List (String × ℕ × ℕ) :=
  [("local_strict_requests_per_minute", s.localStrictRequestsPerMinute,
      s.watchStrictRequestsPerMinute),
    ("emergency_strict_requests_per_minute", s.emergencyStrictRequestsPerMinute,
      s.localStrictRequestsPerMinute),
    ("local_upload_requests_per_minute", s.localUploadRequestsPerMinute,
      s.localStrictRequestsPerMinute),
    ("emergency_upload_requests_per_minute", s.emergencyUploadRequestsPerMinute,
      s.localUploadRequestsPerMinute),
    ("emergency_upload_requests_per_minute", s.emergencyUploadRequestsPerMinute,
      s.emergencyStrictRequestsPerMinute)]

/-- The check of settings: the ranges first, then the order of the stages. -/
def validate : Except ProtectionSettingsError Unit :=
  match s.fields.find? fun field => !(1 ≤ field.2 && field.2 ≤ maxRequestsPerMinute) with
  | some field => .error (.outOfRange field.1)
  | none =>
    match s.order.find? fun field => field.2.1 > field.2.2 with
    | some field => .error (.stageOrder field.1)
    | none => .ok ()

/-- The rules of the routes in a mode. -/
def routeRules : GuardMode → List RouteRule
  | .normal | .manualHold => []
  | .watch | .recovering => [⟨"strict", s.watchStrictRequestsPerMinute⟩]
  | .localGuard =>
    [⟨"strict", s.localStrictRequestsPerMinute⟩, ⟨"upload", s.localUploadRequestsPerMinute⟩]
  | .emergencyProxy | .recoveryReady =>
    [⟨"strict", s.emergencyStrictRequestsPerMinute⟩,
      ⟨"upload", s.emergencyUploadRequestsPerMinute⟩]

/-- Settings that pass the check. -/
def Valid : Prop := s.validate = .ok ()

instance (s : ProtectionSettings) : Decidable s.Valid :=
  inferInstanceAs (Decidable (s.validate = .ok ()))

theorem valid_default : default.Valid := by
  decide

end ProtectionSettings

/-! ## Policies -/

/-- A policy, as the edge reads it. -/
structure PolicySnapshot where
  schemaVersion : ℕ
  policyVersion : ℕ
  generatedAt : String
  expiresAt : String
  mode : GuardMode
  routeRules : List RouteRule
  clientRules : List ClientRule
  staticLimits : StaticLimits
  /-- The hash of the policy with an empty text in this place. -/
  contentSha256 : String
  deriving DecidableEq

/-- Why a policy is not accepted. -/
inductive PolicyError
  | unsupportedSchema (version : ℕ)
  | hashMismatch
  | invalidTime (text : String)
  | expired
  | zeroLimit (field : String)
  deriving DecidableEq

/-- What is taken from libraries. -/
structure Codec where
  /-- The hash of a text. -/
  sha256Hex : String → String
  policyJson : PolicySnapshot → String
  settingsJson : ProtectionSettings → String
  /-- A time as text, if it has a year of four digits. -/
  formatRfc3339 : ℕ → Option String
  parseRfc3339 : String → Option ℕ
  /-- A time that is written is read back. -/
  parse_format : ∀ {t text}, formatRfc3339 t = some text → parseRfc3339 text = some t

namespace PolicySnapshot

variable (C : Codec) (p : PolicySnapshot) (now : ℕ)

def calculateHash : String := C.sha256Hex (C.policyJson { p with contentSha256 := "" })

/-- The policy with the hash of its content. -/
def sealed : PolicySnapshot := { p with contentSha256 := p.calculateHash C }

/-- The check of a policy, at the given time. -/
def validateAt : Except PolicyError Unit :=
  if p.schemaVersion ≠ 1 then .error (.unsupportedSchema p.schemaVersion)
  else if p.staticLimits.maxBodyBytes = 0 then .error (.zeroLimit "max_body_bytes")
  else if p.staticLimits.maxTrackedClients = 0 then .error (.zeroLimit "max_tracked_clients")
  else if p.calculateHash C ≠ p.contentSha256 then .error .hashMismatch
  else
    match C.parseRfc3339 p.expiresAt with
    | none => .error (.invalidTime p.expiresAt)
    | some expires =>
      match C.parseRfc3339 p.generatedAt with
      | none => .error (.invalidTime p.generatedAt)
      | some _ => if expires ≤ now then .error .expired else .ok ()

/-- What a policy that passes the check until it expires is like. -/
structure Sound (expires : ℕ) : Prop where
  schemaVersion : p.schemaVersion = 1
  maxBodyBytes : 0 < p.staticLimits.maxBodyBytes
  maxTrackedClients : 0 < p.staticLimits.maxTrackedClients
  contentSha256 : p.calculateHash C = p.contentSha256
  expiresAt : C.parseRfc3339 p.expiresAt = some expires
  generatedAt : (C.parseRfc3339 p.generatedAt).isSome

variable {C p now}

theorem validateAt_eq_ok_iff : p.validateAt C now = .ok () ↔
    ∃ expires, p.Sound C expires ∧ now < expires := by
  constructor
  · intro h
    unfold validateAt at h
    split_ifs at h with hschema hbody hclients hhash
    split at h
    · cases h
    · next expires hexpires =>
      split at h
      · cases h
      · next hgenerated =>
        split at h
        · cases h
        · next hlt =>
          exact ⟨expires, ⟨not_not.1 hschema, Nat.pos_of_ne_zero hbody, Nat.pos_of_ne_zero hclients,
            not_not.1 hhash, hexpires, by simp [hgenerated]⟩, Nat.not_le.1 hlt⟩
  · rintro ⟨expires, h, hlt⟩
    obtain ⟨generated, hgenerated⟩ := Option.isSome_iff_exists.1 h.generatedAt
    simp [validateAt, h.schemaVersion, Nat.ne_of_gt h.maxBodyBytes, Nat.ne_of_gt h.maxTrackedClients,
      h.contentSha256, h.expiresAt, hgenerated, Nat.not_le.2 hlt]

end PolicySnapshot

end VpsGuard
