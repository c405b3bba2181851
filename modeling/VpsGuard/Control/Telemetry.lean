import Mathlib.Data.List.AList
import Mathlib.Data.List.Sort
import VpsGuard.Core.Crawler

/-!
# Telemetry

The edge tells the control process of every request that it has answered. The
control process does not keep what it is told; it counts (`TrafficAggregator`):

* the window since the last look of the detection loop (`DetectionWindow`);
* the requests of the last seconds, second by second, with what there is to
  show of them (`LiveSecondBucket`);
* the last latencies, and when each client was last seen, up to a number.

At a look the window is turned into the signals of a detection (`input`) and
starts again. How many requests are many depends on the windows before, of
those that were healthy (`TrafficBaseline`).

A *quiet* window is one without any sign of pressure. Of its signals only the
cost of the routes remains, and they are protective exactly if some route costs
ten or more (`isProtective_iff_of_quiet`).
-/

namespace VpsGuard

/-- What the edge tells of a request. -/
structure TelemetryEnvelope where
  schemaVersion : ℕ
  routeCost : ℕ
  status : ℕ
  latencyMicros : ℕ
  clientIp : Option IpAddr
  requestBodyBytes : ℕ
  responseBodyBytes : ℕ
  upstreamConnectionReused : Option Bool
  decision : String
  botClass : BotClass
  botVerified : Bool
  sessionContinuity : Bool
  inFlightRequests : ℕ
  edgeTelemetryEmitted : ℕ
  edgeTelemetryDropped : ℕ
  edgeTelemetryReconnected : ℕ
  occurredAtUnixMs : ℕ

/-- The edge did something about the request. -/
def TelemetryEnvelope.protective (telemetry : TelemetryEnvelope) : Bool :=
  telemetry.decision = "throttle" || telemetry.decision = "challenge" || telemetry.decision = "deny"

/-! ## The window of the detection -/

/-- The requests since the last look. -/
structure DetectionWindow where
  requests : ℕ
  protective : ℕ
  serverErrors : ℕ
  verifiedCrawlerRequests : ℕ
  continuousSessionRequests : ℕ
  maxRouteCost : ℕ
  maxLatencyMicros : ℕ

/-- A request more, if it is one. -/
def countIf (counted : Bool) (n : ℕ) : ℕ := saturatingAdd 64 n counted.toNat

namespace DetectionWindow

def empty : DetectionWindow := ⟨0, 0, 0, 0, 0, 0, 0⟩

/-- A request counts in the window. -/
def ingest (window : DetectionWindow) (telemetry : TelemetryEnvelope) : DetectionWindow where
  requests := countIf true window.requests
  protective := countIf telemetry.protective window.protective
  serverErrors := countIf (telemetry.status ≥ 500) window.serverErrors
  verifiedCrawlerRequests := countIf telemetry.botVerified window.verifiedCrawlerRequests
  continuousSessionRequests :=
    countIf telemetry.sessionContinuity window.continuousSessionRequests
  maxRouteCost := max window.maxRouteCost telemetry.routeCost
  maxLatencyMicros := max window.maxLatencyMicros telemetry.latencyMicros

end DetectionWindow

/-- The requests of the last healthy windows, the oldest first. -/
structure TrafficBaseline where
  requestWindows : List ℕ

namespace TrafficBaseline

def windows : ℕ := 12

def minWindows : ℕ := 6

/-- Whether the requests are many, compared with the windows before. -/
def pressure (baseline : TrafficBaseline) (requests : ℕ) : ℕ :=
  if baseline.requestWindows.length < minWindows then 0
  else
    let samples := baseline.requestWindows.insertionSort (· ≤ ·)
    let median := max (samples.getD (samples.length / 2) 0) 1
    if requests ≥ saturatingProd 64 median 4 then 80
    else if requests ≥ saturatingProd 64 median 2 then 50
    else 0

/-- The window is kept, if it is healthy. -/
def observe (baseline : TrafficBaseline) (window : DetectionWindow) : TrafficBaseline :=
  let healthy := saturatingProd 64 window.protective 10 < window.requests &&
    saturatingProd 64 window.serverErrors 10 < window.requests &&
    window.maxLatencyMicros < 1000000
  if !healthy then baseline
  else
    let kept :=
      if baseline.requestWindows.length = windows then baseline.requestWindows.drop 1
      else baseline.requestWindows
    ⟨kept ++ [window.requests]⟩

end TrafficBaseline

namespace DetectionWindow

variable (window : DetectionWindow)

/-- Whether the requests are many. -/
def staticVolumePressure : ℕ :=
  if window.requests ≥ 500 then 80 else if window.requests ≥ 100 then 50 else 0

/-- Whether the answers took long. -/
def latencyPressure : ℕ :=
  if window.maxLatencyMicros ≥ 5000000 then 90
  else if window.maxLatencyMicros ≥ 1000000 then 55
  else 0

def percent (n : ℕ) : ℕ := saturatingProd 64 n 100 / window.requests

/-- The signals of the window. -/
def input (baseline : TrafficBaseline) (hostPressure : HostPressure) : DetectionInput :=
  let volumePressure := max window.staticVolumePressure (baseline.pressure window.requests)
  let crawlerVerified := decide (saturatingProd 64 window.verifiedCrawlerRequests 2 ≥ window.requests)
  { trust := if crawlerVerified then 75 else 40
    automation := max (min (window.percent window.protective) 100) volumePressure
    routeCost := min (saturatingProd 8 window.maxRouteCost 6) 100
    upstreamPressure := max (min (window.percent window.serverErrors) 100) window.latencyPressure
    hostPressure
    sessionContinuity := saturatingProd 64 window.continuousSessionRequests 2 ≥ window.requests
    crawlerVerified }

end DetectionWindow

/-! ## The last seconds -/

/-- What was seen within a second. -/
structure LiveSecondBucket where
  bucketUnixMs : ℕ
  requests : ℕ := 0
  errors : ℕ := 0
  throttled : ℕ := 0
  latencySumMicros : ℕ := 0
  requestBodyBytes : ℕ := 0
  responseBodyBytes : ℕ := 0
  /-- By the class of the status, from `2xx` to `5xx`. -/
  statusBuckets : Fin 4 → ℕ := fun _ => 0
  denied : ℕ := 0
  challenged : ℕ := 0
  upstreamConnections : ℕ := 0
  upstreamConnectionsReused : ℕ := 0
  droppedClients : ℕ := 0
  botRequests : ℕ := 0
  botDenied : ℕ := 0
  inFlightRequests : ℕ := 0
  edgeTelemetryEmitted : ℕ := 0
  edgeTelemetryDropped : ℕ := 0
  edgeTelemetryReconnected : ℕ := 0

/-- The class of a status, if it has one. -/
def statusIndex (status : ℕ) : Option (Fin 4) :=
  if 200 ≤ status ∧ status ≤ 299 then some 0
  else if 300 ≤ status ∧ status ≤ 399 then some 1
  else if 400 ≤ status ∧ status ≤ 499 then some 2
  else if 500 ≤ status ∧ status ≤ 599 then some 3
  else none

def LiveSecondBucket.status2xx (bucket : LiveSecondBucket) : ℕ := bucket.statusBuckets 0

def LiveSecondBucket.status3xx (bucket : LiveSecondBucket) : ℕ := bucket.statusBuckets 1

def LiveSecondBucket.status4xx (bucket : LiveSecondBucket) : ℕ := bucket.statusBuckets 2

def LiveSecondBucket.status5xx (bucket : LiveSecondBucket) : ℕ := bucket.statusBuckets 3

/-- A request counts in the bucket of its second. -/
def LiveSecondBucket.ingest (bucket : LiveSecondBucket) (telemetry : TelemetryEnvelope) :
    LiveSecondBucket :=
  let declaredBot := decide (telemetry.botClass ≠ .undeclared)
  { bucketUnixMs := bucket.bucketUnixMs
    requests := countIf true bucket.requests
    errors := countIf (telemetry.status ≥ 500) bucket.errors
    throttled := countIf (telemetry.decision = "throttle") bucket.throttled
    latencySumMicros := saturatingAdd 64 bucket.latencySumMicros telemetry.latencyMicros
    requestBodyBytes := saturatingAdd 64 bucket.requestBodyBytes telemetry.requestBodyBytes
    responseBodyBytes := saturatingAdd 64 bucket.responseBodyBytes telemetry.responseBodyBytes
    statusBuckets := fun i => countIf (statusIndex telemetry.status = some i) (bucket.statusBuckets i)
    denied := countIf (telemetry.decision = "deny") bucket.denied
    challenged := countIf (telemetry.decision = "challenge") bucket.challenged
    upstreamConnections :=
      countIf (telemetry.upstreamConnectionReused = some false) bucket.upstreamConnections
    upstreamConnectionsReused :=
      countIf (telemetry.upstreamConnectionReused = some true) bucket.upstreamConnectionsReused
    droppedClients := bucket.droppedClients
    botRequests := countIf declaredBot bucket.botRequests
    botDenied := countIf (declaredBot && telemetry.decision = "deny") bucket.botDenied
    -- These are of the edge as a whole: the last ones count.
    inFlightRequests := telemetry.inFlightRequests
    edgeTelemetryEmitted := telemetry.edgeTelemetryEmitted
    edgeTelemetryDropped := telemetry.edgeTelemetryDropped
    edgeTelemetryReconnected := telemetry.edgeTelemetryReconnected }

/-! ## The aggregator -/

abbrev ClientTable := AList fun _ : IpAddr => ℕ

/-- The clients seen at a time or later. -/
def ClientTable.retain (clients : ClientTable) (cutoff : ℕ) : ClientTable where
  entries := clients.entries.filter fun entry => entry.2 ≥ cutoff
  nodupKeys := clients.nodupKeys.sublist List.filter_sublist

/-- What is known of the traffic, within bounds. -/
structure TrafficAggregator where
  maxClients : ℕ
  /-- When, and how long, the oldest first. -/
  latencies : List (ℕ × ℕ)
  clients : ClientTable
  window : DetectionWindow
  baseline : TrafficBaseline
  liveSeconds : ℕ
  /-- The oldest first. -/
  liveBuckets : List LiveSecondBucket

namespace TrafficAggregator

def latencyWindow : ℕ := 2048

def withLiveWindow (maxClients liveSeconds : ℕ) : TrafficAggregator where
  maxClients
  latencies := []
  clients := ∅
  window := .empty
  baseline := ⟨[]⟩
  liveSeconds
  liveBuckets := []

/-- The aggregator of the control process. -/
def new (maxClients : ℕ) : TrafficAggregator := withLiveWindow maxClients 900

/-- A request more, in its second. It is not counted if its second is over, and
    there is no bucket of it. -/
def ingestLive (buckets : List LiveSecondBucket) (liveSeconds : ℕ) (telemetry : TelemetryEnvelope) :
    List LiveSecondBucket :=
  if liveSeconds = 0 then buckets
  else
    let bucketUnixMs := telemetry.occurredAtUnixMs - telemetry.occurredAtUnixMs % 1000
    match buckets.reverse.findIdx? (·.bucketUnixMs = bucketUnixMs) with
    | some i => (buckets.reverse.modify i (·.ingest telemetry)).reverse
    | none =>
      if buckets.getLast?.any (·.bucketUnixMs > bucketUnixMs) then buckets
      else
        let bucket : LiveSecondBucket := { bucketUnixMs }
        let buckets := buckets ++ [bucket.ingest telemetry]
        buckets.drop (buckets.length - liveSeconds)

def dropClient (buckets : List LiveSecondBucket) : List LiveSecondBucket :=
  buckets.modify (buckets.length - 1) fun bucket =>
    { bucket with droppedClients := countIf true bucket.droppedClients }

variable (traffic : TrafficAggregator)

/-- The client was seen. If there is no place for it, those that were not seen
    lately make room. -/
def ingestClient (clientIp : IpAddr) (occurredAtUnixMs : ℕ) : TrafficAggregator :=
  if clientIp ∈ traffic.clients then
    { traffic with clients := traffic.clients.insert clientIp occurredAtUnixMs }
  else
    let clients :=
      if traffic.clients.entries.length ≥ traffic.maxClients then
        traffic.clients.retain (occurredAtUnixMs - saturatingProd 64 traffic.liveSeconds 1000)
      else traffic.clients
    if clients.entries.length < traffic.maxClients then
      { traffic with clients := clients.insert clientIp occurredAtUnixMs }
    else { traffic with clients, liveBuckets := dropClient traffic.liveBuckets }

/-- A request more. Later schemas are ignored. -/
def ingest (telemetry : TelemetryEnvelope) : TrafficAggregator :=
  if telemetry.schemaVersion ≠ 1 then traffic
  else
    let latencies :=
      if traffic.latencies.length = latencyWindow then traffic.latencies.drop 1
      else traffic.latencies
    let traffic :=
      { traffic with
        liveBuckets := ingestLive traffic.liveBuckets traffic.liveSeconds telemetry
        window := traffic.window.ingest telemetry
        latencies := latencies ++ [(telemetry.occurredAtUnixMs, telemetry.latencyMicros)] }
    telemetry.clientIp.elim traffic fun clientIp =>
      traffic.ingestClient clientIp telemetry.occurredAtUnixMs

/-- The signals of the window, which starts again. There are none without requests. -/
def takeDetectionInput (hostPressure : HostPressure) : Option DetectionInput × TrafficAggregator :=
  if traffic.window.requests = 0 then (none, traffic)
  else
    (some (traffic.window.input traffic.baseline hostPressure),
      { traffic with
        window := .empty
        baseline := traffic.baseline.observe traffic.window })

/-- The requests of a list, one after the other. -/
def ingestAll (received : List TelemetryEnvelope) :
    TrafficAggregator := received.foldl ingest traffic

variable {traffic} {telemetry : TelemetryEnvelope}

theorem ingestClient_window {clientIp : IpAddr} {now : ℕ} :
    (traffic.ingestClient clientIp now).window = traffic.window := by
  unfold ingestClient
  dsimp only
  split_ifs <;> rfl

theorem ingest_window : (traffic.ingest telemetry).window =
    if telemetry.schemaVersion = 1 then traffic.window.ingest telemetry else traffic.window := by
  unfold ingest
  by_cases hschema : telemetry.schemaVersion = 1
  · rw [if_neg (not_not.2 hschema), if_pos hschema]
    cases telemetry.clientIp with
    | none => rfl
    | some clientIp => exact ingestClient_window
  · rw [if_pos hschema, if_neg hschema]

theorem ingestAll_window (received : List TelemetryEnvelope) : (traffic.ingestAll received).window =
    (received.filter (·.schemaVersion = 1)).foldl DetectionWindow.ingest traffic.window := by
  induction received generalizing traffic with
  | nil => rfl
  | cons telemetry received ih =>
    rw [ingestAll, List.foldl_cons, ← ingestAll, ih, ingest_window, List.filter_cons]
    by_cases hschema : telemetry.schemaVersion = 1 <;> simp [hschema]

end TrafficAggregator

/-! ## Quiet windows -/

namespace DetectionWindow

/-- No request was refused, and none failed. -/
def Unharmed (window : DetectionWindow) : Prop := window.protective = 0 ∧ window.serverErrors = 0

variable {window : DetectionWindow}

theorem Unharmed.ingest {telemetry : TelemetryEnvelope} (h : window.Unharmed)
    (hdecision : telemetry.protective = false) (hstatus : telemetry.status < 500) :
    (window.ingest telemetry).Unharmed := by
  have herror : decide (telemetry.status ≥ 500) = false := decide_eq_false (Nat.not_le.2 hstatus)
  constructor
  · simp [DetectionWindow.ingest, hdecision, h.1, countIf, saturatingAdd]
  · simp [DetectionWindow.ingest, herror, h.2, countIf, saturatingAdd]

theorem Unharmed.foldl {received : List TelemetryEnvelope}
    (h : window.Unharmed) (hreceived : ∀ telemetry ∈ received,
      telemetry.protective = false ∧ telemetry.status < 500) :
    (received.foldl DetectionWindow.ingest window).Unharmed := by
  induction received generalizing window with
  | nil => exact h
  | cons telemetry received ih =>
    rw [List.forall_mem_cons] at hreceived
    exact ih (h.ingest hreceived.1.1 hreceived.1.2) hreceived.2

theorem Unharmed.takeDetectionInput {traffic : TrafficAggregator} {hostPressure : HostPressure}
    (h : traffic.window.Unharmed) :
    (traffic.takeDetectionInput hostPressure).2.window.Unharmed := by
  unfold TrafficAggregator.takeDetectionInput
  split
  · exact h
  · exact ⟨rfl, rfl⟩

/-- A window without any sign of pressure. -/
structure Quiet (window : DetectionWindow) (baseline : TrafficBaseline)
    (hostPressure : HostPressure) : Prop where
  unharmed : window.Unharmed
  latency : window.maxLatencyMicros < 1000000
  requests : window.requests < 100
  baseline : baseline.pressure window.requests = 0
  host : hostPressure.score = 0 ∨ hostPressure.signalsAvailable = false

variable {window : DetectionWindow} {baseline : TrafficBaseline} {hostPressure : HostPressure}

/-- The signals of a quiet window. -/
theorem Quiet.input (h : window.Quiet baseline hostPressure) :
    (window.input baseline hostPressure).automation = 0 ∧
      (window.input baseline hostPressure).upstreamPressure = 0 ∧
      (if hostPressure.signalsAvailable then hostPressure.score else 0) = 0 := by
  have hrequests := h.requests
  have hlatency := h.latency
  have hvolume : window.staticVolumePressure = 0 := by
    rw [staticVolumePressure, if_neg (by omega), if_neg (by omega)]
  have hslow : window.latencyPressure = 0 := by
    rw [latencyPressure, if_neg (by omega), if_neg (by omega)]
  have hpercent : window.percent 0 = 0 := by
    rw [percent, saturatingProd, Nat.zero_mul, Nat.zero_min, Nat.zero_div]
  refine ⟨?_, ?_, ?_⟩
  · change max (min (window.percent window.protective) 100)
      (max window.staticVolumePressure (baseline.pressure window.requests)) = 0
    rw [h.unharmed.1, hpercent, hvolume, h.baseline]
    rfl
  · change max (min (window.percent window.serverErrors) 100) window.latencyPressure = 0
    rw [h.unharmed.2, hpercent, hslow]
    rfl
  · rcases h.host with hscore | hmissing
    · rw [hscore, ite_self]
    · rw [hmissing, if_neg Bool.false_ne_true]

/-- A quiet window is protective exactly if some route costs ten or more. -/
theorem isProtective_iff_of_quiet (h : window.Quiet baseline hostPressure) :
    (Detector.assess (window.input baseline hostPressure)).decision.isProtective = true ↔
      10 ≤ window.maxRouteCost := by
  obtain ⟨hautomation, hupstream, hhost⟩ := h.input
  have hcost : (Detector.assess (window.input baseline hostPressure)).resourceCost =
      min (6 * window.maxRouteCost) 100 := by
    change min (saturatingAdd 8 (min (min (saturatingProd 8 window.maxRouteCost 6) 100) 100)
      (max (min (window.input baseline hostPressure).upstreamPressure 100)
        (if hostPressure.signalsAvailable then hostPressure.score else 0) / 2)) 100 = _
    rw [hupstream, hhost]
    simp only [saturatingAdd, saturatingProd]
    omega
  have hbot : (Detector.assess (window.input baseline hostPressure)).botLikelihood = 0 := by
    simp only [Detector.assess, hautomation]
    split_ifs <;> rfl
  have hdecision : (Detector.assess (window.input baseline hostPressure)).decision =
      Detector.decisionOf (min (6 * window.maxRouteCost) 100) 0
        (Detector.assess (window.input baseline hostPressure)).trustScore := by
    rw [← hcost, ← hbot]
    rfl
  rw [hdecision]
  by_cases hten : 10 ≤ window.maxRouteCost
  · have hsixty : min (6 * window.maxRouteCost) 100 ≥ 60 := by omega
    simp [Detector.decisionOf, hsixty, hten, Decision.isProtective]
  · have hsixty : ¬ min (6 * window.maxRouteCost) 100 ≥ 60 := by omega
    simp [Detector.decisionOf, hsixty, hten, Decision.isProtective]

end DetectionWindow

end VpsGuard
