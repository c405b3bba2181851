import VpsGuard.Control.Telemetry
import VpsGuard.Window.Ring

/-!
# The traffic of the last seconds

What the dashboard shows of the last seconds (`summaryAt`) is read off the buckets of
the seconds, of which there are only as many as the window has. They go by their
number, and the window by time. Each measure of a request (`LiveMeasure`) makes the
buckets a ring of counters, and so nothing that the window still needs has gone: what
is shown is what a count of the requests themselves would give
(`liveTraffic_exact`).

The numbers are of 64 bits, and stay at the largest one. Counting means counting so
(`counted`).
-/

namespace VpsGuard

open Window List

/-- What is shown of the traffic of the last seconds. -/
structure TrafficSummary where
  windowSeconds : ℕ
  windowStartedAtUnixMs : ℕ
  windowEndedAtUnixMs : ℕ
  requestsPerSecondMilli : ℕ
  requests : ℕ
  status2xx : ℕ
  status3xx : ℕ
  status4xx : ℕ
  status5xx : ℕ
  throttled : ℕ
  denied : ℕ
  challenged : ℕ
  requestBodyBytes : ℕ
  responseBodyBytes : ℕ
  upstreamConnections : ℕ
  upstreamConnectionsReused : ℕ
  latencyP95Micros : ℕ
  uniqueClients : ℕ
  droppedClients : ℕ
  inFlightRequests : ℕ
  botRequests : ℕ
  botDenied : ℕ
  edgeTelemetryEmitted : ℕ
  edgeTelemetryDropped : ℕ
  edgeTelemetryReconnected : ℕ

/-- The sum over the buckets. It does not go beyond the largest number. -/
def sumBuckets (buckets : List LiveSecondBucket) (value : LiveSecondBucket → ℕ) : ℕ :=
  buckets.foldl (fun total bucket => saturatingAdd 64 total (value bucket)) 0

/-- The start of the second in which a request was. -/
def TelemetryEnvelope.secondStart (telemetry : TelemetryEnvelope) : ℕ :=
  telemetry.occurredAtUnixMs - telemetry.occurredAtUnixMs % 1000

/-- The value that 95 of 100 do not exceed. -/
def p95 (latencies : List ℕ) : ℕ :=
  let sorted := latencies.insertionSort (· ≤ ·)
  sorted.getD ((saturatingProd 64 sorted.length 95 + 99) / 100 - 1) 0

namespace TrafficAggregator

/-- The summary of the buckets that are still live. -/
def summaryAt (traffic : TrafficAggregator) (nowUnixMs : ℕ) : TrafficSummary :=
  let windowStartedAtUnixMs := nowUnixMs - saturatingProd 64 traffic.liveSeconds 1000
  let buckets := traffic.liveBuckets.filter (·.bucketUnixMs ≥ windowStartedAtUnixMs)
  { windowSeconds := traffic.liveSeconds
    windowStartedAtUnixMs
    windowEndedAtUnixMs := nowUnixMs
    requestsPerSecondMilli :=
      saturatingProd 64
        (sumBuckets (buckets.filter (·.bucketUnixMs ≥ nowUnixMs - 10000)) (·.requests)) 100
    requests := sumBuckets buckets (·.requests)
    status2xx := sumBuckets buckets (·.status2xx)
    status3xx := sumBuckets buckets (·.status3xx)
    status4xx := sumBuckets buckets (·.status4xx)
    status5xx := sumBuckets buckets (·.status5xx)
    throttled := sumBuckets buckets (·.throttled)
    denied := sumBuckets buckets (·.denied)
    challenged := sumBuckets buckets (·.challenged)
    requestBodyBytes := sumBuckets buckets (·.requestBodyBytes)
    responseBodyBytes := sumBuckets buckets (·.responseBodyBytes)
    upstreamConnections := sumBuckets buckets (·.upstreamConnections)
    upstreamConnectionsReused := sumBuckets buckets (·.upstreamConnectionsReused)
    latencyP95Micros :=
      p95 ((traffic.latencies.filter (·.1 ≥ windowStartedAtUnixMs)).map (·.2))
    uniqueClients := (traffic.clients.entries.filter (·.2 ≥ windowStartedAtUnixMs)).length
    droppedClients := sumBuckets buckets (·.droppedClients)
    inFlightRequests := buckets.getLast?.elim 0 (·.inFlightRequests)
    botRequests := sumBuckets buckets (·.botRequests)
    botDenied := sumBuckets buckets (·.botDenied)
    edgeTelemetryEmitted := buckets.getLast?.elim 0 (·.edgeTelemetryEmitted)
    edgeTelemetryDropped := buckets.getLast?.elim 0 (·.edgeTelemetryDropped)
    edgeTelemetryReconnected := buckets.getLast?.elim 0 (·.edgeTelemetryReconnected) }

/-- What is shown at the end of the newest second. -/
def summary (traffic : TrafficAggregator) : TrafficSummary :=
  traffic.summaryAt (traffic.liveBuckets.getLast?.elim 0 fun bucket =>
    saturatingAdd 64 bucket.bucketUnixMs 1000)

end TrafficAggregator

/-! ## Measures -/

/-- What is counted of requests, and where a bucket has it. -/
structure LiveMeasure where
  amount : TelemetryEnvelope → ℕ
  value : LiveSecondBucket → ℕ
  value_new : ∀ bucketUnixMs, value { bucketUnixMs } = 0
  value_ingest : ∀ bucket telemetry,
    value (bucket.ingest telemetry) = saturatingAdd 64 (value bucket) (amount telemetry)
  value_drop : ∀ (bucket : LiveSecondBucket) (n : ℕ),
    value { bucket with droppedClients := n } = value bucket

namespace LiveMeasure

def requests : LiveMeasure :=
  ⟨fun _ => 1, (·.requests), fun _ => rfl, fun _ _ => rfl, fun _ _ => rfl⟩

def status (i : Fin 4) : LiveMeasure :=
  ⟨fun t => (decide (statusIndex t.status = some i)).toNat, (·.statusBuckets i), fun _ => rfl,
    fun _ _ => rfl, fun _ _ => rfl⟩

/-- The requests with a decision of the edge. -/
def throttled : LiveMeasure :=
  ⟨fun t => (decide (t.decision = "throttle")).toNat, (·.throttled), fun _ => rfl, fun _ _ => rfl,
    fun _ _ => rfl⟩

def denied : LiveMeasure :=
  ⟨fun t => (decide (t.decision = "deny")).toNat, (·.denied), fun _ => rfl, fun _ _ => rfl,
    fun _ _ => rfl⟩

def challenged : LiveMeasure :=
  ⟨fun t => (decide (t.decision = "challenge")).toNat, (·.challenged), fun _ => rfl, fun _ _ => rfl,
    fun _ _ => rfl⟩

def requestBodyBytes : LiveMeasure :=
  ⟨(·.requestBodyBytes), (·.requestBodyBytes), fun _ => rfl, fun _ _ => rfl, fun _ _ => rfl⟩

def responseBodyBytes : LiveMeasure :=
  ⟨(·.responseBodyBytes), (·.responseBodyBytes), fun _ => rfl, fun _ _ => rfl, fun _ _ => rfl⟩

/-- The requests for which a connection to the origin was opened, and used again. -/
def upstreamConnections : LiveMeasure :=
  ⟨fun t => (decide (t.upstreamConnectionReused = some false)).toNat, (·.upstreamConnections),
    fun _ => rfl, fun _ _ => rfl, fun _ _ => rfl⟩

def upstreamConnectionsReused : LiveMeasure :=
  ⟨fun t => (decide (t.upstreamConnectionReused = some true)).toNat, (·.upstreamConnectionsReused),
    fun _ => rfl, fun _ _ => rfl, fun _ _ => rfl⟩

def botRequests : LiveMeasure :=
  ⟨fun t => (decide (t.botClass ≠ .undeclared)).toNat, (·.botRequests), fun _ => rfl,
    fun _ _ => rfl, fun _ _ => rfl⟩

def botDenied : LiveMeasure :=
  ⟨fun t => (decide (t.botClass ≠ .undeclared) && t.decision = "deny").toNat, (·.botDenied),
    fun _ => rfl, fun _ _ => rfl, fun _ _ => rfl⟩

variable (m : LiveMeasure)

/-- The second of a bucket, and what it says of the measure. -/
def slot (bucket : LiveSecondBucket) : ℕ × ℕ := (bucket.bucketUnixMs, m.value bucket)

/-- The second of a request, and what it adds to the measure. -/
def entry (telemetry : TelemetryEnvelope) : ℕ × ℕ := (telemetry.secondStart, m.amount telemetry)

end LiveMeasure

abbrev largest : ℕ := 2 ^ 64 - 1

/-- What all requests add up to, as far as there are numbers. -/
def counted (received : List TelemetryEnvelope) (amount : TelemetryEnvelope → ℕ) : ℕ :=
  min (received.map amount).sum largest

/-- How many of the requests are such ones. -/
def countedIf (received : List TelemetryEnvelope) (p : TelemetryEnvelope → Bool) : ℕ :=
  min (received.countP p) largest

theorem counted_toNat (received : List TelemetryEnvelope) (p : TelemetryEnvelope → Bool) :
    counted received (fun telemetry => (p telemetry).toNat) = countedIf received p := by
  have hsum : (received.map fun telemetry => (p telemetry).toNat).sum = received.countP p := by
    induction received with
    | nil => rfl
    | cons telemetry received ih =>
      rw [map_cons, sum_cons, ih, countP_cons]
      cases p telemetry <;> simp [Nat.add_comm]
  rw [counted, hsum, countedIf]

theorem statusIndex_eq_some {status : ℕ} {i : Fin 4} :
    statusIndex status = some i ↔ status / 100 = i + 2 := by
  have hi := i.isLt
  unfold statusIndex
  split_ifs <;> simp only [Option.some.injEq, false_iff, Fin.ext_iff] <;>
    simp <;> omega

theorem foldl_saturatingAdd {α β : Type*} {step : β → α → β} (value : β → ℕ) {amount : α → ℕ}
    (hstep : ∀ b a, value (step b a) = saturatingAdd 64 (value b) (amount a)) (l : List α) {b : β}
    (hb : value b ≤ largest) :
    value (l.foldl step b) = min (value b + (l.map amount).sum) largest := by
  induction l generalizing b with
  | nil => rw [foldl_nil, map_nil, sum_nil, Nat.add_zero, min_eq_left hb]
  | cons a l ih =>
    have hle : value (step b a) ≤ largest := by
      rw [hstep]
      exact min_le_right _ _
    rw [foldl_cons, ih hle, hstep, map_cons, sum_cons, saturatingAdd, largest]
    omega

theorem sumBuckets_eq (buckets : List LiveSecondBucket) (value : LiveSecondBucket → ℕ) :
    sumBuckets buckets value = min (buckets.map value).sum largest := by
  have hsum : sumBuckets buckets value = min (0 + (buckets.map value).sum) largest :=
    foldl_saturatingAdd (fun total => total) (fun _ _ => rfl) buckets (Nat.zero_le _)
  rwa [Nat.zero_add] at hsum

/-! ## The buckets as a ring -/

theorem modify_findIdx? {α : Type*} {p : α → Bool} {f : α → α} {l : List α} {i : ℕ}
    (h : l.findIdx? p = some i) (hone : l.Pairwise fun a b => p a → ¬ p b) :
    l.modify i f = l.map fun a => if p a then f a else a := by
  induction l generalizing i with
  | nil => cases h
  | cons a l ih =>
    obtain ⟨hfirst, hrest⟩ := pairwise_cons.1 hone
    rw [findIdx?_cons] at h
    by_cases ha : p a
    · rw [if_pos ha] at h
      cases h
      have hothers : (l.map fun b => if p b then f b else b) = l :=
        (map_congr_left fun b hb => if_neg (hfirst b hb ha)).trans (map_id' l)
      rw [map_cons, if_pos ha, hothers]
      rfl
    · rw [if_neg ha] at h
      obtain ⟨j, hj, rfl⟩ := Option.map_eq_some_iff.1 h
      rw [map_cons, if_neg ha, ← ih hj hrest]
      rfl

theorem map_modify_of_eq {α β : Type*} {f : α → α} {g : α → β} (h : ∀ a, g (f a) = g a)
    (l : List α) (i : ℕ) : (l.modify i f).map g = l.map g := by
  induction l generalizing i with
  | nil => cases i <;> rfl
  | cons a l ih =>
    cases i with
    | zero => simp [h]
    | succ i => simp [ih i]

namespace TrafficAggregator

variable {m : LiveMeasure} {buckets : List LiveSecondBucket} {liveSeconds : ℕ}
  {telemetry : TelemetryEnvelope}

theorem slot_ingest (bucket : LiveSecondBucket) : m.slot (bucket.ingest telemetry) =
    ((m.slot bucket).1, min ((m.slot bucket).2 + m.amount telemetry) largest) :=
  congrArg (Prod.mk bucket.bucketUnixMs) (m.value_ingest bucket telemetry)

theorem ingestLive_slots (hlive : 1 ≤ liveSeconds)
    (hincreasing : Ring.Increasing (buckets.map m.slot)) :
    (ingestLive buckets liveSeconds telemetry).map m.slot =
      Ring.add liveSeconds largest (buckets.map m.slot) telemetry.secondStart
        (m.amount telemetry) := by
  have hstarts : buckets.Pairwise fun a b => a.bucketUnixMs < b.bucketUnixMs :=
    List.Pairwise.of_map m.slot (fun _ _ hlt => hlt) hincreasing
  have hone : buckets.reverse.Pairwise fun a b =>
      decide (a.bucketUnixMs = telemetry.secondStart) →
        ¬ decide (b.bucketUnixMs = telemetry.secondStart) := by
    refine pairwise_reverse.2 (hstarts.imp fun {a b} hlt hb ha => ?_)
    have ha := of_decide_eq_true ha
    have hb := of_decide_eq_true hb
    omega
  unfold ingestLive
  rw [if_neg (by omega)]
  dsimp only
  rw [← TelemetryEnvelope.secondStart]
  cases hfind : buckets.reverse.findIdx? (·.bucketUnixMs = telemetry.secondStart) with
  | some i =>
    -- The second has a bucket, and no other one has its start.
    have hfound : ∃ slot ∈ buckets.map m.slot, slot.1 = telemetry.secondStart := by
      obtain ⟨hi, hp, -⟩ := findIdx?_eq_some_iff_getElem.1 hfind
      exact ⟨_, mem_map_of_mem (mem_reverse.1 (getElem_mem hi)), of_decide_eq_true hp⟩
    dsimp only
    rw [modify_findIdx? hfind hone, ← map_reverse, reverse_reverse, Ring.add,
      if_pos hfound, map_map, map_map]
    refine map_congr_left fun bucket _ => ?_
    simp only [Function.comp_apply, decide_eq_true_eq]
    by_cases heq : bucket.bucketUnixMs = telemetry.secondStart
    · rw [if_pos heq, if_pos (show (m.slot bucket).1 = _ from heq), slot_ingest]
    · rw [if_neg heq, if_neg (show (m.slot bucket).1 ≠ _ from heq)]
  | none =>
    have hfresh : ¬ ∃ slot ∈ buckets.map m.slot, slot.1 = telemetry.secondStart := by
      rintro ⟨slot, hslot, heq⟩
      obtain ⟨bucket, hbucket, rfl⟩ := mem_map.1 hslot
      have := findIdx?_eq_none_iff.1 hfind bucket (mem_reverse.2 hbucket)
      exact of_decide_eq_false this heq
    have hlast : (buckets.map m.slot).getLast?.any (·.1 > telemetry.secondStart) =
        buckets.getLast?.any (·.bucketUnixMs > telemetry.secondStart) := by
      rw [getLast?_map, Option.any_map]
      rfl
    have hnew : m.slot
        (LiveSecondBucket.ingest { bucketUnixMs := telemetry.secondStart } telemetry) =
        (telemetry.secondStart, min (m.amount telemetry) largest) := by
      rw [slot_ingest, LiveMeasure.slot, m.value_new, Nat.zero_add]
    dsimp only
    rw [Ring.add, if_neg hfresh, hlast, apply_ite (List.map m.slot), map_drop, map_append,
      map_singleton, hnew, length_append, length_singleton, length_map]

theorem dropClient_slots : (dropClient buckets).map m.slot = buckets.map m.slot :=
  map_modify_of_eq
    (fun bucket => congrArg (Prod.mk bucket.bucketUnixMs) (m.value_drop bucket _)) _ _

variable {traffic : TrafficAggregator} {now : ℕ} {clientIp : IpAddr}

theorem ingestClient_slots :
    (traffic.ingestClient clientIp now).liveBuckets.map m.slot = traffic.liveBuckets.map
      m.slot := by
  unfold ingestClient
  dsimp only
  split_ifs <;> first | rfl | exact dropClient_slots

theorem ingest_slots (hschema : telemetry.schemaVersion = 1) :
    (traffic.ingest telemetry).liveBuckets.map m.slot =
      (ingestLive traffic.liveBuckets traffic.liveSeconds telemetry).map m.slot := by
  unfold ingest
  rw [if_neg (not_not.2 hschema)]
  cases telemetry.clientIp with
  | none => rfl
  | some clientIp => exact ingestClient_slots

/-! ## Runs -/

theorem ingest_liveSeconds : (traffic.ingest telemetry).liveSeconds = traffic.liveSeconds := by
  unfold ingest ingestClient
  split
  · rfl
  · cases telemetry.clientIp with
    | none => rfl
    | some clientIp =>
      dsimp only [Option.elim_some]
      split_ifs <;> rfl

theorem ingest_maxClients : (traffic.ingest telemetry).maxClients = traffic.maxClients := by
  unfold ingest ingestClient
  split
  · rfl
  · cases telemetry.clientIp with
    | none => rfl
    | some clientIp =>
      dsimp only [Option.elim_some]
      split_ifs <;> rfl

theorem length_insert_le (clients : ClientTable) (clientIp : IpAddr) (now : ℕ) {n : ℕ}
    (h : clients.entries.length ≤ n) (hroom : clientIp ∉ clients → clients.entries.length < n) :
    (clients.insert clientIp now).entries.length ≤ n := by
  have hkeys : (clients.insert clientIp now).entries.length =
      (clientIp :: clients.keys.erase clientIp).length := by
    rw [← AList.keys_insert, AList.keys, List.keys, length_map]
  have hlength : clients.keys.length = clients.entries.length := length_map _
  rw [hkeys, length_cons, length_erase, hlength]
  split
  · next hknown =>
    have := length_pos_of_mem hknown
    omega
  · next hnew => exact hroom hnew

theorem ingestClient_clients_le (h : traffic.clients.entries.length ≤ traffic.maxClients) :
    (traffic.ingestClient clientIp now).clients.entries.length ≤ traffic.maxClients := by
  unfold ingestClient
  split
  · next hknown => exact length_insert_le _ _ _ h fun hnew => absurd hknown hnew
  · dsimp only
    generalize hkept : (if traffic.clients.entries.length ≥ traffic.maxClients then
      traffic.clients.retain (now - saturatingProd 64 traffic.liveSeconds 1000)
      else traffic.clients) = kept
    have hle : kept.entries.length ≤ traffic.maxClients := by
      rw [← hkept]
      split
      · exact (length_filter_le _ _).trans h
      · exact h
    split
    · next hroom => exact length_insert_le _ _ _ hle fun _ => hroom
    · exact hle

theorem ingest_clients_le (h : traffic.clients.entries.length ≤ traffic.maxClients) :
    (traffic.ingest telemetry).clients.entries.length ≤ traffic.maxClients := by
  unfold ingest
  split
  · exact h
  · cases telemetry.clientIp with
    | none => exact h
    | some clientIp => exact ingestClient_clients_le h

/-- A request is received, or the detection looks. -/
inductive Event where
  | ingest (telemetry : TelemetryEnvelope)
  | look (hostPressure : HostPressure)

/-- What happens at an event. -/
def step (traffic : TrafficAggregator) : Event → TrafficAggregator
  | .ingest telemetry => traffic.ingest telemetry
  | .look hostPressure => (traffic.takeDetectionInput hostPressure).2

/-- The events of a list, one after the other. -/
def run (traffic : TrafficAggregator) (events : List Event) : TrafficAggregator :=
  events.foldl step traffic

/-- The request of the known schema, if it is one. -/
def Event.telemetry? : Event → Option TelemetryEnvelope
  | .ingest telemetry => if telemetry.schemaVersion = 1 then some telemetry else none
  | .look _ => none

/-- The requests of the known schema. -/
def received (events : List Event) : List TelemetryEnvelope := events.filterMap Event.telemetry?

/-- The requests since the last look that had something to tell, after those that are
    `pending`. -/
def sinceLook (traffic : TrafficAggregator) (pending : List TelemetryEnvelope) :
    List Event → List TelemetryEnvelope
  | [] => pending
  | event :: events =>
    let pending := match event with
      | .ingest _ => pending ++ event.telemetry?.toList
      | .look hostPressure =>
        if (traffic.takeDetectionInput hostPressure).1.isSome then [] else pending
    (traffic.step event).sinceLook pending events

theorem run_concat (events : List Event) (event : Event) :
    traffic.run (events ++ [event]) = (traffic.run events).step event := by
  rw [run, foldl_append, ← run]
  rfl

theorem received_concat (events : List Event) (event : Event) :
    received (events ++ [event]) = received events ++ event.telemetry?.toList := by
  rw [received, filterMap_append, ← received]
  cases h : event.telemetry? <;> simp [h]

theorem takeDetectionInput_live (traffic : TrafficAggregator) (hostPressure : HostPressure) :
    (traffic.takeDetectionInput hostPressure).2.liveBuckets = traffic.liveBuckets ∧
      (traffic.takeDetectionInput hostPressure).2.liveSeconds = traffic.liveSeconds ∧
      (traffic.takeDetectionInput hostPressure).2.clients = traffic.clients ∧
      (traffic.takeDetectionInput hostPressure).2.maxClients = traffic.maxClients := by
  unfold takeDetectionInput
  split <;> exact ⟨rfl, rfl, rfl, rfl⟩

theorem ingest_of_schema (hschema : telemetry.schemaVersion ≠ 1) :
    traffic.ingest telemetry = traffic := if_pos hschema

theorem run_bounded (traffic : TrafficAggregator) (events : List Event)
    (h : traffic.clients.entries.length ≤ traffic.maxClients) :
    (traffic.run events).liveSeconds = traffic.liveSeconds ∧
      (traffic.run events).maxClients = traffic.maxClients ∧
      (traffic.run events).clients.entries.length ≤ traffic.maxClients := by
  induction events generalizing traffic with
  | nil => exact ⟨rfl, rfl, h⟩
  | cons event events ih =>
    have hstep : (traffic.step event).liveSeconds = traffic.liveSeconds ∧
        (traffic.step event).maxClients = traffic.maxClients ∧
        (traffic.step event).clients.entries.length ≤ traffic.maxClients := by
      cases event with
      | ingest telemetry => exact ⟨ingest_liveSeconds, ingest_maxClients, ingest_clients_le h⟩
      | look hostPressure =>
        obtain ⟨-, hseconds, hclients, hmax⟩ :=
          takeDetectionInput_live traffic hostPressure
        exact ⟨hseconds, hmax, hclients ▸ h⟩
    obtain ⟨hseconds, hmax, hclients⟩ := hstep
    have hnext := ih (traffic.step event) (hmax.symm ▸ hclients)
    rwa [hseconds, hmax] at hnext

theorem run_slots (m : LiveMeasure) (maxClients : ℕ) (hlive : 1 ≤ liveSeconds)
    (events : List Event) :
    ((withLiveWindow maxClients liveSeconds).run events).liveBuckets.map m.slot =
      Ring.addAll liveSeconds largest ((received events).map m.entry) := by
  induction events using List.reverseRecOn with
  | nil => rfl
  | append_singleton events event ih =>
    rw [run_concat, received_concat]
    cases event with
    | look hostPressure =>
      rw [step, (takeDetectionInput_live _ _).1, ih, Event.telemetry?, Option.toList_none,
        append_nil]
    | ingest telemetry =>
      rw [step, Event.telemetry?]
      split
      · next hschema =>
        have hincreasing : Ring.Increasing
            (Ring.addAll liveSeconds largest ((received events).map m.entry)) :=
          Ring.increasing_addAll _
        have hseconds := (run_bounded (withLiveWindow maxClients liveSeconds) events
          (Nat.zero_le _)).1
        rw [← ih] at hincreasing
        rw [Option.toList_some, map_append, map_singleton, Ring.addAll_concat, ← ih,
          ingest_slots hschema, hseconds]
        exact ingestLive_slots hlive hincreasing
      · next hschema =>
        rw [ingest_of_schema hschema, ih, Option.toList_none, append_nil]

theorem run_window {pending : List TelemetryEnvelope}
    (h : traffic.window = pending.foldl DetectionWindow.ingest .empty) (events : List Event) :
    (traffic.run events).window =
      (traffic.sinceLook pending events).foldl DetectionWindow.ingest .empty := by
  induction events generalizing traffic pending with
  | nil => exact h
  | cons event events ih =>
    refine ih ?_
    cases event with
    | ingest telemetry =>
      rw [step, ingest_window, Event.telemetry?]
      split
      · rw [Option.toList_some, foldl_append, ← h]
        rfl
      · rw [Option.toList_none, append_nil, h]
    | look hostPressure =>
      dsimp only [step]
      unfold takeDetectionInput
      split
      · exact h
      · rfl

theorem counted_window {value : DetectionWindow → ℕ} {amount : TelemetryEnvelope → ℕ}
    (hempty : value .empty = 0)
    (hingest : ∀ window telemetry,
      value (window.ingest telemetry) = saturatingAdd 64 (value window) (amount telemetry))
    (l : List TelemetryEnvelope) :
    value (l.foldl DetectionWindow.ingest .empty) = counted l amount := by
  rw [foldl_saturatingAdd value hingest l (hempty.symm ▸ Nat.zero_le _), hempty, Nat.zero_add,
    counted]

theorem takeDetectionInput_fst {l : List TelemetryEnvelope}
    (h : traffic.window = l.foldl DetectionWindow.ingest .empty) (hostPressure : HostPressure) :
    (traffic.takeDetectionInput hostPressure).1 =
      if l = [] then none else some (traffic.window.input traffic.baseline hostPressure) := by
  have hrequests : traffic.window.requests = counted l fun _ => 1 :=
    h ▸ counted_window rfl (fun _ _ => rfl) l
  have hzero : traffic.window.requests = 0 ↔ l = [] := by
    rw [hrequests]
    cases l with
    | nil => exact iff_of_true rfl rfl
    | cons telemetry l =>
      refine iff_of_false ?_ (cons_ne_nil _ _)
      rw [counted, map_cons, sum_cons, largest]
      omega
  unfold takeDetectionInput
  split
  · next hnone => rw [if_pos (hzero.1 hnone)]
  · next hsome => rw [if_neg fun hnil => hsome (hzero.2 hnil)]

theorem dvd_secondStart (telemetry : TelemetryEnvelope) : 1000 ∣ telemetry.secondStart :=
  Nat.dvd_sub_mod _

theorem secondStart_le {a b : TelemetryEnvelope} (h : a.occurredAtUnixMs ≤ b.occurredAtUnixMs) :
    a.secondStart ≤ b.secondStart := by
  unfold TelemetryEnvelope.secondStart
  omega

theorem sumBuckets_run (m : LiveMeasure) (maxClients : ℕ) (hlive : 1 ≤ liveSeconds)
    {events : List Event}
    (hsorted : (received events).Pairwise (·.occurredAtUnixMs ≤ ·.occurredAtUnixMs))
    (hnow : ∀ bucket ∈ ((withLiveWindow maxClients liveSeconds).run events).liveBuckets,
      bucket.bucketUnixMs < now) :
    sumBuckets (((withLiveWindow maxClients liveSeconds).run events).liveBuckets.filter
        (·.bucketUnixMs ≥ now - liveSeconds * 1000)) m.value =
      counted ((received events).filter (·.secondStart ≥ now - liveSeconds * 1000)) m.amount := by
  have hslots := run_slots m maxClients hlive events
  have hnow : ∀ slot ∈ Ring.addAll liveSeconds largest ((received events).map m.entry),
      slot.1 < now := by
    intro slot hslot
    rw [← hslots] at hslot
    obtain ⟨bucket, hbucket, rfl⟩ := mem_map.1 hslot
    exact hnow bucket hbucket
  have hkeys : ∀ entry ∈ (received events).map m.entry, 1000 ∣ entry.1 := by
    intro entry hentry
    obtain ⟨telemetry, -, rfl⟩ := mem_map.1 hentry
    exact dvd_secondStart telemetry
  have hsorted : ((received events).map m.entry).Pairwise (·.1 ≤ ·.1) :=
    hsorted.map m.entry fun _ _ hle => secondStart_le hle
  have htotal := Ring.total_addAll hlive hkeys hsorted hnow
  rw [← hslots, Ring.total, filter_map, filter_map, map_map, map_map] at htotal
  rw [sumBuckets_eq]
  exact htotal

theorem run_buckets (maxClients : ℕ) (hlive : 1 ≤ liveSeconds) (events : List Event) :
    (((withLiveWindow maxClients liveSeconds).run events).liveBuckets.Pairwise
        fun a b => a.bucketUnixMs < b.bucketUnixMs) ∧
      ((withLiveWindow maxClients liveSeconds).run events).liveBuckets.length ≤ liveSeconds := by
  have hslots := run_slots .requests maxClients hlive events
  constructor
  · have hincreasing : Ring.Increasing (Ring.addAll liveSeconds largest
        ((received events).map LiveMeasure.requests.entry)) := Ring.increasing_addAll _
    rw [← hslots] at hincreasing
    exact List.Pairwise.of_map LiveMeasure.requests.slot (fun _ _ hlt => hlt) hincreasing
  · rw [← length_map LiveMeasure.requests.slot, hslots]
    exact Ring.length_addAll_le _

theorem lt_of_newest (hincreasing : buckets.Pairwise fun a b => a.bucketUnixMs < b.bucketUnixMs)
    (hnewest : ∀ newest ∈ buckets.getLast?, newest.bucketUnixMs < now) :
    ∀ bucket ∈ buckets, bucket.bucketUnixMs < now := by
  intro bucket hbucket
  have hsome := getLast?_isSome.2 (ne_nil_of_mem hbucket)
  obtain ⟨newest, hget⟩ := Option.isSome_iff_exists.1 hsome
  obtain ⟨before, rfl⟩ := getLast?_eq_some_iff.1 hget
  have hlast := hnewest newest hget
  rcases mem_append.1 hbucket with hbefore | hsame
  · have hle := (pairwise_append.1 hincreasing).2.2 bucket hbefore newest mem_cons_self
    exact hle.trans hlast
  · rwa [mem_singleton.1 hsame]

theorem sub_saturatingProd (hnow : now ≤ largest) (seconds : ℕ) :
    now - saturatingProd 64 seconds 1000 = now - seconds * 1000 := by
  rw [largest] at hnow
  rw [saturatingProd]
  omega

/-- Whatever is received, and whenever the detection looks: at a time after the start of
    the newest bucket, and if the requests came in the order of their times, what is
    shown are the numbers of the requests whose second starts in the window. In any
    order the starts of the buckets increase and there are not more of them than
    seconds, nor more clients than allowed; and the window that a look finds has the
    numbers of the requests since the last look that had something to tell. -/
theorem liveTraffic_exact (maxClients liveSeconds : ℕ) (hlive : 1 ≤ liveSeconds)
    (events : List Event) :
    let traffic := (withLiveWindow maxClients liveSeconds).run events
    let pending := (withLiveWindow maxClients liveSeconds).sinceLook [] events
    (∀ now ≤ largest,
      (received events).Pairwise (·.occurredAtUnixMs ≤ ·.occurredAtUnixMs) →
      (∀ newest ∈ traffic.liveBuckets.getLast?, newest.bucketUnixMs < now) →
      let recent := (received events).filter (·.secondStart ≥ now - liveSeconds * 1000)
      let summary := traffic.summaryAt now
      summary.requests = countedIf recent (fun _ => true) ∧
      summary.status2xx = countedIf recent (·.status / 100 = 2) ∧
      summary.status3xx = countedIf recent (·.status / 100 = 3) ∧
      summary.status4xx = countedIf recent (·.status / 100 = 4) ∧
      summary.status5xx = countedIf recent (·.status / 100 = 5) ∧
      summary.throttled = countedIf recent (·.decision = "throttle") ∧
      summary.denied = countedIf recent (·.decision = "deny") ∧
      summary.challenged = countedIf recent (·.decision = "challenge") ∧
      summary.requestBodyBytes = counted recent (·.requestBodyBytes) ∧
      summary.responseBodyBytes = counted recent (·.responseBodyBytes) ∧
      summary.upstreamConnections = countedIf recent (·.upstreamConnectionReused = some false) ∧
      summary.upstreamConnectionsReused =
        countedIf recent (·.upstreamConnectionReused = some true) ∧
      summary.botRequests = countedIf recent (·.botClass ≠ .undeclared) ∧
      summary.botDenied =
        countedIf recent fun telemetry =>
          decide (telemetry.botClass ≠ .undeclared) && telemetry.decision = "deny") ∧
    (traffic.liveBuckets.Pairwise fun a b => a.bucketUnixMs < b.bucketUnixMs) ∧
    traffic.liveBuckets.length ≤ liveSeconds ∧
    traffic.clients.entries.length ≤ maxClients ∧
    traffic.window.requests = countedIf pending (fun _ => true) ∧
    traffic.window.protective = countedIf pending (·.protective) ∧
    traffic.window.serverErrors = countedIf pending (·.status ≥ 500) ∧
    traffic.window.verifiedCrawlerRequests = countedIf pending (·.botVerified) ∧
    traffic.window.continuousSessionRequests = countedIf pending (·.sessionContinuity) ∧
    ∀ hostPressure, (traffic.takeDetectionInput hostPressure).1 =
      if pending = [] then none
      else some (traffic.window.input traffic.baseline hostPressure) := by
  intro traffic pending
  have hbounded : traffic.liveSeconds = liveSeconds ∧ traffic.maxClients = maxClients ∧
      traffic.clients.entries.length ≤ maxClients :=
    run_bounded (withLiveWindow maxClients liveSeconds) events (Nat.zero_le _)
  obtain ⟨hincreasing, hlength⟩ := run_buckets maxClients hlive events
  have hwindow : traffic.window = pending.foldl DetectionWindow.ingest .empty :=
    run_window (rfl : (withLiveWindow maxClients liveSeconds).window = _) events
  have hpending (value : DetectionWindow → ℕ) (p : TelemetryEnvelope → Bool)
      (hempty : value .empty = 0)
      (hingest : ∀ window telemetry,
        value (window.ingest telemetry) = countIf (p telemetry) (value window)) :
      value traffic.window = countedIf pending p := by
    rw [hwindow, counted_window hempty hingest, counted_toNat]
  refine ⟨?_, hincreasing, hlength, hbounded.2.2,
    hpending _ _ rfl fun _ _ => rfl, hpending _ _ rfl fun _ _ => rfl,
    hpending _ _ rfl fun _ _ => rfl, hpending _ _ rfl fun _ _ => rfl,
    hpending _ _ rfl fun _ _ => rfl, takeDetectionInput_fst hwindow⟩
  intro now hlargest hsorted hnewest recent summary
  have hnow := lt_of_newest hincreasing hnewest
  have hstart : now - saturatingProd 64 traffic.liveSeconds 1000 = now - liveSeconds * 1000 :=
    hbounded.1 ▸ sub_saturatingProd hlargest _
  have hsum (m : LiveMeasure) :
      sumBuckets (traffic.liveBuckets.filter
        (·.bucketUnixMs ≥ now - saturatingProd 64 traffic.liveSeconds 1000)) m.value =
      counted recent m.amount := by
    rw [hstart, sumBuckets_run m maxClients hlive hsorted hnow]
  have hcount (m : LiveMeasure) (p : TelemetryEnvelope → Bool)
      (hm : m.amount = fun telemetry => (p telemetry).toNat) :=
    (hsum m).trans (hm ▸ counted_toNat recent p)
  have hstatus (i : Fin 4) := hcount (.status i) (fun telemetry => telemetry.status / 100 = i + 2)
    (funext fun _ => congrArg Bool.toNat (decide_eq_decide.2 statusIndex_eq_some))
  exact ⟨hcount .requests _ rfl, hstatus 0, hstatus 1, hstatus 2, hstatus 3,
    hcount .throttled _ rfl, hcount .denied _ rfl, hcount .challenged _ rfl,
    hsum .requestBodyBytes, hsum .responseBodyBytes, hcount .upstreamConnections _ rfl,
    hcount .upstreamConnectionsReused _ rfl, hcount .botRequests _ rfl, hcount .botDenied _ rfl⟩

/-- A request of a client at a time. -/
def sampleTelemetry (occurredAtUnixMs : ℕ) (decision : String) : TelemetryEnvelope where
  schemaVersion := 1
  routeCost := 1
  status := 200
  latencyMicros := 5
  clientIp := none
  requestBodyBytes := 10
  responseBodyBytes := 20
  upstreamConnectionReused := some true
  decision
  botClass := .undeclared
  botVerified := false
  sessionContinuity := true
  inFlightRequests := 1
  edgeTelemetryEmitted := 1
  edgeTelemetryDropped := 0
  edgeTelemetryReconnected := 0
  occurredAtUnixMs

/-- Four requests in three seconds, and a look after the second one. -/
def sampleEvents : List Event :=
  [.ingest (sampleTelemetry 1500 "allow"), .ingest (sampleTelemetry 2500 "deny"),
    .look (.available 0), .ingest (sampleTelemetry 3100 "allow"),
    .ingest (sampleTelemetry 3900 "allow")]

/-- In a window of two seconds the first one has gone. -/
theorem liveTraffic_exact_two_seconds :
    (((withLiveWindow 4 2).run sampleEvents).summaryAt 4000).requests = 3 :=
  ((liveTraffic_exact 4 2 (by decide) sampleEvents).1 4000 (by decide) (by decide)
    (by decide +kernel)).1.trans (by decide)

end TrafficAggregator

end VpsGuard
