import Mathlib.Data.Nat.Cast.Basic
import VpsGuard.Control.Telemetry
import VpsGuard.Store.Rollup

/-!
# The rollups of the traffic

The control process stores the requests that it is told of, in batches. A batch is one
transaction: its requests are inserted as samples, and the rollups of the batch, made in
memory (`fromTelemetry`), are merged into four tables:

* the requests of a route, for every ten seconds and for every minute;
* the requests of a client, for every minute, if clients are stored;
* the requests of declared bots, for every minute.

A transaction commits or changes nothing. Whatever the batches are, and whichever of
them commit, the tables are the rollups of all requests that were stored, as long as no
number is too large for its column (`rollups_exact`). So neither the batches nor the
order matter, and a minute is the sum of its six times ten seconds.

A list of the clients may show their networks in place of their addresses
(`maskedClientRows`).
-/

namespace VpsGuard

open Store List

/-- What the edge tells of a request, with what is only stored. -/
structure TrafficEnvelope extends TelemetryEnvelope where
  requestId : String
  method : String
  routeClass : String
  normalizedRoute : String
  policyVersion : ℕ
  botProvider : Option CrawlerProvider
  botReason : BotReason
  userAgentFamily : UserAgentFamily

/-! ## The texts of the columns -/

def CrawlerProvider.asStr : CrawlerProvider → String
  | .google => "google"
  | .bing => "bing"
  | .naver => "naver"

def BotClass.asStr : BotClass → String
  | .undeclared => "undeclared"
  | .verifiedCrawler => "verified_crawler"
  | .spoofedCrawler => "spoofed_crawler"
  | .unapprovedDeclaredBot => "unapproved_declared_bot"

def BotReason.asStr : BotReason → String
  | .notDeclared => "not_declared"
  | .officialNetworkMatch => "official_network_match"
  | .officialNetworkMismatch => "official_network_mismatch"
  | .unapprovedUserAgent => "unapproved_user_agent"

def UserAgentFamily.asStr : UserAgentFamily → String
  | .missing => "missing"
  | .googlebot => "googlebot"
  | .bingbot => "bingbot"
  | .naver => "naver"
  | .declaredAutomation => "declared_automation"
  | .chrome => "chrome"
  | .edge => "edge"
  | .firefox => "firefox"
  | .safari => "safari"
  | .curl => "curl"
  | .wget => "wget"
  | .other => "other"

/-! ## Keys -/

def tenSecondsMs : ℕ := 10000

def minuteMs : ℕ := 60000

abbrev largestColumn : ℕ := 2 ^ 63 - 1

/-- A number as a column has it. -/
def toI64 (value : ℕ) : ℕ := min value largestColumn

theorem toI64_eq {value : ℕ} (h : value ≤ largestColumn) : toI64 value = value := min_eq_left h

/-- The start of the bucket. -/
def bucket (value width : ℕ) : ℕ := value - value % width

/-- A route in a bucket. Times are of a type in memory and of another in the database. -/
structure RouteRollupKey (τ : Type) where
  bucketMs : τ
  normalizedRoute : String
  routeClass : String
  deriving DecidableEq

structure ClientRollupKey (τ : Type) where
  bucketMs : τ
  clientIp : String
  deriving DecidableEq

/-- A kind of bot in a bucket. -/
structure BotRollupKey (τ : Type) where
  bucketMs : τ
  botClass : String
  botProvider : String
  botVerified : Bool
  botReason : String
  userAgentFamily : String
  deriving DecidableEq

/-- The key in the columns of the table. -/
def RouteRollupKey.stored (key : RouteRollupKey ℕ) : RouteRollupKey ℤ :=
  ⟨toI64 key.bucketMs, key.normalizedRoute, key.routeClass⟩

def ClientRollupKey.stored (key : ClientRollupKey ℕ) : ClientRollupKey ℤ :=
  ⟨toI64 key.bucketMs, key.clientIp⟩

def BotRollupKey.stored (key : BotRollupKey ℕ) : BotRollupKey ℤ :=
  ⟨toI64 key.bucketMs, key.botClass, key.botProvider, key.botVerified, key.botReason,
    key.userAgentFamily⟩

/-! ## Columns -/

/-- What is summed up of a route. -/
inductive RouteColumn
  | requests
  | errors
  | throttled
  | latencySumMicros
  | maxRouteCost
  | requestBodyBytes
  | responseBodyBytes

/-- What is summed up of a client. -/
inductive ClientColumn
  | requests
  | throttled
  | denied
  | requestBodyBytes
  | responseBodyBytes
  | lastSeenMs
  deriving DecidableEq

/-- What is known of the requests of bots. -/
inductive BotColumn
  | requests
  | denied
  | throttled
  | responseBodyBytes

/-- The cost of a route is a small number. -/
def RouteColumn.layout : Layout TrafficEnvelope RouteColumn where
  kind
    | .maxRouteCost => .max false
    | _ => .sum
  amount
    | .requests, _ => 1
    | .errors, telemetry => (decide (telemetry.status ≥ 500)).toNat
    | .throttled, telemetry => (decide (telemetry.decision = "throttle")).toNat
    | .latencySumMicros, telemetry => telemetry.latencyMicros
    | .maxRouteCost, telemetry => telemetry.routeCost
    | .requestBodyBytes, telemetry => telemetry.requestBodyBytes
    | .responseBodyBytes, telemetry => telemetry.responseBodyBytes

def ClientColumn.layout : Layout TrafficEnvelope ClientColumn where
  kind
    | .lastSeenMs => .max true
    | _ => .sum
  amount
    | .requests, _ => 1
    | .throttled, telemetry => (decide (telemetry.decision = "throttle")).toNat
    | .denied, telemetry => (decide (telemetry.decision = "deny")).toNat
    | .requestBodyBytes, telemetry => telemetry.requestBodyBytes
    | .responseBodyBytes, telemetry => telemetry.responseBodyBytes
    | .lastSeenMs, telemetry => telemetry.occurredAtUnixMs

def BotColumn.layout : Layout TrafficEnvelope BotColumn where
  kind _ := .sum
  amount
    | .requests, _ => 1
    | .denied, telemetry => (decide (telemetry.decision = "deny")).toNat
    | .throttled, telemetry => (decide (telemetry.decision = "throttle")).toNat
    | .responseBodyBytes, telemetry => telemetry.responseBodyBytes

abbrev RouteRollupValue := Values RouteColumn.layout.kind

abbrev ClientRollupValue := Values ClientColumn.layout.kind

abbrev BotRollupValue := Values BotColumn.layout.kind

def columnAggregate {ι : Type} (layout : Layout TrafficEnvelope ι) :
    Aggregate TrafficEnvelope (Values layout.kind) :=
  layout.aggregate (2 ^ 64 - 1) largestColumn (by decide)

/-! ## A batch -/

/-- What the store keeps of addresses. -/
structure TrafficStore where
  storeClientIp : Bool
  /-- The text of an address. -/
  display : IpAddr → String

def routeKey (bucketWidthMs : ℕ) (telemetry : TrafficEnvelope) : Option (RouteRollupKey ℕ) :=
  some ⟨bucket telemetry.occurredAtUnixMs bucketWidthMs, telemetry.normalizedRoute,
    telemetry.routeClass⟩

/-- Clients are told apart only if their addresses are stored. -/
def TrafficStore.clientKey (store : TrafficStore) (telemetry : TrafficEnvelope) :
    Option (ClientRollupKey ℕ) :=
  if store.storeClientIp then
    telemetry.clientIp.map fun clientIp =>
      ⟨bucket telemetry.occurredAtUnixMs minuteMs, store.display clientIp⟩
  else none

/-- The bot of a request, if it is one. -/
def botKey (telemetry : TrafficEnvelope) : Option (BotRollupKey ℕ) :=
  if telemetry.botClass ≠ .undeclared then
    some
      { bucketMs := bucket telemetry.occurredAtUnixMs minuteMs
        botClass := telemetry.botClass.asStr
        botProvider := telemetry.botProvider.elim "none" CrawlerProvider.asStr
        botVerified := telemetry.botVerified
        botReason := telemetry.botReason.asStr
        userAgentFamily := telemetry.userAgentFamily.asStr }
  else none

/-- What a batch adds up to. -/
structure BatchRollups where
  tenSeconds : Table (RouteRollupKey ℕ) RouteRollupValue
  oneMinute : Table (RouteRollupKey ℕ) RouteRollupValue
  clients : Table (ClientRollupKey ℕ) ClientRollupValue
  bots : Table (BotRollupKey ℕ) BotRollupValue

def BatchRollups.fromTelemetry (store : TrafficStore) (batch : List TrafficEnvelope) :
    BatchRollups where
  tenSeconds := tallyAll (columnAggregate RouteColumn.layout) (routeKey tenSecondsMs) batch
  oneMinute := tallyAll (columnAggregate RouteColumn.layout) (routeKey minuteMs) batch
  clients := tallyAll (columnAggregate ClientColumn.layout) store.clientKey batch
  bots := tallyAll (columnAggregate BotColumn.layout) botKey batch

/-! ## What the rows say of the requests -/

/-- What the requests to a route are to add up to. -/
def RouteRollupValue.ofRequests (requests : List TrafficEnvelope) : RouteRollupValue := fun
  | .requests => requests.length
  | .errors => requests.countP (500 ≤ ·.status)
  | .throttled => requests.countP (·.decision = "throttle")
  | .latencySumMicros => (requests.map (·.latencyMicros)).sum
  | .maxRouteCost => (requests.map (·.routeCost)).foldr max 0
  | .requestBodyBytes => (requests.map (·.requestBodyBytes)).sum
  | .responseBodyBytes => (requests.map (·.responseBodyBytes)).sum

def ClientRollupValue.ofRequests (requests : List TrafficEnvelope) : ClientRollupValue := fun
  | .requests => requests.length
  | .throttled => requests.countP (·.decision = "throttle")
  | .denied => requests.countP (·.decision = "deny")
  | .requestBodyBytes => (requests.map (·.requestBodyBytes)).sum
  | .responseBodyBytes => (requests.map (·.responseBodyBytes)).sum
  | .lastSeenMs => (requests.map (·.occurredAtUnixMs)).foldr max 0

def BotRollupValue.ofRequests (requests : List TrafficEnvelope) : BotRollupValue := fun
  | .requests => requests.length
  | .denied => requests.countP (·.decision = "deny")
  | .throttled => requests.countP (·.decision = "throttle")
  | .responseBodyBytes => (requests.map (·.responseBodyBytes)).sum

/-- The request is of the route, and in the bucket of this width. -/
def RouteRollupKey.covers (key : RouteRollupKey ℤ) (width : ℕ) (telemetry : TrafficEnvelope) :
    Bool :=
  key = ⟨(telemetry.occurredAtUnixMs / width * width : ℕ), telemetry.normalizedRoute,
    telemetry.routeClass⟩

/-- The request is of the client, and in the minute. -/
def ClientRollupKey.covers (key : ClientRollupKey ℤ) (store : TrafficStore)
    (telemetry : TrafficEnvelope) : Bool :=
  store.storeClientIp && telemetry.clientIp.any fun clientIp =>
    key = ⟨(telemetry.occurredAtUnixMs / 60000 * 60000 : ℕ), store.display clientIp⟩

/-- The request is one of a bot of the kind, and in the minute. -/
def BotRollupKey.covers (key : BotRollupKey ℤ) (telemetry : TrafficEnvelope) : Bool :=
  telemetry.botClass ≠ .undeclared ∧ key =
    { bucketMs := (telemetry.occurredAtUnixMs / 60000 * 60000 : ℕ)
      botClass := telemetry.botClass.asStr
      botProvider := telemetry.botProvider.elim "none" CrawlerProvider.asStr
      botVerified := telemetry.botVerified
      botReason := telemetry.botReason.asStr
      userAgentFamily := telemetry.userAgentFamily.asStr }

theorem sum_map_toNat (p : TrafficEnvelope → Prop) [DecidablePred p]
    (requests : List TrafficEnvelope) :
    (requests.map fun telemetry => (decide (p telemetry)).toNat).sum =
      requests.countP fun telemetry => p telemetry := by
  induction requests with
  | nil => rfl
  | cons telemetry requests ih => by_cases h : p telemetry <;> simp [h, ih, Nat.add_comm]

theorem ofGroup_routes : RouteColumn.layout.ofGroup = RouteRollupValue.ofRequests := by
  funext requests column
  cases column <;> simp [Layout.ofGroup, RouteColumn.layout, RouteRollupValue.ofRequests,
    sum_map_toNat]

theorem ofGroup_clients : ClientColumn.layout.ofGroup = ClientRollupValue.ofRequests := by
  funext requests column
  cases column <;> simp [Layout.ofGroup, ClientColumn.layout, ClientRollupValue.ofRequests,
    sum_map_toNat]

theorem ofGroup_bots : BotColumn.layout.ofGroup = BotRollupValue.ofRequests := by
  funext requests column
  cases column <;> simp [Layout.ofGroup, BotColumn.layout, BotRollupValue.ofRequests, sum_map_toNat]

theorem bucket_eq (value width : ℕ) : bucket value width = value / width * width := by
  have := Nat.div_add_mod' value width
  unfold bucket
  omega

/-! ## The tables -/

/-- A request, as it is stored. -/
structure TrafficSample where
  requestId : String
  occurredAtMs : ℤ
  method : String
  clientIp : Option String
  routeClass : String
  normalizedRoute : String
  routeCost : ℕ
  status : ℕ
  latencyMicros : ℕ
  requestBodyBytes : ℕ
  responseBodyBytes : ℕ
  upstreamConnectionReused : Option Bool
  decision : String
  policyVersion : ℕ
  botClass : String
  botProvider : Option String
  botVerified : Bool
  botReason : String
  userAgentFamily : String
  deriving DecidableEq

def TrafficStore.sample (store : TrafficStore) (telemetry : TrafficEnvelope) : TrafficSample where
  requestId := telemetry.requestId
  occurredAtMs := toI64 telemetry.occurredAtUnixMs
  method := telemetry.method
  clientIp := if store.storeClientIp then telemetry.clientIp.map store.display else none
  routeClass := telemetry.routeClass
  normalizedRoute := telemetry.normalizedRoute
  routeCost := telemetry.routeCost
  status := telemetry.status
  latencyMicros := toI64 telemetry.latencyMicros
  requestBodyBytes := toI64 telemetry.requestBodyBytes
  responseBodyBytes := toI64 telemetry.responseBodyBytes
  upstreamConnectionReused := telemetry.upstreamConnectionReused
  decision := telemetry.decision
  policyVersion := toI64 telemetry.policyVersion
  botClass := telemetry.botClass.asStr
  botProvider := telemetry.botProvider.map CrawlerProvider.asStr
  botVerified := telemetry.botVerified
  botReason := telemetry.botReason.asStr
  userAgentFamily := telemetry.userAgentFamily.asStr

/-- The tables of the traffic. Samples are numbered, and no number is used again. -/
structure TrafficTables where
  lastId : ℕ
  samples : Table ℕ TrafficSample
  rollups10s : Table (RouteRollupKey ℤ) RouteRollupValue
  rollups1m : Table (RouteRollupKey ℤ) RouteRollupValue
  clientRollups1m : Table (ClientRollupKey ℤ) ClientRollupValue
  botRollups1m : Table (BotRollupKey ℤ) BotRollupValue

namespace TrafficTables

/-- There is nothing in the tables. -/
def empty : TrafficTables := ⟨0, ∅, ∅, ∅, ∅, ∅⟩

/-- A request is stored once. -/
def insertSample (tables : TrafficTables) (sample : TrafficSample) : Option TrafficTables :=
  if tables.samples.entries.any (·.2.requestId = sample.requestId) then none
  else
    some
      { tables with
        lastId := tables.lastId + 1
        samples := tables.samples.insert (tables.lastId + 1) sample }

def insertSamples (store : TrafficStore) (tables : TrafficTables) :
    List TrafficEnvelope → Option TrafficTables
  | [] => some tables
  | telemetry :: batch =>
    (tables.insertSample (store.sample telemetry)).bind (insertSamples store · batch)

/-- The orders in which the maps of a batch are gone through. -/
structure Scans where
  tenSeconds : Scan (Row (RouteRollupKey ℕ) RouteRollupValue)
  oneMinute : Scan (Row (RouteRollupKey ℕ) RouteRollupValue)
  clients : Scan (Row (ClientRollupKey ℕ) ClientRollupValue)
  bots : Scan (Row (BotRollupKey ℕ) BotRollupValue)

def upsertRollups {K L ι : Type} [DecidableEq L] (layout : Layout TrafficEnvelope ι)
    (stored : K → L) (scan : Scan (Row K (Values layout.kind)))
    (table : Table L (Values layout.kind)) (rollups : Table K (Values layout.kind)) :
    Table L (Values layout.kind) :=
  table.upsertAll (· + ·)
    ((scan.order rollups.entries).map (columns (columnAggregate layout) stored))

/-- Store a batch and what it adds up to, all of it or nothing. -/
def recordTrafficBatch (store : TrafficStore) (scans : Scans) (tables : TrafficTables)
    (batch : List TrafficEnvelope) : Option TrafficTables :=
  if batch = [] then some tables
  else
    let rollups := BatchRollups.fromTelemetry store batch
    (insertSamples store tables batch).map fun tables =>
      { tables with
        rollups10s :=
          upsertRollups RouteColumn.layout RouteRollupKey.stored scans.tenSeconds tables.rollups10s
            rollups.tenSeconds
        rollups1m :=
          upsertRollups RouteColumn.layout RouteRollupKey.stored scans.oneMinute tables.rollups1m
            rollups.oneMinute
        clientRollups1m :=
          upsertRollups ClientColumn.layout ClientRollupKey.stored scans.clients
            tables.clientRollups1m rollups.clients
        botRollups1m :=
          upsertRollups BotColumn.layout BotRollupKey.stored scans.bots tables.botRollups1m
            rollups.bots }

structure Call where
  batch : List TrafficEnvelope
  scans : Scans
  fails : Bool

/-- The tables after some calls, and the requests that were stored. -/
def recordAll (store : TrafficStore) : TrafficTables × List TrafficEnvelope → List Call →
    TrafficTables × List TrafficEnvelope :=
  List.foldl fun (tables, persisted) call =>
    if call.fails then (tables, persisted)
    else
      (recordTrafficBatch store call.scans tables call.batch).elim (tables, persisted)
        fun tables => (tables, persisted ++ call.batch)

/-! ## Samples -/

def Numbered (tables : TrafficTables) : Prop :=
  ∀ row ∈ tables.samples.entries, row.1 ≤ tables.lastId

variable {store : TrafficStore} {tables tables' : TrafficTables} {batch : List TrafficEnvelope}

theorem entries_insertSample (h : tables.Numbered) (sample : TrafficSample) :
    (tables.samples.insert (tables.lastId + 1) sample).entries =
      ⟨tables.lastId + 1, sample⟩ :: tables.samples.entries := by
  refine AList.entries_insert_of_notMem fun hmem => ?_
  obtain ⟨row, hrow, heq⟩ := mem_map.1 (AList.mem_keys.1 hmem)
  have := h row hrow
  omega

theorem insertSamples_eq_some (h : tables.Numbered)
    (hinsert : insertSamples store tables batch = some tables') :
    tables'.Numbered ∧
      (tables'.samples.entries.map (·.2)).Perm
        (tables.samples.entries.map (·.2) ++ batch.map store.sample) ∧
      tables' = { tables with lastId := tables'.lastId, samples := tables'.samples } := by
  induction batch generalizing tables with
  | nil =>
    cases hinsert
    exact ⟨h, by rw [map_nil, append_nil], rfl⟩
  | cons telemetry batch ih =>
    obtain ⟨next, hnext, hrest⟩ := Option.bind_eq_some_iff.1 hinsert
    unfold insertSample at hnext
    split at hnext
    · cases hnext
    · cases hnext
      have hentries := entries_insertSample h (store.sample telemetry)
      obtain ⟨hnumbered, hperm, heq⟩ := ih (fun row hrow => by
        rw [hentries] at hrow
        rcases mem_cons.1 hrow with rfl | hrow
        · exact le_rfl
        · exact (h row hrow).trans (Nat.le_succ _)) hrest
      refine ⟨hnumbered, hperm.trans ?_, heq⟩
      rw [hentries, map_cons, map_cons, cons_append]
      exact perm_middle.symm

/-! ## Rollups -/

/-- No number is too large for its column. -/
structure NoOverflow (store : TrafficStore) (persisted : List TrafficEnvelope) : Prop where
  times : ∀ telemetry ∈ persisted, telemetry.occurredAtUnixMs ≤ largestColumn
  rollups10s : (columnAggregate RouteColumn.layout).FitsAll (routeKey tenSecondsMs) persisted
  rollups1m : (columnAggregate RouteColumn.layout).FitsAll (routeKey minuteMs) persisted
  clientRollups1m : (columnAggregate ClientColumn.layout).FitsAll store.clientKey persisted
  botRollups1m : (columnAggregate BotColumn.layout).FitsAll botKey persisted

variable {persisted : List TrafficEnvelope}

theorem NoOverflow.left (h : NoOverflow store (persisted ++ batch)) :
    NoOverflow store persisted where
  times telemetry hmem := h.times telemetry (mem_append_left _ hmem)
  rollups10s := h.rollups10s.left
  rollups1m := h.rollups1m.left
  clientRollups1m := h.clientRollups1m.left
  botRollups1m := h.botRollups1m.left

theorem NoOverflow.right (h : NoOverflow store (persisted ++ batch)) : NoOverflow store batch where
  times telemetry hmem := h.times telemetry (mem_append_right _ hmem)
  rollups10s := h.rollups10s.right
  rollups1m := h.rollups1m.right
  clientRollups1m := h.clientRollups1m.right
  botRollups1m := h.botRollups1m.right

theorem bucket_le (value width : ℕ) : bucket value width ≤ value := Nat.sub_le _ _

theorem toI64_injOn {m n : ℕ} (hm : m ≤ largestColumn) (hn : n ≤ largestColumn)
    (h : (toI64 m : ℤ) = toI64 n) : m = n := by
  rw [toI64_eq hm, toI64_eq hn] at h
  exact Int.ofNat.inj h

section Keys

variable (htimes : ∀ telemetry ∈ batch, telemetry.occurredAtUnixMs ≤ largestColumn)

include htimes

theorem distinct_routeKey (width : ℕ) : Distinct RouteRollupKey.stored (routeKey width) batch := by
  intro a ha b hb k l hk hl heq
  cases hk
  cases hl
  injection heq with hbucket hroute hclass
  have hbucket := toI64_injOn ((bucket_le _ _).trans (htimes a ha))
    ((bucket_le _ _).trans (htimes b hb)) hbucket
  dsimp only at hroute hclass
  rw [hbucket, hroute, hclass]

theorem distinct_clientKey : Distinct ClientRollupKey.stored store.clientKey batch := by
  intro a ha b hb k l hk hl heq
  unfold TrafficStore.clientKey at hk hl
  split at hk
  · next hstore =>
    rw [if_pos hstore] at hl
    obtain ⟨ip, -, rfl⟩ := Option.map_eq_some_iff.1 hk
    obtain ⟨ip', -, rfl⟩ := Option.map_eq_some_iff.1 hl
    injection heq with hbucket hip
    have hbucket := toI64_injOn ((bucket_le _ _).trans (htimes a ha))
      ((bucket_le _ _).trans (htimes b hb)) hbucket
    dsimp only at hip
    rw [hbucket, hip]
  · cases hk

theorem distinct_botKey : Distinct BotRollupKey.stored botKey batch := by
  intro a ha b hb k l hk hl heq
  unfold botKey at hk hl
  split at hk
  · split at hl
    · cases hk
      cases hl
      injection heq with hbucket hclass hprovider hverified hreason hfamily
      have hbucket := toI64_injOn ((bucket_le _ _).trans (htimes a ha))
        ((bucket_le _ _).trans (htimes b hb)) hbucket
      dsimp only at hclass hprovider hverified hreason hfamily
      rw [hbucket, hclass, hprovider, hverified, hreason, hfamily]
    · cases hl
  · cases hk

end Keys

theorem rolled_iff {K ι : Type} [DecidableEq K] {layout : Layout TrafficEnvelope ι}
    {key : TrafficEnvelope → Option K} {table : Table K (Values layout.kind)} :
    Rolled (columnAggregate layout) key persisted table ↔
      ∀ k, table.lookup k = rowOf layout.ofGroup (group key k persisted) := by
  have htotal : (columnAggregate layout).total = layout.ofGroup := funext Layout.total_aggregate
  rw [Rolled, htotal]

section Rows

variable (htimes : ∀ telemetry ∈ persisted, telemetry.occurredAtUnixMs ≤ largestColumn)

include htimes

theorem rolled_routes_iff {width : ℕ} {table : Table (RouteRollupKey ℤ) RouteRollupValue} :
    Rolled (columnAggregate RouteColumn.layout)
        (storedKey RouteRollupKey.stored (routeKey width)) persisted table ↔
      ∀ key, table.lookup key =
        rowOf RouteRollupValue.ofRequests (persisted.filter (key.covers width)) := by
  rw [rolled_iff, ofGroup_routes]
  refine forall_congr' fun key => ?_
  rw [group, filter_congr fun telemetry hmem => ?_]
  have hbucket := toI64_eq ((bucket_le _ width).trans (htimes telemetry hmem))
  rw [bucket_eq] at hbucket
  simp [storedKey, routeKey, RouteRollupKey.stored, RouteRollupKey.covers, hbucket, bucket_eq,
    eq_comm]

theorem rolled_clients_iff {table : Table (ClientRollupKey ℤ) ClientRollupValue} :
    Rolled (columnAggregate ClientColumn.layout)
        (storedKey ClientRollupKey.stored store.clientKey) persisted table ↔
      ∀ key, table.lookup key =
        rowOf ClientRollupValue.ofRequests (persisted.filter (key.covers store)) := by
  rw [rolled_iff, ofGroup_clients]
  refine forall_congr' fun key => ?_
  rw [group, filter_congr fun telemetry hmem => ?_]
  have hbucket := toI64_eq ((bucket_le _ minuteMs).trans (htimes telemetry hmem))
  rw [bucket_eq, minuteMs] at hbucket
  cases hstore : store.storeClientIp <;> cases hip : telemetry.clientIp <;>
    simp [storedKey, TrafficStore.clientKey, ClientRollupKey.stored, ClientRollupKey.covers,
      hstore, hip, hbucket, bucket_eq, minuteMs, eq_comm]

theorem rolled_bots_iff {table : Table (BotRollupKey ℤ) BotRollupValue} :
    Rolled (columnAggregate BotColumn.layout)
        (storedKey BotRollupKey.stored botKey) persisted table ↔
      ∀ key : BotRollupKey ℤ, table.lookup key =
        rowOf BotRollupValue.ofRequests (persisted.filter key.covers) := by
  rw [rolled_iff, ofGroup_bots]
  refine forall_congr' fun key => ?_
  rw [group, filter_congr fun telemetry hmem => ?_]
  have hbucket := toI64_eq ((bucket_le _ minuteMs).trans (htimes telemetry hmem))
  rw [bucket_eq, minuteMs] at hbucket
  by_cases hbot : telemetry.botClass = .undeclared <;>
    simp [storedKey, botKey, BotRollupKey.stored, BotRollupKey.covers, hbot, hbucket, bucket_eq,
      minuteMs, eq_comm]

end Rows

/-- The tables are those of the requests that were stored: each row has the numbers of the
    requests of its key, and there is one for every key that has requests. -/
structure Exact (store : TrafficStore) (persisted : List TrafficEnvelope) (tables : TrafficTables) :
    Prop where
  numbered : tables.Numbered
  samples : (tables.samples.entries.map (·.2)).Perm (persisted.map store.sample)
  rollups10s : ∀ key, tables.rollups10s.lookup key =
    rowOf RouteRollupValue.ofRequests (persisted.filter (key.covers 10000))
  rollups1m : ∀ key, tables.rollups1m.lookup key =
    rowOf RouteRollupValue.ofRequests (persisted.filter (key.covers 60000))
  clientRollups1m : ∀ key, tables.clientRollups1m.lookup key =
    rowOf ClientRollupValue.ofRequests (persisted.filter (key.covers store))
  botRollups1m : ∀ key, tables.botRollups1m.lookup key =
    rowOf BotRollupValue.ofRequests (persisted.filter key.covers)

namespace Exact

variable (h : Exact store persisted tables)
  (htimes : ∀ telemetry ∈ persisted, telemetry.occurredAtUnixMs ≤ largestColumn)

include h htimes

theorem rolled10s : Rolled (columnAggregate RouteColumn.layout)
    (storedKey RouteRollupKey.stored (routeKey tenSecondsMs)) persisted tables.rollups10s :=
  (rolled_routes_iff htimes).2 h.rollups10s

theorem rolled1m : Rolled (columnAggregate RouteColumn.layout)
    (storedKey RouteRollupKey.stored (routeKey minuteMs)) persisted tables.rollups1m :=
  (rolled_routes_iff htimes).2 h.rollups1m

theorem rolledClients : Rolled (columnAggregate ClientColumn.layout)
    (storedKey ClientRollupKey.stored store.clientKey) persisted tables.clientRollups1m :=
  (rolled_clients_iff htimes).2 h.clientRollups1m

theorem rolledBots : Rolled (columnAggregate BotColumn.layout)
    (storedKey BotRollupKey.stored botKey) persisted tables.botRollups1m :=
  (rolled_bots_iff htimes).2 h.botRollups1m

end Exact

theorem exact_empty : Exact store [] .empty where
  numbered _ hrow := absurd hrow not_mem_nil
  samples := .refl _
  rollups10s _ := rfl
  rollups1m _ := rfl
  clientRollups1m _ := rfl
  botRollups1m _ := rfl

theorem Exact.recordTrafficBatch {scans : Scans} (h : Exact store persisted tables)
    (hbatch : recordTrafficBatch store scans tables batch = some tables')
    (hfits : NoOverflow store (persisted ++ batch)) : Exact store (persisted ++ batch) tables' := by
  unfold TrafficTables.recordTrafficBatch at hbatch
  split at hbatch
  · next hnil =>
    cases hbatch
    rwa [hnil, append_nil]
  · obtain ⟨inserted, hinsert, rfl⟩ := Option.map_eq_some_iff.1 hbatch
    obtain ⟨hnumbered, hsamples, heq⟩ := insertSamples_eq_some h.numbered hinsert
    have htimes := hfits.left.times
    have hright := hfits.right
    refine ⟨hnumbered, ?_, (rolled_routes_iff hfits.times).1 ?_,
      (rolled_routes_iff hfits.times).1 ?_, (rolled_clients_iff hfits.times).1 ?_,
      (rolled_bots_iff hfits.times).1 ?_⟩
    · rw [map_append]
      exact hsamples.trans (h.samples.append_right _)
    · have hrolled := h.rolled10s htimes
      rw [show tables.rollups10s = inserted.rollups10s by rw [heq]] at hrolled
      exact hrolled.upsertAll (distinct_routeKey hright.times _) hright.rollups10s
        (scans.tenSeconds.perm _)
    · have hrolled := h.rolled1m htimes
      rw [show tables.rollups1m = inserted.rollups1m by rw [heq]] at hrolled
      exact hrolled.upsertAll (distinct_routeKey hright.times _) hright.rollups1m
        (scans.oneMinute.perm _)
    · have hrolled := h.rolledClients htimes
      rw [show tables.clientRollups1m = inserted.clientRollups1m by rw [heq]] at hrolled
      exact hrolled.upsertAll (distinct_clientKey hright.times) hright.clientRollups1m
        (scans.clients.perm _)
    · have hrolled := h.rolledBots htimes
      rw [show tables.botRollups1m = inserted.botRollups1m by rw [heq]] at hrolled
      exact hrolled.upsertAll (distinct_botKey hright.times) hright.botRollups1m (scans.bots.perm _)

theorem exact_recordAll (calls : List Call)
    (hfits : NoOverflow store (recordAll store (.empty, []) calls).2) :
    Exact store (recordAll store (.empty, []) calls).2 (recordAll store (.empty, []) calls).1 := by
  induction calls using List.reverseRecOn with
  | nil => exact exact_empty
  | append_singleton calls call ih =>
    have hconcat : recordAll store (.empty, []) (calls ++ [call]) =
        recordAll store (recordAll store (.empty, []) calls) [call] := foldl_append
    rw [hconcat] at hfits ⊢
    generalize recordAll store (.empty, []) calls = before at ih hfits ⊢
    obtain ⟨tables, persisted⟩ := before
    simp only [recordAll, foldl_cons, foldl_nil] at hfits ⊢
    split
    · next hfails =>
      rw [if_pos hfails] at hfits
      exact ih hfits
    · next hfails =>
      rw [if_neg hfails] at hfits
      cases hbatch : recordTrafficBatch store call.scans tables call.batch with
      | none =>
        rw [hbatch] at hfits
        exact ih hfits
      | some tables' =>
        rw [hbatch] at hfits
        exact (ih hfits.left).recordTrafficBatch hbatch hfits

theorem bucket_minute_iff (value start : ℕ) : bucket value minuteMs = bucket start minuteMs ↔
      ∃ i ∈ Finset.range 6, bucket value tenSecondsMs = bucket start minuteMs + 10000 * i := by
  simp only [bucket, minuteMs, tenSecondsMs, Finset.mem_range]
  constructor
  · intro h
    exact ⟨value % 60000 / 10000, by omega, by omega⟩
  · rintro ⟨i, hi, h⟩
    omega

theorem Exact.minute (h : Exact store persisted tables)
    (htimes : ∀ telemetry ∈ persisted, telemetry.occurredAtUnixMs ≤ largestColumn)
    {key : RouteRollupKey ℤ} {value : RouteRollupValue}
    (hrow : tables.rollups1m.lookup key = some value) :
    value = ∑ i ∈ Finset.range 6,
      (tables.rollups10s.lookup { key with bucketMs := key.bucketMs + 10000 * i }).getD 0 := by
  have hminutes := h.rolled1m htimes
  obtain ⟨start, hstart, hkey⟩ := hminutes.exists_item (AList.mem_lookup_iff.1 hrow)
  have hvalue := hminutes.getD key
  rw [hrow, Option.getD_some] at hvalue
  have hfiner : (columnAggregate RouteColumn.layout).total
      (group (storedKey RouteRollupKey.stored (routeKey minuteMs)) key persisted) =
        ∑ i ∈ Finset.range 6, (columnAggregate RouteColumn.layout).total
          (group (storedKey RouteRollupKey.stored (routeKey tenSecondsMs))
            { key with bucketMs := key.bucketMs + 10000 * i } persisted) := by
    refine total_group_eq_sum (fun i _ j _ heq => ?_) fun telemetry hmem => ?_
    · injection heq with hbucket
      omega
    · cases hkey
      have hbucket := bucket_minute_iff telemetry.occurredAtUnixMs start.occurredAtUnixMs
      have hle (width : ℕ) := (bucket_le _ width).trans (htimes telemetry hmem)
      have hle' := (bucket_le _ minuteMs).trans (htimes start hstart)
      simp only [storedKey, routeKey, Option.map_some, Option.some.injEq, RouteRollupKey.stored,
        RouteRollupKey.mk.injEq, toI64_eq (hle _), toI64_eq hle']
      constructor
      · rintro ⟨htime, hroute⟩
        obtain ⟨i, hi, htime⟩ := hbucket.1 (Int.ofNat.inj htime)
        exact ⟨i, hi, by rw [htime]; norm_cast, hroute⟩
      · rintro ⟨i, hi, htime, hroute⟩
        exact ⟨congrArg Int.ofNat (hbucket.2 ⟨i, hi, by exact_mod_cast htime⟩), hroute⟩
  rw [hvalue, hfiner]
  exact Finset.sum_congr rfl fun i _ => ((h.rolled10s htimes).getD _).symm

theorem NoOverflow.perm (h : NoOverflow store persisted) (hperm : persisted.Perm batch) :
    NoOverflow store batch where
  times telemetry hmem := h.times telemetry (hperm.mem_iff.2 hmem)
  rollups10s := h.rollups10s.perm hperm
  rollups1m := h.rollups1m.perm hperm
  clientRollups1m := h.clientRollups1m.perm hperm
  botRollups1m := h.botRollups1m.perm hperm

/-- Whatever batches are stored, and whichever of them fail: if no number is too large,
    each table has exactly the rows of the requests that were stored, by their keys, with
    their numbers. Other calls that store the same requests give the same rows, and a row
    for a minute is the sum of those for its ten seconds. -/
theorem rollups_exact (store : TrafficStore) (calls : List Call)
    (hfits : NoOverflow store (recordAll store (.empty, []) calls).2) :
    let tables := (recordAll store (.empty, []) calls).1
    let persisted := (recordAll store (.empty, []) calls).2
    Exact store persisted tables ∧
    (∀ calls', persisted.Perm (recordAll store (.empty, []) calls').2 →
      let tables' := (recordAll store (.empty, []) calls').1
      (∀ key, tables.rollups10s.lookup key = tables'.rollups10s.lookup key) ∧
      (∀ key, tables.rollups1m.lookup key = tables'.rollups1m.lookup key) ∧
      (∀ key, tables.clientRollups1m.lookup key = tables'.clientRollups1m.lookup key) ∧
      ∀ key, tables.botRollups1m.lookup key = tables'.botRollups1m.lookup key) ∧
    ∀ key value, tables.rollups1m.lookup key = some value →
      value = ∑ i ∈ Finset.range 6,
        (tables.rollups10s.lookup { key with bucketMs := key.bucketMs + 10000 * i }).getD 0 := by
  intro tables persisted
  have h : Exact store persisted tables := exact_recordAll calls hfits
  refine ⟨h, fun calls' hperm => ?_, fun key value hrow => h.minute hfits.times hrow⟩
  have hfits' := hfits.perm hperm
  have h' := exact_recordAll calls' hfits'
  exact ⟨(h.rolled10s hfits.times).lookup_eq (h'.rolled10s hfits'.times) hperm,
    (h.rolled1m hfits.times).lookup_eq (h'.rolled1m hfits'.times) hperm,
    (h.rolledClients hfits.times).lookup_eq (h'.rolledClients hfits'.times) hperm,
    (h.rolledBots hfits.times).lookup_eq (h'.rolledBots hfits'.times) hperm⟩

def sampleEnvelope (requestId : String) (occurredAtUnixMs : ℕ) : TrafficEnvelope where
  schemaVersion := 1
  routeCost := 3
  status := 503
  latencyMicros := 7
  clientIp := none
  requestBodyBytes := 10
  responseBodyBytes := 20
  upstreamConnectionReused := none
  decision := "throttle"
  botClass := .undeclared
  botVerified := false
  sessionContinuity := false
  inFlightRequests := 1
  edgeTelemetryEmitted := 1
  edgeTelemetryDropped := 0
  edgeTelemetryReconnected := 0
  occurredAtUnixMs
  requestId
  method := "GET"
  routeClass := "general"
  normalizedRoute := "/"
  policyVersion := 1
  botProvider := none
  botReason := .notDeclared
  userAgentFamily := .missing

/-- A request of a crawler that was let through. -/
def crawlerEnvelope (requestId : String) (occurredAtUnixMs : ℕ) : TrafficEnvelope :=
  { sampleEnvelope requestId occurredAtUnixMs with
    routeCost := 8
    status := 200
    clientIp := some (.v4 0x42F94201)
    decision := "allow"
    botClass := .verifiedCrawler
    botVerified := true
    botProvider := some .google
    botReason := .officialNetworkMatch
    userAgentFamily := .googlebot }

/-- A batch that is stored, one that fails, one that is refused, as its request was stored, and
    one that is stored. -/
def sampleCalls : List Call :=
  let scans : Scans := ⟨.inOrder _, .inOrder _, .inOrder _, .inOrder _⟩
  [⟨[sampleEnvelope "a" 61000, crawlerEnvelope "b" 75000], scans, false⟩,
    ⟨[sampleEnvelope "c" 76000], scans, true⟩, ⟨[sampleEnvelope "a" 80000], scans, false⟩,
    ⟨[crawlerEnvelope "d" 119999], scans, false⟩]

theorem noOverflow_sampleCalls (store : TrafficStore) : NoOverflow store
    [sampleEnvelope "a" 61000, crawlerEnvelope "b" 75000, crawlerEnvelope "d" 119999] where
  times := by decide
  rollups10s := .of_total fun i => .inr (by cases i <;> decide)
  rollups1m := .of_total fun i => .inr (by cases i <;> decide)
  clientRollups1m := .of_total fun i => .inr (by cases i <;> decide)
  botRollups1m := .of_total fun i => .inr (by cases i <;> decide)

/-- The minute has three requests of the route, two of them by the crawler, and its second ten
    seconds have one. -/
theorem rollups_exact_sampleCalls :
    let tables := (recordAll ⟨true, fun _ => "66.249.66.1"⟩ (.empty, []) sampleCalls).1
    (tables.rollups1m.lookup ⟨60000, "/", "general"⟩).map (fun row =>
      [row .requests, row .errors, row .throttled, row .latencySumMicros, row .maxRouteCost,
        row .requestBodyBytes, row .responseBodyBytes]) = some [3, 1, 1, 21, 8, 30, 60] ∧
    (tables.rollups10s.lookup ⟨70000, "/", "general"⟩).map (· .requests) = some 1 ∧
    (tables.clientRollups1m.lookup ⟨60000, "66.249.66.1"⟩).map (fun row =>
      [row .requests, row .throttled, row .responseBodyBytes, row .lastSeenMs]) =
        some [2, 0, 40, 119999] ∧
    (tables.botRollups1m.lookup ⟨60000, "verified_crawler", "google", true,
      "official_network_match", "googlebot"⟩).map (fun row => [row .requests, row .denied]) =
        some [2, 0] := by
  obtain ⟨h, -⟩ := rollups_exact ⟨true, fun _ => "66.249.66.1"⟩ sampleCalls
    (noOverflow_sampleCalls _)
  simp only [h.rollups1m, h.rollups10s, h.clientRollups1m, h.botRollups1m]
  decide

end TrafficTables

/-! ## Clients without their addresses -/

structure ClientRow where
  clientIp : String
  values : ClientColumn → ℕ

structure AddressText where
  parse : String → Option IpAddr
  display : IpAddr → String

/-- The network of an address. -/
def AddressText.maskedClientNetwork (text : AddressText) (value : String) : Option String :=
  (text.parse value).map fun
    | .v4 address => text.display (.v4 (address &&& 0xFFFFFF00)) ++ "/24"
    | .v6 address => text.display (.v6 (address &&& BitVec.allOnes 128 <<< 64)) ++ "/64"

def AddressText.masked (text : AddressText) (row : ClientRow) :
    Option String × (ClientColumn → ℕ) :=
  (text.maskedClientNetwork row.clientIp, row.values)

def maskedLayout : Layout (Option String × (ClientColumn → ℕ)) ClientColumn where
  kind
    | .lastSeenMs => .max false
    | _ => .sum
  amount column row := row.2 column

def maskedAggregate : Aggregate (Option String × (ClientColumn → ℕ)) (Values maskedLayout.kind) :=
  maskedLayout.aggregate (2 ^ 64 - 1) (2 ^ 64 - 1) le_rfl

/-- The rows of the networks, the most requests first. Rows without an address are left
    out. -/
def maskedClientRows (text : AddressText) (rows : List ClientRow) : List ClientRow :=
  ((tallyAll maskedAggregate Prod.fst (rows.map text.masked)).entries.map fun row =>
    ⟨row.1, row.2⟩).mergeSort fun a b => b.values .requests ≤ a.values .requests

/-- The text of the network of an address: of its first 24 bits, or of the first 64 in IPv6. -/
def AddressText.network (text : AddressText) : IpAddr → String
  | .v4 address => text.display (.v4 (.ofNat 32 (address.toNat / 2 ^ 8 * 2 ^ 8))) ++ "/24"
  | .v6 address => text.display (.v6 (.ofNat 128 (address.toNat / 2 ^ 64 * 2 ^ 64))) ++ "/64"

theorem and_allOnes_shiftLeft {w : ℕ} (x : BitVec w) (n : ℕ) :
    x &&& BitVec.allOnes w <<< n = BitVec.ofNat w (x.toNat / 2 ^ n * 2 ^ n) := by
  have hshift : x &&& BitVec.allOnes w <<< n = x >>> n <<< n := by
    ext i hi
    by_cases hn : i < n
    · simp [hn]
    · have hsum : n + (i - n) = i := by omega
      simp [hn, hsum, hi]
  rw [hshift]
  apply BitVec.eq_of_toNat_eq
  simp [BitVec.toNat_shiftLeft, Nat.shiftLeft_eq, Nat.shiftRight_eq_div_pow]

theorem maskedClientNetwork_eq (text : AddressText) (value : String) :
    text.maskedClientNetwork value = (text.parse value).map text.network := by
  refine congrArg (Option.map · _) (funext fun address => ?_)
  cases address with
  | v4 address =>
    exact congrArg (fun a => text.display (.v4 a) ++ "/24") (and_allOnes_shiftLeft address 8)
  | v6 address =>
    exact congrArg (fun a => text.display (.v6 a) ++ "/64") (and_allOnes_shiftLeft address 64)

theorem masked_eq (text : AddressText) : text.masked =
    fun row => ((text.parse row.clientIp).map text.network, row.values) :=
  funext fun row => congrArg (·, row.values) (maskedClientNetwork_eq text row.clientIp)

/-- The counters fit if the sums over the rows of each network do. -/
theorem fitsAll_masked {text : AddressText} {rows : List ClientRow}
    (h : ∀ network column, column ≠ .lastSeenMs →
      ((rows.filter fun row => (text.parse row.clientIp).map text.network = some network).map
        (·.values column)).sum ≤ 2 ^ 64 - 1) :
    maskedAggregate.FitsAll Prod.fst (rows.map text.masked) := by
  intro network column
  by_cases hcolumn : column = .lastSeenMs
  · exact .inl (by rw [hcolumn]; rfl)
  · have hkind : maskedLayout.kind column = .sum := by
      cases column <;> first | rfl | exact absurd rfl hcolumn
    refine .inr (le_of_eq_of_le ?_ (h network column hcolumn))
    rw [maskedAggregate, Layout.total_aggregate, Layout.ofGroup, hkind, masked_eq, group,
      filter_map, map_map]
    rfl

/-- **Masked clients** are told by their networks alone, and no request is lost. -/
theorem maskedClientRows_networks (text : AddressText) (rows : List ClientRow) :
    (∀ rows' : List ClientRow,
      (rows.map fun row => ((text.parse row.clientIp).map text.network, row.values)).Perm
        (rows'.map fun row => ((text.parse row.clientIp).map text.network, row.values)) →
      (maskedClientRows text rows).Perm (maskedClientRows text rows')) ∧
    (∀ row ∈ maskedClientRows text rows, ∃ given ∈ rows, ∃ address,
      text.parse given.clientIp = some address ∧ row.clientIp = text.network address) ∧
    ((maskedClientRows text rows).map ClientRow.clientIp).Nodup ∧
    ((∀ row ∈ rows, (text.parse row.clientIp).isSome) →
      (∀ network column, column ≠ .lastSeenMs →
        ((rows.filter fun row => (text.parse row.clientIp).map text.network = some network).map
          (·.values column)).sum ≤ 2 ^ 64 - 1) →
      ∀ column ≠ .lastSeenMs, ((maskedClientRows text rows).map (·.values column)).sum =
        (rows.map (·.values column)).sum) := by
  have hrows : ∀ rows, (maskedClientRows text rows).Perm
      ((tallyAll maskedAggregate Prod.fst (rows.map text.masked)).entries.map fun row =>
        ⟨row.1, row.2⟩) := fun rows => mergeSort_perm _ _
  refine ⟨fun rows' hperm => ?_, fun row hrow => ?_, ?_, fun hparse hfits column hcolumn => ?_⟩
  · rw [← masked_eq] at hperm
    refine (hrows rows).trans (((perm_tallyAll (fun v a b => ?_) hperm).map _).trans
      (hrows rows').symm)
    exact maskedLayout.step_right_comm _ v a b
  · obtain ⟨entry, hentry, rfl⟩ := mem_map.1 ((hrows rows).mem_iff.1 hrow)
    have hlookup := AList.mem_lookup_iff.2 hentry
    rw [Option.mem_def, lookup_tallyAll] at hlookup
    obtain ⟨item, hitem, hnetwork⟩ := exists_item hlookup
    obtain ⟨given, hgiven, rfl⟩ := mem_map.1 hitem
    rw [masked_eq] at hnetwork
    obtain ⟨address, hparse, htext⟩ := Option.map_eq_some_iff.1 hnetwork
    exact ⟨given, hgiven, address, hparse, htext.symm⟩
  · rw [((hrows rows).map _).nodup_iff, map_map]
    exact AList.keys_nodup _
  · have hkind : maskedLayout.kind column = .sum := by
      cases column <;> first | rfl | exact absurd rfl hcolumn
    have htotal := sum_tallyAll (fitsAll_masked hfits) (by simpa [masked_eq] using hparse)
    have hsum := congrFun htotal column
    rw [Values.sum_apply hkind, maskedAggregate, Layout.total_aggregate, Layout.ofGroup, hkind,
      map_map] at hsum
    rw [((hrows rows).map _).sum_eq, map_map]
    refine hsum.trans ?_
    rw [map_map]
    rfl

/-- Texts of some addresses of two networks. -/
def AddressText.sample : AddressText where
  parse
    | "192.0.2.7" => some (.v4 0xC0000207)
    | "192.0.2.200" => some (.v4 0xC00002C8)
    | "2001:db8::1" => some (.v6 (0x20010DB8 <<< 96 + 1))
    | _ => none
  display
    | .v4 address => if address = 0xC0000200 then "192.0.2.0" else "192.0.2.7"
    | .v6 address => if address = 0x20010DB8 <<< 96 then "2001:db8::" else "2001:db8::1"

/-- Two addresses of a network are one row, another order gives the same rows, and the requests
    are all counted. -/
theorem maskedClientRows_networks_sample :
    let one : ClientColumn → ℕ := fun _ => 1
    let two : ClientColumn → ℕ := fun _ => 2
    let rows : List ClientRow :=
      [⟨"192.0.2.7", one⟩, ⟨"2001:db8::1", one⟩, ⟨"192.0.2.200", two⟩]
    (maskedClientRows .sample rows).Perm (maskedClientRows .sample
      [⟨"192.0.2.7", two⟩, ⟨"192.0.2.200", one⟩, ⟨"2001:db8::1", one⟩]) ∧
    (∀ row ∈ maskedClientRows .sample rows,
      row.clientIp = "192.0.2.0/24" ∨ row.clientIp = "2001:db8::/64") ∧
    ((maskedClientRows .sample rows).map ClientRow.clientIp).Nodup ∧
    ((maskedClientRows .sample rows).map (·.values .requests)).sum = 4 := by
  intro one two rows
  obtain ⟨hperm, hnetwork, hnodup, hsum⟩ := maskedClientRows_networks .sample rows
  have h7 : (AddressText.sample.parse "192.0.2.7").map AddressText.sample.network =
      some "192.0.2.0/24" := by decide +kernel
  have h200 : (AddressText.sample.parse "192.0.2.200").map AddressText.sample.network =
      some "192.0.2.0/24" := by decide +kernel
  have h1 : (AddressText.sample.parse "2001:db8::1").map AddressText.sample.network =
      some "2001:db8::/64" := by decide +kernel
  have hparse : ∀ row ∈ rows, (AddressText.sample.parse row.clientIp).isSome := by
    simp [rows, AddressText.sample]
  refine ⟨hperm _ ?_, fun row hrow => ?_, hnodup,
    hsum hparse (fun network column _ => ?_) .requests (by decide)⟩
  · simp only [rows, map_cons, map_nil, h7, h200, h1]
    exact perm_append_singleton _ [_, _]
  · obtain ⟨given, hgiven, address, haddress, htext⟩ := hnetwork row hrow
    have htext : (AddressText.sample.parse given.clientIp).map AddressText.sample.network =
        some row.clientIp := by rw [haddress, htext]; rfl
    simp only [rows, mem_cons, not_mem_nil, or_false] at hgiven
    obtain rfl | rfl | rfl := hgiven
    · exact .inl (Option.some.inj (htext.symm.trans h7))
    · exact .inr (Option.some.inj (htext.symm.trans h1))
    · exact .inl (Option.some.inj (htext.symm.trans h200))
  · simp only [rows, filter_cons, filter_nil]
    split <;> split <;> split <;> simp [one, two]

end VpsGuard
