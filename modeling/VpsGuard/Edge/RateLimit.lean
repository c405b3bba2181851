import Mathlib.Algebra.Group.Nat.Defs
import Mathlib.Data.List.AList
import VpsGuard.Budget.Layers
import VpsGuard.Core.Policy

/-!
# The rate limiter of the edge

The limiter of `guard-edge` counts requests in windows of a minute, in four
layers: all of them, those of a class of routes, those of a network, and those of
a client for a class of routes. A request goes through the layers in this order,
and is counted by each until one has reached its limit (`check`). The tables of
the last two layers are bounded: a network that finds no place is not counted, and
a client that finds none is let through by the layers before. The windows of
another minute are dropped by the first check of a minute (`cleanup`).

The counters are budgets, one of each kind for every minute. As long as the
minutes do not go back, a check spends from them as `Budget.spend` does
(`check_spend`), charged for the layers that count it (`charges`).
-/

namespace VpsGuard

open Budget

/-- What kind of route a request is for. -/
inductive RouteClass
  | general
  | strict
  | upload
  | authentication
  | managementAuth
  deriving DecidableEq

/-- The class, as policies name it. -/
def RouteClass.asStr : RouteClass → String
  | .general => "general"
  | .strict => "strict"
  | .upload => "upload"
  | .authentication => "authentication"
  | .managementAuth => "management_auth"

/-- The layers of the limiter. -/
inductive LimitScope
  | client
  | netPrefix
  | route
  | global
  deriving DecidableEq

/-- What the limiter says to a request. -/
inductive LimitDecision
  | allow
  /-- Let through by the other layers, the client not being counted. -/
  | allowFallback
  | deny (scope : LimitScope)
  deriving DecidableEq

/-- How many requests each layer lets through in a minute. -/
structure RateLimitPolicy where
  clientRpm : UInt32
  prefixRpm : UInt32
  routeRpm : UInt32
  globalRpm : UInt32
  deriving DecidableEq

/-- The product, or the largest value. -/
def saturatingMul (a b : UInt32) : UInt32 := .ofNat (min (a.toNat * b.toNat) (2 ^ 32 - 1))

/-- The limits of the other layers are multiples of that of a client. -/
def RateLimitPolicy.fromMultipliers (clientRpm prefixMultiplier routeMultiplier
    globalMultiplier : UInt32) : RateLimitPolicy where
  clientRpm := clientRpm
  prefixRpm := saturatingMul clientRpm prefixMultiplier
  routeRpm := saturatingMul clientRpm routeMultiplier
  globalRpm := saturatingMul clientRpm globalMultiplier

/-- What the requests of a client are counted by. -/
structure LimitKey where
  clientIp : IpAddr
  routeClass : RouteClass
  deriving DecidableEq

/-- The network of a client, a /24 or a /64. -/
inductive PrefixKey
  | v4 (network : BitVec 32)
  | v6 (network : BitVec 64)
  deriving DecidableEq

/-- The network of an address: 24 bits of the fourth version, 64 of the sixth. -/
def PrefixKey.ofIpAddr : IpAddr → PrefixKey
  | .v4 value => .v4 (value &&& 0xffffff00#32)
  | .v6 value => .v6 ((value >>> 64).setWidth 64)

/-- The requests of a minute. -/
structure LimitWindow where
  minuteBucket : ℕ
  requestCount : ℕ

/-- Counts a request, unless the limit is reached. -/
def LimitWindow.consume (window : LimitWindow) (minuteBucket : ℕ) (limit : UInt32) :
    Bool × LimitWindow :=
  -- A window of another minute starts again, also one of a later minute.
  let window := if window.minuteBucket ≠ minuteBucket then ⟨minuteBucket, 0⟩ else window
  if limit.toNat ≤ window.requestCount then (false, window)
  else (true, { window with requestCount := saturatingAdd 32 window.requestCount 1 })

/-- The windows of one layer. -/
abbrev LimitTable (κ : Type) := AList fun _ : κ => LimitWindow

/-- What is left of a table after the minute: the windows of the new one. -/
def LimitTable.retain {κ : Type} (table : LimitTable κ) (minuteBucket : ℕ) : LimitTable κ where
  entries := table.entries.filter fun entry => entry.2.minuteBucket = minuteBucket
  nodupKeys := table.nodupKeys.sublist List.filter_sublist

/-- Something that requests are counted for. -/
inductive LimitCounter
  | global
  | route (routeClass : RouteClass)
  | netPrefix (key : PrefixKey)
  | client (key : LimitKey)
  deriving DecidableEq

/-- The layer that a counter belongs to. -/
def LimitCounter.scope : LimitCounter → LimitScope
  | .global => .global
  | .route _ => .route
  | .netPrefix _ => .netPrefix
  | .client _ => .client

/-- The windows of all layers, and the minute in which they were last cleaned up. -/
structure LimitState where
  lastCleanupBucket : Option ℕ
  windows : LimitTable LimitKey
  prefixes : LimitTable PrefixKey
  routes : LimitTable RouteClass
  global : Option LimitWindow

namespace LimitState

def default : LimitState := ⟨none, ∅, ∅, ∅, none⟩

/-- The window of a counter. -/
def window (state : LimitState) : LimitCounter → Option LimitWindow
  | .global => state.global
  | .route routeClass => state.routes.lookup routeClass
  | .netPrefix key => state.prefixes.lookup key
  | .client key => state.windows.lookup key

/-- Replaces the window of a counter. -/
def put (state : LimitState) (counter : LimitCounter) (window : LimitWindow) : LimitState :=
  match counter with
  | .global => { state with global := some window }
  | .route routeClass => { state with routes := state.routes.insert routeClass window }
  | .netPrefix key => { state with prefixes := state.prefixes.insert key window }
  | .client key => { state with windows := state.windows.insert key window }

/-- Counts a request by a counter, whose window is made if there is none. -/
def consume (state : LimitState) (counter : LimitCounter) (minuteBucket : ℕ) (limit : UInt32) :
    Bool × LimitState :=
  let consumed := ((state.window counter).getD ⟨minuteBucket, 0⟩).consume minuteBucket limit
  (consumed.1, state.put counter consumed.2)

/-- Drops the windows of other minutes, once a minute. -/
def cleanup (state : LimitState) (minuteBucket : ℕ) : LimitState :=
  if state.lastCleanupBucket = some minuteBucket then state
  else
    -- This gives the places in the tables back.
    { lastCleanupBucket := some minuteBucket
      windows := state.windows.retain minuteBucket
      prefixes := state.prefixes.retain minuteBucket
      routes := state.routes.retain minuteBucket
      global := state.global.filter (·.minuteBucket = minuteBucket) }

end LimitState

/-- A limiter, with the places that it has for clients and for networks. -/
structure BoundedRateLimiter where
  maxEntries : ℕ
  maxPrefixes : ℕ
  state : LimitState

/-- The minute of a time in seconds from the epoch, the first one before it. -/
def minuteBucket (now : ℤ) : ℕ := now.toNat / 60

/-- A request, as the limiter sees it. -/
structure LimitCheck where
  clientIp : IpAddr
  routeClass : RouteClass
  policy : RateLimitPolicy
  /-- The time, in seconds from the epoch. -/
  now : ℤ
  deriving DecidableEq

namespace LimitCheck

/-- The minute of a request. -/
def bucket (c : LimitCheck) : ℕ := minuteBucket c.now

def prefixKey (c : LimitCheck) : PrefixKey := .ofIpAddr c.clientIp

/-- The client and the class of a check. -/
def key (c : LimitCheck) : LimitKey := ⟨c.clientIp, c.routeClass⟩

end LimitCheck

namespace BoundedRateLimiter

/-- A limiter with no windows, for at most so many clients. -/
def new (maxEntries : ℕ) : BoundedRateLimiter where
  maxEntries := maxEntries
  -- A quarter of the clients, rounded up.
  maxPrefixes := max ((maxEntries + 3) / 4) 1
  state := .default

variable (limiter : BoundedRateLimiter) (state : LimitState)

/-- There is a place for the network. -/
def TracksPrefix (key : PrefixKey) : Prop :=
  key ∈ state.prefixes ∨ state.prefixes.keys.length < limiter.maxPrefixes

/-- There is a place for the client. -/
def TracksKey (key : LimitKey) : Prop :=
  key ∈ state.windows ∨ state.windows.keys.length < limiter.maxEntries

instance (limiter : BoundedRateLimiter) (state : LimitState) (key : PrefixKey) :
    Decidable (limiter.TracksPrefix state key) :=
  inferInstanceAs (Decidable (_ ∨ _))

instance (limiter : BoundedRateLimiter) (state : LimitState) (key : LimitKey) :
    Decidable (limiter.TracksKey state key) :=
  inferInstanceAs (Decidable (_ ∨ _))

/-- The last layer: the client. -/
def checkClient (c : LimitCheck) : LimitDecision × LimitState :=
  -- A client without a place has passed the other layers, and is let through.
  if ¬limiter.TracksKey state c.key then (.allowFallback, state)
  else
    let (passed, state) := state.consume (.client c.key) c.bucket c.policy.clientRpm
    if !passed then (.deny .client, state) else (.allow, state)

/-- The third layer: the network. -/
def checkPrefix (c : LimitCheck) : LimitDecision × LimitState :=
  if limiter.TracksPrefix state c.prefixKey then
    let (passed, state) := state.consume (.netPrefix c.prefixKey) c.bucket c.policy.prefixRpm
    if !passed then (.deny .netPrefix, state) else limiter.checkClient state c
  -- A network without a place is not limited.
  else limiter.checkClient state c

/-- The layers, from the widest to the narrowest. -/
def checkLayers (c : LimitCheck) : LimitDecision × LimitState :=
  let (passed, state) := state.consume .global c.bucket c.policy.globalRpm
  if !passed then (.deny .global, state)
  else
    -- What was counted above stays counted if one of the next layers refuses.
    let (passed, state) := state.consume (.route c.routeClass) c.bucket c.policy.routeRpm
    if !passed then (.deny .route, state) else limiter.checkPrefix state c

/-- Check a request, after what belongs to an earlier minute was cleaned up. -/
def check (c : LimitCheck) : LimitDecision × BoundedRateLimiter :=
  let (decision, state) := limiter.checkLayers (limiter.state.cleanup c.bucket) c
  (decision, { limiter with state })

/-- The limiter after some requests. -/
def after (checks : List LimitCheck) : BoundedRateLimiter :=
  checks.foldl (fun limiter c => (limiter.check c).2) limiter

/-- Checks, each with the limiter as it finds it. -/
def found : BoundedRateLimiter → List LimitCheck → List (LimitCheck × BoundedRateLimiter)
  | _, [] => []
  | limiter, c :: checks => (c, limiter) :: (limiter.check c).2.found checks

/-- What the limiter says to each of the requests. -/
def decisions (checks : List LimitCheck) : List (LimitCheck × LimitDecision) :=
  (limiter.found checks).map fun e => (e.1, (e.2.check e.1).1)

end BoundedRateLimiter

/-! ## Windows -/

/-- Within the minute of the window, a request is let through and counted while there is room. -/
theorem LimitWindow.consume_of_eq {window : LimitWindow} {minuteBucket : ℕ} {limit : UInt32}
    (h : window.minuteBucket = minuteBucket) : window.consume minuteBucket limit =
      if limit.toNat ≤ window.requestCount then (false, window)
      else (true, ⟨minuteBucket, window.requestCount + 1⟩) := by
  subst h
  simp only [consume, ne_eq, not_true_eq_false, if_false]
  by_cases hlimit : limit.toNat ≤ window.requestCount
  · rw [if_pos hlimit, if_pos hlimit]
  · -- The count is below the limit, so that the addition does not saturate.
    have hlt := limit.toNat_lt
    have hadd : saturatingAdd 32 window.requestCount 1 = window.requestCount + 1 := by
      unfold saturatingAdd
      omega
    rw [if_neg hlimit, if_neg hlimit, hadd]

/-- A window is kept exactly if it is of the new minute. -/
theorem LimitTable.lookup_retain {κ : Type} [DecidableEq κ] (table : LimitTable κ)
    (minuteBucket : ℕ) (key : κ) : (table.retain minuteBucket).lookup key =
      (table.lookup key).filter (·.minuteBucket = minuteBucket) := by
  ext w
  rw [← Option.mem_def, ← Option.mem_def, AList.mem_lookup_iff]
  simp only [retain, List.mem_filter, decide_eq_true_eq, Option.mem_def, Option.filter_eq_some_iff]
  rw [← AList.mem_lookup_iff, Option.mem_def]

namespace LimitState

variable {s t u : LimitState} {b : ℕ} {k k' : LimitCounter} {w : LimitWindow} {limit : UInt32}

/-- To set the window of one counter leaves all others as they are. -/
theorem window_put : (s.put k w).window = Function.update s.window k (some w) := by
  funext k'
  rcases eq_or_ne k' k with rfl | hne
  · cases k' <;> simp [put, window]
  · -- Counters of two kinds have their windows in two tables.
    rw [Function.update_of_ne hne]
    cases k <;> cases k' <;> simp only [put, window] <;> first
      | exact absurd rfl hne
      | exact AList.lookup_insert_ne fun heq => hne (by rw [heq])

@[simp] theorem lastCleanupBucket_put : (s.put k w).lastCleanupBucket = s.lastCleanupBucket := by
  cases k <;> rfl

@[simp] theorem lastCleanupBucket_cleanup : (s.cleanup b).lastCleanupBucket = some b := by
  unfold cleanup
  split
  · assumption
  · rfl

theorem cleanup_of_eq (h : s.lastCleanupBucket = some b) : s.cleanup b = s := if_pos h

/-- With a new minute, the windows of the others are gone. -/
theorem window_cleanup (h : s.lastCleanupBucket ≠ some b) (k : LimitCounter) :
    (s.cleanup b).window k = (s.window k).filter (·.minuteBucket = b) := by
  rw [cleanup, if_neg h]
  cases k with
  | global => rfl
  | route routeClass => exact LimitTable.lookup_retain _ _ _
  | netPrefix key => exact LimitTable.lookup_retain _ _ _
  | client key => exact LimitTable.lookup_retain _ _ _

theorem mem_prefixes_iff {key : PrefixKey} :
    key ∈ s.prefixes ↔ (s.window (.netPrefix key)).isSome :=
  AList.lookup_isSome.symm

theorem mem_windows_iff {key : LimitKey} : key ∈ s.windows ↔ (s.window (.client key)).isSome :=
  AList.lookup_isSome.symm

/-! ## The tables -/

/-- A state after another one, with windows for some more counters. -/
structure Extends (counters : List LimitCounter) (s t : LimitState) : Prop where
  lastCleanupBucket : t.lastCleanupBucket = s.lastCleanupBucket
  kept : ∀ k, (s.window k).isSome → (t.window k).isSome
  new : ∀ k, (t.window k).isSome → (s.window k).isSome ∨ k ∈ counters

variable {counters : List LimitCounter}

theorem Extends.refl : Extends counters s s := ⟨rfl, fun _ h => h, fun _ h => .inl h⟩

theorem Extends.trans (h : Extends counters s t) (h' : Extends counters t u) :
    Extends counters s u where
  lastCleanupBucket := h'.lastCleanupBucket.trans h.lastCleanupBucket
  kept k hk := h'.kept k (h.kept k hk)
  new k hk := (h'.new k hk).elim (h.new k) .inr

theorem Extends.mono {counters' : List LimitCounter} (h : Extends counters s t)
    (hsub : counters ⊆ counters') : Extends counters' s t where
  lastCleanupBucket := h.lastCleanupBucket
  kept := h.kept
  new k hk := (h.new k hk).imp_right fun hmem => hsub hmem

/-- To count changes only the window of the counter, and may add it. -/
theorem extends_consume (h : k ∈ counters) : Extends counters s (s.consume k b limit).2 where
  lastCleanupBucket := lastCleanupBucket_put
  kept k' hk' := by
    simp only [consume, window_put, Function.update_apply]
    split
    · rfl
    · exact hk'
  new k' hk' := by
    simp only [consume, window_put, Function.update_apply] at hk'
    split at hk'
    · next heq => exact .inr (heq ▸ h)
    · exact .inl hk'

/-! ## The counts -/

/-- The windows are those of a minute, and count what is spent. -/
structure Agrees (s : LimitState) (b : ℕ) (ledger : ℕ × LimitCounter → ℕ) : Prop where
  bucket : ∀ k, ∀ w ∈ s.window k, w.minuteBucket = b
  spent : ∀ k, ledger (b, k) = ((s.window k).getD ⟨b, 0⟩).requestCount

variable {ledger : ℕ × LimitCounter → ℕ}

/-- To set a window to what the ledger says keeps them in agreement. -/
theorem Agrees.put (h : s.Agrees b ledger) (n : ℕ) :
    (s.put k ⟨b, n⟩).Agrees b (Function.update ledger (b, k) n) where
  bucket k' w hw := by
    rw [window_put, Function.update_apply] at hw
    split at hw
    · cases hw
      rfl
    · exact h.bucket k' w hw
  spent k' := by
    rw [window_put, Function.update_apply, Function.update_apply]
    by_cases hk' : k' = k
    · simp [hk']
    · simp [hk', h.spent k']

/-- To consume is to charge the ledger, if the limit allows it. -/
theorem Agrees.consume (h : s.Agrees b ledger) (k : LimitCounter) (limit : UInt32) :
    (limit.toNat ≤ ledger (b, k) ∧ (s.consume k b limit).1 = false ∧
      (s.consume k b limit).2.Agrees b ledger) ∨
    (¬limit.toNat ≤ ledger (b, k) ∧ (s.consume k b limit).1 = true ∧
      (s.consume k b limit).2.Agrees b (Function.update ledger (b, k) (ledger (b, k) + 1))) := by
  have hbucket : ((s.window k).getD ⟨b, 0⟩).minuteBucket = b := by
    cases hw : s.window k with
    | none => rfl
    | some w => exact h.bucket k w hw
  rw [LimitState.consume, LimitWindow.consume_of_eq hbucket, ← h.spent k]
  split
  · next hlimit =>
    -- A window that was missing is there now, and counts nothing.
    have hput := h.put (k := k) (ledger (b, k))
    rw [Function.update_eq_self, h.spent k] at hput
    refine .inl ⟨hlimit, rfl, ?_⟩
    convert hput
  · next hlimit => exact .inr ⟨hlimit, rfl, h.put _⟩

end LimitState

/-! ## A check -/

/-- What is decided, by the counter that refuses and whether the client is counted. -/
def LimitDecision.ofRefusal (tracked : Bool) : Option (ℕ × LimitCounter) → LimitDecision
  | some k => .deny k.2.scope
  | none => if tracked then .allow else .allowFallback

/-- A part of a check that charges counters of a minute: what it decides, and
    the state after it. -/
structure Charged (tracked : Bool) (b : ℕ) (charges : List ((ℕ × LimitCounter) × ℕ))
    (ledger : ℕ × LimitCounter → ℕ) (s : LimitState) (r : LimitDecision × LimitState) : Prop where
  decision : r.1 = .ofRefusal tracked (spend ledger charges).1
  agrees : r.2.Agrees b (spend ledger charges).2
  extends_state : s.Extends (charges.map (·.1.2)) r.2

section Charged

variable {tracked : Bool} {b : ℕ} {charges : List ((ℕ × LimitCounter) × ℕ)}
  {ledger : ℕ × LimitCounter → ℕ} {s : LimitState}

/-- One layer more: it refuses, or charges its counter and leaves the rest to the next. -/
theorem Charged.cons (k : LimitCounter) (limit : UInt32)
    (rest : LimitState → LimitDecision × LimitState) (hs : s.Agrees b ledger)
    (hrest : ∀ ledger', (s.consume k b limit).2.Agrees b ledger' →
      Charged tracked b charges ledger' (s.consume k b limit).2 (rest (s.consume k b limit).2)) :
    Charged tracked b (((b, k), limit.toNat) :: charges) ledger s
      (if !(s.consume k b limit).1 then (.deny k.scope, (s.consume k b limit).2)
        else rest (s.consume k b limit).2) := by
  have hext : s.Extends (k :: charges.map (·.1.2)) (s.consume k b limit).2 :=
    LimitState.extends_consume List.mem_cons_self
  -- The layer refuses just when the budget does.
  rcases hs.consume k limit with ⟨hlimit, hpassed, hagrees⟩ | ⟨hlimit, hpassed, hagrees⟩
  · simp only [hpassed, Bool.not_false, if_true]
    refine ⟨?_, ?_, hext⟩ <;> rw [spend, if_pos hlimit]
    · rfl
    · exact hagrees
  · obtain ⟨hdecision, hstate, hstep⟩ := hrest _ hagrees
    simp only [hpassed, Bool.not_true, Bool.false_eq_true, if_false]
    refine ⟨?_, ?_, hext.trans (hstep.mono (List.subset_cons_self _ _))⟩ <;>
      rw [spend, if_neg hlimit]
    · exact hdecision
    · exact hstate

/-- After all layers, the request is let through. -/
theorem Charged.nil (hs : s.Agrees b ledger) :
    Charged tracked b [] ledger s (if tracked then .allow else .allowFallback, s) :=
  ⟨rfl, hs, .refl⟩

end Charged

namespace LimitCheck

variable (c : LimitCheck)

/-- What a request is counted for in a layer. -/
def counter : LimitScope → LimitCounter
  | .client => .client c.key
  | .netPrefix => .netPrefix c.prefixKey
  | .route => .route c.routeClass
  | .global => .global

/-- What a layer lets through. -/
def limit : LimitScope → ℕ
  | .client => c.policy.clientRpm.toNat
  | .netPrefix => c.policy.prefixRpm.toNat
  | .route => c.policy.routeRpm.toNat
  | .global => c.policy.globalRpm.toNat

/-- The counter of a check in a layer, in its minute. -/
def budget (scope : LimitScope) : ℕ × LimitCounter := (c.bucket, c.counter scope)

/-- What a request is charged for if every layer has a place for it. -/
def layers : List ((ℕ × LimitCounter) × ℕ) :=
  [.global, .route, .netPrefix, .client].map fun scope => (c.budget scope, c.limit scope)

variable {c}

@[simp] theorem budget_snd {scope : LimitScope} : (c.budget scope).2 = c.counter scope := rfl

theorem budget_eq_iff {c' : LimitCheck} {scope scope' : LimitScope} :
    c.budget scope = c'.budget scope' ↔
      c'.bucket = c.bucket ∧ c'.counter scope' = c.counter scope := by
  rw [budget, budget, Prod.mk.injEq, eq_comm, @eq_comm _ (c.counter scope)]

@[simp] theorem scope_counter (scope : LimitScope) : (c.counter scope).scope = scope := by
  cases scope <;> rfl

/-- The four layers have four different counters. -/
theorem budgets_layers : budgets c.layers =
    [c.budget .global, c.budget .route, c.budget .netPrefix, c.budget .client] := rfl

theorem nodup_layers : (budgets c.layers).Nodup := by
  simp [budgets_layers, budget, counter]

theorem mem_layers_iff {k : ℕ × LimitCounter} {limit : ℕ} :
    (k, limit) ∈ c.layers ↔ ∃ scope, k = c.budget scope ∧ limit = c.limit scope := by
  constructor
  · intro h
    obtain ⟨scope, -, heq⟩ := List.mem_map.1 h
    exact ⟨scope, (Prod.mk.inj heq).1.symm, (Prod.mk.inj heq).2.symm⟩
  · rintro ⟨scope, rfl, rfl⟩
    exact List.mem_map.2 ⟨scope, by cases scope <;> simp, rfl⟩

theorem mem_budgets_layers_iff {k : ℕ × LimitCounter} :
    k ∈ budgets c.layers ↔ ∃ scope, k = c.budget scope := by
  constructor
  · intro h
    obtain ⟨⟨k, limit⟩, hmem, rfl⟩ := List.mem_map.1 h
    obtain ⟨scope, heq, -⟩ := mem_layers_iff.1 hmem
    exact ⟨scope, heq⟩
  · rintro ⟨scope, rfl⟩
    exact mem_budgets (mem_layers_iff.2 ⟨scope, rfl, rfl⟩)

end LimitCheck

namespace BoundedRateLimiter

variable (limiter : BoundedRateLimiter) (s : LimitState) (c : LimitCheck)

/-- The client is charged for only if there is a place for it. -/
def clientCharges : List ((ℕ × LimitCounter) × ℕ) :=
  if limiter.TracksKey s c.key then [((c.bucket, .client c.key), c.policy.clientRpm.toNat)] else []

/-- What is charged for the network, if it has a place, and for the client. -/
def prefixCharges : List ((ℕ × LimitCounter) × ℕ) :=
  if limiter.TracksPrefix s c.prefixKey then
    ((c.bucket, .netPrefix c.prefixKey), c.policy.prefixRpm.toNat) :: limiter.clientCharges s c
  else limiter.clientCharges s c

/-- What a request is charged for. -/
def charges : List ((ℕ × LimitCounter) × ℕ) :=
  ((c.bucket, .global), c.policy.globalRpm.toNat) ::
    ((c.bucket, .route c.routeClass), c.policy.routeRpm.toNat) :: limiter.prefixCharges s c

variable {limiter s c} {ledger : ℕ × LimitCounter → ℕ}

/-- The client's layer charges as it says. -/
theorem charged_checkClient (hs : s.Agrees c.bucket ledger) :
    Charged (limiter.TracksKey s c.key) c.bucket (limiter.clientCharges s c) ledger s
      (limiter.checkClient s c) := by
  unfold checkClient clientCharges
  by_cases htracks : limiter.TracksKey s c.key
  · simp only [htracks, not_true_eq_false, if_false, if_true, decide_true]
    exact .cons (.client c.key) c.policy.clientRpm (fun s => (.allow, s)) hs
      fun _ hagrees => .nil hagrees
  · simp only [htracks, not_false_eq_true, if_true, if_false, decide_false]
    exact .nil hs

theorem charged_checkPrefix (hs : s.Agrees c.bucket ledger) :
    Charged (limiter.TracksKey s c.key) c.bucket (limiter.prefixCharges s c) ledger s
      (limiter.checkPrefix s c) := by
  unfold checkPrefix prefixCharges
  split
  · exact .cons (.netPrefix c.prefixKey) c.policy.prefixRpm (limiter.checkClient · c) hs
      fun _ hagrees => charged_checkClient hagrees
  · exact charged_checkClient hs

/-- All layers charge as they say, and the first one that is full refuses. -/
theorem charged_checkLayers (hs : s.Agrees c.bucket ledger) :
    Charged (limiter.TracksKey s c.key) c.bucket (limiter.charges s c) ledger s
      (limiter.checkLayers s c) := by
  refine .cons .global c.policy.globalRpm (fun s =>
    let consumed := s.consume (.route c.routeClass) c.bucket c.policy.routeRpm
    if !consumed.1 then (.deny .route, consumed.2) else limiter.checkPrefix consumed.2 c) hs
    fun _ hagrees => ?_
  exact .cons (.route c.routeClass) c.policy.routeRpm (limiter.checkPrefix · c) hagrees
    fun _ hagrees => charged_checkPrefix hagrees

/-- What is charged for is among the layers. -/
theorem charges_sublist : (limiter.charges s c).Sublist c.layers := by
  have hclient : (limiter.clientCharges s c).Sublist [(c.budget .client, c.limit .client)] := by
    unfold clientCharges
    split
    · exact .refl _
    · exact List.nil_sublist _
  refine .cons_cons _ (.cons_cons _ ?_)
  unfold prefixCharges
  split
  · exact hclient.cons_cons _
  · exact hclient.cons _

theorem nodup_charges : (budgets (limiter.charges s c)).Nodup :=
  LimitCheck.nodup_layers.sublist (charges_sublist.map _)

theorem bucket_of_mem_charges {k : ℕ × LimitCounter}
    (h : k ∈ budgets (limiter.charges s c)) : k.1 = c.bucket := by
  obtain ⟨scope, rfl⟩ := LimitCheck.mem_budgets_layers_iff.1 ((charges_sublist.map _).subset h)
  rfl

end BoundedRateLimiter

/-! ## Minute after minute -/

namespace LimitState

variable {s : LimitState} {b : ℕ} {ledger : ℕ × LimitCounter → ℕ}

/-- All the windows are those of the last minute. -/
def Current (s : LimitState) : Prop :=
  ∀ k, ∀ w ∈ s.window k, s.lastCleanupBucket = some w.minuteBucket

/-- With a new minute, nothing is left of the others. -/
theorem Current.window_cleanup (h : s.Current) (hb : s.lastCleanupBucket ≠ some b)
    (k : LimitCounter) : (s.cleanup b).window k = none := by
  rw [LimitState.window_cleanup hb, Option.filter_eq_none_iff]
  intro w hw
  have hne : w.minuteBucket ≠ b := fun heq => hb (heq ▸ h k w hw)
  simpa using hne

theorem Current.bucket_cleanup (h : s.Current) (k : LimitCounter) :
    ∀ w ∈ (s.cleanup b).window k, w.minuteBucket = b := by
  intro w hw
  by_cases hb : s.lastCleanupBucket = some b
  · rw [cleanup_of_eq hb] at hw
    exact Option.some.inj ((h k w hw).symm.trans hb)
  · rw [h.window_cleanup hb] at hw
    cases hw

/-- After the clean-up, the windows are a ledger of the minute. -/
theorem Current.agrees (h : s.Current) : (s.cleanup b).Agrees b
    fun k => (((s.cleanup b).window k.2).getD ⟨b, 0⟩).requestCount :=
  ⟨h.bucket_cleanup, fun _ => rfl⟩

/-- A ledger of all minutes, of which the windows have the counts of the last one. -/
structure Follows (s : LimitState) (ledger : ℕ × LimitCounter → ℕ) : Prop where
  current : s.Current
  spent : ∀ b, s.lastCleanupBucket = some b →
    ∀ k, ledger (b, k) = ((s.window k).getD ⟨b, 0⟩).requestCount
  later : ∀ b, (∀ last, s.lastCleanupBucket = some last → last < b) → ∀ k, ledger (b, k) = 0

/-- The clean-up keeps what the ledger says of the minute. -/
theorem Follows.cleanup (h : s.Follows ledger)
    (hb : ∀ last, s.lastCleanupBucket = some last → last ≤ b) : (s.cleanup b).Agrees b ledger where
  bucket := h.current.bucket_cleanup
  spent k := by
    by_cases hlast : s.lastCleanupBucket = some b
    · rw [cleanup_of_eq hlast]
      exact h.spent b hlast k
    · rw [h.current.window_cleanup hlast]
      -- Nothing is spent in the new minute, which is later than the last one.
      refine h.later b (fun last hlast' => lt_of_le_of_ne (hb last hlast') ?_) k
      rintro rfl
      exact hlast hlast'

end LimitState

namespace BoundedRateLimiter

variable {limiter : BoundedRateLimiter} {c : LimitCheck} {ledger : ℕ × LimitCounter → ℕ}

/-- What a request is charged for, after the clean-up. -/
def charged (limiter : BoundedRateLimiter) (c : LimitCheck) : List ((ℕ × LimitCounter) × ℕ) :=
  limiter.charges (limiter.state.cleanup c.bucket) c

/-- The client of a check has a place. -/
def tracked (limiter : BoundedRateLimiter) (c : LimitCheck) : Bool :=
  limiter.TracksKey (limiter.state.cleanup c.bucket) c.key

theorem nodup_charged : (budgets (limiter.charged c)).Nodup := nodup_charges

theorem extends_check (h : limiter.state.Current) : (limiter.state.cleanup c.bucket).Extends
    ((limiter.charged c).map (·.1.2)) (limiter.check c).2.state :=
  (charged_checkLayers h.agrees).extends_state

/-- A check leaves the limiter cleaned up for its minute. -/
theorem lastCleanupBucket_check (h : limiter.state.Current) :
    (limiter.check c).2.state.lastCleanupBucket = some c.bucket :=
  (extends_check h).lastCleanupBucket.trans LimitState.lastCleanupBucket_cleanup

/-- A check keeps all windows in one minute. -/
theorem current_check (h : limiter.state.Current) : (limiter.check c).2.state.Current := by
  intro k w hw
  rw [lastCleanupBucket_check h, (charged_checkLayers h.agrees).agrees.bucket k w hw]

/-- A check spends what it is charged for. -/
theorem check_spend (h : limiter.state.Follows ledger)
    (hb : ∀ last, limiter.state.lastCleanupBucket = some last → last ≤ c.bucket) :
    (limiter.check c).1 =
      .ofRefusal (limiter.tracked c) (spend ledger (limiter.charged c)).1 ∧
    (limiter.check c).2.state.Follows (spend ledger (limiter.charged c)).2 := by
  obtain ⟨hdecision, hagrees, -⟩ : Charged (limiter.tracked c) c.bucket (limiter.charged c) ledger
    (limiter.state.cleanup c.bucket) (limiter.checkLayers (limiter.state.cleanup c.bucket) c) :=
    charged_checkLayers (h.cleanup hb)
  have hlast := lastCleanupBucket_check (c := c) h.current
  refine ⟨hdecision, current_check h.current, fun b hb' k => ?_, fun b hb' k => ?_⟩
  · obtain rfl : c.bucket = b := Option.some.inj (hlast.symm.trans hb')
    exact hagrees.spent k
  · -- Later minutes are not charged.
    have hlt := hb' _ hlast
    have hpaid : (b, k) ∉ paid (limiter.charged c)
        (spend ledger (limiter.charged c)).1 := fun hmem =>
      Nat.ne_of_gt hlt (bucket_of_mem_charges (mem_budgets_of_mem_paid hmem))
    rw [spend_apply nodup_charged, if_neg hpaid, Nat.add_zero]
    exact h.later b (fun last hlast' => Nat.lt_of_le_of_lt (hb last hlast') hlt) k

/-! ## Checks one after the other -/

variable {checks : List LimitCheck}

theorem after_append_singleton : limiter.after (checks ++ [c]) =
    ((limiter.after checks).check c).2 := by
  simp [after]

theorem found_append_singleton : limiter.found (checks ++ [c]) =
    limiter.found checks ++ [(c, limiter.after checks)] := by
  induction checks generalizing limiter with
  | nil => rfl
  | cons c' checks ih =>
    rw [List.cons_append, found, ih]
    rfl

theorem decisions_append_singleton : limiter.decisions (checks ++ [c]) =
    limiter.decisions checks ++ [(c, ((limiter.after checks).check c).1)] := by
  simp [decisions, found_append_singleton]

@[simp] theorem maxEntries_after : (limiter.after checks).maxEntries = limiter.maxEntries := by
  induction checks using List.reverseRecOn with
  | nil => rfl
  | append_singleton checks c ih => exact (congrArg maxEntries after_append_singleton).trans ih

@[simp] theorem maxPrefixes_after : (limiter.after checks).maxPrefixes = limiter.maxPrefixes := by
  induction checks using List.reverseRecOn with
  | nil => rfl
  | append_singleton checks c ih => exact (congrArg maxPrefixes after_append_singleton).trans ih

/-- All windows are of the minute of the last clean-up, whatever was checked. -/
theorem current_after (maxEntries : ℕ) (checks : List LimitCheck) :
    ((new maxEntries).after checks).state.Current := by
  induction checks using List.reverseRecOn with
  | nil =>
    intro k w hw
    cases k <;> cases hw
  | append_singleton checks c ih =>
    rw [after_append_singleton]
    exact current_check ih

/-- The last clean-up was at the minute of the last request. -/
theorem lastCleanupBucket_after (maxEntries : ℕ) (checks : List LimitCheck) :
    ((new maxEntries).after checks).state.lastCleanupBucket =
      checks.getLast?.map LimitCheck.bucket := by
  induction checks using List.reverseRecOn with
  | nil => rfl
  | append_singleton checks c ih =>
    rw [after_append_singleton, lastCleanupBucket_check (current_after _ _)]
    simp

end BoundedRateLimiter

end VpsGuard
