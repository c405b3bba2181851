import VpsGuard.Edge.Counting
import VpsGuard.Edge.Limits

/-!
# What checks notice of each other

The layers of the limiter are shared: all requests are counted together, and so
are those of a class of routes and those of a network, and a request that a layer
refuses has already been counted by the layers before it. So the logins of the
administrator are refused for what visitors do (`login_refused`), although their
class has a limit of its own, and the requests of a client that are refused
may make those of another one be refused (`file_refused`).

A check notices others only if a layer that it shares with them has no room left
for all of them. As long as there is room, the logins do not notice the visitors
(`decisions_management`), and nobody notices requests of a client that are
refused (`decisions_kept`). Both are cases of `Budget.history_filter`.
-/

namespace VpsGuard

open List LimitCheck Budget

namespace BoundedRateLimiter

variable {maxEntries : ℕ} {checks checks' : List LimitCheck} {c c' : LimitCheck}

/-! ## The logins of the administrator -/

/-- A check of a login of the administrator. -/
def IsManagement (c : LimitCheck) : Prop := c.routeClass = .managementAuth

instance : DecidablePred IsManagement := fun c =>
  inferInstanceAs (Decidable (c.routeClass = .managementAuth))

/-- Counters that others than the logins of the administrator are counted by. -/
def VisitorCounter : LimitCounter → Prop
  | .global => True
  | .route routeClass => routeClass ≠ .managementAuth
  | .netPrefix _ => True
  | .client key => key.routeClass ≠ .managementAuth

/-- Every login of the administrator has room in the layers that it shares, even
    if all checks before it in the minute are counted there. -/
def ManagementRoom (checks : List LimitCheck) : Prop :=
  ∀ earlier c later, checks = earlier ++ c :: later → IsManagement c →
    (earlier.countP fun c' => c'.bucket = c.bucket) < c.policy.globalRpm.toNat ∧
    (earlier.countP fun c' => c'.bucket = c.bucket ∧ c'.prefixKey = c.prefixKey) <
      c.policy.prefixRpm.toNat

theorem budget_mem_layers_iff {scope : LimitScope} : c.budget scope ∈ budgets c'.layers ↔
      c'.bucket = c.bucket ∧ c'.counter scope = c.counter scope := by
  rw [mem_budgets_layers_iff]
  constructor
  · rintro ⟨scope', h⟩
    obtain ⟨hbucket, hcounter⟩ := budget_eq_iff.1 h
    have hscope : scope' = scope := by
      simpa using congrArg LimitCounter.scope hcounter
    exact ⟨hbucket, hscope ▸ hcounter⟩
  · intro h
    exact ⟨scope, budget_eq_iff.2 h⟩

theorem ManagementRoom.apart (h : ManagementRoom checks) :
    Budget.Apart layers (fun c => decide (IsManagement c)) (fun k => VisitorCounter k.2)
      checks where
  nodup _ _ := nodup_layers
  room earlier c later heq hc charge hcharge hshared := by
    obtain ⟨hglobal, hnetwork⟩ := h earlier c later heq (of_decide_eq_true hc)
    obtain ⟨k, limit⟩ := charge
    obtain ⟨scope, rfl, rfl⟩ := mem_layers_iff.1 hcharge
    -- A login shares the first layer and the third one.
    cases scope with
    | global => simpa [budget_mem_layers_iff, counter, limit] using hglobal
    | netPrefix =>
      simpa [budget_mem_layers_iff, counter, limit] using hnetwork
    | route => exact absurd (of_decide_eq_true hc) hshared
    | client => exact absurd (of_decide_eq_true hc) hshared
  others e _ hc k hk := by
    have hc : e.1.routeClass ≠ .managementAuth := of_decide_eq_false hc
    obtain ⟨scope, rfl⟩ := mem_budgets_layers_iff.1 (mem_budgets_of_mem_paid hk)
    cases scope with
    | global => trivial
    | netPrefix => trivial
    | route => exact hc
    | client => exact hc

theorem ManagementRoom.decisions_filter (h : ManagementRoom checks) (hordered : Ordered checks)
    (hfits : Fits maxEntries checks) :
    ((new maxEntries).decisions checks).filter (fun e => IsManagement e.1) =
      (history layers (checks.filter (IsManagement ·))).map
        fun e => (e.1, .ofRefusal true e.2) := by
  rw [decisions_eq_layers hordered hfits, filter_map, ← (history_filter h.apart).1]
  rfl

/-- **Logins of the administrator.** If the minutes do not go back, everyone has a
    place in the tables, and the logins have room in the layers that they share,
    what is decided for the logins does not depend on the other checks. -/
theorem decisions_management (maxEntries : ℕ) (checks checks' : List LimitCheck)
    (hsame : checks.filter (IsManagement ·) = checks'.filter (IsManagement ·))
    (hordered : Ordered checks) (hordered' : Ordered checks')
    (hfits : Fits maxEntries checks) (hfits' : Fits maxEntries checks')
    (hroom : ManagementRoom checks) (hroom' : ManagementRoom checks') :
    ((new maxEntries).decisions checks).filter (fun e => IsManagement e.1) =
      ((new maxEntries).decisions checks').filter fun e => IsManagement e.1 := by
  rw [hroom.decisions_filter hordered hfits, hroom'.decisions_filter hordered' hfits', hsame]

theorem managementRoom_of_length_le (h : ∀ c ∈ checks, IsManagement c →
    checks.length ≤ c.policy.globalRpm.toNat ∧ checks.length ≤ c.policy.prefixRpm.toNat) :
    ManagementRoom checks := by
  rintro earlier c later rfl hc
  obtain ⟨hglobal, hnetwork⟩ := h c (by simp) hc
  have hlt : earlier.length < (earlier ++ c :: later).length := by simp
  exact ⟨(countP_le_length.trans_lt hlt).trans_le hglobal,
    (countP_le_length.trans_lt hlt).trans_le hnetwork⟩

/-- A configuration with one request a minute for a client, and factors for the layers. -/
def narrow (prefixMultiplier routeMultiplier globalMultiplier : UInt32) : GuardConfig :=
  { GuardConfig.default with
    prefixRateLimitMultiplier := prefixMultiplier
    routeRateLimitMultiplier := routeMultiplier
    globalRateLimitMultiplier := globalMultiplier
    rateLimitRpm := some 1
    publicHost := some "admin.example"
    loginRateLimitRpm := 1
    mode := .enforce }

def checkWith (config : GuardConfig) (address : BitVec 32) (routeClass : RouteClass) : LimitCheck :=
  ⟨.v4 address, routeClass, (EdgeRuntimeConfig.fromConfig config).rateLimitPolicy 1, 0⟩

def visitAndLogin (config : GuardConfig) : List LimitCheck :=
  [checkWith config 0xc6336401#32 .general, checkWith config 0xc0000201#32 .managementAuth]

def loginAlone (config : GuardConfig) : List LimitCheck :=
  [checkWith config 0xc0000201#32 .managementAuth]

theorem decisions_management_roomy :
    ((new 8).decisions (visitAndLogin (narrow 2 4 8))).filter (fun e => IsManagement e.1) =
      ((new 8).decisions (loginAlone (narrow 2 4 8))).filter fun e => IsManagement e.1 :=
  decisions_management 8 _ _ (by decide) (by decide) (by decide)
    (fits_of_length_le (by decide) (by decide)) (fits_of_length_le (by decide) (by decide))
    (managementRoom_of_length_le (by decide)) (managementRoom_of_length_le (by decide))

/-- A visitor spends what is left for all, and the login is refused. -/
theorem login_refused : (narrow 1 1 1).Valid ∧
    (visitAndLogin (narrow 1 1 1)).filter (IsManagement ·) =
      (loginAlone (narrow 1 1 1)).filter (IsManagement ·) ∧
    Fits 8 (visitAndLogin (narrow 1 1 1)) ∧ Fits 8 (loginAlone (narrow 1 1 1)) ∧
    (((new 8).decisions (loginAlone (narrow 1 1 1))).filter (fun e => IsManagement e.1)).map
      Prod.snd = [.allow] ∧
    (((new 8).decisions (visitAndLogin (narrow 1 1 1))).filter (fun e => IsManagement e.1)).map
      Prod.snd = [.deny .global] :=
  ⟨by decide, by decide, fits_of_length_le (by decide) (by decide),
    fits_of_length_le (by decide) (by decide), by decide, by decide⟩

/-! ## Requests that are refused -/

/-- Checks, of which some are not kept: these are of one client and class, and
    they are denied. -/
def DropsDenied (maxEntries : ℕ) (key : LimitKey) (marked : List (LimitCheck × Bool)) : Prop :=
  ∀ e ∈ ((new maxEntries).decisions (marked.map Prod.fst)).zip (marked.map Prod.snd),
    e.2 = false → e.1.1.key = key ∧ e.1.2 ∉ [.allow, .allowFallback]

instance (maxEntries : ℕ) (key : LimitKey) (marked : List (LimitCheck × Bool)) :
    Decidable (DropsDenied maxEntries key marked) :=
  inferInstanceAs (Decidable (∀ e ∈ _, _ → _))

def SharedCounter (key : LimitKey) : LimitCounter → Prop
  | .global => True
  | .route routeClass => routeClass = key.routeClass
  | .netPrefix network => network = .ofIpAddr key.clientIp
  | .client _ => False

/-- Every check that is kept has room in the layers that it shares with the client
    and class, even if all checks before it are counted there. -/
def KeptRoom (key : LimitKey) (marked : List (LimitCheck × Bool)) : Prop :=
  ∀ earlier m later, marked = earlier ++ m :: later → m.2 = true →
    earlier.length < m.1.policy.globalRpm.toNat ∧
    (m.1.routeClass = key.routeClass →
      (earlier.countP fun m' => m'.1.routeClass = key.routeClass) < m.1.policy.routeRpm.toNat) ∧
    (m.1.prefixKey = .ofIpAddr key.clientIp →
      (earlier.countP fun m' => m'.1.prefixKey = .ofIpAddr key.clientIp) <
        m.1.policy.prefixRpm.toNat)

section Kept

variable {key : LimitKey} {marked : List (LimitCheck × Bool)} {b : ℕ}

section

variable (h : ∀ m ∈ marked, m.1.bucket = b)

include h

theorem ordered_of_bucket : Ordered (marked.map Prod.fst) := by
  refine pairwise_of_forall_mem_list fun c hc c' hc' => ?_
  obtain ⟨m, hm, rfl⟩ := mem_map.1 hc
  obtain ⟨m', hm', rfl⟩ := mem_map.1 hc'
  exact (h m hm).trans (h m' hm').symm |>.le

variable (hfits : Fits maxEntries (marked.map Prod.fst))

include hfits

theorem decisions_map_fst : (new maxEntries).decisions (marked.map Prod.fst) =
      (history (layers ∘ Prod.fst) marked).map
        fun e => (e.1.1, .ofRefusal true e.2) := by
  rw [decisions_eq_layers (ordered_of_bucket h) hfits, (run_map Prod.fst marked).1, map_map]
  rfl

theorem zip_decisions :
    ((new maxEntries).decisions (marked.map Prod.fst)).zip (marked.map Prod.snd) =
      (history (layers ∘ Prod.fst) marked).map
        fun e => ((e.1.1, .ofRefusal true e.2), e.1.2) := by
  have hfst : (history (layers ∘ Prod.fst) marked).map Prod.fst = marked :=
    map_fst_history
  have hsnd : marked.map Prod.snd =
      (history (layers ∘ Prod.fst) marked).map fun e => e.1.2 := by
    conv_lhs => rw [← hfst, map_map]
    rfl
  rw [decisions_map_fst h hfits, hsnd, zip_map']

theorem apart_of_keptRoom (hdrops : DropsDenied maxEntries key marked)
    (hroom : KeptRoom key marked) :
    Budget.Apart (layers ∘ Prod.fst) Prod.snd (fun k => SharedCounter key k.2)
      marked where
  nodup _ _ := nodup_layers
  room earlier m later heq hm charge hcharge hshared := by
    obtain ⟨hglobal, hroute, hnetwork⟩ := hroom earlier m later heq hm
    obtain ⟨k, limit⟩ := charge
    obtain ⟨scope, rfl, rfl⟩ := mem_layers_iff.1 hcharge
    simp only [Function.comp_apply, budget_mem_layers_iff]
    cases scope with
    | global => exact countP_le_length.trans_lt hglobal
    | route =>
      refine Nat.lt_of_le_of_lt (countP_mono_left fun m' _ h' => ?_) (hroute hshared)
      obtain ⟨-, hcounter⟩ := of_decide_eq_true h'
      exact decide_eq_true ((LimitCounter.route.inj hcounter).trans hshared)
    | netPrefix =>
      refine Nat.lt_of_le_of_lt (countP_mono_left fun m' _ h' => ?_) (hnetwork hshared)
      obtain ⟨-, hcounter⟩ := of_decide_eq_true h'
      exact decide_eq_true ((LimitCounter.netPrefix.inj hcounter).trans hshared)
    | client => exact hshared.elim
  others e he hkept k hk := by
    obtain ⟨hkey, hdenied⟩ := hdrops ((e.1.1, .ofRefusal true e.2), e.1.2)
      (by rw [zip_decisions h hfits]; exact mem_map_of_mem he) hkept
    obtain ⟨scope, rfl⟩ := mem_budgets_layers_iff.1 (mem_budgets_of_mem_paid hk)
    cases scope with
    | global => trivial
    | route => exact congrArg LimitKey.routeClass hkey
    | netPrefix => exact congrArg (fun key => PrefixKey.ofIpAddr key.clientIp) hkey
    | client =>
      -- The last layer is not paid by a check that is denied.
      have hcounts := ((mem_paid_layers_iff (exists_scope_of_mem_history he)).1 hk).2
      have hrefused : e.2 ≠ none := fun hnone => hdenied (ofRefusal_mem_iff.2 hnone)
      obtain ⟨k, hk⟩ := Option.ne_none_iff_exists'.1 hrefused
      rw [hk] at hcounts
      cases hscope : k.2.scope <;> simp [counts, LimitDecision.ofRefusal, hscope] at hcounts

end

/-- **Requests that are refused.** In a minute in which everyone has a place in the
    tables, and those that are kept have room in the layers that they share with
    a client and class, leaving out checks of this client and class that are
    denied does not change what is decided for those that are kept. -/
theorem decisions_kept (maxEntries : ℕ) (key : LimitKey) (marked : List (LimitCheck × Bool)) (b : ℕ)
    (hbucket : ∀ m ∈ marked, m.1.bucket = b) (hdrops : DropsDenied maxEntries key marked)
    (hfits : Fits maxEntries (marked.map Prod.fst)) (hroom : KeptRoom key marked) :
    ((((new maxEntries).decisions (marked.map Prod.fst)).zip (marked.map Prod.snd)).filter
      (·.2)).map (·.1) =
        (new maxEntries).decisions ((marked.filter (·.2)).map Prod.fst) := by
  have hkept := (history_filter (apart_of_keptRoom hbucket hfits hdrops hroom)).1
  have hbucket' : ∀ m ∈ marked.filter (·.2), m.1.bucket = b := fun m hm =>
    hbucket m (mem_of_mem_filter hm)
  have hfits' : Fits maxEntries ((marked.filter (·.2)).map Prod.fst) :=
    hfits.mono (filter_sublist.map _)
  rw [zip_decisions hbucket hfits, decisions_map_fst hbucket' hfits', ← hkept, filter_map, map_map]
  rfl

theorem keptRoom_of_length_le (h : ∀ m ∈ marked, marked.length ≤ m.1.policy.globalRpm.toNat ∧
    marked.length ≤ m.1.policy.routeRpm.toNat ∧ marked.length ≤ m.1.policy.prefixRpm.toNat) :
    KeptRoom key marked := by
  rintro earlier m later rfl -
  obtain ⟨hglobal, hroute, hnetwork⟩ := h m (by simp)
  have hlt : earlier.length < (earlier ++ m :: later).length := by simp
  exact ⟨hlt.trans_le hglobal, fun _ => (countP_le_length.trans_lt hlt).trans_le hroute,
    fun _ => (countP_le_length.trans_lt hlt).trans_le hnetwork⟩

/-- A client that searches twice, where the second search is not kept, and another
    one that gets a file. -/
def searchesAndFile (config : GuardConfig) : List (LimitCheck × Bool) :=
  [(checkWith config 0xc0000201#32 .strict, true), (checkWith config 0xc0000201#32 .strict, false),
    (checkWith config 0xc6336401#32 .general, true)]

theorem decisions_kept_roomy :
    ((((new 12).decisions ((searchesAndFile (narrow 4 4 4)).map Prod.fst)).zip
      ((searchesAndFile (narrow 4 4 4)).map Prod.snd)).filter (·.2)).map (·.1) =
        (new 12).decisions (((searchesAndFile (narrow 4 4 4)).filter (·.2)).map Prod.fst) :=
  decisions_kept 12 ⟨.v4 0xc0000201#32, .strict⟩ _ 0 (by decide) (by decide)
    (fits_of_length_le (by decide) (by decide)) (keptRoom_of_length_le (by decide))

/-- The second search is refused by the limit of its class, but it has spent
    what is left for all, and the file is refused. -/
theorem file_refused : (narrow 1 1 2).Valid ∧
    DropsDenied 12 ⟨.v4 0xc0000201#32, .strict⟩ (searchesAndFile (narrow 1 1 2)) ∧
    ((new 12).decisions ((searchesAndFile (narrow 1 1 2)).map Prod.fst)).map Prod.snd =
      [.allow, .deny .route, .deny .global] ∧
    ((new 12).decisions (((searchesAndFile (narrow 1 1 2)).filter (·.2)).map Prod.fst)).map
      Prod.snd = [.allow, .allow] :=
  by decide

end Kept

end BoundedRateLimiter

end VpsGuard
