import Mathlib.Data.List.Dedup
import VpsGuard.Edge.RateLimit

/-!
# What the limiter counts

As long as the minutes do not go back, the limiter spends from a ledger of all
minutes what each check finds charged (`decisions_eq_history`). If the tables
have a place for every network and client of a minute, every check is charged in
all the layers (`decisions_eq_layers`), and so the limiter decides as a reference
does that has no windows and no tables, but looks at the whole history
(`decisions_eq_reference`).

Whatever is checked, the tables stay within their bounds, and what is let
through in a minute is bounded by the limits of the layers that count it, even if
the tables are full (`decisions_bounded`).
-/

namespace VpsGuard

open List LimitCheck Budget LimitState

namespace BoundedRateLimiter

/-! ## Charges -/

section Charges

variable {limiter : BoundedRateLimiter} {c : LimitCheck} {scope : LimitScope}

theorem charged_eq_layers
    (hnetwork : limiter.TracksPrefix (limiter.state.cleanup c.bucket) c.prefixKey)
    (hkey : limiter.TracksKey (limiter.state.cleanup c.bucket) c.key) :
    limiter.charged c = c.layers := by
  simp only [charged, charges, prefixCharges, clientCharges, if_pos hnetwork, if_pos hkey]
  rfl

theorem global_mem_charged : c.budget .global ∈ budgets (limiter.charged c) :=
  mem_cons_self

theorem route_mem_charged : c.budget .route ∈ budgets (limiter.charged c) :=
  mem_cons_of_mem _ mem_cons_self

theorem prefix_mem_charged (h : limiter.TracksPrefix (limiter.state.cleanup c.bucket) c.prefixKey) :
    c.budget .netPrefix ∈ budgets (limiter.charged c) := by
  refine mem_cons_of_mem _ (mem_cons_of_mem _ ?_)
  rw [prefixCharges, if_pos h]
  exact mem_cons_self

theorem client_mem_charged (h : limiter.tracked c = true) :
    c.budget .client ∈ budgets (limiter.charged c) := by
  have hclient : c.budget .client ∈
      budgets (limiter.clientCharges (limiter.state.cleanup c.bucket) c) := by
    rw [clientCharges, if_pos (of_decide_eq_true h)]
    exact mem_cons_self
  refine mem_cons_of_mem _ (mem_cons_of_mem _ ?_)
  unfold prefixCharges
  split
  · exact mem_cons_of_mem _ hclient
  · exact hclient

end Charges

/-! ## The ledger of all minutes -/

section Found

variable {maxEntries : ℕ} {checks : List LimitCheck} {c : LimitCheck}
  {e : LimitCheck × BoundedRateLimiter}

/-- The minutes do not go back. -/
def Ordered (checks : List LimitCheck) : Prop := checks.Pairwise fun c c' => c.bucket ≤ c'.bucket

instance (checks : List LimitCheck) : Decidable (Ordered checks) :=
  inferInstanceAs (Decidable (List.Pairwise _ _))

theorem map_fst_found (limiter : BoundedRateLimiter) (checks : List LimitCheck) :
    (limiter.found checks).map Prod.fst = checks := by
  induction checks using List.reverseRecOn with
  | nil => rfl
  | append_singleton checks c ih => simp [found_append_singleton, ih]

theorem exists_of_mem_found {limiter : BoundedRateLimiter} (h : e ∈ limiter.found checks) :
    ∃ earlier later, checks = earlier ++ e.1 :: later ∧ e.2 = limiter.after earlier := by
  induction checks using List.reverseRecOn with
  | nil => cases h
  | append_singleton checks c ih =>
    rw [found_append_singleton, mem_append, mem_singleton] at h
    rcases h with h | rfl
    · obtain ⟨earlier, later, heq, hafter⟩ := ih h
      exact ⟨earlier, later ++ [c], by rw [heq]; simp, hafter⟩
    · exact ⟨checks, [], rfl, rfl⟩

theorem Ordered.last_le (h : Ordered (checks ++ [c])) (last : ℕ)
    (hlast : ((new maxEntries).after checks).state.lastCleanupBucket = some last) :
    last ≤ c.bucket := by
  rw [lastCleanupBucket_after] at hlast
  obtain ⟨c', hc', rfl⟩ := Option.map_eq_some_iff.1 hlast
  exact (pairwise_append.1 h).2.2 c' (mem_of_getLast? hc') c (by simp)

/-- The limiter spends from a ledger of all minutes what each check is charged. -/
theorem decisions_eq_history (h : Ordered checks) : (new maxEntries).decisions checks =
      (history (fun e => e.2.charged e.1) ((new maxEntries).found checks)).map
        (fun e => (e.1.1, .ofRefusal (e.1.2.tracked e.1.1) e.2)) ∧
    ((new maxEntries).after checks).state.Follows
      (ledger (fun e => e.2.charged e.1) ((new maxEntries).found checks)) := by
  induction checks using List.reverseRecOn with
  | nil =>
    refine ⟨rfl, current_after _ [], fun b hb => ?_, fun _ _ _ => rfl⟩
    cases hb
  | append_singleton checks c ih =>
    obtain ⟨hdecisions, hfollows⟩ := ih (pairwise_append.1 h).1
    obtain ⟨hdecision, hcheck⟩ := check_spend hfollows h.last_le
    rw [decisions_append_singleton, after_append_singleton, found_append_singleton,
      history_append_singleton, ledger_append_singleton, hdecisions, hdecision]
    exact ⟨by simp, hcheck⟩

end Found

/-! ## Places in the tables -/

/-- In each minute there are at most as many clients with a class, and networks,
    as the tables have places. -/
structure Fits (maxEntries : ℕ) (checks : List LimitCheck) : Prop where
  keys : ∀ b, ((checks.filter (·.bucket = b)).map key).dedup.length ≤ maxEntries
  prefixes : ∀ b, ((checks.filter (·.bucket = b)).map prefixKey).dedup.length ≤
    (new maxEntries).maxPrefixes

section Tables

variable {maxEntries : ℕ} {checks earlier later : List LimitCheck} {c : LimitCheck}
  {k : LimitCounter}

theorem length_le_dedup {α : Type} [DecidableEq α] {l l' : List α} (hl : l.Nodup) (h : l ⊆ l') :
    l.length ≤ l'.dedup.length :=
  (subperm_of_subset hl fun _ hx => mem_dedup.2 (h hx)).length_le

theorem Fits.mono (h : Fits maxEntries checks) {checks' : List LimitCheck}
    (hsub : checks'.Sublist checks) : Fits maxEntries checks' := by
  have hle : ∀ {α : Type} [DecidableEq α] (f : LimitCheck → α) (b : ℕ),
      ((checks'.filter (·.bucket = b)).map f).dedup.length ≤
        ((checks.filter (·.bucket = b)).map f).dedup.length := fun f b =>
    length_le_dedup (nodup_dedup _) fun _ hx =>
      ((hsub.filter _).map f).subset (mem_dedup.1 hx)
  exact ⟨fun b => (hle _ b).trans (h.keys b), fun b => (hle _ b).trans (h.prefixes b)⟩

theorem fits_of_length_le (hkeys : checks.length ≤ maxEntries)
    (hprefixes : checks.length ≤ (new maxEntries).maxPrefixes) : Fits maxEntries checks := by
  have hle : ∀ {α : Type} [DecidableEq α] (f : LimitCheck → α) (b : ℕ),
      ((checks.filter (·.bucket = b)).map f).dedup.length ≤ checks.length := by
    intro α _ f b
    refine (dedup_sublist _).length_le.trans ?_
    rw [length_map]
    exact length_filter_le _ _
  exact ⟨fun b => (hle _ b).trans hkeys, fun b => (hle _ b).trans hprefixes⟩

theorem exists_of_window_after (h : (((new maxEntries).after checks).state.window k).isSome) :
    ∃ c ∈ checks, ((new maxEntries).after checks).state.lastCleanupBucket = some c.bucket ∧
      ∃ scope, k = c.counter scope := by
  induction checks using List.reverseRecOn with
  | nil => cases k <;> cases h
  | append_singleton checks c ih =>
    rw [after_append_singleton] at h ⊢
    rw [lastCleanupBucket_check (current_after _ _)]
    rcases (extends_check (current_after _ _)).new k h with hold | hnew
    · -- The window was there before, and survived the cleanup: the minute is the same.
      by_cases hlast : ((new maxEntries).after checks).state.lastCleanupBucket = some c.bucket
      · rw [cleanup_of_eq hlast] at hold
        obtain ⟨c', hc', hbucket, hscope⟩ := ih hold
        exact ⟨c', by simp [hc'], hlast.symm.trans hbucket, hscope⟩
      · rw [(current_after _ _).window_cleanup hlast] at hold
        cases hold
    · obtain ⟨⟨⟨b, k'⟩, limit⟩, hmem, rfl⟩ := mem_map.1 hnew
      obtain ⟨scope, heq, -⟩ := mem_layers_iff.1 (charges_sublist.subset hmem)
      exact ⟨c, by simp, rfl, scope, (Prod.mk.inj heq).2⟩

theorem exists_of_window_cleanup
    (h : ((((new maxEntries).after earlier).state.cleanup c.bucket).window k).isSome) :
    ∃ c' ∈ earlier, c'.bucket = c.bucket ∧ ∃ scope, k = c'.counter scope := by
  by_cases hlast : ((new maxEntries).after earlier).state.lastCleanupBucket = some c.bucket
  · rw [cleanup_of_eq hlast] at h
    obtain ⟨c', hc', hbucket, hscope⟩ := exists_of_window_after h
    exact ⟨c', hc', Option.some.inj (hbucket.symm.trans hlast), hscope⟩
  · rw [(current_after _ _).window_cleanup hlast] at h
    cases h

theorem mem_or_length_lt {κ : Type} [DecidableEq κ] {table : LimitTable κ} {f : LimitCheck → κ}
    {size : ℕ}
    (hsize : (((earlier ++ c :: later).filter (·.bucket = c.bucket)).map f).dedup.length ≤ size)
    (htable : ∀ key ∈ table, ∃ c' ∈ earlier, c'.bucket = c.bucket ∧ f c' = key) :
    f c ∈ table ∨ table.keys.length < size := by
  refine or_iff_not_imp_left.2 fun hmem => ?_
  -- With the key of the check there is one more than in the table.
  have hnodup : (f c :: table.keys).Nodup := nodup_cons.2 ⟨hmem, AList.keys_nodup _⟩
  refine Nat.lt_of_succ_le ((length_le_dedup hnodup ?_).trans hsize)
  intro key hkey
  rcases mem_cons.1 hkey with rfl | hkey
  · exact mem_map.2 ⟨c, by simp, rfl⟩
  · obtain ⟨c', hc', hbucket, heq⟩ := htable key hkey
    exact mem_map.2 ⟨c', by simp [hc', hbucket], heq⟩

theorem Fits.tracksPrefix (h : Fits maxEntries (earlier ++ c :: later)) :
    ((new maxEntries).after earlier).TracksPrefix
      (((new maxEntries).after earlier).state.cleanup c.bucket) c.prefixKey := by
  refine mem_or_length_lt (f := prefixKey) (by simpa using h.prefixes c.bucket) ?_
  intro key hkey
  obtain ⟨c', hc', hbucket, scope, hscope⟩ :=
    exists_of_window_cleanup (mem_prefixes_iff.1 hkey)
  cases scope <;> cases hscope
  exact ⟨c', hc', hbucket, rfl⟩

theorem Fits.tracksKey (h : Fits maxEntries (earlier ++ c :: later)) :
    ((new maxEntries).after earlier).TracksKey
      (((new maxEntries).after earlier).state.cleanup c.bucket) c.key := by
  refine mem_or_length_lt (f := key) (by simpa [new] using h.keys c.bucket) ?_
  intro key hkey
  obtain ⟨c', hc', hbucket, scope, hscope⟩ :=
    exists_of_window_cleanup (mem_windows_iff.1 hkey)
  cases scope <;> cases hscope
  exact ⟨c', hc', hbucket, rfl⟩

/-- With a place for everyone, every layer counts every check. -/
theorem decisions_eq_layers (hordered : Ordered checks) (hfits : Fits maxEntries checks) :
    (new maxEntries).decisions checks =
      (history layers checks).map fun e => (e.1, .ofRefusal true e.2) := by
  have hfound : ∀ e ∈ (new maxEntries).found checks,
      e.2.charged e.1 = e.1.layers ∧ e.2.tracked e.1 = true := by
    intro e he
    obtain ⟨earlier, later, heq, hafter⟩ := exists_of_mem_found he
    rw [heq] at hfits
    rw [hafter]
    exact ⟨charged_eq_layers hfits.tracksPrefix hfits.tracksKey, decide_eq_true hfits.tracksKey⟩
  have hmap : history layers (((new maxEntries).found checks).map Prod.fst) = _ :=
    (run_map Prod.fst _).1
  rw [map_fst_found] at hmap
  rw [(decisions_eq_history hordered).1, (run_congr fun e he => (hfound e he).1).1, hmap, map_map]
  refine map_congr_left fun e he => ?_
  rw [(hfound e.1 (mem_of_mem_history he)).2]
  rfl

end Tables

/-! ## The reference -/

/-- An earlier check, and what was decided for it, count in a layer for a later
    one in the same minute: it is of the same kind, and it passed the layer and
    those before it. -/
def counts (c : LimitCheck) (e : LimitCheck × LimitDecision) : LimitScope → Bool
  | .global => e.2 ≠ .deny .global
  | .route => e.1.routeClass = c.routeClass ∧ e.2 ∉ [.deny .global, .deny .route]
  | .netPrefix =>
    e.1.prefixKey = c.prefixKey ∧ e.2 ∉ [.deny .global, .deny .route, .deny .netPrefix]
  | .client =>
    e.1.clientIp = c.clientIp ∧ e.1.routeClass = c.routeClass ∧
      e.2 ∉ [.deny .global, .deny .route, .deny .netPrefix, .deny .client]

/-- The number of earlier checks of the same minute that count in a layer. -/
def earlierCount (history : List (LimitCheck × LimitDecision)) (c : LimitCheck)
    (scope : LimitScope) : ℕ :=
  history.countP fun e => e.1.bucket = c.bucket ∧ counts c e scope

/-- What the history says of a check. -/
def reference (history : List (LimitCheck × LimitDecision)) (c : LimitCheck) : LimitDecision :=
  if c.policy.globalRpm.toNat ≤ earlierCount history c .global then .deny .global
  else if c.policy.routeRpm.toNat ≤ earlierCount history c .route then .deny .route
  else if c.policy.prefixRpm.toNat ≤ earlierCount history c .netPrefix then .deny .netPrefix
  else if c.policy.clientRpm.toNat ≤ earlierCount history c .client then .deny .client
  else .allow

/-- Checks, each with what the history says of it. -/
def referenceDecisions (checks : List LimitCheck) : List (LimitCheck × LimitDecision) :=
  checks.foldl (fun history c => history ++ [(c, reference history c)]) []

section Reference

variable {maxEntries : ℕ} {checks : List LimitCheck} {c c' : LimitCheck} {scope : LimitScope}
  {refusal : Option (ℕ × LimitCounter)}

theorem exists_scope_of_mem_history {ι : Type} {f : ι → LimitCheck} {requests : List ι}
    {e : ι × Option (ℕ × LimitCounter)}
    (he : e ∈ history (layers ∘ f) requests) :
    ∀ k, e.2 = some k → ∃ scope, k = (f e.1).budget scope := by
  intro k hk
  have hmem : (e.1, some k) ∈ history (layers ∘ f) requests := hk ▸ he
  have hbudget : k ∈ budgets ((layers ∘ f) e.1) :=
    mem_budgets_of_mem_history (fun _ _ => nodup_layers) hmem
  exact mem_budgets_layers_iff.1 hbudget

theorem mem_paid_layers_iff (h : ∀ k, refusal = some k → ∃ scope, k = c'.budget scope) :
    c.budget scope ∈ paid c'.layers refusal ↔
      c'.bucket = c.bucket ∧ counts c (c', .ofRefusal true refusal) scope = true := by
  cases refusal with
  | none =>
    rw [paid_none, budgets_layers]
    cases scope <;>
      simp [budget_eq_iff, counter, key, counts, LimitDecision.ofRefusal]
  | some k =>
    obtain ⟨scope', rfl⟩ := h k rfl
    rw [paid, budgets_layers]
    -- The budgets before the one that refuses are paid.
    cases scope' <;> cases scope <;>
      simp [budget_eq_iff, counter, key, counts, LimitDecision.ofRefusal, LimitCounter.scope]

theorem earlierCount_eq_ledger : earlierCount
    ((history layers checks).map fun e => (e.1, .ofRefusal true e.2)) c scope =
      ledger layers checks (c.budget scope) := by
  rw [ledger_eq_countP (fun _ _ => nodup_layers), earlierCount, countP_map]
  refine countP_congr fun e he => ?_
  have hrefusal := exists_scope_of_mem_history (f := id) he
  simp only [id_eq] at hrefusal
  simp [mem_paid_layers_iff hrefusal]

theorem reference_eq : reference
    ((history layers checks).map fun e => (e.1, .ofRefusal true e.2)) c =
      .ofRefusal true (spend (ledger layers checks) c.layers).1 := by
  rw [refusal_eq nodup_layers]
  simp only [reference, earlierCount_eq_ledger, layers, map_cons, map_nil, find?_cons, find?_nil]
  split_ifs with hglobal hroute hnetwork hclient <;>
    simp [*, limit, LimitDecision.ofRefusal]

theorem referenceDecisions_eq (checks : List LimitCheck) : referenceDecisions checks =
    (history layers checks).map fun e => (e.1, .ofRefusal true e.2) := by
  induction checks using List.reverseRecOn with
  | nil => rfl
  | append_singleton checks c ih =>
    rw [history_append_singleton, map_append, ← ih]
    simp only [referenceDecisions, foldl_append, foldl_cons, foldl_nil]
    rw [← referenceDecisions, ih, reference_eq]
    rfl

/-- A client that is over its limit in one minute, and not in the next one. -/
def twoMinutes : List LimitCheck :=
  [0, 59, 60].map fun now =>
    ⟨.v4 0xc0000201#32, .strict, .fromMultipliers 1 4 16 64, now⟩

end Reference

/-! ## Bounds -/

section Bounds

variable {limiter : BoundedRateLimiter} {maxEntries : ℕ} {checks : List LimitCheck} {c : LimitCheck}
  {b : ℕ}

theorem length_keys_cleanup (s : LimitState) (b : ℕ) :
    (s.cleanup b).windows.keys.length ≤ s.windows.keys.length ∧
      (s.cleanup b).prefixes.keys.length ≤ s.prefixes.keys.length := by
  have hretain : ∀ {κ : Type} (table : LimitTable κ),
      (table.retain b).keys.length ≤ table.keys.length := fun table =>
    (filter_sublist.map Sigma.fst).length_le
  unfold cleanup
  split
  · exact ⟨Nat.le_refl _, Nat.le_refl _⟩
  · exact ⟨hretain _, hretain _⟩

theorem length_keys_le {κ : Type} [DecidableEq κ] {t t' : LimitTable κ} {size : ℕ} (key : κ)
    (ht : t.keys.length ≤ size)
    (hnew : ∀ k ∈ t', k ∈ t ∨ k = key ∧ (key ∈ t ∨ t.keys.length < size)) :
    t'.keys.length ≤ size := by
  by_cases hsub : t'.keys ⊆ t.keys
  · exact (subperm_of_subset t'.keys_nodup hsub).length_le.trans ht
  · -- The only key that is new is the given one, for which there was a place.
    obtain ⟨k, hk, hkt⟩ : ∃ k ∈ t'.keys, k ∉ t.keys := by
      simpa [subset_def] using hsub
    have hlt : t.keys.length < size := by
      obtain ⟨rfl, hplace⟩ := (hnew k hk).resolve_left hkt
      exact hplace.resolve_left hkt
    have hcons : t'.keys ⊆ key :: t.keys := fun k' hk' =>
      (hnew k' hk').elim (fun h => mem_cons_of_mem _ h) fun h => h.1 ▸ mem_cons_self
    exact (subperm_of_subset t'.keys_nodup hcons).length_le.trans hlt

theorem of_prefix_mem_charges {s : LimitState} {key : PrefixKey}
    (h : .netPrefix key ∈ (limiter.charges s c).map (·.1.2)) :
    key = c.prefixKey ∧ limiter.TracksPrefix s c.prefixKey := by
  unfold charges prefixCharges clientCharges at h
  split at h <;> split at h <;> simp_all

theorem of_client_mem_charges {s : LimitState} {key : LimitKey}
    (h : .client key ∈ (limiter.charges s c).map (·.1.2)) :
    key = c.key ∧ limiter.TracksKey s c.key := by
  unfold charges prefixCharges clientCharges at h
  split at h <;> split at h <;> simp_all

theorem length_keys_after (maxEntries : ℕ) (checks : List LimitCheck) :
    ((new maxEntries).after checks).state.windows.keys.length ≤ maxEntries ∧
      ((new maxEntries).after checks).state.prefixes.keys.length ≤
        (new maxEntries).maxPrefixes := by
  induction checks using List.reverseRecOn with
  | nil => exact ⟨Nat.zero_le _, Nat.zero_le _⟩
  | append_singleton checks c ih =>
    have hcurrent := current_after maxEntries checks
    have hmaxEntries : ((new maxEntries).after checks).maxEntries = maxEntries := maxEntries_after
    have hmaxPrefixes :
        ((new maxEntries).after checks).maxPrefixes = (new maxEntries).maxPrefixes :=
      maxPrefixes_after
    rw [after_append_singleton]
    generalize (new maxEntries).after checks = limiter at *
    obtain ⟨hwindows, hprefixes⟩ := length_keys_cleanup limiter.state c.bucket
    have hext := extends_check (c := c) hcurrent
    constructor
    · refine length_keys_le c.key (hwindows.trans ih.1) fun key hkey => ?_
      refine (hext.new _ (mem_windows_iff.1 hkey)).imp mem_windows_iff.2 ?_
      intro hmem
      obtain ⟨rfl, htracks⟩ := of_client_mem_charges hmem
      rw [← hmaxEntries]
      exact ⟨rfl, htracks⟩
    · refine length_keys_le c.prefixKey (hprefixes.trans ih.2) fun key hkey => ?_
      refine (hext.new _ (mem_prefixes_iff.1 hkey)).imp mem_prefixes_iff.2 ?_
      intro hmem
      obtain ⟨rfl, htracks⟩ := of_prefix_mem_charges hmem
      rw [← hmaxPrefixes]
      exact ⟨rfl, htracks⟩

variable {refusal : Option (ℕ × LimitCounter)}

theorem ofRefusal_mem_iff {tracked : Bool} :
    LimitDecision.ofRefusal tracked refusal ∈ [.allow, .allowFallback] ↔ refusal = none := by
  cases refusal <;> cases tracked <;> simp [LimitDecision.ofRefusal]

theorem ofRefusal_eq_allow_iff {tracked : Bool} :
    LimitDecision.ofRefusal tracked refusal = .allow ↔ refusal = none ∧ tracked = true := by
  cases refusal <;> cases tracked <;> simp [LimitDecision.ofRefusal]

theorem countP_decisions_le (hordered : Ordered checks) (budget : ℕ × LimitCounter) {limit : ℕ}
    {P : LimitCheck × LimitDecision → Bool}
    (hP : ∀ e ∈ (new maxEntries).found checks, ∀ refusal,
      P (e.1, .ofRefusal (e.2.tracked e.1) refusal) = true →
        refusal = none ∧ budget ∈ budgets (e.2.charged e.1))
    (hlimit : ∀ c ∈ checks, ∀ scope, c.budget scope = budget → c.limit scope ≤ limit) :
    ((new maxEntries).decisions checks).countP P ≤ limit := by
  -- What is let through paid the budget, and what is spent of it is within the limits.
  calc ((new maxEntries).decisions checks).countP P
      ≤ ledger (fun e => e.2.charged e.1) ((new maxEntries).found checks) budget := by
        rw [ledger_eq_countP (fun _ _ => nodup_charged),
          (decisions_eq_history hordered).1, countP_map]
        refine countP_mono_left fun e he hPe => ?_
        obtain ⟨hrefusal, hmem⟩ := hP e.1 (mem_of_mem_history he) e.2 hPe
        simpa [hrefusal] using hmem
    _ ≤ limit := by
        refine ledger_le fun e he l hl => ?_
        obtain ⟨scope, hbudget, rfl⟩ := mem_layers_iff.1 (charges_sublist.subset hl)
        have hmem : e.1 ∈ checks := by
          rw [← map_fst_found (new maxEntries) checks]
          exact mem_map_of_mem he
        exact hlimit e.1 hmem scope hbudget.symm

/-- A network has its place after the first of its checks in a minute. -/
def TrackedFromFirst (maxEntries : ℕ) (checks : List LimitCheck) (b : ℕ) (key : PrefixKey) : Prop :=
  ∀ earlier c later, checks = earlier ++ c :: later → c.bucket = b → c.prefixKey = key →
    (∀ c' ∈ earlier, ¬(c'.bucket = b ∧ c'.prefixKey = key)) →
    key ∈ ((new maxEntries).after (earlier ++ [c])).state.prefixes

variable {earlier later : List LimitCheck}

theorem isSome_window_after {k : LimitCounter} (hlater : ∀ c ∈ later, c.bucket = b)
    (hlast : ((new maxEntries).after earlier).state.lastCleanupBucket = some b)
    (h : (((new maxEntries).after earlier).state.window k).isSome) :
    ((new maxEntries).after (earlier ++ later)).state.lastCleanupBucket = some b ∧
      (((new maxEntries).after (earlier ++ later)).state.window k).isSome := by
  induction later using List.reverseRecOn with
  | nil =>
    rw [append_nil]
    exact ⟨hlast, h⟩
  | append_singleton later c ih =>
    obtain ⟨hlast', h'⟩ := ih fun c hc => hlater c (by simp [hc])
    obtain rfl : c.bucket = b := hlater c (by simp)
    have hcurrent := current_after maxEntries (earlier ++ later)
    rw [← append_assoc, after_append_singleton]
    refine ⟨lastCleanupBucket_check hcurrent, (extends_check hcurrent).kept k ?_⟩
    rwa [cleanup_of_eq hlast']

theorem TrackedFromFirst.mem_charged {key : PrefixKey}
    (h : TrackedFromFirst maxEntries checks b key) (hordered : Ordered checks)
    (heq : checks = earlier ++ c :: later) (hbucket : c.bucket = b) (hkey : c.prefixKey = key) :
    (b, .netPrefix key) ∈ budgets (((new maxEntries).after earlier).charged c) := by
  subst hbucket hkey
  cases hfirst : earlier.find? fun c' => c'.bucket = c.bucket ∧ c'.prefixKey = c.prefixKey with
  | none =>
    -- This is the first check, which gave the place.
    have hmem := h earlier c later heq rfl rfl (by simpa using hfirst)
    rw [after_append_singleton, mem_prefixes_iff] at hmem
    rcases (extends_check (current_after _ _)).new _ hmem with hold | hnew
    · exact prefix_mem_charged (.inl (mem_prefixes_iff.2 hold))
    · exact prefix_mem_charged (of_prefix_mem_charges hnew).2
  | some c₀ =>
    -- The first check gave the place, which is kept until here.
    obtain ⟨hc₀, before, between, rfl, hbefore⟩ := find?_eq_some_iff_append.1 hfirst
    obtain ⟨hbucket, hkey⟩ : c₀.bucket = c.bucket ∧ c₀.prefixKey = c.prefixKey := by
      simpa using hc₀
    have hmem := h before c₀ (between ++ c :: later) (by simp [heq]) hbucket hkey
      (by simpa only [Bool.not_eq_true', decide_eq_false_iff_not] using hbefore)
    -- The minutes do not go back, so all checks since then are of this minute.
    have hbetween : ∀ c' ∈ between, c'.bucket = c.bucket := by
      intro c' hc'
      rw [heq, Ordered, append_assoc, cons_append, pairwise_append,
        pairwise_cons, pairwise_append] at hordered
      have hge := hordered.2.1.1 c' (by simp [hc'])
      have hle := hordered.2.1.2.2.2 c' hc' c (by simp)
      omega
    have hlast : ((new maxEntries).after (before ++ [c₀])).state.lastCleanupBucket =
        some c.bucket := by
      rw [after_append_singleton, lastCleanupBucket_check (current_after _ _), hbucket]
    obtain ⟨hlast, hwindow⟩ :=
      isSome_window_after hbetween hlast (mem_prefixes_iff.1 hmem)
    rw [append_assoc, singleton_append] at hlast hwindow
    refine prefix_mem_charged (.inl (mem_prefixes_iff.2 ?_))
    rwa [cleanup_of_eq hlast]

/-- **The bounds of the limiter.** Whatever is checked, the tables stay within
    their bounds. If the minutes do not go back, what is let through in a minute
    is at most the largest limit: of all checks, of those of a class, of those of
    a network that has a place from its first check, and of those of a client for a class,
    as far as it is counted. -/
theorem decisions_bounded (maxEntries : ℕ) (checks : List LimitCheck) :
    ((new maxEntries).after checks).state.windows.keys.length ≤ maxEntries ∧
    ((new maxEntries).after checks).state.prefixes.keys.length ≤ (new maxEntries).maxPrefixes ∧
    (Ordered checks → ∀ b limit,
      ((∀ c ∈ checks, c.bucket = b → c.policy.globalRpm.toNat ≤ limit) →
        ((new maxEntries).decisions checks).countP
          (fun e => e.1.bucket = b ∧ e.2 ∈ [.allow, .allowFallback]) ≤ limit) ∧
      (∀ routeClass,
        (∀ c ∈ checks, c.bucket = b → c.routeClass = routeClass →
          c.policy.routeRpm.toNat ≤ limit) →
        ((new maxEntries).decisions checks).countP (fun e => e.1.bucket = b ∧
          e.1.routeClass = routeClass ∧ e.2 ∈ [.allow, .allowFallback]) ≤ limit) ∧
      (∀ key, TrackedFromFirst maxEntries checks b key →
        (∀ c ∈ checks, c.bucket = b → c.prefixKey = key → c.policy.prefixRpm.toNat ≤ limit) →
        ((new maxEntries).decisions checks).countP (fun e => e.1.bucket = b ∧
          e.1.prefixKey = key ∧ e.2 ∈ [.allow, .allowFallback]) ≤ limit) ∧
      (∀ key,
        (∀ c ∈ checks, c.bucket = b → c.key = key → c.policy.clientRpm.toNat ≤ limit) →
        ((new maxEntries).decisions checks).countP (fun e => e.1.bucket = b ∧
          e.1.key = key ∧ e.2 = .allow) ≤ limit)) := by
  obtain ⟨hwindows, hprefixes⟩ := length_keys_after maxEntries checks
  refine ⟨hwindows, hprefixes, fun hordered b limit => ⟨?_, ?_, ?_, ?_⟩⟩
  · intro hlimit
    refine countP_decisions_le hordered (b, .global) ?_ ?_
    · intro e he refusal h
      obtain ⟨rfl, hallowed⟩ := of_decide_eq_true h
      exact ⟨ofRefusal_mem_iff.1 hallowed, global_mem_charged⟩
    · intro c hc scope heq
      cases scope <;> cases heq
      exact hlimit c hc rfl
  · intro routeClass hlimit
    refine countP_decisions_le hordered (b, .route routeClass) ?_ ?_
    · intro e he refusal h
      obtain ⟨rfl, rfl, hallowed⟩ := of_decide_eq_true h
      exact ⟨ofRefusal_mem_iff.1 hallowed, route_mem_charged⟩
    · intro c hc scope heq
      cases scope <;> cases heq
      exact hlimit c hc rfl rfl
  · intro key htracked hlimit
    refine countP_decisions_le hordered (b, .netPrefix key) ?_ ?_
    · intro e he refusal h
      obtain ⟨hbucket, hkey, hallowed⟩ := of_decide_eq_true h
      obtain ⟨earlier, later, heq, hafter⟩ := exists_of_mem_found he
      rw [hafter]
      exact ⟨ofRefusal_mem_iff.1 hallowed, htracked.mem_charged hordered heq hbucket hkey⟩
    · intro c hc scope heq
      cases scope <;> cases heq
      exact hlimit c hc rfl rfl
  · intro key hlimit
    refine countP_decisions_le hordered (b, .client key) ?_ ?_
    · intro e he refusal h
      obtain ⟨rfl, rfl, hallowed⟩ := of_decide_eq_true h
      obtain ⟨hrefusal, htracked⟩ := ofRefusal_eq_allow_iff.1 hallowed
      exact ⟨hrefusal, client_mem_charged htracked⟩
    · intro c hc scope heq
      cases scope <;> cases heq
      exact hlimit c hc rfl rfl

/-- More networks than there are places. -/
def rotating : List LimitCheck :=
  [0xc0000201#32, 0xc6336401#32, 0xcb007101#32].map fun address =>
    ⟨.v4 address, .general, .fromMultipliers 1 1 2 2, 0⟩

theorem decisions_bounded_rotating :
    ((new 1).decisions rotating).map Prod.snd = [.allow, .allowFallback, .deny .global] ∧
      ((new 1).decisions rotating).countP
        (fun e => e.1.bucket = 0 ∧ e.2 ∈ [.allow, .allowFallback]) ≤ 2 :=
  ⟨by decide, ((decisions_bounded 1 rotating).2.2 (by decide) 0 2).1 (by decide)⟩

end Bounds

end BoundedRateLimiter

end VpsGuard
