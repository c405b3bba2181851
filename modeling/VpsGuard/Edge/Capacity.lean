import Mathlib.Data.List.Induction

/-!
# The capacity of the origin

The requests that `guard-edge` has in flight at the origin are counted in one
shared number. A request gets a permit by raising the number
(`try_acquire_origin_capacity`), if it is below the maximum, and gives it back
when its context is dropped. Many requests do this at once, by atomic operations
only:

* an attempt loads the number, and gives up if it is at the maximum;
* otherwise it raises the number if it is still the one that was loaded
  (compare-exchange), which may also fail without a cause;
* if it does not succeed it has the number as it is now, and goes on with that;
* a context that is dropped lowers the gauge of all requests, and then the number
  at the origin if it has a permit.

Proved about every interleaving (`capacity_exact`): the number is that of the
contexts with a permit, so it never exceeds the maximum and is never lowered from
zero, and an attempt fails only if the number was at the maximum meanwhile.
-/

namespace VpsGuard.Capacity

open List Option

/-- What a context is about. -/
inductive Phase
  /-- Nothing. The last attempt returned as given. -/
  | rest (returned : Option Bool)
  /-- An attempt that has not loaded the number. -/
  | loading
  /-- An attempt that has loaded it. -/
  | comparing (current : UInt64)
  | dropping
  | dropped
  deriving DecidableEq

/-- A request, as far as its permit is concerned. -/
structure Context where
  /-- It counts in the gauge of all requests. -/
  tracked : Bool
  /-- It has a permit. -/
  holds : Bool
  phase : Phase
  deriving DecidableEq

/-- How many requests there are. -/
structure Gauges where
  inFlightRequests : UInt64
  originInFlightRequests : UInt64
  deriving DecidableEq

/-- What a context may do next. -/
inductive Action
  | tryAcquire
  | load
  /-- A compare-exchange, which may fail without a cause. -/
  | exchange (spurious : Bool)
  | drop
  | release
  deriving DecidableEq

namespace Context

/-- An attempt goes on with the number, or gives up. -/
def compare (c : Context) (max current : UInt64) : Context :=
  if current ≥ max then { c with phase := .rest (some false) }
  else { c with phase := .comparing current }

/-- An atomic operation of a context. -/
def act (max : UInt64) (c : Context) (g : Gauges) : Action → Option (Context × Gauges)
  | .tryAcquire =>
    match c.phase with
    | .rest _ =>
      some (if c.holds then { c with phase := .rest (some true) } else { c with phase := .loading }, g)
    | _ => none
  | .load =>
    match c.phase with
    | .loading => some (c.compare max g.originInFlightRequests, g)
    | _ => none
  | .exchange spurious =>
    match c.phase with
    | .comparing current =>
      if g.originInFlightRequests = current ∧ spurious = false then
        some ({ c with holds := true, phase := .rest (some true) },
          { g with originInFlightRequests := current + 1 })
      else some (c.compare max g.originInFlightRequests, g)
    | _ => none
  | .drop =>
    match c.phase with
    | .rest _ => some ({ c with phase := .dropping },
        if c.tracked then { g with inFlightRequests := g.inFlightRequests - 1 } else g)
    | _ => none
  | .release =>
    match c.phase with
    | .dropping => some ({ c with holds := false, phase := .dropped },
        if c.holds then { g with originInFlightRequests := g.originInFlightRequests - 1 } else g)
    | _ => none

end Context

/-- All contexts, and the numbers they share. -/
structure State where
  gauges : Gauges
  contexts : List Context
  deriving DecidableEq

/-- A context is made, or does something. -/
inductive Move
  | new (tracked : Bool)
  | act (i : ℕ) (a : Action)

namespace State

def start : State := ⟨⟨0, 0⟩, []⟩

def step (max : UInt64) (s : State) : Move → Option State
  | .new tracked => some
      { gauges :=
          if tracked then { s.gauges with inFlightRequests := s.gauges.inFlightRequests + 1 }
          else s.gauges
        contexts := s.contexts ++ [⟨tracked, false, .rest none⟩] }
  | .act i a => s.contexts[i]?.bind fun c => (c.act max s.gauges a).map fun r =>
      ⟨r.2, s.contexts.set i r.1⟩

def run (max : UInt64) (s : State) (moves : List Move) : Option State := moves.foldlM (step max) s

/-- The contexts with a permit. -/
def holders (s : State) : ℕ := s.contexts.countP (·.holds)

end State

/-! ## One operation -/

variable {max : UInt64} {c c' : Context} {g g' : Gauges} {a : Action}

/-- A context in an attempt has no permit, and an attempt goes on below the
    maximum. -/
def Context.Valid (max : UInt64) (c : Context) : Prop :=
  match c.phase with
  | .loading => c.holds = false
  | .comparing current => c.holds = false ∧ current < max
  | .rest _ | .dropping | .dropped => True

theorem Context.valid_compare (h : c.holds = false) (current : UInt64) :
    (c.compare max current).Valid max := by
  unfold compare
  split
  · trivial
  · next hlt => exact ⟨h, UInt64.not_le.1 hlt⟩

theorem Context.holds_compare (current : UInt64) : (c.compare max current).holds = c.holds := by
  unfold compare
  split <;> rfl

theorem Context.phase_compare {current : UInt64}
    (h : (c.compare max current).phase = .rest (some false)) : max ≤ current := by
  unfold compare at h
  split at h
  · next hle => exact hle
  · cases h

/-- What an operation does to the number and to the permit. -/
inductive Change (max : UInt64) (c : Context) (g : Gauges) (c' : Context) (g' : Gauges) : Prop
  | none : g'.originInFlightRequests = g.originInFlightRequests → c'.holds = c.holds →
      Change max c g c' g'
  | acquire : g.originInFlightRequests < max → c.holds = false →
      g'.originInFlightRequests = g.originInFlightRequests + 1 → c'.holds = true →
      Change max c g c' g'
  | release : c.holds = true → g'.originInFlightRequests = g.originInFlightRequests - 1 →
      c'.holds = false → Change max c g c' g'

theorem Change.toNat_eq (h : Change max c g c' g') (hle : g.originInFlightRequests ≤ max)
    (hpos : c.holds = true → 0 < g.originInFlightRequests.toNat) :
    g'.originInFlightRequests.toNat = g.originInFlightRequests.toNat -
        (if c.holds then 1 else 0) + (if c'.holds then 1 else 0) ∧
      g'.originInFlightRequests ≤ max := by
  have hmax := max.toNat_lt
  rw [UInt64.le_iff_toNat_le] at hle ⊢
  cases h with
  | none hsame hholds =>
    rw [hsame, hholds]
    refine ⟨?_, hle⟩
    split
    · next hc =>
      have := hpos hc
      omega
    · rfl
  | acquire hlt hfree hraised hholds =>
    rw [UInt64.lt_iff_toNat_lt] at hlt
    have hone : (1 : UInt64).toNat = 1 := rfl
    rw [hraised, UInt64.toNat_add, hone, hfree, hholds, Nat.mod_eq_of_lt (by omega)]
    exact ⟨rfl, by omega⟩
  | release hholds hlowered hfree =>
    have hone : (1 : UInt64).toNat = 1 := rfl
    have hle_self : (1 : UInt64) ≤ g.originInFlightRequests := UInt64.le_iff_toNat_le.2 (hpos hholds)
    rw [hlowered, UInt64.toNat_sub_of_le _ _ hle_self, hone, hholds, hfree]
    exact ⟨rfl, by omega⟩

theorem Context.act_spec (h : c.act max g a = some (c', g')) (hc : c.Valid max) :
    c'.Valid max ∧ Change max c g c' g' ∧
      (c'.phase = .rest (some false) → max ≤ g.originInFlightRequests) := by
  cases a with
  | tryAcquire =>
    rw [act] at h
    split at h
    · cases h
      split
      · exact ⟨trivial, .none rfl rfl, by simp⟩
      · next hfree =>
        have hvalid : Valid max { c with phase := .loading } := Bool.eq_false_iff.2 hfree
        exact ⟨hvalid, .none rfl rfl, by simp⟩
    · cases h
  | load =>
    rw [act] at h
    split at h
    · next hphase =>
      cases h
      have hfree : c.holds = false := by simpa only [Valid, hphase] using hc
      exact ⟨valid_compare hfree _, .none rfl (holds_compare _), phase_compare⟩
    · cases h
  | exchange spurious =>
    rw [act] at h
    split at h
    · next current hphase =>
      obtain ⟨hfree, hlt⟩ : c.holds = false ∧ current < max := by simpa only [Valid, hphase] using hc
      split at h
      · next heq =>
        -- The counter is still what was compared with the limit.
        cases h
        rw [← heq.1] at hlt
        exact ⟨trivial, .acquire hlt hfree (by rw [heq.1]) rfl, by simp⟩
      · cases h
        exact ⟨valid_compare hfree _, .none rfl (holds_compare _), phase_compare⟩
    · cases h
  | drop =>
    rw [act] at h
    split at h
    · cases h
      refine ⟨trivial, .none ?_ rfl, by simp⟩
      split <;> rfl
    · cases h
  | release =>
    rw [act] at h
    split at h
    · cases h
      refine ⟨trivial, ?_, by simp⟩
      split
      · next hholds => exact .release hholds rfl rfl
      · next hfree => exact .none rfl (by simpa using hfree)
    · cases h

/-! ## Interleavings -/

namespace State

variable {s t : State} {m : Move} {moves : List Move}

/-- The number is that of the permits, up to the maximum. -/
structure Exact (max : UInt64) (s : State) : Prop where
  valid : ∀ c ∈ s.contexts, c.Valid max
  count : s.gauges.originInFlightRequests.toNat = s.holders
  le_max : s.gauges.originInFlightRequests ≤ max

theorem Exact.step (hs : Exact max s) (h : s.step max m = some t) : Exact max t := by
  cases m with
  | new tracked =>
    cases h
    refine ⟨?_, ?_, ?_⟩
    · exact List.forall_mem_append.2 ⟨hs.valid, List.forall_mem_singleton.2 trivial⟩
    · have hcount := hs.count
      simp only [holders, List.countP_append, List.countP_singleton, Bool.false_eq_true, if_false,
        Nat.add_zero] at hcount ⊢
      rw [← hcount]
      split <;> rfl
    · have hle := hs.le_max
      dsimp only
      split <;> exact hle
  | act i a =>
    obtain ⟨c, hc, hmap⟩ := bind_eq_some_iff.1 h
    obtain ⟨⟨c', g'⟩, hact, rfl⟩ := map_eq_some_iff.1 hmap
    obtain ⟨hlt, rfl⟩ := List.getElem?_eq_some_iff.1 hc
    obtain ⟨hvalid, hchange, -⟩ := Context.act_spec hact (hs.valid _ (List.getElem_mem hlt))
    have hvalid' : ∀ x ∈ s.contexts.set i c', x.Valid max := by
      intro x hx
      rcases List.mem_or_eq_of_mem_set hx with hx | rfl
      · exact hs.valid x hx
      · exact hvalid
    have hpos : s.contexts[i].holds = true → 0 < s.gauges.originInFlightRequests.toNat := by
      intro hholds
      rw [hs.count]
      exact List.countP_pos_iff.2 ⟨_, List.getElem_mem hlt, hholds⟩
    obtain ⟨hcount, hle⟩ := hchange.toNat_eq hs.le_max hpos
    refine ⟨hvalid', ?_, hle⟩
    rw [hcount, hs.count]
    exact (List.countP_set hlt).symm

theorem exact_start (max : UInt64) : Exact max start := by
  refine ⟨fun _ hc => absurd hc not_mem_nil, rfl, ?_⟩
  rw [UInt64.le_iff_toNat_le]
  exact Nat.zero_le _

theorem Exact.run (hs : Exact max s) (h : s.run max moves = some t) : Exact max t := by
  induction moves generalizing s with
  | nil => exact Option.some.inj h ▸ hs
  | cons m moves ih =>
    obtain ⟨u, hu, ht⟩ := bind_eq_some_iff.1 h
    exact ih (hs.step hu) ht

theorem run_append (moves moves' : List Move) :
    s.run max (moves ++ moves') = (s.run max moves).bind (·.run max moves') :=
  foldlM_append

/-! ## Attempts that fail -/

variable {i : ℕ}

/-- A context whose attempt has failed has failed before, or finds the number at the
    maximum now. -/
theorem Exact.step_refused (hs : Exact max s) (h : s.step max m = some t)
    (hc : t.contexts[i]? = some c) (hrefused : c.phase = .rest (some false)) :
    (∃ c', s.contexts[i]? = some c' ∧ c'.phase = .rest (some false)) ∨
      s.gauges.originInFlightRequests = max := by
  cases m with
  | new tracked =>
    cases h
    rw [getElem?_append] at hc
    split at hc
    · exact .inl ⟨c, hc, hrefused⟩
    · -- The new context has made no attempt.
      rw [getElem?_singleton] at hc
      split at hc
      · cases hc
        cases hrefused
      · cases hc
  | act j a =>
    obtain ⟨old, hold, hmap⟩ := bind_eq_some_iff.1 h
    obtain ⟨⟨c', g'⟩, hact, rfl⟩ := map_eq_some_iff.1 hmap
    obtain rfl | hne := eq_or_ne j i
    · have hlt := (List.getElem?_eq_some_iff.1 hold).1
      rw [getElem?_set_self hlt] at hc
      cases hc
      obtain ⟨-, -, hmax⟩ := Context.act_spec hact (hs.valid _ (mem_of_getElem? hold))
      exact .inr (UInt64.le_antisymm hs.le_max (hmax hrefused))
    · rw [getElem?_set_ne hne] at hc
      exact .inl ⟨c, hc, hrefused⟩

theorem phase_of_tryAcquire (h : s.step max (.act i .tryAcquire) = some t)
    (hc : t.contexts[i]? = some c) : c.phase ≠ .rest (some false) := by
  obtain ⟨old, hold, hmap⟩ := bind_eq_some_iff.1 h
  obtain ⟨⟨c', g'⟩, hact, rfl⟩ := map_eq_some_iff.1 hmap
  rw [List.getElem?_set_self (List.getElem?_eq_some_iff.1 hold).1] at hc
  cases hc
  rw [Context.act] at hact
  split at hact
  · cases hact
    split <;> simp
  · cases hact

theorem exists_maximum {before during : List Move}
    (h : start.run max (before ++ .act i .tryAcquire :: during) = some s)
    (hc : s.contexts[i]? = some c) (hrefused : c.phase = .rest (some false)) :
    ∃ d e t, during = d ++ e ∧ start.run max (before ++ .act i .tryAcquire :: d) = some t ∧
      t.gauges.originInFlightRequests = max := by
  -- Backwards from the end of the attempt, to the operation by which it failed.
  induction during using List.reverseRecOn generalizing s c with
  | nil =>
    rw [run_append] at h
    obtain ⟨u, -, hstep⟩ := bind_eq_some_iff.1 h
    obtain ⟨v, hv, hnil⟩ := bind_eq_some_iff.1 hstep
    cases hnil
    exact absurd hrefused (phase_of_tryAcquire hv hc)
  | append_singleton during m ih =>
    rw [← cons_append, ← append_assoc, run_append] at h
    obtain ⟨u, hu, hstep⟩ := bind_eq_some_iff.1 h
    obtain ⟨v, hv, hnil⟩ := bind_eq_some_iff.1 hstep
    cases hnil
    rcases ((exact_start max).run hu).step_refused hv hc hrefused with ⟨c', hc', hrefused'⟩ | hmax
    · obtain ⟨d, e, t, rfl, ht, hmax⟩ := ih hu hc' hrefused'
      exact ⟨d, e ++ [m], t, append_assoc _ _ _, ht, hmax⟩
    · exact ⟨during, [m], u, rfl, hu, hmax⟩

/-- The number at the origin is that of the permits. It never exceeds the maximum and
    is never lowered from zero, and it was at the maximum during every attempt that
    has failed. -/
theorem capacity_exact (h : start.run max moves = some s) :
    s.gauges.originInFlightRequests.toNat = s.holders ∧ s.gauges.originInFlightRequests ≤ max ∧
      (∀ i c t, s.contexts[i]? = some c → c.holds = true → s.step max (.act i .release) = some t →
        0 < s.gauges.originInFlightRequests) ∧
      ∀ before during i c, moves = before ++ .act i .tryAcquire :: during →
        s.contexts[i]? = some c → c.phase = .rest (some false) →
        ∃ d e t, during = d ++ e ∧ start.run max (before ++ .act i .tryAcquire :: d) = some t ∧
          t.gauges.originInFlightRequests = max := by
  have hexact := (exact_start max).run h
  refine ⟨hexact.count, hexact.le_max, fun i c t hc hholds _ => ?_, ?_⟩
  · rw [UInt64.lt_iff_toNat_lt, hexact.count]
    exact countP_pos_iff.2 ⟨c, mem_of_getElem? hc, hholds⟩
  · rintro before during i c rfl hc hrefused
    exact exists_maximum h hc hrefused

/-- One permit for two requests: the second one loads the number before the first one
    raises it, fails to exchange it, and gives up. -/
def twoRequests : List Move :=
  [.new true, .new true, .act 0 .tryAcquire, .act 1 .tryAcquire, .act 0 .load, .act 1 .load,
    .act 0 (.exchange false), .act 1 (.exchange false)]

def twoContexts : State :=
  ⟨⟨2, 1⟩, [⟨true, true, .rest (some true)⟩, ⟨true, false, .rest (some false)⟩]⟩

theorem capacity_exact_twoRequests : start.run 1 twoRequests = some twoContexts ∧
    twoContexts.gauges.originInFlightRequests.toNat = twoContexts.holders ∧
    twoContexts.gauges.originInFlightRequests ≤ 1 := by
  have hrun : start.run 1 twoRequests = some twoContexts := by decide
  obtain ⟨hcount, hle, -⟩ := capacity_exact hrun
  exact ⟨hrun, hcount, hle⟩

end State

end VpsGuard.Capacity
