import Mathlib.Algebra.GroupWithZero.Nat
import Mathlib.Algebra.Order.BigOperators.Group.List
import Mathlib.Data.List.Induction
import Mathlib.Tactic.Common

/-!
# Rings of counters

A ring has a number of *slots*, each for one key, with the sum of what was added
under it. Keys are points in time: what is added under a new key gets a new slot at
the end, and the oldest slots go when there are more than the ring has room for. A
sum does not go beyond a largest value.

The keys of the slots increase, whatever is added (`increasing_add`). If what is
added comes in the order of its keys, and the keys are multiples of a width, then a
ring with room for `capacity` slots has lost nothing of the last `capacity * width`
before a point after its newest key: the sum of the slots in that window is the sum
of what was added in it (`total_addAll`).
-/

namespace Window

open List

/-- The slots, a key with a sum, the oldest first. -/
abbrev Ring := List (ℕ × ℕ)

namespace Ring

variable {capacity top : ℕ}

/-- Add an amount under a key. What is older than the newest key, and has no slot, is
    not counted. -/
def add (capacity top : ℕ) (ring : Ring) (key amount : ℕ) : Ring :=
  if ∃ slot ∈ ring, slot.1 = key then
    ring.map fun slot => if slot.1 = key then (slot.1, min (slot.2 + amount) top) else slot
  else if ring.getLast?.any (·.1 > key) then ring
  else (ring ++ [(key, min amount top)]).drop (ring.length + 1 - capacity)

/-- Add the amounts of a list, each under its key. -/
def addAll (capacity top : ℕ) (entries : List (ℕ × ℕ)) : Ring :=
  entries.foldl (fun ring entry => ring.add capacity top entry.1 entry.2) []

theorem addAll_concat (entries : List (ℕ × ℕ)) (entry : ℕ × ℕ) :
    addAll capacity top (entries ++ [entry]) =
      (addAll capacity top entries).add capacity top entry.1 entry.2 := by
  rw [addAll, foldl_append, ← addAll]
  rfl

/-- The sum of the slots from a key on. -/
def total (top : ℕ) (ring : Ring) (start : ℕ) : ℕ :=
  min ((ring.filter (start ≤ ·.1)).map (·.2)).sum top

/-- The sum of what was added under a key. -/
def sumAt (key : ℕ) (entries : List (ℕ × ℕ)) : ℕ :=
  ((entries.filter (·.1 = key)).map (·.2)).sum

/-! ## What is kept, in any order -/

/-- The keys of the slots increase. -/
def Increasing (ring : Ring) : Prop := ring.Pairwise (·.1 < ·.1)

variable {ring : Ring}

theorem Increasing.lt_getLast (h : ring.Increasing) {slot last : ℕ × ℕ}
    (hlast : ring.getLast? = some last) (hslot : slot ∈ ring) : slot.1 ≤ last.1 := by
  obtain ⟨before, rfl⟩ := getLast?_eq_some_iff.1 hlast
  rcases mem_append.1 hslot with hbefore | hsame
  · exact ((pairwise_append.1 h).2.2 slot hbefore last mem_cons_self).le
  · rw [mem_singleton.1 hsame]

/-- A new slot is for a later key than the others. -/
theorem Increasing.concat (h : ring.Increasing) {key amount : ℕ}
    (hlater : ∀ slot ∈ ring, slot.1 < key) : Increasing (ring ++ [(key, amount)]) := by
  refine pairwise_append.2 ⟨h, pairwise_singleton _ _, fun slot hslot last hlast => ?_⟩
  rw [mem_singleton.1 hlast]
  exact hlater slot hslot

theorem increasing_add (h : ring.Increasing) (key amount : ℕ) :
    (ring.add capacity top key amount).Increasing := by
  unfold add
  split
  · refine (pairwise_map.2 (h.imp fun {a b} hab => ?_))
    split <;> split <;> exact hab
  · next hnew =>
    split
    · exact h
    · next hlast =>
      refine (h.concat fun slot hslot => ?_).sublist (drop_sublist _ _)
      cases hget : ring.getLast? with
      | none => rw [getLast?_eq_none_iff.1 hget] at hslot; cases hslot
      | some last =>
        rw [hget] at hlast
        have hle : last.1 ≤ key := by simpa using hlast
        have hne : slot.1 ≠ key := fun heq => hnew ⟨slot, hslot, heq⟩
        have := h.lt_getLast hget hslot
        omega

theorem length_add_le (h : ring.length ≤ capacity) (key amount : ℕ) :
    (ring.add capacity top key amount).length ≤ capacity := by
  unfold add
  split
  · rwa [length_map]
  · split
    · exact h
    · rw [length_drop, length_append, length_singleton]
      omega

theorem increasing_addAll (entries : List (ℕ × ℕ)) : (addAll capacity top entries).Increasing := by
  induction entries using List.reverseRecOn with
  | nil => exact .nil
  | append_singleton entries entry ih =>
    rw [addAll_concat]
    exact increasing_add ih _ _

theorem length_addAll_le (entries : List (ℕ × ℕ)) :
    (addAll capacity top entries).length ≤ capacity := by
  induction entries using List.reverseRecOn with
  | nil => exact Nat.zero_le _
  | append_singleton entries entry ih =>
    rw [addAll_concat]
    exact length_add_le ih _ _

/-! ## In the order of the keys -/

/-- What the ring holds of the entries so far: a slot has the sum of those under its
    key, and the entries without a slot are older than all the slots, of which there
    are then as many as there may be. -/
structure Holds (capacity top : ℕ) (entries : List (ℕ × ℕ)) (ring : Ring) : Prop where
  increasing : ring.Increasing
  length : ring.length ≤ capacity
  counted : ∀ slot ∈ ring, slot.2 = min (sumAt slot.1 entries) top
  origin : ∀ slot ∈ ring, ∃ entry ∈ entries, entry.1 = slot.1
  covered : ∀ entry ∈ entries, (∃ slot ∈ ring, slot.1 = entry.1) ∨
    ring.length = capacity ∧ ∀ slot ∈ ring, entry.1 < slot.1

theorem sumAt_concat (key : ℕ) (entries : List (ℕ × ℕ)) (entry : ℕ × ℕ) :
    sumAt key (entries ++ [entry]) = sumAt key entries + if entry.1 = key then entry.2 else 0 := by
  rw [sumAt, filter_append, map_append, sum_append, ← sumAt]
  split
  · next h => simp [h]
  · next h => simp [h]

section Order

variable {entries : List (ℕ × ℕ)} {ring : Ring} {key amount : ℕ}

section

variable (h : Holds capacity top entries ring)

include h

theorem Holds.le_of_order (horder : ∀ entry ∈ entries, entry.1 ≤ key) :
    ∀ slot ∈ ring, slot.1 ≤ key := by
  intro slot hslot
  obtain ⟨entry, hentry, heq⟩ := h.origin slot hslot
  exact heq ▸ horder entry hentry

/-- The amount goes to the slot of the key. -/
theorem Holds.concat_found (hfound : ∃ slot ∈ ring, slot.1 = key) :
    Holds capacity top (entries ++ [(key, amount)]) (ring.add capacity top key amount) := by
  have hincreasing : (ring.add capacity top key amount).Increasing :=
    increasing_add h.increasing _ _
  have hlength : (ring.add capacity top key amount).length ≤ capacity :=
    length_add_le h.length key amount
  rw [add, if_pos hfound] at hincreasing hlength ⊢
  -- Only the slot of the key changes, and no key does.
  have hkeys (slot : ℕ × ℕ) :
      (if slot.1 = key then (slot.1, min (slot.2 + amount) top) else slot).1 = slot.1 := by
    split <;> rfl
  refine ⟨hincreasing, hlength, ?_, ?_, ?_⟩
  · intro slot hslot
    obtain ⟨old, hold, rfl⟩ := mem_map.1 hslot
    have hcounted := h.counted old hold
    rw [hkeys, sumAt_concat]
    by_cases heq : old.1 = key
    · rw [if_pos heq, if_pos heq.symm]
      dsimp only
      omega
    · rw [if_neg heq, if_neg (Ne.symm heq), Nat.add_zero, hcounted]
  · intro slot hslot
    obtain ⟨old, hold, rfl⟩ := mem_map.1 hslot
    obtain ⟨entry, hentry, heq⟩ := h.origin old hold
    exact ⟨entry, mem_append_left _ hentry, by rw [hkeys, heq]⟩
  · intro entry hentry
    have hmapped {slot : ℕ × ℕ} (hslot : slot ∈ ring) {k : ℕ} (hk : slot.1 = k) :
        ∃ slot' ∈ ring.map fun slot =>
          if slot.1 = key then (slot.1, min (slot.2 + amount) top) else slot, slot'.1 = k :=
      ⟨_, mem_map.2 ⟨slot, hslot, rfl⟩, by rw [hkeys, hk]⟩
    rcases mem_append.1 hentry with hold | hnew
    · rcases h.covered entry hold with ⟨slot, hslot, heq⟩ | ⟨hfull, hless⟩
      · exact .inl (hmapped hslot heq)
      · refine .inr ⟨by rw [length_map, hfull], fun slot hslot => ?_⟩
        obtain ⟨old, hold, rfl⟩ := mem_map.1 hslot
        rw [hkeys]
        exact hless old hold
    · obtain ⟨slot, hslot, heq⟩ := hfound
      rw [mem_singleton.1 hnew]
      exact .inl (hmapped hslot heq)

theorem Holds.lt_of_fresh (horder : ∀ entry ∈ entries, entry.1 ≤ key)
    (hfresh : ¬ ∃ slot ∈ ring, slot.1 = key) :
    ∀ slot ∈ ring, slot.1 < key := fun slot hslot =>
  (h.le_of_order horder slot hslot).lt_of_ne fun heq => hfresh ⟨slot, hslot, heq⟩

variable (hcapacity : 1 ≤ capacity)

include hcapacity

/-- Nothing was added under a key that comes after all the slots. -/
theorem Holds.sumAt_eq_zero (hless : ∀ slot ∈ ring, slot.1 < key) : sumAt key entries = 0 := by
  have hnone : entries.filter (·.1 = key) = [] := by
    refine filter_eq_nil_iff.2 fun entry hentry heq => ?_
    have heq : entry.1 = key := by simpa using heq
    rcases h.covered entry hentry with ⟨slot, hslot, hsame⟩ | ⟨hfull, hafter⟩
    · exact (hless slot hslot).ne (hsame.trans heq)
    · obtain ⟨slot, hslot⟩ := exists_mem_of_length_pos (l := ring) (by omega)
      have := hafter slot hslot
      have := hless slot hslot
      omega
  rw [sumAt, hnone]
  rfl

/-- A new slot at the end, and the oldest one goes if there is no room for it: what has
    no slot then is older than all the slots. -/
theorem Holds.covered_concat (hless : ∀ slot ∈ ring, slot.1 < key) (sum : ℕ) {entry : ℕ × ℕ}
    (hentry : entry ∈ entries) :
    let next := (ring ++ [(key, sum)]).drop (ring.length + 1 - capacity)
    (∃ slot ∈ next, slot.1 = entry.1) ∨
      next.length = capacity ∧ ∀ slot ∈ next, entry.1 < slot.1 := by
  have hlength := h.length
  by_cases hroom : ring.length + 1 ≤ capacity
  · -- All slots stay.
    rw [Nat.sub_eq_zero_of_le hroom, drop_zero]
    obtain ⟨slot, hslot, heq⟩ := (h.covered entry hentry).resolve_right (by omega)
    exact .inl ⟨slot, mem_append_left _ hslot, heq⟩
  · -- The oldest slot goes.
    rw [show ring.length + 1 - capacity = 1 by omega]
    cases ring with
    | nil => exact absurd hcapacity hroom
    | cons oldest ring =>
      rw [cons_append, drop_one, tail_cons]
      have holdest : ∀ slot ∈ ring ++ [(key, sum)], oldest.1 < slot.1 := by
        intro slot hslot
        rcases mem_append.1 hslot with hslot | hslot
        · exact (pairwise_cons.1 h.increasing).1 slot hslot
        · rw [mem_singleton.1 hslot]
          exact hless oldest mem_cons_self
      have hfull : (ring ++ [(key, sum)]).length = capacity := by
        simp at hlength hroom ⊢
        omega
      rcases h.covered entry hentry with ⟨slot, hslot, heq⟩ | ⟨-, hafter⟩
      · rcases mem_cons.1 hslot with rfl | hslot
        · exact .inr ⟨hfull, fun slot hslot => heq ▸ holdest slot hslot⟩
        · exact .inl ⟨slot, mem_append_left _ hslot, heq⟩
      · have holder := hafter oldest mem_cons_self
        exact .inr ⟨hfull, fun slot hslot => holder.trans (holdest slot hslot)⟩

/-- There is a new slot for the key, and the oldest one may go. -/
theorem Holds.concat_fresh (horder : ∀ entry ∈ entries, entry.1 ≤ key)
    (hfresh : ¬ ∃ slot ∈ ring, slot.1 = key) :
    Holds capacity top (entries ++ [(key, amount)]) (ring.add capacity top key amount) := by
  have hless := h.lt_of_fresh horder hfresh
  have hlast : ¬ ring.getLast?.any (·.1 > key) := by
    rw [Option.any_eq_true]
    rintro ⟨last, hget, hgt⟩
    have hlt := hless last (mem_of_getLast? hget)
    have hgt : key < last.1 := by simpa using hgt
    omega
  have hincreasing : (ring.add capacity top key amount).Increasing :=
    increasing_add h.increasing _ _
  have hlength : (ring.add capacity top key amount).length ≤ capacity :=
    length_add_le h.length key amount
  rw [add, if_neg hfresh, if_neg hlast] at hincreasing hlength ⊢
  have hmem (slot : ℕ × ℕ)
      (hslot : slot ∈ (ring ++ [(key, min amount top)]).drop (ring.length + 1 - capacity)) :
      slot ∈ ring ∨ slot = (key, min amount top) := by
    simpa using mem_of_mem_drop hslot
  refine ⟨hincreasing, hlength, fun slot hslot => ?_, fun slot hslot => ?_, fun entry hentry => ?_⟩
  · rcases hmem slot hslot with hold | rfl
    · rw [sumAt_concat, if_neg (hless slot hold).ne', Nat.add_zero, h.counted slot hold]
    · rw [sumAt_concat, if_pos rfl, h.sumAt_eq_zero hcapacity hless, Nat.zero_add]
  · rcases hmem slot hslot with hold | rfl
    · obtain ⟨entry, hentry, heq⟩ := h.origin slot hold
      exact ⟨entry, mem_append_left _ hentry, heq⟩
    · exact ⟨(key, amount), by simp, rfl⟩
  · rcases mem_append.1 hentry with hold | hnew
    · exact h.covered_concat hcapacity hless _ hold
    · rw [mem_singleton.1 hnew]
      refine .inl ⟨(key, min amount top), ?_, rfl⟩
      rw [drop_append_of_le_length (by omega)]
      exact mem_append_right _ mem_cons_self

end

theorem holds_addAll (hcapacity : 1 ≤ capacity) (hsorted : entries.Pairwise (·.1 ≤ ·.1)) :
    Holds capacity top entries (addAll capacity top entries) := by
  induction entries using List.reverseRecOn with
  | nil => exact ⟨.nil, Nat.zero_le _, by simp [addAll], by simp [addAll], by simp⟩
  | append_singleton entries entry ih =>
    obtain ⟨hbefore, -, horder⟩ := pairwise_append.1 hsorted
    have horder : ∀ e ∈ entries, e.1 ≤ entry.1 := fun e he => horder e he entry mem_cons_self
    rw [addAll_concat]
    by_cases hfound : ∃ slot ∈ addAll capacity top entries, slot.1 = entry.1
    · exact (ih hbefore).concat_found hfound
    · exact (ih hbefore).concat_fresh hcapacity horder hfound

end Order

/-! ## Windows -/

/-- Cutting the parts off at the top does not change the sum that is cut off there. -/
theorem min_sum_min {α : Type*} (l : List α) (f : α → ℕ) :
    min (l.map fun a => min (f a) top).sum top = min (l.map f).sum top := by
  induction l with
  | nil => rfl
  | cons a l ih =>
    rw [map_cons, sum_cons, map_cons, sum_cons]
    omega

theorem sumAt_add {key : ℕ} {keys : List ℕ} (h : key ∉ keys) (entries : List (ℕ × ℕ)) :
    sumAt key entries + ((entries.filter (·.1 ∈ keys)).map (·.2)).sum =
      ((entries.filter (·.1 ∈ key :: keys)).map (·.2)).sum := by
  induction entries with
  | nil => rfl
  | cons entry entries ih =>
    simp only [sumAt] at ih ⊢
    by_cases hkey : entry.1 = key
    · have hnot : entry.1 ∉ keys := hkey ▸ h
      simp only [filter_cons, hkey, h, mem_cons_self, decide_true, decide_false, if_true,
        Bool.false_eq_true, if_false, map_cons, sum_cons]
      rw [← ih]
      omega
    · by_cases hkeys : entry.1 ∈ keys
      · simp only [filter_cons, hkey, hkeys, mem_cons, or_true, decide_true, decide_false,
          if_true, Bool.false_eq_true, if_false, map_cons, sum_cons] at ih ⊢
        rw [← ih]
        omega
      · simp only [filter_cons, hkey, hkeys, mem_cons, or_self, decide_false,
          Bool.false_eq_true, if_false] at ih ⊢
        exact ih

/-- The sums under several keys are the sum under one of them. -/
theorem sum_sumAt {keys : List ℕ} (hkeys : keys.Nodup) (entries : List (ℕ × ℕ)) :
    (keys.map (sumAt · entries)).sum = ((entries.filter (·.1 ∈ keys)).map (·.2)).sum := by
  induction keys with
  | nil => simp
  | cons key keys ih =>
    obtain ⟨hnot, hkeys⟩ := nodup_cons.1 hkeys
    rw [map_cons, sum_cons, ih hkeys, sumAt_add hnot]

/-- The newest of some slots is later than any key before them, by as many widths as
    there are slots. -/
theorem Increasing.exists_far {width k : ℕ} (h : ring.Increasing) (hne : ring ≠ [])
    (hkeys : ∀ slot ∈ ring, width ∣ slot.1) (hk : width ∣ k) (hless : ∀ slot ∈ ring, k < slot.1) :
    ∃ slot ∈ ring, k + ring.length * width ≤ slot.1 := by
  induction ring generalizing k with
  | nil => exact absurd rfl hne
  | cons slot ring ih =>
    rw [forall_mem_cons] at hkeys hless
    obtain ⟨hfirst, hrest⟩ := pairwise_cons.1 h
    have hstep : k + width ≤ slot.1 := by
      have hlt := hless.1
      have hle := Nat.le_of_dvd (Nat.sub_pos_of_lt hlt) (Nat.dvd_sub hkeys.1 hk)
      omega
    cases ring with
    | nil => exact ⟨slot, mem_cons_self, by simpa using hstep⟩
    | cons next ring =>
      obtain ⟨far, hfar, hle⟩ := ih hrest (cons_ne_nil _ _) hkeys.2 hkeys.1 hfirst
      refine ⟨far, mem_cons_of_mem _ hfar, le_trans ?_ hle⟩
      rw [length_cons, Nat.succ_mul]
      omega

/-- The sum of the slots in the window before a point after the newest key is the sum
    of what was added in that window. -/
theorem total_addAll {width now : ℕ} {entries : List (ℕ × ℕ)} (hcapacity : 1 ≤ capacity)
    (hkeys : ∀ entry ∈ entries, width ∣ entry.1) (hsorted : entries.Pairwise (·.1 ≤ ·.1))
    (hnow : ∀ slot ∈ addAll capacity top entries, slot.1 < now) :
    total top (addAll capacity top entries) (now - capacity * width) =
      min ((entries.filter (now - capacity * width ≤ ·.1)).map (·.2)).sum top := by
  have h : Holds capacity top entries (addAll capacity top entries) :=
    holds_addAll hcapacity hsorted
  generalize addAll capacity top entries = ring at h hnow ⊢
  generalize hstart : now - capacity * width = start
  have hnodup : ((ring.filter (start ≤ ·.1)).map Prod.fst).Nodup :=
    pairwise_map.2 ((h.increasing.filter _).imp fun hlt => hlt.ne)
  have hslots : (ring.filter (start ≤ ·.1)).map (·.2) =
      (ring.filter (start ≤ ·.1)).map fun slot => min (sumAt slot.1 entries) top :=
    map_congr_left fun slot hslot => h.counted slot (mem_filter.1 hslot).1
  have hsum : ((ring.filter (start ≤ ·.1)).map fun slot => sumAt slot.1 entries).sum =
      ((entries.filter (·.1 ∈ (ring.filter (start ≤ ·.1)).map Prod.fst)).map (·.2)).sum := by
    rw [← sum_sumAt hnodup, map_map]
    rfl
  -- An entry in the window has a slot.
  have hwindow : entries.filter (·.1 ∈ (ring.filter (start ≤ ·.1)).map Prod.fst) =
      entries.filter (start ≤ ·.1) := by
    refine filter_congr fun entry hentry => decide_eq_decide.2 ⟨fun hmem => ?_, fun hle => ?_⟩
    · obtain ⟨slot, hslot, heq⟩ := mem_map.1 hmem
      rw [← heq]
      simpa using (mem_filter.1 hslot).2
    · rcases h.covered entry hentry with ⟨slot, hslot, heq⟩ | ⟨hfull, hless⟩
      · exact mem_map.2 ⟨slot, mem_filter.2 ⟨hslot, by simpa [heq] using hle⟩, heq⟩
      · have hne : ring ≠ [] := ne_nil_of_length_pos (by omega)
        have hslots : ∀ slot ∈ ring, width ∣ slot.1 := fun slot hslot => by
          obtain ⟨origin, horigin, heq⟩ := h.origin slot hslot
          exact heq ▸ hkeys origin horigin
        obtain ⟨far, hfar, hlong⟩ := h.increasing.exists_far hne hslots (hkeys entry hentry) hless
        have hlt := hnow far hfar
        rw [hfull] at hlong
        omega
  rw [total, hslots, min_sum_min, hsum, hwindow]

end Ring

end Window
