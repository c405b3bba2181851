import Mathlib.Algebra.BigOperators.Group.Finset.Piecewise
import Mathlib.Algebra.BigOperators.Group.List.Basic
import Mathlib.Algebra.GroupWithZero.Nat
import Mathlib.Data.List.Induction
import VpsGuard.Store.Table

/-!
# Rollups

A rollup of some items has a row for each key that an item has, with the aggregate of
the items with that key (`Rolled`). What an aggregate is, is described by an
`Aggregate`: the values form a commutative monoid, whose sum is the aggregate, and
there are two operations of a program that compute sums as long as the values *fit*:
adding an item (`step`) and what a value becomes in a column (`column`).

A rollup is made of a batch in memory (`tallyAll`), and merged row by row into a table.
If the values fit, the table is then the rollup of all items (`Rolled.upsertAll`).
Rollups of the same items, in any order, have the same rows (`Rolled.lookup_eq`), and a
rollup by coarser keys combines the rows of one by finer keys (`total_group_eq_sum`).

Rows of numbers are described by a `Layout`: each column is a sum or a maximum of what
the items have. In memory a sum stays at a largest number, and a column has room for
the numbers up to one (`Layout.aggregate`).
-/

namespace Store

open List

variable {α K L V : Type*} [DecidableEq K] [AddCommMonoid V]

/-- The items with a key. -/
def group (key : α → Option K) (k : K) (items : List α) : List α :=
  items.filter fun a => key a = some k

theorem group_append (key : α → Option K) (k : K) (items batch : List α) :
    group key k (items ++ batch) = group key k items ++ group key k batch := filter_append _ _

/-- The row of a key: there is one if there are items. -/
def rowOf (aggregate : List α → V) (items : List α) : Option V :=
  if items = [] then none else some (aggregate items)

/-- How values are computed. -/
structure Aggregate (α V : Type*) [AddCommMonoid V] where
  /-- The value of an item. -/
  of : α → V
  /-- Add an item. -/
  step : V → α → V
  /-- The value in a column. -/
  column : V → V
  /-- The value can be computed. -/
  Fits : V → Prop
  fits_left : ∀ {v w}, Fits (v + w) → Fits v
  step_eq : ∀ {v a}, Fits (v + of a) → step v a = v + of a
  column_eq : ∀ {v}, Fits v → column v = v

namespace Aggregate

variable (agg : Aggregate α V)

/-- The aggregate of some items. -/
def total (items : List α) : V := (items.map agg.of).sum

theorem total_append (items batch : List α) :
    agg.total (items ++ batch) = agg.total items + agg.total batch := by
  rw [total, map_append, sum_append, ← total, ← total]

theorem total_singleton (a : α) : agg.total [a] = agg.of a := sum_singleton

theorem fits_right {v w : V} (h : agg.Fits (v + w)) : agg.Fits w := agg.fits_left (add_comm v w ▸ h)

/-- All groups can be computed. -/
def FitsAll (key : α → Option K) (items : List α) : Prop :=
  ∀ k, agg.Fits (agg.total (group key k items))

variable {agg} {key : α → Option K} {items batch : List α}

theorem FitsAll.left (h : agg.FitsAll key (items ++ batch)) : agg.FitsAll key items := fun k => by
  have hk := h k
  rw [group_append, total_append] at hk
  exact agg.fits_left hk

theorem FitsAll.right (h : agg.FitsAll key (items ++ batch)) : agg.FitsAll key batch := fun k => by
  have hk := h k
  rw [group_append, total_append] at hk
  exact agg.fits_right hk

theorem total_perm (h : items.Perm batch) : agg.total items = agg.total batch :=
  (h.map agg.of).sum_eq

theorem FitsAll.perm (h : agg.FitsAll key items) (hperm : items.Perm batch) :
    agg.FitsAll key batch := fun k => by
  have hgroup : (group key k items).Perm (group key k batch) := hperm.filter _
  rw [← total_perm hgroup]
  exact h k

/-- A group can be computed if all items together can. -/
theorem FitsAll.of_total (h : agg.Fits (agg.total items)) : agg.FitsAll key items := fun k => by
  have hperm := filter_append_perm (fun a => decide (key a = some k)) items
  rw [← total_perm hperm, total_append] at h
  exact agg.fits_left h

end Aggregate

variable {agg : Aggregate α V} {key : α → Option K} {items batch : List α}

/-- The rows are those of the groups. -/
def Rolled (agg : Aggregate α V) (key : α → Option K) (items : List α) (table : Table K V) : Prop :=
  ∀ k, table.lookup k = rowOf agg.total (group key k items)

/-- The sum of the rows of two groups. -/
theorem rowOf_append (l m : List α) : rowOf agg.total (l ++ m) =
    (rowOf agg.total l).merge (· + ·) (rowOf agg.total m) := by
  unfold rowOf
  cases l with
  | nil => cases m <;> rfl
  | cons a l =>
    cases m with
    | nil => simp
    | cons b m => simp [← Aggregate.total_append]

/-! ## In memory -/

/-- Add an item to the row of its key, which is a new one if there is none. -/
def tally (agg : Aggregate α V) (key : α → Option K) (table : Table K V) (a : α) : Table K V :=
  (key a).elim table fun k => table.insert k (agg.step ((table.lookup k).getD 0) a)

/-- Add the items of a list. -/
def tallyAll (agg : Aggregate α V) (key : α → Option K) (items : List α) : Table K V :=
  items.foldl (tally agg key) ∅

theorem tallyAll_concat (items : List α) (a : α) :
    tallyAll agg key (items ++ [a]) = tally agg key (tallyAll agg key items) a := by
  rw [tallyAll, foldl_append, ← tallyAll]
  rfl

theorem Rolled.getD {table : Table K V} (h : Rolled agg key items table) (k : K) :
    (table.lookup k).getD 0 = agg.total (group key k items) := by
  rw [h k]
  cases group key k items <;> rfl

/-- The row of a key is computed from its items. -/
theorem lookup_tallyAll (items : List α) (k : K) : (tallyAll agg key items).lookup k =
    rowOf (List.foldl agg.step 0) (group key k items) := by
  induction items using List.reverseRecOn with
  | nil => rfl
  | append_singleton items a ih =>
    rw [tallyAll_concat, tally]
    cases hkey : key a with
    | none => simp [ih, group, hkey]
    | some l =>
      rw [Option.elim_some]
      by_cases hk : k = l
      · subst hk
        have hgroup : group key k (items ++ [a]) = group key k items ++ [a] := by simp [group, hkey]
        have hrow : (rowOf (List.foldl agg.step 0) (group key k items)).getD 0 =
            (group key k items).foldl agg.step 0 := by
          cases group key k items <;> rfl
        rw [AList.lookup_insert, ih, hrow, hgroup, rowOf, if_neg (by simp), foldl_append]
        rfl
      · rw [AList.lookup_insert_ne hk, ih]
        simp [group, hkey, Ne.symm hk]

theorem foldl_step_eq (hfits : agg.Fits (agg.total items)) :
    items.foldl agg.step 0 = agg.total items := by
  induction items using List.reverseRecOn with
  | nil => rfl
  | append_singleton items a ih =>
    rw [agg.total_append, agg.total_singleton] at hfits ⊢
    rw [foldl_append, ih (agg.fits_left hfits)]
    exact agg.step_eq hfits

/-- What is made of a batch is its rollup. -/
theorem rolled_tallyAll (hfits : agg.FitsAll key items) :
    Rolled agg key items (tallyAll agg key items) := fun k => by
  rw [lookup_tallyAll, rowOf, rowOf, foldl_step_eq (hfits k)]

omit [AddCommMonoid V] in
theorem rowOf_perm {f : List α → V} (h : f items = f batch) (hperm : items.Perm batch) :
    rowOf f items = rowOf f batch := by
  have hnil : items = [] ↔ batch = [] := by
    rw [← length_eq_zero_iff, ← length_eq_zero_iff, hperm.length_eq]
  simp only [rowOf, h, hnil]

/-- If it does not matter which of two items is added first, the order does not matter. -/
theorem perm_tallyAll (hcomm : ∀ v a b, agg.step (agg.step v a) b = agg.step (agg.step v b) a)
    (hperm : items.Perm batch) :
    (tallyAll agg key items).entries.Perm (tallyAll agg key batch).entries := by
  refine lookup_ext (AList.nodupKeys _) (AList.nodupKeys _) fun k v => ?_
  have hgroup : (group key k items).Perm (group key k batch) := hperm.filter _
  change v ∈ (tallyAll agg key items).lookup k ↔ v ∈ (tallyAll agg key batch).lookup k
  rw [lookup_tallyAll, lookup_tallyAll,
    rowOf_perm (hgroup.foldl_eq' (fun a _ b _ v => hcomm v a b) 0) hgroup]

/-! ## In the database -/

/-- The rows of a table, with the columns of another. -/
def columns (agg : Aggregate α V) (stored : K → L) (row : Row K V) : Row L V :=
  ⟨stored row.1, agg.column row.2⟩

/-- The key in the database. -/
def storedKey (stored : K → L) (key : α → Option K) (a : α) : Option L := (key a).map stored

/-- Different keys of items are different ones in the database. -/
def Distinct (stored : K → L) (key : α → Option K) (items : List α) : Prop :=
  ∀ a ∈ items, ∀ b ∈ items, ∀ k l, key a = some k → key b = some l → stored k = stored l → k = l

section Columns

variable {stored : K → L} {table : Table K V} {k : K} {v : V}

omit [AddCommMonoid V] in
/-- A row comes from an item. -/
theorem exists_item {f : List α → V} (h : rowOf f (group key k items) = some v) :
    ∃ a ∈ items, key a = some k := by
  rw [rowOf] at h
  split at h
  · cases h
  · next hne =>
    obtain ⟨a, ha⟩ := exists_mem_of_ne_nil _ hne
    obtain ⟨hmem, hkey⟩ := mem_filter.1 ha
    exact ⟨a, hmem, of_decide_eq_true hkey⟩

theorem Rolled.exists_item (h : Rolled agg key items table)
    (hrow : (⟨k, v⟩ : Row K V) ∈ table.entries) : ∃ a ∈ items, key a = some k :=
  Store.exists_item ((h k).symm.trans (AList.mem_lookup_iff.2 hrow))

theorem Rolled.nodupKeys_columns (h : Rolled agg key items table)
    (hdistinct : Distinct stored key items) :
    (table.entries.map (columns agg stored)).NodupKeys := by
  have hkeys : (table.entries.map (columns agg stored)).keys = table.entries.keys.map stored := by
    rw [List.keys, List.keys, map_map, map_map]
    rfl
  rw [List.NodupKeys, hkeys]
  refine List.Nodup.map_on (fun k hk l hl heq => ?_) table.nodupKeys
  obtain ⟨⟨k, v⟩, hrow, rfl⟩ := mem_map.1 hk
  obtain ⟨⟨l, w⟩, hrow', rfl⟩ := mem_map.1 hl
  obtain ⟨a, ha, hka⟩ := h.exists_item hrow
  obtain ⟨b, hb, hlb⟩ := h.exists_item hrow'
  exact hdistinct a ha b hb k l hka hlb heq

variable [DecidableEq L]

/-- The group of a key is that of the key in the database. -/
theorem group_storedKey (hdistinct : Distinct stored key items) {a : α} (ha : a ∈ items)
    (hka : key a = some k) : group (storedKey stored key) (stored k) items = group key k items := by
  refine filter_congr fun b hb => decide_eq_decide.2 ?_
  rw [storedKey, Option.map_eq_some_iff]
  constructor
  · rintro ⟨l, hlb, heq⟩
    rw [hlb, hdistinct b hb a ha l k hlb hka heq]
  · exact fun hkb => ⟨k, hkb, rfl⟩

/-- The rows with the columns of the database are the rollup by the keys there. -/
theorem Rolled.dlookup_columns (h : Rolled agg key items table)
    (hdistinct : Distinct stored key items) (hfits : agg.FitsAll key items) (l : L) :
    (table.entries.map (columns agg stored)).dlookup l =
      rowOf agg.total (group (storedKey stored key) l items) := by
  by_cases hgroup : group (storedKey stored key) l items = []
  · rw [rowOf, if_pos hgroup, dlookup_eq_none]
    intro hl
    obtain ⟨row, hrow, hstored⟩ := mem_map.1 hl
    obtain ⟨⟨k, v⟩, hmem, rfl⟩ := mem_map.1 hrow
    obtain ⟨a, ha, hka⟩ := h.exists_item hmem
    have hstored : stored k = l := hstored
    have : a ∈ group (storedKey stored key) l items :=
      mem_filter.2 ⟨ha, by simp [storedKey, hka, hstored]⟩
    rw [hgroup] at this
    cases this
  · obtain ⟨a, ha⟩ := exists_mem_of_ne_nil _ hgroup
    obtain ⟨hmem, hkey⟩ := mem_filter.1 ha
    obtain ⟨k, hka, rfl⟩ := Option.map_eq_some_iff.1 (of_decide_eq_true hkey)
    rw [group_storedKey hdistinct hmem hka] at hgroup ⊢
    have hrow : (⟨k, agg.total (group key k items)⟩ : Row K V) ∈ table.entries := by
      rw [← AList.mem_lookup_iff, Option.mem_def, h k, rowOf, if_neg hgroup]
    rw [rowOf, if_neg hgroup]
    refine mem_dlookup (h.nodupKeys_columns hdistinct) (mem_map.2 ⟨_, hrow, ?_⟩)
    rw [columns, agg.column_eq (hfits k)]

/-- A batch is merged into the table, in any order of its rows. -/
theorem Rolled.upsertAll {table : Table L V} (h : Rolled agg (storedKey stored key) items table)
    (hdistinct : Distinct stored key batch) (hfits : agg.FitsAll key batch)
    {rows : List (Row K V)} (hrows : rows.Perm (tallyAll agg key batch).entries) :
    Rolled agg (storedKey stored key) (items ++ batch)
      (table.upsertAll (· + ·) (rows.map (columns agg stored))) := by
  intro l
  have hbatch := rolled_tallyAll hfits
  have hnodup := hbatch.nodupKeys_columns hdistinct
  have hperm := hrows.map (columns agg stored)
  have hrows := (perm_nodupKeys hperm).2 hnodup
  rw [lookup_upsertAll hrows, perm_dlookup l hrows hperm,
    hbatch.dlookup_columns hdistinct hfits, h l, group_append, rowOf_append]

/-- The same items have the same rows. -/
theorem Rolled.lookup_eq {table' : Table K V} (h : Rolled agg key items table)
    (h' : Rolled agg key batch table') (hperm : items.Perm batch) (k : K) :
    table.lookup k = table'.lookup k := by
  have hgroup : (group key k items).Perm (group key k batch) := hperm.filter _
  rw [h k, h' k, rowOf_perm (Aggregate.total_perm hgroup) hgroup]

end Columns

/-! ## Finer keys -/

/-- If the items of a key are those of several finer keys, the aggregate is the sum of
    theirs. -/
theorem total_group_eq_sum [DecidableEq L] {ι : Type*} [DecidableEq ι] {finer : α → Option L}
    {k : K}
    {s : Finset ι} {f : ι → L} (hf : Set.InjOn f s)
    (hfiner : ∀ a ∈ items, key a = some k ↔ ∃ i ∈ s, finer a = some (f i)) :
    agg.total (group key k items) = ∑ i ∈ s, agg.total (group finer (f i) items) := by
  induction items with
  | nil => exact (Finset.sum_const_zero).symm
  | cons a items ih =>
    rw [forall_mem_cons] at hfiner
    have hfirst (i : ι) : agg.total (group finer (f i) (a :: items)) =
        (if finer a = some (f i) then agg.of a else 0) + agg.total (group finer (f i) items) := by
      by_cases h : finer a = some (f i) <;> simp [group, h, Aggregate.total]
    have hsum : ∑ i ∈ s, (if finer a = some (f i) then agg.of a else 0) =
        if key a = some k then agg.of a else 0 := by
      split
      · next hk =>
        obtain ⟨i, hi, ha⟩ := hfiner.1.1 hk
        rw [Finset.sum_eq_single_of_mem i hi, if_pos ha]
        intro j hj hne
        refine if_neg fun hj' => hne (hf hj hi ?_)
        rw [← Option.some_inj, ← hj', ha]
      · next hk => exact Finset.sum_eq_zero fun i hi => if_neg fun ha => hk (hfiner.1.2 ⟨i, hi, ha⟩)
    simp only [hfirst, Finset.sum_add_distrib]
    rw [hsum, ← ih hfiner.2]
    by_cases h : key a = some k <;> simp [group, h, Aggregate.total]

/-- If every item has a key, the rows of a batch add up to its aggregate. -/
theorem sum_tallyAll (hfits : agg.FitsAll key items) (hkey : ∀ a ∈ items, (key a).isSome) :
    ((tallyAll agg key items).entries.map Sigma.snd).sum = agg.total items := by
  have hrolled := rolled_tallyAll hfits
  have hrows : (tallyAll agg key items).entries.map Sigma.snd =
      (tallyAll agg key items).keys.map fun k => agg.total (group key k items) := by
    rw [AList.keys, List.keys, map_map]
    refine map_congr_left fun row hrow => ?_
    rw [Function.comp_apply, ← hrolled.getD, AList.mem_lookup_iff.2 hrow]
    rfl
  have htotal : agg.total (group (fun _ => some ()) () items) =
      ∑ k ∈ (tallyAll agg key items).keys.toFinset, agg.total (group key k items) := by
    refine total_group_eq_sum (f := id) (Set.injOn_id _) fun a ha => ⟨fun _ => ?_, fun _ => rfl⟩
    obtain ⟨k, hk⟩ := Option.isSome_iff_exists.1 (hkey a ha)
    have hmem : a ∈ group key k items := mem_filter.2 ⟨ha, decide_eq_true hk⟩
    refine ⟨k, mem_toFinset.2 (AList.lookup_isSome.1 ?_), hk⟩
    rw [hrolled, rowOf, if_neg (ne_nil_of_mem hmem)]
    rfl
  rw [hrows, ← sum_toFinset _ (AList.keys_nodup _), ← htotal]
  simp [group]

/-! ## Rows of numbers -/

/-- How a column combines numbers: by their sum or their maximum. Numbers of a wide
    column may be too large for it. -/
inductive Combine
  | sum
  | max (wide : Bool)

/-- The number of two. -/
def Combine.op : Combine → ℕ → ℕ → ℕ
  | .sum, m, n => m + n
  | .max _, m, n => Max.max m n

/-- A number for each column. -/
def Values {ι : Type*} (_ : ι → Combine) : Type _ := ι → ℕ

namespace Values

variable {ι : Type*} {kind : ι → Combine}

/-- Column by column. -/
def merge (v w : Values kind) : Values kind := fun i => (kind i).op (v i) (w i)

instance : Add (Values kind) := ⟨merge⟩

instance : Zero (Values kind) := ⟨fun _ => 0⟩

theorem add_apply (v w : Values kind) (i : ι) : (v + w) i = (kind i).op (v i) (w i) := rfl

instance : AddCommMonoid (Values kind) where
  add_assoc u v w := funext fun i => by
    simp only [add_apply]
    cases kind i with
    | sum => exact Nat.add_assoc _ _ _
    | max _ => exact Nat.max_assoc _ _ _
  zero_add v := funext fun i => by
    rw [add_apply]
    cases kind i with
    | sum => exact Nat.zero_add _
    | max _ => exact Nat.zero_max _
  add_zero v := funext fun i => by
    rw [add_apply]
    cases kind i with
    | sum => exact Nat.add_zero _
    | max _ => exact Nat.max_zero _
  add_comm v w := funext fun i => by
    rw [add_apply, add_apply]
    cases kind i with
    | sum => exact Nat.add_comm _ _
    | max _ => exact Nat.max_comm _ _
  nsmul := nsmulRec

theorem sum_apply {i : ι} (hi : kind i = .sum) (l : List (Values kind)) :
    l.sum i = (l.map (· i)).sum := by
  induction l with
  | nil => rfl
  | cons v l ih => rw [sum_cons, add_apply, hi, map_cons, sum_cons, ← ih]; rfl

end Values

/-- The columns of the rows, and what an item has for each. -/
structure Layout (α ι : Type*) where
  kind : ι → Combine
  amount : ι → α → ℕ

namespace Layout

variable {ι : Type*} (layout : Layout α ι)

/-- The numbers of some items. -/
def ofGroup (items : List α) : Values layout.kind := fun i =>
  match layout.kind i with
  | .sum => (items.map (layout.amount i)).sum
  | .max _ => (items.map (layout.amount i)).foldr Max.max 0

/-- Add an item. A sum stays at the largest number. -/
def step (memory : ℕ) (v : Values layout.kind) (a : α) : Values layout.kind := fun i =>
  match layout.kind i with
  | .sum => min (v i + layout.amount i a) memory
  | .max _ => Max.max (v i) (layout.amount i a)

/-- The numbers in the columns. -/
def column (room : ℕ) (v : Values layout.kind) : Values layout.kind := fun i =>
  match layout.kind i with
  | .max false => v i
  | _ => min (v i) room

/-- The numbers are not too large. -/
def Fits (room : ℕ) (v : Values layout.kind) : Prop :=
  ∀ i, layout.kind i = .max false ∨ v i ≤ room

variable {layout} {v : Values layout.kind}

theorem fits_left {room : ℕ} {w : Values layout.kind} (h : layout.Fits room (v + w)) :
    layout.Fits room v := by
  intro i
  refine (h i).imp_right fun hi => le_trans ?_ hi
  rw [Values.add_apply]
  cases layout.kind i with
  | sum => exact Nat.le_add_right _ _
  | max _ => exact Nat.le_max_left _ _

theorem step_eq {memory room : ℕ} (hroom : room ≤ memory) {a : α}
    (h : layout.Fits room (v + layout.ofGroup [a])) :
    layout.step memory v a = v + layout.ofGroup [a] := by
  funext i
  have hi := h i
  rw [Values.add_apply] at hi ⊢
  unfold step ofGroup at *
  cases hkind : layout.kind i with
  | sum =>
    simp only [hkind, Combine.op, map_singleton, sum_singleton, reduceCtorEq, false_or] at hi ⊢
    exact min_eq_left (hi.trans hroom)
  | max wide => simp [Combine.op]

/-- It does not matter which of two items is added first. -/
theorem step_right_comm (memory : ℕ) (v : Values layout.kind) (a b : α) :
    layout.step memory (layout.step memory v a) b =
      layout.step memory (layout.step memory v b) a := by
  funext i
  unfold step
  cases layout.kind i <;> grind

theorem column_eq {room : ℕ} (h : layout.Fits room v) : layout.column room v = v := by
  funext i
  have hi := h i
  unfold column
  cases hkind : layout.kind i with
  | sum => exact min_eq_left (hi.resolve_left (by simp [hkind]))
  | max wide =>
    cases wide with
    | false => rfl
    | true => exact min_eq_left (hi.resolve_left (by simp [hkind]))

variable (layout)

/-- How the numbers are computed. -/
def aggregate (memory room : ℕ) (hroom : room ≤ memory) : Aggregate α (Values layout.kind) where
  of a := layout.ofGroup [a]
  step := layout.step memory
  column := layout.column room
  Fits := layout.Fits room
  fits_left := fits_left
  step_eq := step_eq hroom
  column_eq := column_eq

variable {layout} {memory room : ℕ} {hroom : room ≤ memory}

/-- The sum of the values is the numbers of the items. -/
theorem total_aggregate (items : List α) :
    (layout.aggregate memory room hroom).total items = layout.ofGroup items := by
  induction items with
  | nil =>
    funext i
    unfold ofGroup
    cases layout.kind i <;> rfl
  | cons a items ih =>
    have hcons : (layout.aggregate memory room hroom).total (a :: items) =
        layout.ofGroup [a] + (layout.aggregate memory room hroom).total items := sum_cons
    rw [hcons, ih]
    funext i
    rw [Values.add_apply]
    unfold ofGroup
    cases layout.kind i <;> simp [Combine.op]

end Layout

end Store
