import Mathlib.Data.List.AList
import Mathlib.Data.List.Perm.Basic
import Mathlib.Tactic.Common

/-!
# Tables of a database

A table has rows with a primary key (`Table`), so that no two rows have the same key.
Rows are inserted, or merged into the row that is there (`upsert`), and some of the
rows with a property are deleted or changed, not more than a limit (`select`,
`deleteIn`, `updateIn`).

In which order a database goes through the rows is not specified. It is a parameter
(`Scan`), of which nothing is known but that it goes through all of them. Whatever it
is, merging a list of rows merges the row of each key (`lookup_upsertAll`), and what
is selected has the property, as many rows as there are or as the limit allows
(`countP_deleteIn_select`, `countP_updateIn_select`).
-/

namespace Store

open List

/-- Rows with a primary key. -/
abbrev Table (K V : Type*) := AList fun _ : K => V

/-- A row. -/
abbrev Row (K V : Type*) := Sigma fun _ : K => V

/-- An order in which rows are gone through. -/
structure Scan (α : Type*) where
  order : List α → List α
  perm : ∀ l, (order l).Perm l

/-- In the order of the list. -/
def Scan.inOrder (α : Type*) : Scan α := ⟨id, fun _ => .refl _⟩

variable {K V : Type*}

section Merging

variable [DecidableEq K]

namespace Table

/-- Insert a row, or merge it into the row with its key. -/
def upsert (merge : V → V → V) (table : Table K V) (row : Row K V) : Table K V :=
  table.insert row.1 ((table.lookup row.1).elim row.2 (merge · row.2))

/-- Insert or merge the rows of a list, one after the other. -/
def upsertAll (merge : V → V → V) (table : Table K V) (rows : List (Row K V)) : Table K V :=
  rows.foldl (upsert merge) table

end Table

variable {merge : V → V → V} {table : Table K V}

theorem lookup_upsert (row : Row K V) (k : K) : (table.upsert merge row).lookup k =
    if k = row.1 then (table.lookup k).merge merge (some row.2) else table.lookup k := by
  unfold Table.upsert
  by_cases h : k = row.1
  · rw [if_pos h, h, AList.lookup_insert]
    cases table.lookup row.1 <;> rfl
  · rw [if_neg h, AList.lookup_insert_ne h]

/-- Each row is merged into the row with its key. -/
theorem lookup_upsertAll {rows : List (Row K V)} (hrows : rows.NodupKeys) (k : K) :
    (table.upsertAll merge rows).lookup k =
      (table.lookup k).merge merge (rows.dlookup k) := by
  induction rows generalizing table with
  | nil => cases h : table.lookup k <;> simp [Table.upsertAll, h]
  | cons row rows ih =>
    obtain ⟨hnot, hrows⟩ := nodupKeys_cons.1 hrows
    rw [Table.upsertAll, foldl_cons, ← Table.upsertAll, ih hrows, lookup_upsert]
    by_cases h : k = row.1
    · have hrest : rows.dlookup k = none := dlookup_eq_none.2 (h ▸ hnot)
      have hfirst : (row :: rows).dlookup k = some row.2 := by
        rw [h]
        exact dlookup_cons_eq rows row.1 row.2
      rw [if_pos h, hrest, hfirst]
      cases table.lookup k <;> rfl
    · rw [if_neg h, dlookup_cons_ne rows row h]

end Merging

/-! ## Some of the rows -/

section Some

namespace Table

variable [DecidableEq K]

/-- The keys of rows with a property, not more than a limit. -/
def select (table : Table K V) (scan : Scan (Row K V)) (p : Row K V → Bool) (limit : ℕ) : List K :=
  (((scan.order table.entries).filter p).take limit).map (·.1)

/-- Delete the rows with some keys. -/
def deleteIn (table : Table K V) (keys : List K) : Table K V where
  entries := table.entries.filter fun row => row.1 ∉ keys
  nodupKeys := table.nodupKeys.sublist filter_sublist

/-- Change the rows with some keys. -/
def updateIn (table : Table K V) (keys : List K) (f : V → V) : Table K V where
  entries := table.entries.map fun row => if row.1 ∈ keys then ⟨row.1, f row.2⟩ else row
  nodupKeys := by
    have hkeys : (table.entries.map fun row : Row K V =>
        if row.1 ∈ keys then (⟨row.1, f row.2⟩ : Row K V) else row).keys = table.entries.keys := by
      rw [List.keys, map_map]
      refine map_congr_left fun row _ => ?_
      rw [Function.comp_apply]
      split <;> rfl
    rw [List.NodupKeys, hkeys]
    exact table.nodupKeys

end Table

variable {table : Table K V} {scan : Scan (Row K V)} {p : Row K V → Bool} {limit : ℕ}

/-- What is selected has the property. -/
theorem of_mem_select {row : Row K V} (hrow : row ∈ table.entries)
    (hkey : row.1 ∈ table.select scan p limit) : p row := by
  obtain ⟨row', hrow', heq⟩ := mem_map.1 hkey
  obtain ⟨hmem, hp⟩ := mem_filter.1 (mem_of_mem_take hrow')
  have hmem := (scan.perm _).mem_iff.1 hmem
  have hsame : row' = row := table.nodupKeys.eq_of_fst_eq hmem hrow heq
  exact hsame ▸ hp

variable [DecidableEq K]

/-- The rows that are left of those with the property, if the selected ones are not
    counted. -/
theorem countP_not_select :
    table.entries.countP (fun row => p row && decide (row.1 ∉ table.select scan p limit)) =
      table.entries.countP p - limit := by
  have hperm : ((scan.order table.entries).filter p).Perm (table.entries.filter p) :=
    (scan.perm _).filter p
  have hnodup : ((scan.order table.entries).filter p).NodupKeys :=
    (perm_nodupKeys (scan.perm _)).2 table.nodupKeys |>.sublist filter_sublist
  simp only [Bool.and_comm (p _)]
  rw [← countP_filter, ← hperm.countP_eq, countP_eq_length_filter (p := p), ← hperm.length_eq]
  unfold Table.select
  generalize (scan.order table.entries).filter p = rows at hnodup
  -- The first ones are selected, and the others have other keys.
  have hsplit : rows.take limit ++ rows.drop limit = rows := take_append_drop limit rows
  have hfirst : (rows.take limit).countP
      (fun row => decide (row.1 ∉ (rows.take limit).map (·.1))) = 0 := by
    refine countP_eq_zero.2 fun row hrow hnot => ?_
    exact of_decide_eq_true hnot (mem_map_of_mem hrow)
  have hothers : (rows.drop limit).countP
      (fun row => decide (row.1 ∉ (rows.take limit).map (·.1))) = (rows.drop limit).length := by
    refine countP_eq_length.2 fun row hrow => decide_eq_true fun hmem => ?_
    obtain ⟨row', hrow', heq⟩ := mem_map.1 hmem
    have hkeys : (rows.take limit ++ rows.drop limit).NodupKeys := by rwa [hsplit]
    rw [List.NodupKeys, List.keys, map_append] at hkeys
    exact (nodup_append.1 hkeys).2.2 _ (mem_map_of_mem hrow') _ (mem_map_of_mem hrow) heq
  calc rows.countP (fun row => decide (row.1 ∉ (rows.take limit).map (·.1)))
      = (rows.take limit ++ rows.drop limit).countP
          (fun row => decide (row.1 ∉ (rows.take limit).map (·.1))) := by rw [hsplit]
    _ = rows.length - limit := by
        rw [countP_append, hfirst, hothers, Nat.zero_add, length_drop]

/-- Of the rows with the property there are fewer, by the limit. -/
theorem countP_deleteIn_select : (table.deleteIn (table.select scan p limit)).entries.countP p =
      table.entries.countP p - limit := by
  rw [Table.deleteIn, countP_filter, countP_not_select]

/-- Of the rows with the property there are fewer, by the limit, if a change makes them
    lose it. -/
theorem countP_updateIn_select {f : V → V} (hf : ∀ row, p row → p ⟨row.1, f row.2⟩ = false) :
    (table.updateIn (table.select scan p limit) f).entries.countP p =
      table.entries.countP p - limit := by
  rw [Table.updateIn, countP_map, ← @countP_not_select _ _ _ scan]
  refine countP_congr fun row hrow => ?_
  rw [Function.comp_apply]
  split
  · next hkey => simp [hf row (of_mem_select hrow hkey), hkey]
  · next hkey => simp [hkey]

end Some

end Store
