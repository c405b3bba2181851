import VpsGuard.Text.Basic

/-!
# Words at the ends of texts

What the searches of `Text.Basic` find, as equations between lists:

* `strip?_eq_some` and `stripEnd?_eq_some` say what is left of a text without a
  word at its start or end;
* the case of letters does not matter to characters that are none
  (`toLower_eq_iff`), nor to cutting a text at them (`toLower_rdropWhile`);
* what the parts of a text begin with is the text up to a separator
  (`eq_or_append_of_splitOn_prefix`).
-/

namespace Text

open List

/-! ## Words -/

variable {start text word : List Char} {c : Char} {a b : List Char} {rest : List Char}

theorem strip?_eq_some : strip? start text = some rest ↔ text = start ++ rest := by
  rw [strip?]
  constructor
  · intro h
    split at h
    · next hstart =>
      obtain ⟨tail, rfl⟩ := isPrefixOf_iff_prefix.1 hstart
      rw [drop_left] at h
      rw [Option.some.inj h]
    · cases h
  · rintro rfl
    rw [if_pos (by simp), drop_left]

theorem strip?_eq_none : strip? start text = none ↔ ¬ start <+: text := by
  rw [strip?, ← isPrefixOf_iff_prefix]
  split <;> simp [*]

theorem stripEnd?_eq_some {stop : List Char} :
    stripEnd? stop text = some rest ↔ text = rest ++ stop := by
  rw [stripEnd?, Option.map_eq_some_iff]
  constructor
  · rintro ⟨tail, htail, rfl⟩
    rw [strip?_eq_some, reverse_eq_iff] at htail
    rw [htail, reverse_append, reverse_reverse]
  · rintro rfl
    exact ⟨rest.reverse, by rw [reverse_append, strip?_append], reverse_reverse _⟩

theorem startsWith_iff : startsWith word text ↔ word <+: text :=
  isPrefixOf_iff_prefix

theorem endsWith_iff : endsWith word text ↔ word <:+ text :=
  isSuffixOf_iff_suffix

theorem contains_iff : contains word text ↔ word <:+: text :=
  decide_eq_true_iff

/-- A word is before a character, or after it, or has it inside. -/
theorem infix_append_cons : word <:+: a ++ c :: b ↔ word <:+: a ∨ word <:+: b ∨
    ∃ w₁ w₂, word = w₁ ++ c :: w₂ ∧ w₁ <:+ a ∧ w₂ <+: b := by
  constructor
  · rintro ⟨s, t, hst⟩
    rcases append_eq_append_iff.1 hst with ⟨as, rfl, -⟩ | ⟨bs, hbs, hb⟩
    · exact .inl ⟨s, as, rfl⟩
    · rcases bs with _ | ⟨d, bs⟩
      · exact .inl ⟨s, [], by rw [hbs, append_nil, append_nil]⟩
      · obtain ⟨rfl, rfl⟩ := List.cons.inj hb
        rcases append_eq_append_iff.1 hbs with ⟨as, rfl, rfl⟩ | ⟨as, rfl, has⟩
        · exact .inr (.inr ⟨as, bs, rfl, suffix_append _ _, prefix_append _ _⟩)
        · rcases as with _ | ⟨d, as⟩
          · exact .inr (.inr ⟨[], bs, has.symm, nil_suffix, prefix_append _ _⟩)
          · obtain ⟨-, rfl⟩ := List.cons.inj has
            exact .inr (.inl ⟨as, t, rfl⟩)
  · rintro (h | h | ⟨w₁, w₂, rfl, ⟨s, rfl⟩, t, rfl⟩)
    · exact h.trans (prefix_append _ _).isInfix
    · exact h.trans ⟨a ++ [c], [], by simp⟩
    · exact ⟨s, t, by simp⟩

/-- A word is on one side of a character that it does not have. -/
theorem infix_append_cons_iff (hc : c ∉ word) :
    word <:+: a ++ c :: b ↔ word <:+: a ∨ word <:+: b := by
  rw [infix_append_cons]
  refine or_congr_right (or_iff_left ?_)
  rintro ⟨w₁, w₂, rfl, -, -⟩
  exact hc (mem_append_right _ mem_cons_self)

theorem splitOnce_eq_none : splitOnce c text = none ↔ c ∉ text := by
  rw [splitOnce]
  split <;> simp [*]

theorem splitOnce_eq_some : splitOnce c text = some (a, b) ↔ c ∉ a ∧ text = a ++ c :: b := by
  constructor
  · intro h
    by_cases hmem : c ∈ text
    · obtain ⟨before, after, rfl, hnot⟩ := eq_append_cons_of_mem hmem
      rw [splitOnce_append hnot] at h
      cases h
      exact ⟨hnot, rfl⟩
    · rw [splitOnce_eq_none.2 hmem] at h
      cases h
  · rintro ⟨hnot, rfl⟩
    exact splitOnce_append hnot b

theorem rsplitOnce_eq_some : rsplitOnce c text = some (a, b) ↔ c ∉ b ∧ text = a ++ c :: b := by
  constructor
  · intro h
    obtain ⟨⟨before, after⟩, hsplit, hparts⟩ := Option.map_eq_some_iff.1 h
    cases hparts
    obtain ⟨hnot, htext⟩ := splitOnce_eq_some.1 hsplit
    rw [reverse_eq_iff] at htext
    exact ⟨by simpa using hnot, by simp [htext]⟩
  · rintro ⟨hnot, rfl⟩
    exact rsplitOnce_append hnot a

/-! ## Parts -/

theorem splitOn_eq_singleton (h : c ∉ text) : text.splitOn c = [text] := by
  have hsingle : ([c].intercalate [text]).splitOn c = [text] :=
    splitOn_intercalate c (by simpa using h) (by simp)
  rwa [intercalate_singleton] at hsingle

theorem splitOn_append (h : c ∉ a) : ∃ part parts, (a ++ b).splitOn c = (a ++ part) :: parts := by
  by_cases hmem : c ∈ b
  · obtain ⟨part, after, rfl, hpart⟩ := eq_append_cons_of_mem hmem
    refine ⟨part, after.splitOn c, ?_⟩
    rw [← append_assoc, splitOn_append_cons_self_of_not_mem]
    exact fun hc => (mem_append.1 hc).elim h hpart
  · exact ⟨b, [], splitOn_eq_singleton fun hc => (mem_append.1 hc).elim h hmem⟩

/-- A part has no separator, and its characters are those of the text. -/
theorem of_mem_splitOn {text part : List Char} {c : Char} (h : part ∈ text.splitOn c) :
    c ∉ part ∧ part ⊆ text := by
  by_cases hmem : c ∈ text
  · obtain ⟨before, after, rfl, hnot⟩ := eq_append_cons_of_mem hmem
    rw [splitOn_append_cons_self_of_not_mem hnot, mem_cons] at h
    rcases h with rfl | h
    · exact ⟨hnot, subset_append_left _ _⟩
    · obtain ⟨hpart, hsubset⟩ := of_mem_splitOn h
      exact ⟨hpart, fun x hx => mem_append_right _ (mem_cons_of_mem _ (hsubset hx))⟩
  · rw [splitOn_eq_singleton hmem, mem_singleton] at h
    rw [h]
    exact ⟨hmem, List.Subset.refl _⟩
termination_by text.length

theorem not_mem_of_mem_splitOn {part : List Char} (h : part ∈ text.splitOn c) :
    c ∉ part := (of_mem_splitOn h).1

/-- What the parts of a text begin with is a text up to a separator. -/
theorem eq_or_append_of_splitOn_prefix (h : start.splitOn c <+: text.splitOn c) :
    text = start ∨ ∃ rest, text = start ++ c :: rest := by
  obtain ⟨parts, hparts⟩ := h
  have htext : [c].intercalate (text.splitOn c) = text := intercalate_splitOn c
  rw [← hparts] at htext
  cases parts with
  | nil =>
    rw [append_nil, intercalate_splitOn] at htext
    exact .inl htext.symm
  | cons part parts =>
    right
    have hclean : ∀ p ∈ part :: parts, c ∉ p := fun p hp =>
      not_mem_of_mem_splitOn (hparts ▸ mem_append_right _ hp)
    have hrest := splitOn_intercalate c hclean (cons_ne_nil _ _)
    refine ⟨[c].intercalate (part :: parts), ?_⟩
    rw [← hrest, ← splitOn_append_cons_self, intercalate_splitOn] at htext
    exact htext.symm

/-! ## The case of letters -/

/-- A letter in upper case is not the only one that is changed, and it becomes a letter. -/
theorem toLower_eq_iff {d : Char} (hd : ¬ d.isAlpha) : c.toLower = d ↔ c = d := by
  have hval : c.toNat = c.val.toNat := rfl
  have hupper : 'A'.val.toNat = 65 ∧ 'Z'.val.toNat = 90 := ⟨rfl, rfl⟩
  have hlower : 'a'.val.toNat = 97 ∧ 'z'.val.toNat = 122 := ⟨rfl, rfl⟩
  have halpha (c : Char) : c.isAlpha = (decide (c.val ≥ 'A'.val ∧ c.val ≤ 'Z'.val) ||
      (decide (c.val ≥ 'a'.val) && decide (c.val ≤ 'z'.val))) := rfl
  delta Char.toLower
  split
  · next h =>
    rw [ge_iff_le, UInt32.le_iff_toNat_le, UInt32.le_iff_toNat_le] at h
    constructor
    · rintro rfl
      refine absurd ?_ hd
      have hsum : (c.val + ('a'.val - 'A'.val)).toNat = c.val.toNat + 32 := by
        rw [UInt32.toNat_add, Nat.mod_eq_of_lt]
        · rfl
        · exact (Nat.add_lt_add_right (Nat.lt_succ_of_le h.2) _).trans (by decide)
      simp only [halpha, Bool.or_eq_true, Bool.and_eq_true, decide_eq_true_eq,
        ge_iff_le, UInt32.le_iff_toNat_le, hsum]
      omega
    · rintro rfl
      refine absurd ?_ hd
      simp only [halpha, Bool.or_eq_true, decide_eq_true_eq, ge_iff_le, UInt32.le_iff_toNat_le]
      omega
  · rfl

theorem toLower_toLower (text : List Char) : toLower (toLower text) = toLower text := by
  have hchar (c : Char) : c.toLower.toLower = c.toLower := by
    by_cases hupper : c.val ≥ 'A'.val ∧ c.val ≤ 'Z'.val
    · have hval : 'A'.val.toNat = 65 ∧ 'Z'.val.toNat = 90 := ⟨rfl, rfl⟩
      have hc := hupper
      simp only [ge_iff_le, UInt32.le_iff_toNat_le] at hc
      have hsum : c.toLower.val.toNat = c.val.toNat + 32 := by
        delta Char.toLower
        rw [dif_pos hupper, UInt32.toNat_add, Nat.mod_eq_of_lt]
        · rfl
        · exact (Nat.add_lt_add_right (Nat.lt_succ_of_le hc.2) _).trans (by decide)
      refine dif_neg ?_
      rw [ge_iff_le, UInt32.le_iff_toNat_le, UInt32.le_iff_toNat_le]
      omega
    · have hlower : c.toLower = c := dif_neg hupper
      rw [hlower, hlower]
  rw [toLower, toLower, map_map]
  exact map_congr_left fun c _ => hchar c

theorem toLower_append (a b : List Char) : toLower (a ++ b) = toLower a ++ toLower b :=
  map_append

theorem mem_toLower (hc : ¬ c.isAlpha) : c ∈ toLower text ↔ c ∈ text := by
  simp only [toLower, mem_map, toLower_eq_iff hc, exists_eq_right]

theorem toLower_rdropWhile (hc : ¬ c.isAlpha) (text : List Char) :
    toLower (text.rdropWhile (· = c)) = (toLower text).rdropWhile (· = c) := by
  induction text using List.reverseRecOn with
  | nil => rfl
  | append_singleton text d ih =>
    have hlower : toLower (text ++ [d]) = toLower text ++ [d.toLower] := toLower_append _ _
    have hiff := toLower_eq_iff (c := d) hc
    rw [hlower, rdropWhile_concat, rdropWhile_concat]
    by_cases hd : d = c
    · rw [if_pos (by simpa using hd), if_pos (by simpa using hiff.2 hd), ih]
    · rw [if_neg (by simpa using hd), if_neg (by simpa using mt hiff.1 hd), hlower]

/-- A word without letters is where it is, whatever the case of the letters. -/
theorem strip?_toLower (h : ∀ c ∈ start, ¬ c.isAlpha) (text : List Char) :
    strip? start (toLower text) = (strip? start text).map toLower := by
  have hstart : start <+: toLower text ↔ start <+: text := by
    induction start generalizing text with
    | nil => simp
    | cons c start ih =>
      cases text with
      | nil => simp [toLower]
      | cons d text =>
        have hiff := toLower_eq_iff (c := d) (h c mem_cons_self)
        have htail := ih (fun x hx => h x (mem_cons_of_mem _ hx)) text
        rw [toLower, map_cons, cons_prefix_cons, cons_prefix_cons, eq_comm, hiff,
          ← toLower, htail, eq_comm]
  rw [strip?, strip?]
  by_cases hprefix : start <+: text
  · rw [if_pos (List.isPrefixOf_iff_prefix.2 hprefix),
      if_pos (List.isPrefixOf_iff_prefix.2 (hstart.2 hprefix)), Option.map_some, toLower,
      toLower, map_drop]
  · rw [if_neg (mt isPrefixOf_iff_prefix.1 hprefix),
      if_neg (mt isPrefixOf_iff_prefix.1 (mt hstart.1 hprefix)), Option.map_none]

theorem eqIgnoreCase_iff : eqIgnoreCase a b ↔ toLower a = toLower b :=
  decide_eq_true_iff

end Text
