import Mathlib.Algebra.Ring.Nat
import Mathlib.Data.List.DropRight
import Mathlib.Data.List.Infix
import Mathlib.Tactic.Common

/-!
# Texts as lists of characters

What programs do with the output of other programs: cut it into lines, strip
blanks, look for a separator, and read a number. A text is a `List Char`, so
that all of it computes.

* `lines` cuts at line feeds, and drops a carriage return before one;
  `unlines` puts the lines back (`lines_unlines`);
* `trim` strips white space from both ends (`trim_cons_append`, `trim_eq_self`);
* `splitOnce` and `rsplitOnce` cut at the first and at the last occurrence of a
  character (`splitOnce_append`, `rsplitOnce_append`);
* `contains`, `startsWith` and `endsWith` look for a word;
* `parseUnsigned` reads a number below a bound, and reads back what is printed
  (`parseUnsigned_toDigits`).
-/

namespace Text

open List

/-! ## White space -/

/-- The characters with the property `White_Space`. -/
def isWhitespace (c : Char) : Bool :=
  (9 ≤ c.toNat && c.toNat ≤ 13) || (0x2000 ≤ c.toNat && c.toNat ≤ 0x200A) ||
    [0x20, 0x85, 0xA0, 0x1680, 0x2028, 0x2029, 0x202F, 0x205F, 0x3000].contains c.toNat

/-- Strip white space from both ends. -/
def trim (text : List Char) : List Char := (text.dropWhile isWhitespace).rdropWhile isWhitespace

variable {c w : Char} {text : List Char} {n : ℕ}

/-- The printed characters of ASCII are black. -/
theorem not_isWhitespace (h : 33 ≤ c.toNat ∧ c.toNat ≤ 126) : ¬ isWhitespace c := by
  simp only [isWhitespace, contains_eq_mem, mem_cons, not_mem_nil, or_false,
    Bool.or_eq_true, Bool.and_eq_true, decide_eq_true_eq]
  omega

theorem toNat_of_isDigit (h : c.isDigit) : 48 ≤ c.toNat ∧ c.toNat ≤ 57 := by
  rw [Char.isDigit, Bool.and_eq_true, decide_eq_true_eq, decide_eq_true_eq] at h
  exact ⟨UInt32.le_iff_toNat_le.1 h.1, UInt32.le_iff_toNat_le.1 h.2⟩

theorem toNat_of_isAlpha (h : c.isAlpha) : 65 ≤ c.toNat ∧ c.toNat ≤ 122 := by
  rcases (Bool.or_eq_true c.isUpper c.isLower).mp h with hupper | hlower
  · exact ⟨UInt32.le_iff_toNat_le.1 (decide_eq_true_eq.mp hupper).1,
      (UInt32.le_iff_toNat_le.1 (decide_eq_true_eq.mp hupper).2).trans (by decide)⟩
  · obtain ⟨hge, hle⟩ := (Bool.and_eq_true _ _).mp hlower
    exact ⟨.trans (by decide) (UInt32.le_iff_toNat_le.1 (decide_eq_true_eq.mp hge)),
      UInt32.le_iff_toNat_le.1 (decide_eq_true_eq.mp hle)⟩

/-- What ends in a black character is not stripped away. -/
theorem rdropWhile_append {α : Type*} {p : α → Bool} {a b : List α} {x : α} (hx : ¬ p x) :
    (a ++ x :: b).rdropWhile p = a ++ x :: b.rdropWhile p := by
  induction b using List.reverseRecOn with
  | nil => rw [rdropWhile_nil, rdropWhile_concat_neg _ _ _ hx]
  | append_singleton b y ih =>
    rw [← cons_append, ← append_assoc]
    by_cases hy : p y
    · rw [rdropWhile_concat_pos _ _ _ hy, ih, rdropWhile_concat_pos _ _ _ hy]
    · rw [rdropWhile_concat_neg _ _ _ hy, rdropWhile_concat_neg _ _ _ hy]
      simp

/-- White space at the ends does not matter. -/
theorem trim_cons (hw : isWhitespace w) (text : List Char) : trim (w :: text) = trim text := by
  rw [trim, dropWhile_cons_of_pos hw, trim]

theorem trim_concat (hw : isWhitespace w) (text : List Char) : trim (text ++ [w]) = trim text := by
  rw [trim, trim, dropWhile_append]
  split
  · next hempty =>
    rw [isEmpty_iff.1 hempty, dropWhile_cons_of_pos hw, dropWhile_nil]
  · exact rdropWhile_concat_pos _ _ _ hw

theorem trim_rdropWhile (text : List Char) : trim (text.rdropWhile isWhitespace) = trim text := by
  induction text using List.reverseRecOn with
  | nil => rfl
  | append_singleton text c ih =>
    by_cases hc : isWhitespace c
    · rw [rdropWhile_concat_pos _ _ _ hc, ih, trim_concat hc]
    · rw [rdropWhile_concat_neg _ _ _ hc]

/-- A black character cuts what is stripped at the one end from the other. -/
theorem trim_append_cons {a b : List Char} {x : Char} (hx : ¬ isWhitespace x) :
    trim (a ++ x :: b) = a.dropWhile isWhitespace ++ x :: b.rdropWhile isWhitespace := by
  rw [trim, dropWhile_append]
  split
  · next hempty =>
    rw [isEmpty_iff.1 hempty, dropWhile_cons_of_neg hx]
    exact rdropWhile_append (a := []) hx
  · exact rdropWhile_append hx

/-- Black texts are left as they are. -/
theorem rdropWhile_eq_self (h : ∀ c ∈ text, ¬ isWhitespace c) :
    text.rdropWhile isWhitespace = text :=
  rdropWhile_eq_self_iff.2 fun hne => h _ (getLast_mem hne)

/-- White space before a black text is not at the end. -/
theorem rdropWhile_cons_eq_self (hne : text ≠ []) (h : ∀ c ∈ text, ¬ isWhitespace c) :
    (w :: text).rdropWhile isWhitespace = w :: text := by
  refine rdropWhile_eq_self_iff.2 fun _ => ?_
  rw [getLast_cons hne]
  exact h _ (getLast_mem hne)

theorem trim_eq_self (h : ∀ c ∈ text, ¬ isWhitespace c) : trim text = text := by
  cases text with
  | nil => rfl
  | cons c text =>
    rw [trim, dropWhile_cons_of_neg (h c mem_cons_self), rdropWhile_eq_self h]

/-! ## Lines -/

/-- The line without a carriage return at its end. -/
def chompReturn (line : List Char) : List Char :=
  if line.getLast? = some '\r' then line.dropLast else line

/-- The lines of a text. What comes after the last line feed is a line if there
    is something. -/
def lines (text : List Char) : List (List Char) :=
  (text.splitOn '\n').dropLast.map chompReturn ++
    ((text.splitOn '\n').getLast?.filter (· ≠ [])).toList

/-- The text with these lines. -/
def unlines (ls : List (List Char)) : List Char := (ls.map (· ++ ['\n'])).flatten

theorem splitOn_unlines {ls : List (List Char)} (h : ∀ line ∈ ls, '\n' ∉ line) :
    (unlines ls).splitOn '\n' = ls ++ [[]] := by
  induction ls with
  | nil => rfl
  | cons line ls ih =>
    rw [forall_mem_cons] at h
    have hcons : unlines (line :: ls) = line ++ '\n' :: unlines ls := by simp [unlines]
    rw [hcons, splitOn_append_cons_self_of_not_mem h.1, ih h.2, cons_append]

theorem lines_unlines {ls : List (List Char)} (h : ∀ line ∈ ls, '\n' ∉ line) :
    lines (unlines ls) = ls.map chompReturn := by
  rw [lines, splitOn_unlines h, dropLast_concat, getLast?_concat]
  simp

/-- A line is stripped of its carriage return anyway. -/
theorem trim_chompReturn (line : List Char) : trim (chompReturn line) = trim line := by
  rw [chompReturn]
  split
  · next hlast =>
    have hconcat := dropLast_append_getLast? _ hlast
    conv => rhs; rw [← hconcat]
    exact (trim_concat rfl _).symm
  · rfl

/-! ## Separators -/

/-- What comes after the word that the text starts with. -/
def strip? (start text : List Char) : Option (List Char) :=
  if start.isPrefixOf text then some (text.drop start.length) else none

theorem strip?_append (start text : List Char) : strip? start (start ++ text) = some text := by
  simp [strip?]

/-- What comes before the word that the text ends with. -/
def stripEnd? (stop text : List Char) : Option (List Char) :=
  (strip? stop.reverse text.reverse).map List.reverse

/-- The word occurs in the text. -/
def contains (word text : List Char) : Bool := decide (word <:+: text)

/-- One of the words occurs in the text. -/
def containsAny (words : List (List Char)) (text : List Char) : Bool := words.any (contains · text)

/-- The text starts with the word. -/
def startsWith (word text : List Char) : Bool := word.isPrefixOf text

/-- The text ends with the word. -/
def endsWith (word text : List Char) : Bool := word.isSuffixOf text

/-- What comes before and after the first occurrence of a character. -/
def splitOnce (c : Char) (text : List Char) : Option (List Char × List Char) :=
  if c ∈ text then some (text.takeWhile (· ≠ c), (text.dropWhile (· ≠ c)).tail) else none

theorem splitOnce_append {a : List Char} (h : c ∉ a) (b : List Char) :
    splitOnce c (a ++ c :: b) = some (a, b) := by
  have hne : ∀ x ∈ a, decide (x ≠ c) = true := fun x hx => decide_eq_true fun heq => h (heq ▸ hx)
  rw [splitOnce, if_pos (by simp), takeWhile_append_of_pos hne, dropWhile_append_of_pos hne]
  simp

/-- What comes before and after the last occurrence of a character. -/
def rsplitOnce (c : Char) (text : List Char) : Option (List Char × List Char) :=
  (splitOnce c text.reverse).map fun ab => (ab.2.reverse, ab.1.reverse)

theorem rsplitOnce_append {b : List Char} (h : c ∉ b) (a : List Char) :
    rsplitOnce c (a ++ c :: b) = some (a, b) := by
  have hreverse : (a ++ c :: b).reverse = b.reverse ++ c :: a.reverse := by simp
  rw [rsplitOnce, hreverse, splitOnce_append (by simpa using h)]
  simp

/-! ## Numbers and letters -/

/-- The number below the bound that a text of digits stands for. It may have a plus sign. -/
def parseUnsigned (bound : ℕ) (text : List Char) : Option ℕ :=
  let digits := (strip? ['+'] text).getD text
  if digits ≠ [] ∧ digits.all Char.isDigit ∧ Nat.ofDigitChars 10 digits 0 < bound then
    some (Nat.ofDigitChars 10 digits 0)
  else none

theorem isDigit_of_mem_toDigits (h : c ∈ Nat.toDigits 10 n) : c.isDigit :=
  Nat.isDigit_of_mem_toDigits (by decide) (by decide) h

theorem parseUnsigned_toDigits {bound : ℕ} :
    parseUnsigned bound (Nat.toDigits 10 n) = if n < bound then some n else none := by
  have hplus : strip? ['+'] (Nat.toDigits 10 n) = none := by
    refine if_neg fun hstart => ?_
    obtain ⟨rest, hrest⟩ := isPrefixOf_iff_prefix.1 hstart
    have hmem : '+' ∈ Nat.toDigits 10 n := hrest ▸ mem_cons_self
    exact absurd (isDigit_of_mem_toDigits hmem) (by decide)
  have hdigits : (Nat.toDigits 10 n).all Char.isDigit = true :=
    all_eq_true.2 fun c hc => isDigit_of_mem_toDigits hc
  rw [parseUnsigned, hplus, Option.getD_none]
  simp only [hdigits, Nat.ofDigitChars_ten_toDigits, ne_eq, Nat.toDigits_ne_nil, not_false_eq_true,
    true_and]

theorem parseUnsigned_lt {bound : ℕ} (h : parseUnsigned bound text = some n) : n < bound := by
  rw [parseUnsigned, Option.ite_none_right_eq_some] at h
  obtain ⟨⟨-, -, hlt⟩, hn⟩ := h
  exact Option.some_inj.1 hn ▸ hlt

/-- The length of the text in UTF-8. -/
def byteLength (text : List Char) : ℕ := (text.map Char.utf8Size).sum

/-- The text with its letters in lower case. -/
def toLower (text : List Char) : List Char := text.map Char.toLower

/-- The text with its letters in upper case. -/
def toUpper (text : List Char) : List Char := text.map Char.toUpper

/-- Equal up to the case of letters. -/
def eqIgnoreCase (a b : List Char) : Bool := a.map Char.toLower = b.map Char.toLower

end Text
