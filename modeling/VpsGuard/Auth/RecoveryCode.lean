import Mathlib.Tactic.Common
import VpsGuard.Text.Basic

/-!
# Recovery codes

A recovery code is made of `16` random bytes: its `32` hexadecimal digits, shown
in four groups with hyphens between them. What a user types is normalised first:
hyphens and white space are dropped, letters are put in upper case, and what is
left has to be `32` digits (`normalizeRecoveryCode`).

So a code is read whatever the case of its letters and wherever hyphens and
white space stand (`normalizeRecoveryCode_of_spells`). In particular what is
shown is read (`normalizeRecoveryCode_display`).
-/

namespace VpsGuard

open List

namespace RecoveryCode

/-- The hexadecimal digits, with letters in upper or lower case. -/
def isAsciiHexdigit (c : Char) : Bool :=
  c.isDigit || ('a' ≤ c && c ≤ 'f') || ('A' ≤ c && c ≤ 'F')

/-- As the source language has it: no vertical tab. -/
def isAsciiWhitespace (b : UInt8) : Bool := [9, 10, 12, 13, 32].contains b

/-- The bytes that do not count in a code: `45` is a hyphen. -/
def isSeparator (b : UInt8) : Bool := b == 45 || isAsciiWhitespace b

def bytes (text : List Char) : List UInt8 := text.flatMap String.utf8EncodeChar

def hexDigit (n : ℕ) : Char := if n < 10 then Char.ofNat (48 + n) else Char.ofNat (55 + n)

def hexByte (b : UInt8) : List Char := [hexDigit (b.toNat / 16), hexDigit (b.toNat % 16)]

/-- Bytes as upper-case hexadecimal digits. -/
def digits (random : List UInt8) : List Char := random.flatMap hexByte

/-- The code made of the bytes, as it is shown. -/
def display (random : List UInt8) : List Char :=
  let normalized := digits random
  normalized.take 8 ++ '-' :: ((normalized.drop 8).take 8 ++ '-' ::
    ((normalized.drop 16).take 8 ++ '-' :: (normalized.drop 24).take 8))

end RecoveryCode

open RecoveryCode

/-- The 32 digits of a code, without separators and in upper case. -/
def normalizeRecoveryCode (code : List Char) : Option (List Char) :=
  let normalized := Text.toUpper
    (((bytes code).filter fun b => !isSeparator b).map fun b => Char.ofNat b.toNat)
  if Text.byteLength normalized = 32 ∧ normalized.all isAsciiHexdigit then some normalized else none

namespace RecoveryCode

def IsDigit (c : Char) : Prop := ∃ n < 16, c = hexDigit n

/-- The text spells the digits, with letters of any case and with hyphens and
    white space anywhere. -/
inductive Spells : List Char → List Char → Prop
  | nil : Spells [] []
  | separator {c : Char} {text code : List Char} : c ∈ ['-', ' ', '\t', '\n', '\r', '\x0c'] →
      Spells text code → Spells (c :: text) code
  | digit {c d : Char} {text code : List Char} : c = d ∨ c = d.toLower →
      Spells text code → Spells (c :: text) (d :: code)

theorem Spells.refl (code : List Char) : Spells code code := by
  induction code with
  | nil => exact .nil
  | cons d code ih => exact .digit (.inl rfl) ih

theorem Spells.append {a b c d : List Char} (h : Spells a b) (h' : Spells c d) :
    Spells (a ++ c) (b ++ d) := by
  induction h with
  | nil => exact h'
  | separator hc _ ih => exact .separator hc ih
  | digit hc _ ih => exact .digit hc ih

theorem bytes_cons (c : Char) (text : List Char) : bytes (c :: text) = bytes [c] ++ bytes text := by
  simp [bytes]

/-- What the bytes of a text come to. -/
def kept (text : List Char) : List Char :=
  Text.toUpper (((bytes text).filter fun b => !isSeparator b).map fun b => Char.ofNat b.toNat)

theorem kept_cons (c : Char) (text : List Char) : kept (c :: text) = kept [c] ++ kept text := by
  rw [kept, bytes_cons, filter_append, map_append, Text.toUpper, map_append]
  rfl

theorem kept_hexDigit : ∀ n < 16, kept [hexDigit n] = [hexDigit n] ∧
    kept [(hexDigit n).toLower] = [hexDigit n] := by decide

theorem isAsciiHexdigit_hexDigit : ∀ n < 16, isAsciiHexdigit (hexDigit n) = true := by decide

theorem utf8Size_hexDigit : ∀ n < 16, (hexDigit n).utf8Size = 1 := by decide

variable {code : List Char}

theorem kept_of_spells {text : List Char} (h : Spells text code) (hcode : ∀ d ∈ code, IsDigit d) :
    kept text = code := by
  induction h with
  | nil => rfl
  | @separator c text code hc _ ih =>
    have hnone : ['-', ' ', '\t', '\n', '\r', '\x0c'].all (fun c => kept [c] = []) = true := by
      decide
    rw [kept_cons, of_decide_eq_true (all_eq_true.1 hnone c hc), ih hcode, nil_append]
  | @digit c d text code hc _ ih =>
    rw [forall_mem_cons] at hcode
    obtain ⟨⟨n, hn, rfl⟩, hrest⟩ := hcode
    have hkept : kept [c] = [hexDigit n] := by
      rcases hc with rfl | rfl
      · exact (kept_hexDigit n hn).1
      · exact (kept_hexDigit n hn).2
    rw [kept_cons, hkept, ih hrest, singleton_append]

theorem byteLength_of_isDigit (hcode : ∀ d ∈ code, IsDigit d) :
    Text.byteLength code = code.length := by
  induction code with
  | nil => rfl
  | cons d code ih =>
    rw [forall_mem_cons] at hcode
    obtain ⟨⟨n, hn, rfl⟩, hrest⟩ := hcode
    have hcons : Text.byteLength (hexDigit n :: code) =
        (hexDigit n).utf8Size + Text.byteLength code := by simp [Text.byteLength]
    rw [hcons, utf8Size_hexDigit n hn, ih hrest, length_cons, Nat.add_comm]

theorem all_isAsciiHexdigit (hcode : ∀ d ∈ code, IsDigit d) : code.all isAsciiHexdigit = true := by
  refine all_eq_true.2 fun d hd => ?_
  obtain ⟨n, hn, rfl⟩ := hcode d hd
  exact isAsciiHexdigit_hexDigit n hn

end RecoveryCode

/-- A code is read however it is spelled. -/
theorem normalizeRecoveryCode_of_spells {text code : List Char} (h : Spells text code)
    (hlength : code.length = 32) (hcode : ∀ d ∈ code, IsDigit d) :
    normalizeRecoveryCode text = some code := by
  have hkept := kept_of_spells h hcode
  rw [kept] at hkept
  rw [normalizeRecoveryCode, hkept]
  exact if_pos ⟨(byteLength_of_isDigit hcode).trans hlength, all_isAsciiHexdigit hcode⟩

namespace RecoveryCode

variable {random : List UInt8}

theorem isDigit_digits : ∀ d ∈ digits random, IsDigit d := by
  intro d hd
  obtain ⟨b, -, hb⟩ := mem_flatMap.1 hd
  have hlt : b.toNat < 256 := b.toNat_lt
  rcases mem_pair.1 hb with rfl | rfl
  · exact ⟨b.toNat / 16, by omega, rfl⟩
  · exact ⟨b.toNat % 16, by omega, rfl⟩

theorem length_digits (random : List UInt8) : (digits random).length = 2 * random.length := by
  induction random with
  | nil => rfl
  | cons b random ih =>
    rw [digits, flatMap_cons, length_append]
    change 2 + (digits random).length = _
    rw [ih, length_cons]
    omega

theorem spells_display (h : random.length = 16) : Spells (display random) (digits random) := by
  have hyphen : '-' ∈ ['-', ' ', '\t', '\n', '\r', '\x0c'] := mem_cons_self
  have hcut : digits random = (digits random).take 8 ++ (((digits random).drop 8).take 8 ++
      (((digits random).drop 16).take 8 ++ ((digits random).drop 24).take 8)) := by
    have hlast : ((digits random).drop 24).take 8 = (digits random).drop 24 := by
      refine take_of_length_le ?_
      rw [length_drop, length_digits, h]
    rw [hlast]
    have hjoin : ∀ k, ((digits random).drop k).take 8 ++ (digits random).drop (k + 8) =
        (digits random).drop k := fun k => by
      rw [← drop_drop, take_append_drop]
    rw [hjoin 16, hjoin 8, take_append_drop]
  conv => rhs; rw [hcut]
  exact (Spells.refl _).append (.separator hyphen ((Spells.refl _).append
    (.separator hyphen ((Spells.refl _).append (.separator hyphen (Spells.refl _))))))

end RecoveryCode

/-- What is shown is read. -/
theorem normalizeRecoveryCode_display {random : List UInt8} (h : random.length = 16) :
    normalizeRecoveryCode (display random) = some (digits random) :=
  normalizeRecoveryCode_of_spells (spells_display h) (by rw [length_digits, h]) isDigit_digits

end VpsGuard
