import Mathlib.Algebra.Group.Nat.Defs
import Mathlib.Data.List.Induction
import Mathlib.Data.List.Nodup
import Mathlib.Tactic.Common

/-!
# Identifiers of requests

The identifier of a request is made of the nonce of its process and of a number that every request
raises, in hexadecimal digits of a fixed width (`RequestIdGenerator.nextId`). What comes from
elsewhere is checked for its form: `isValidRequestId` accepts what generators give and nothing else
(`isValidRequestId_iff`). No two requests have one identifier, but for a process that
has counted through all its numbers (`nextIds_distinct`).

Texts are given by their bytes. The numbers are drawn by an atomic operation, so the
identifiers come one after another.
-/

namespace VpsGuard

open List

/-! ## Hexadecimal digits -/

def hexadecimal (n : ℕ) : UInt8 := .ofNat (if n < 10 then 48 + n else 87 + n)

def isLowerHexadecimal (byte : UInt8) : Bool :=
  (48 ≤ byte && byte ≤ 57) || (97 ≤ byte && byte ≤ 102)

/-- A number below `16 ^ width`, with leading zeros. -/
def formatHex : ℕ → ℕ → List UInt8
  | 0, _ => []
  | width + 1, n => formatHex width (n / 16) ++ [hexadecimal (n % 16)]

theorem length_formatHex (width n : ℕ) : (formatHex width n).length = width := by
  induction width generalizing n with
  | zero => rfl
  | succ width ih => simp [formatHex, ih]

theorem isLowerHexadecimal_iff (byte : UInt8) :
    isLowerHexadecimal byte ↔ ∃ n < 16, hexadecimal n = byte := by
  have hall : ∀ k < 256, isLowerHexadecimal (.ofNat k) ↔ ∃ n < 16, hexadecimal n = .ofNat k := by
    decide +kernel
  simpa using hall byte.toNat byte.toNat_lt

theorem formatHex_injective {width m n : ℕ} (hm : m < 16 ^ width) (hn : n < 16 ^ width)
    (h : formatHex width m = formatHex width n) : m = n := by
  induction width generalizing m n with
  | zero => omega
  | succ width ih =>
    have hdigit : ∀ a < 16, ∀ b < 16, hexadecimal a = hexadecimal b → a = b := by decide
    obtain ⟨hinit, hlast⟩ := append_inj' h rfl
    have hdiv := ih (by omega) (by omega) hinit
    have hmod := hdigit _ (Nat.mod_lt m (by decide)) _ (Nat.mod_lt n (by decide))
      (singleton_injective hlast)
    omega

theorem exists_formatHex {digits : List UInt8} {width : ℕ} (hwidth : digits.length = width)
    (h : digits.all isLowerHexadecimal) : ∃ n < 16 ^ width, formatHex width n = digits := by
  subst hwidth
  induction digits using List.reverseRecOn with
  | nil => exact ⟨0, by simp, rfl⟩
  | append_singleton digits digit ih =>
    rw [all_append, Bool.and_eq_true, all_cons, all_nil, Bool.and_true] at h
    obtain ⟨n, hn, hdigits⟩ := ih h.1
    obtain ⟨d, hd, hdigit⟩ := (isLowerHexadecimal_iff digit).1 h.2
    refine ⟨16 * n + d, ?_, ?_⟩
    · rw [length_append, length_singleton, Nat.pow_succ]
      omega
    · rw [length_append, length_singleton, formatHex,
        show (16 * n + d) / 16 = n by omega, show (16 * n + d) % 16 = d by omega, hdigits, hdigit]

theorem all_formatHex (width n : ℕ) : (formatHex width n).all isLowerHexadecimal := by
  induction width generalizing n with
  | zero => rfl
  | succ width ih =>
    simp [formatHex, ih, (isLowerHexadecimal_iff _).2 ⟨_, Nat.mod_lt n (by decide), rfl⟩]

/-! ## Identifiers -/

/-- A generator has a random part, and numbers its requests. -/
structure RequestIdGenerator where
  processNonceHex : List UInt8
  sequence : UInt64

/-- The text `guard-`. -/
def requestIdPrefix : List UInt8 := [103, 117, 97, 114, 100, 45]

namespace RequestIdGenerator

/-- Two digits for each byte of the nonce. -/
def withProcessNonce (processNonce : BitVec 128) : RequestIdGenerator :=
  ⟨formatHex 32 processNonce.toNat, 1⟩

def requestId (processNonceHex : List UInt8) (sequence : UInt64) : List UInt8 :=
  requestIdPrefix ++ processNonceHex ++ 45 :: formatHex 16 sequence.toNat

def nextId (generator : RequestIdGenerator) : List UInt8 × RequestIdGenerator :=
  (requestId generator.processNonceHex generator.sequence,
    { generator with sequence := generator.sequence + 1 })

/-- The identifiers of some requests. -/
def nextIds (generator : RequestIdGenerator) : ℕ → List (List UInt8)
  | 0 => []
  | n + 1 => generator.nextId.1 :: generator.nextId.2.nextIds n

end RequestIdGenerator

/-- The text has the form of an identifier that is generated. -/
def isValidRequestId (value : List UInt8) : Bool :=
  if value.length ≠ 55 || !requestIdPrefix.isPrefixOf value then false
  else
    value[38]? == some 45 && ((value.take 38).drop 6).all isLowerHexadecimal &&
      (value.drop 39).all isLowerHexadecimal

open RequestIdGenerator

theorem requestId_injective {nonce nonce' : BitVec 128} {sequence sequence' : UInt64}
    (h : requestId (withProcessNonce nonce).processNonceHex sequence =
      requestId (withProcessNonce nonce').processNonceHex sequence') :
    nonce = nonce' ∧ sequence = sequence' := by
  obtain ⟨hnonce, hsequence⟩ := append_inj h (by simp [withProcessNonce, length_formatHex])
  rw [append_cancel_left_eq] at hnonce
  rw [cons_eq_cons] at hsequence
  exact ⟨BitVec.eq_of_toNat_eq (formatHex_injective nonce.isLt nonce'.isLt hnonce),
    UInt64.toNat_inj.1 (formatHex_injective sequence.toNat_lt sequence'.toNat_lt hsequence.2)⟩

/-- What is accepted is what a generator gives for some nonce, when it has come to some number. -/
theorem isValidRequestId_iff (value : List UInt8) : isValidRequestId value ↔
    ∃ nonce sequence, value = requestId (withProcessNonce nonce).processNonceHex sequence := by
  constructor
  · intro h
    rw [isValidRequestId] at h
    split_ifs at h with hform
    simp only [Bool.or_eq_true, Bool.not_eq_true', decide_eq_true_eq, not_or, not_not, ne_eq,
      Bool.not_eq_false, List.isPrefixOf_iff_prefix] at hform
    obtain ⟨hlength, rest, rfl⟩ := hform
    have hrest : rest.length = 49 := by simpa [requestIdPrefix] using hlength
    obtain ⟨⟨hhyphen, hnonce⟩, hsequence⟩ : (rest[32]? = some 45 ∧
        (rest.take 32).all isLowerHexadecimal) ∧ (rest.drop 33).all isLowerHexadecimal := by
      simpa [requestIdPrefix] using h
    obtain ⟨hlt, hhyphen⟩ := List.getElem?_eq_some_iff.1 hhyphen
    obtain ⟨nonce, hnonce_lt, hnonce⟩ :=
      exists_formatHex (show (rest.take 32).length = 32 by simp [hrest]) hnonce
    obtain ⟨sequence, hsequence_lt, hsequence⟩ :=
      exists_formatHex (show (rest.drop 33).length = 16 by simp [hrest]) hsequence
    refine ⟨.ofNatLT nonce hnonce_lt, .ofNatLT sequence hsequence_lt, ?_⟩
    rw [requestId, withProcessNonce, BitVec.toNat_ofNatLT, UInt64.toNat_ofNatLT, hnonce, hsequence,
      ← hhyphen, List.append_assoc, ← List.drop_eq_getElem_cons, List.take_append_drop]
  · rintro ⟨nonce, sequence, rfl⟩
    have hnonce := length_formatHex 32 nonce.toNat
    have hsequence := length_formatHex 16 sequence.toNat
    have hall := all_formatHex 32 nonce.toNat
    have hall' := all_formatHex 16 sequence.toNat
    rw [requestId, withProcessNonce]
    generalize formatHex 32 nonce.toNat = digits at *
    generalize formatHex 16 sequence.toNat = digits' at *
    have hnil : digits.drop 33 = [] := List.drop_of_length_le (by omega)
    simpa [isValidRequestId, requestIdPrefix, hnonce, hsequence, hall, hnil, List.drop_append]
      using hall'

theorem nextIds_eq (generator : RequestIdGenerator) (n : ℕ) :
    generator.nextIds n = (List.range n).map fun i =>
      requestId generator.processNonceHex (generator.sequence + .ofNat i) := by
  induction n generalizing generator with
  | zero => rfl
  | succ n ih =>
    simp [nextIds, ih, nextId, range_succ_eq_map, UInt64.add_assoc, UInt64.add_comm]

/-- The identifiers of a process are distinct until it has counted through all numbers, and differ
    from those of every process with another nonce. -/
theorem nextIds_distinct (nonce : BitVec 128) (n : ℕ) :
    (n ≤ 2 ^ 64 → ((withProcessNonce nonce).nextIds n).Nodup) ∧
    ∀ nonce' m, nonce ≠ nonce' →
      ((withProcessNonce nonce).nextIds n).Disjoint ((withProcessNonce nonce').nextIds m) := by
  rw [nextIds_eq]
  constructor
  · intro hn
    refine List.Nodup.map_on (fun i hi j hj h => ?_) nodup_range
    have hnumber := UInt64.toNat_inj.2 ((UInt64.add_right_inj _).1 (requestId_injective h).2)
    rw [mem_range] at hi hj
    simp only [UInt64.toNat_ofNat'] at hnumber
    omega
  · intro nonce' m hne id hid hid'
    rw [nextIds_eq] at hid'
    obtain ⟨i, -, rfl⟩ := mem_map.1 hid
    obtain ⟨j, -, hj⟩ := mem_map.1 hid'
    exact hne (requestId_injective hj).1.symm

end VpsGuard
