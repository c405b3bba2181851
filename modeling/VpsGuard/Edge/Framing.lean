import VpsGuard.Edge.Request

/-!
# Framing

Where a request ends is said twice: by its headers as they were parsed, and by the
lines of its bytes (`rawValues`). If the check passes, neither is ambiguous, and both
together are not (`validateRequestFraming_iff`).
-/

namespace VpsGuard

open List

/-- The value of the field, if the line has this name before its first colon. -/
def fieldValue (line : List UInt8) (name : List Char) : List (List UInt8) :=
  if line.contains 58 && eqIgnoreCaseBytes (trimAscii (line.takeWhile (· ≠ 58))) name then
    [(line.dropWhile (· ≠ 58)).tail]
  else []

/-- The values of a field, up to the blank line that ends the header. -/
def fieldValues (lines : List (List UInt8)) (name : List Char) : List (List UInt8) :=
  ((lines.map trimAscii).takeWhile (· ≠ [])).flatMap (fieldValue · name)

/-- The values of a field in a header. The request line is not one of its fields. -/
def rawValues (rawHeader : List UInt8) : List Char → List (List UInt8) :=
  fieldValues ((rawHeader.splitOn 10).drop 1)

/-- The body is sent in chunks. -/
def rawChunked (value : List UInt8) : Bool :=
  eqIgnoreCaseBytes (trimAscii value) "chunked".toList

/-- A name that is one of two is not the other. -/
theorem eqIgnoreCaseBytes_eq_false {value : List UInt8} {a b : List Char}
    (ha : eqIgnoreCaseBytes value a)
    (hne : (asciiBytes a).map asciiLower ≠ (asciiBytes b).map asciiLower) :
    eqIgnoreCaseBytes value b = false :=
  decide_eq_false fun hb => hne ((of_decide_eq_true ha).symm.trans hb)

namespace RawFramingHeaders

/-- The headers with these values besides. -/
def add (result : RawFramingHeaders) (values : List Char → List (List UInt8)) :
    RawFramingHeaders where
  hostCount := result.hostCount + (values "host".toList).length
  contentLengthCount := result.contentLengthCount + (values "content-length".toList).length
  transferEncodingCount :=
    result.transferEncodingCount + (values "transfer-encoding".toList).length
  invalidTransferEncoding :=
    result.invalidTransferEncoding || (values "transfer-encoding".toList).any (!rawChunked ·)

/-- To read a line is to add what it says of each field. -/
theorem ingest_eq (result : RawFramingHeaders) (line : List UInt8) :
    result.ingest line = result.add (fieldValue line) := by
  unfold ingest add fieldValue rawChunked
  cases line.contains 58
  · simp
  · simp only [not_true_eq_false, if_false, Bool.true_and]
    generalize trimAscii (line.takeWhile _) = name
    cases hhost : eqIgnoreCaseBytes name "host".toList
    · cases hlength : eqIgnoreCaseBytes name "content-length".toList
      · cases eqIgnoreCaseBytes name "transfer-encoding".toList <;> simp
      · rw [eqIgnoreCaseBytes_eq_false hlength (by decide)]
        simp
    · rw [eqIgnoreCaseBytes_eq_false hhost (by decide), eqIgnoreCaseBytes_eq_false hhost (by decide)]
      simp

/-- To read the lines is to add the values of all fields. -/
theorem ingestLines_eq (result : RawFramingHeaders) (lines : List (List UInt8)) :
    result.ingestLines lines = result.add (fieldValues lines) := by
  induction lines generalizing result with
  | nil => simp [ingestLines, fieldValues, add]
  | cons line lines ih =>
    rw [ingestLines]
    split_ifs with hblank
    · simp [fieldValues, hblank, add]
    · rw [ih, ingest_eq]
      simp [fieldValues, hblank, add, Nat.add_assoc, Bool.or_assoc]

/-- What comes after a blank line is not read. -/
theorem ingestLines_append {line : List UInt8} (hblank : trimAscii line = [])
    (result : RawFramingHeaders) (lines after : List (List UInt8)) :
    result.ingestLines (lines ++ line :: after) = result.ingestLines lines := by
  induction lines generalizing result with
  | nil => simp [ingestLines, hblank]
  | cons first lines ih => simp only [cons_append, ingestLines, ih]

/-- What comes after the header does not change how its fields are read. -/
theorem parse_append {head blank rest : List UInt8} (hline : 10 ∉ blank)
    (hblank : ∀ b ∈ blank, isAsciiWhitespace b) :
    parse (head ++ 10 :: blank ++ 10 :: rest) = parse head := by
  have htrim : trimAscii blank = [] := by
    rw [trimAscii, dropWhile_eq_nil_iff.2 hblank, rdropWhile_nil]
  rw [parse, append_assoc, cons_append, splitOn_append_cons_self,
    splitOn_append_cons_self_of_not_mem hline, drop_append_of_le_length,
    ingestLines_append htrim, parse]
  exact length_pos_of_ne_nil (splitOn_ne_nil 10 head)

end RawFramingHeaders

/-- The check passes if and only if neither reading is ambiguous, nor both together, and
    nothing after a blank line matters to it. -/
theorem validateRequestFraming_iff (rawHeader : List UInt8) (request : RequestHeader) :
    (validateRequestFraming rawHeader request = .ok () ↔
      (∀ values ∈ [rawValues rawHeader, request.getAll], (values "host".toList).length ≤ 1 ∧
        (values "content-length".toList).length ≤ 1 ∧
        (values "transfer-encoding".toList).length ≤ 1) ∧
      ¬ ((∃ values ∈ [rawValues rawHeader, request.getAll], values "content-length".toList ≠ []) ∧
        ∃ values ∈ [rawValues rawHeader, request.getAll], values "transfer-encoding".toList ≠ []) ∧
      (∀ value ∈ rawValues rawHeader "transfer-encoding".toList, rawChunked value) ∧
      ∀ value ∈ request.getAll "transfer-encoding".toList, ∃ text,
        headerText value = some text ∧ Text.eqIgnoreCase (Text.trim text) "chunked".toList) ∧
    ∀ head blank rest rest', rawHeader = head ++ 10 :: blank ++ 10 :: rest → 10 ∉ blank →
      (∀ b ∈ blank, isAsciiWhitespace b) → validateRequestFraming rawHeader request =
        validateRequestFraming (head ++ 10 :: blank ++ 10 :: rest') request := by
  constructor
  · have hvalue : ∀ value, notChunked value = false ↔ ∃ text, headerText value = some text ∧
        Text.eqIgnoreCase (Text.trim text) "chunked".toList := fun value => by
      cases h : headerText value <;> simp [notChunked, h]
    have hmap : ∀ l : List (List UInt8), 0 < l.length ∧ (l.length ≠ 1 ∨ l.head?.any notChunked) ↔
        1 < l.length ∨ ∃ value ∈ l, notChunked value
      | [] => by simp
      | [value] => by simp
      | first :: second :: rest => by simp
    simp only [validateRequestFraming, RawFramingHeaders.parse, RawFramingHeaders.ingestLines_eq,
      RawFramingHeaders.add, ← rawValues.eq_1, ← hvalue, ← length_pos_iff, hmap,
      forall_mem_cons, exists_mem_cons_iff, not_mem_nil, false_and, exists_false,
      or_false, false_imp_iff, implies_true, Bool.or_eq_true, decide_eq_true_eq, any_eq_true]
    clear hvalue hmap
    split_ifs <;> grind
  · rintro head blank rest rest' rfl hline hblank
    rw [validateRequestFraming, RawFramingHeaders.parse_append hline hblank, validateRequestFraming,
      RawFramingHeaders.parse_append hline hblank]

end VpsGuard
