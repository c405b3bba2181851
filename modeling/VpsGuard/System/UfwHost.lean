import VpsGuard.Effect.Machine
import VpsGuard.System.Ufw

/-!
# A host with UFW

The firewall is an ordered list of rows. `ufw status numbered` prints them with
their numbers, a deletion removes the row with a number, and an addition appends
rows that carry the comment it was given. What else there is in a row is up to
UFW; the rows that an addition appends are given by a function `R` of its
arguments. Any command may fail, and then it may have had its effect or not.

The controller reads from the status what is there (`parse_status`): a row is
its own if the comment in it is in the namespace, and the number it finds for an
identifier is that of a row with it (`exists_of_uniqueRuleNumber`).
-/

namespace VpsGuard

open Effect List Text UfwSnapshot

/-! ## Rows and their status -/

/-- A row, as it is printed after its number. -/
structure UfwRow where
  text : List Char
  newline_notMem : '\n' ∉ text
  deriving DecidableEq

namespace UfwRow

/-- What the controller sees of a row. -/
def body (row : UfwRow) : List Char := trim row.text

def ownedId (row : UfwRow) : Option String := parseOwnedComment row.body

def Commented (row : UfwRow) (comment : String) : Prop :=
  ∃ columns, row.text = columns ++ ['#', ' '] ++ comment.toList

/-- A number, in at least two columns. -/
def pad (n : ℕ) : List Char := (if n < 10 then [' '] else []) ++ Nat.toDigits 10 n

def line (row : UfwRow) (n : ℕ) : List Char := '[' :: pad n ++ ']' :: ' ' :: row.text

end UfwRow

/-- The firewall of the host. -/
structure UfwHost where
  active : Bool
  rows : List UfwRow
  deriving DecidableEq

namespace UfwHost

/-- The first lines of the status. -/
def header : List (List Char) :=
  ["Status: active".toList, [], "     To                         Action      From".toList,
    "     --                         ------      ----".toList]

def statusLines (host : UfwHost) : List (List Char) :=
  if host.active then header ++ (host.rows.zipIdx 1).map (fun row => row.1.line row.2)
  else ["Status: inactive".toList]

/-- What the firewall says of itself. -/
def status (host : UfwHost) : List Char := unlines host.statusLines

/-! ## What the controller reads -/

theorem parseRow_chompReturn (line : List Char) : parseRow (chompReturn line) = parseRow line := by
  rw [parseRow, parseRow, trim_chompReturn]

theorem trim_pad (n : ℕ) : trim (UfwRow.pad n) = Nat.toDigits 10 n := by
  have hdigits : trim (Nat.toDigits 10 n) = Nat.toDigits 10 n := by
    refine trim_eq_self fun c hc => not_isWhitespace ?_
    have hrange := toNat_of_isDigit (isDigit_of_mem_toDigits hc)
    omega
  rw [UfwRow.pad]
  split
  · exact (trim_cons rfl _).trans hdigits
  · exact hdigits

theorem notMem_pad {c : Char} (hbracket : c ≠ '[') (hblank : c ≠ ' ') (hdigit : ¬ c.isDigit)
    (n : ℕ) : c ∉ '[' :: UfwRow.pad n := by
  intro hmem
  rw [UfwRow.pad, mem_cons, mem_append] at hmem
  rcases hmem with hmem | hmem | hmem
  · exact hbracket hmem
  · split at hmem
    · exact hblank (mem_singleton.1 hmem)
    · cases hmem
  · exact hdigit (isDigit_of_mem_toDigits hmem)

theorem parseRow_line (row : UfwRow) (n : ℕ) :
    parseRow (row.line n) = if n < 4294967296 then some (n, row.body) else none := by
  have htrim : trim (row.line n) =
      '[' :: UfwRow.pad n ++ ']' :: (' ' :: row.text).rdropWhile isWhitespace :=
    trim_append_cons (by decide)
  have hbody : trim ((' ' :: row.text).rdropWhile isWhitespace) = row.body := by
    rw [trim_rdropWhile, trim_cons rfl, UfwRow.body]
  have hhead : ('[' :: UfwRow.pad n ++
      ']' :: (' ' :: row.text).rdropWhile isWhitespace).head? = some '[' := rfl
  rw [parseRow, htrim, if_pos hhead, splitNumberedRule,
    splitOnce_append (notMem_pad (by decide) (by decide) (by decide) n)]
  simp only [Option.bind_eq_bind, Option.bind_some, tail_cons, trim_pad,
    parseUnsigned_toDigits, hbody]
  split
  · rfl
  · rfl

/-- The rows, as the controller reads them. -/
def numbered (rows : List UfwRow) : List (ℕ × List Char) :=
  (rows.zipIdx 1).filterMap fun row => if row.2 < 4294967296 then some (row.2, row.1.body) else none

theorem newline_notMem_line (row : UfwRow) (n : ℕ) : '\n' ∉ row.line n := by
  intro hmem
  rcases mem_append.1 hmem with hmem | hmem
  · exact notMem_pad (by decide) (by decide) (by decide) n hmem
  · simp [row.newline_notMem] at hmem

theorem lines_status {host : UfwHost} (h : host.active) :
    lines host.status = (header ++ (host.rows.zipIdx 1).map fun row =>
      row.1.line row.2).map chompReturn := by
  rw [status, statusLines, if_pos h]
  refine lines_unlines fun line hline => ?_
  rcases mem_append.1 hline with hline | hline
  · exact (by decide : ∀ line ∈ header, '\n' ∉ line) line hline
  · obtain ⟨row, _, rfl⟩ := mem_map.1 hline
    exact newline_notMem_line row.1 row.2

variable {C : UfwCodec} {host : UfwHost}

theorem parse_status (h : host.active) : parse C host.status = {
      active := true
      fingerprint := C.sha256Hex host.status
      ownedRules := (numbered host.rows).filterMap parseOwned
      foreignRules := (numbered host.rows).filterMap parseForeign } := by
  have hrows : (lines host.status).filterMap parseRow = numbered host.rows := by
    have hheader : header.filterMap (parseRow ∘ chompReturn) = [] := by decide
    rw [lines_status h, filterMap_map, filterMap_append, hheader, nil_append, filterMap_map]
    refine filterMap_congr fun row _ => ?_
    rw [Function.comp_apply, Function.comp_apply, parseRow_chompReturn, parseRow_line]
  have hactive : (lines host.status).any isActiveLine = true := by
    rw [lines_status h, map_append, any_append]
    exact Bool.or_eq_true_iff.2 (.inl (by decide))
  rw [parse, hrows, hactive]

variable {rows : List UfwRow} {n : ℕ}

theorem mem_numbered {body : List Char} (h : (n, body) ∈ numbered rows) :
    0 < n ∧ ∃ row, rows[n - 1]? = some row ∧ row.body = body := by
  obtain ⟨⟨row, i⟩, hrow, hsome⟩ := mem_filterMap.1 h
  obtain ⟨hle, hget⟩ := mk_mem_zipIdx_iff_le_and_getElem?_sub.1 hrow
  dsimp only at hsome
  split at hsome
  · cases hsome
    exact ⟨hle, row, hget, rfl⟩
  · cases hsome

variable {observed : UfwObservedRule}

theorem active_of_mem_ownedRules
    (h : observed ∈ (parse C host.status).ownedRules) : host.active := by
  by_contra hactive
  have hstatus : host.status = unlines ["Status: inactive".toList] := by
    rw [status, statusLines, if_neg hactive]
  have hnone : (lines (unlines ["Status: inactive".toList])).filterMap parseRow = [] := by
    decide
  rw [parse, hstatus, hnone] at h
  cases h

theorem exists_of_mem_ownedRules (h : observed ∈ (parse C host.status).ownedRules) :
    0 < observed.number ∧ ∃ row, host.rows[observed.number - 1]? = some row ∧
      row.ownedId = some observed.id := by
  rw [parse_status (active_of_mem_ownedRules h)] at h
  obtain ⟨⟨n, body⟩, hrow, hparse⟩ := mem_filterMap.1 h
  obtain ⟨id, hid, rfl⟩ := Option.map_eq_some_iff.1 hparse
  obtain ⟨hpos, row, hget, rfl⟩ := mem_numbered hrow
  exact ⟨hpos, row, hget, hid⟩

variable {id : String}

/-- The number found for an identifier is that of a row with it. -/
theorem exists_of_uniqueRuleNumber (h : uniqueRuleNumber (.parse C host.status) id = .ok n) :
    0 < n ∧ ∃ row, host.rows[n - 1]? = some row ∧ row.ownedId = some id := by
  rw [uniqueRuleNumber] at h
  split at h
  · next number hmatches =>
    cases h
    have hmem : n ∈ [n] := mem_singleton_self n
    rw [← hmatches] at hmem
    obtain ⟨observed, hobserved, rfl⟩ := mem_map.1 hmem
    obtain ⟨hobserved, hid⟩ := mem_filter.1 hobserved
    rw [← of_decide_eq_true hid]
    exact exists_of_mem_ownedRules hobserved
  · cases h

/-- Without a row of the identifier none is read. -/
theorem countId_eq_zero (h : ∀ row ∈ host.rows, row.ownedId ≠ some id) :
    (parse C host.status).countId id = 0 := by
  refine countP_eq_zero.2 fun observed hobserved => ?_
  obtain ⟨-, row, hrow, hid⟩ := exists_of_mem_ownedRules hobserved
  rw [decide_eq_true_eq]
  rintro rfl
  exact h row (mem_of_getElem? hrow) hid

/-- Rows after the last number that can be read are overlooked. -/
theorem numbered_append (h : 4294967296 ≤ rows.length + 1) (added : List UfwRow) :
    numbered (rows ++ added) = numbered rows := by
  rw [numbered, numbered, zipIdx_append, filterMap_append]
  refine (congrArg _ (filterMap_eq_nil_iff.2 fun row hrow => ?_)).trans (append_nil _)
  have hle := le_snd_of_mem_zipIdx hrow
  exact if_neg (by omega)

/-! Where the rows are not too many, all of them are read. -/

theorem numbered_eq (h : rows.length < 4294967296) :
    numbered rows = (rows.zipIdx 1).map fun row => (row.2, row.1.body) := by
  rw [numbered, ← filterMap_eq_map]
  refine filterMap_congr fun row hrow => ?_
  have hlt := snd_lt_of_mem_zipIdx hrow
  rw [if_pos (by omega)]
  rfl

theorem foreignRules_parse (hactive : host.active) (h : host.rows.length < 4294967296) :
    (parse C host.status).foreignRules =
      (host.rows.filter (·.ownedId.isNone)).map fun row => boundedSummary row.body := by
  rw [parse_status hactive, numbered_eq h]
  suffices hfrom : ∀ (rows : List UfwRow) k,
      ((rows.zipIdx k).map fun row => (row.2, row.1.body)).filterMap parseForeign =
        (rows.filter (·.ownedId.isNone)).map fun row => boundedSummary row.body from hfrom _ 1
  intro rows
  induction rows with
  | nil => exact fun _ => rfl
  | cons row rows ih =>
    intro k
    rw [zipIdx_cons, map_cons, filterMap_cons, ih, parseForeign, ← UfwRow.ownedId, filter_cons]
    cases row.ownedId <;> rfl

theorem countId_parse (hactive : host.active) (h : host.rows.length < 4294967296) (id : String) :
    (parse C host.status).countId id =
      host.rows.countP fun row => row.ownedId = some id := by
  rw [countId, parse_status hactive, numbered_eq h]
  suffices hfrom : ∀ (rows : List UfwRow) k,
      (((rows.zipIdx k).map fun row => (row.2, row.1.body)).filterMap parseOwned).countP
        (·.id = id) = rows.countP fun row => row.ownedId = some id from hfrom _ 1
  intro rows
  induction rows with
  | nil => exact fun _ => rfl
  | cons row rows ih =>
    intro k
    rw [zipIdx_cons, map_cons, filterMap_cons, parseOwned, ← UfwRow.ownedId,
      countP_cons, ← ih (k + 1)]
    cases hid : row.ownedId with
    | none => simp
    | some id' => simp [countP_cons]

theorem uniqueRuleNumber_eq_ok_iff {snapshot : UfwSnapshot} :
    (∃ n, uniqueRuleNumber snapshot id = .ok n) ↔ snapshot.countId id = 1 := by
  have hlength : ((snapshot.ownedRules.filter (·.id = id)).map (·.number)).length =
      snapshot.countId id := by
    rw [length_map, countId, countP_eq_length_filter]
  rw [← hlength, uniqueRuleNumber]
  split
  · next n hmatches => simp [hmatches]
  · next hmatches =>
    constructor
    · rintro ⟨n, hn⟩
      cases hn
    · intro hone
      obtain ⟨n, hn⟩ := length_eq_one_iff.1 hone
      exact absurd hn (hmatches n)

/-! ## Comments -/

theorem black_of_isRuleIdChar {c : Char} (h : isRuleIdChar c) :
    ¬ isWhitespace c ∧ c ≠ '#' := by
  have hrange : 45 ≤ c.toNat ∧ c.toNat ≤ 122 := by
    simp only [isRuleIdChar, Char.isAlphanum, Bool.or_eq_true, decide_eq_true_eq] at h
    rcases h with ((h | h) | rfl) | rfl
    · have := toNat_of_isAlpha h
      omega
    · have := toNat_of_isDigit h
      omega
    · decide
    · decide
  refine ⟨not_isWhitespace (by omega), ?_⟩
  rintro rfl
  exact absurd hrange (by decide)

variable {row : UfwRow}

theorem ownedId_of_commented (hne : id ≠ "") (hid : id.toList.all isRuleIdChar)
    (h : row.Commented (commentNamespace ++ id)) : row.ownedId = some id := by
  obtain ⟨columns, htext⟩ := h
  have hnil : id.toList ≠ [] := by simpa using hne
  have hnamespace : commentNamespace.toList.all fun c => !isWhitespace c && c ≠ '#' := rfl
  have hblack : ∀ c ∈ commentNamespace.toList ++ id.toList, ¬ isWhitespace c ∧ c ≠ '#' := by
    intro c hc
    rcases mem_append.1 hc with hc | hc
    · simpa using all_eq_true.1 hnamespace c hc
    · exact black_of_isRuleIdChar (all_eq_true.1 hid c hc)
  have hcomment : row.text = columns ++ '#' :: ' ' :: (commentNamespace.toList ++ id.toList) := by
    simp [htext, String.toList_append]
  have hend : (' ' :: (commentNamespace.toList ++ id.toList)).rdropWhile isWhitespace =
      ' ' :: (commentNamespace.toList ++ id.toList) :=
    rdropWhile_cons_eq_self (by simp [hnil]) fun c hc => (hblack c hc).1
  have hsplit : rsplitOnce '#' row.body =
      some (columns.dropWhile isWhitespace, ' ' :: (commentNamespace.toList ++ id.toList)) := by
    rw [UfwRow.body, hcomment, trim_append_cons (by decide), hend]
    refine rsplitOnce_append ?_ _
    rw [mem_cons, not_or]
    exact ⟨by decide, fun hmem => (hblack _ hmem).2 rfl⟩
  have htrim : trim (' ' :: (commentNamespace.toList ++ id.toList)) =
      commentNamespace.toList ++ id.toList := by
    rw [trim_cons rfl, trim_eq_self fun c hc => (hblack c hc).1]
  have htrimId : trim id.toList = id.toList :=
    trim_eq_self fun c hc => (hblack c (mem_append_right _ hc)).1
  rw [UfwRow.ownedId, parseOwnedComment, hsplit]
  simp only [Option.bind_eq_bind, Option.bind_some, htrim, strip?_append, htrimId, hid,
    not_true_eq_false, or_false, if_neg hnil, String.ofList_toList]

theorem id_of_validate {rule : UfwRule} {sshPort : UInt16} (h : rule.validate sshPort = .ok ()) :
    rule.id ≠ "" ∧ rule.id.toList.all isRuleIdChar := by
  rw [UfwRule.validate] at h
  split at h
  · cases h
  · next hid =>
    rw [not_or, not_or, not_not] at hid
    exact ⟨hid.1, hid.2.2⟩

/-! ## The commands -/

def append (host : UfwHost) (rows : List UfwRow) : UfwHost := { host with rows := host.rows ++ rows }

@[simp] theorem active_append (rows : List UfwRow) : (host.append rows).active = host.active := rfl

@[simp] theorem rows_append (rows : List UfwRow) :
    (host.append rows).rows = host.rows ++ rows := rfl

def without (host : UfwHost) (id : String) : UfwHost :=
  { host with rows := host.rows.filter fun row => row.ownedId ≠ some id }

@[simp] theorem active_without (id : String) : (host.without id).active = host.active := rfl

@[simp] theorem rows_without (id : String) :
    (host.without id).rows = host.rows.filter fun row => row.ownedId ≠ some id := rfl

/-- The host without the row of a number. -/
def delete (host : UfwHost) (number : String) : Option UfwHost :=
  (parseUnsigned (host.rows.length + 1) number.toList).bind fun n =>
    if n = 0 then none else some { host with rows := host.rows.eraseIdx (n - 1) }

/-- The host after a command. UFW refuses to delete a row that there is not. -/
def perform (R : List String → List UfwRow) (arguments : List String) (host : UfwHost) :
    Option UfwHost :=
  if arguments = statusArguments ∨ arguments.head? = some "--dry-run" then some host
  else if arguments.take 2 = ["--force", "delete"] then arguments[2]?.bind host.delete
  else some (host.append (R arguments))

/-- How a command ends. One that fails may have had its effect. -/
inductive Choice
  | done (stdout : List Char) (audit : CommandAudit)
  | failed (e : CommandError) (effect : Bool)

/-- What a command does to the firewall. -/
def exec (R : List String → List UfwRow) (arguments : List String) :
    Choice → UfwHost → Option (Except CommandError CommandOutput × UfwHost)
  | .done stdout audit, host =>
    match host.perform R arguments with
    | some host' =>
      some (.ok ⟨if arguments = statusArguments then host.status else stdout, audit⟩, host')
    | none => some (.error (.failed "/usr/sbin/ufw" (some 1) ""), host)
  | .failed e effect, host =>
    some (.error e, if effect then (host.perform R arguments).getD host else host)

variable {R : List String → List UfwRow}

theorem exec_cases {arguments : List String} {x : Choice} {host' : UfwHost}
    {a : Except CommandError CommandOutput} (h : exec R arguments x host = some (a, host')) :
    (host' = host ∨ host.perform R arguments = some host') ∧
      ∀ output, a = .ok output → arguments = statusArguments → output.stdout = host.status := by
  cases x with
  | done stdout audit =>
    rw [exec] at h
    split at h
    · next hperform =>
      cases h
      refine ⟨.inr hperform, ?_⟩
      rintro output ⟨⟩ hstatus
      exact if_pos hstatus
    · cases h
      refine ⟨.inl rfl, ?_⟩
      rintro output ⟨⟩
  | failed e effect =>
    cases h
    refine ⟨?_, fun output houtput => by cases houtput⟩
    cases effect with
    | false => exact .inl rfl
    | true =>
      cases hperform : host.perform R arguments with
      | none => exact .inl rfl
      | some t => exact .inr rfl

theorem perform_status : host.perform R statusArguments = some host := if_pos (.inl rfl)

theorem perform_dryRun (rule : UfwRule) :
    host.perform R (rule.addArguments C true) = some host := if_pos (.inr rfl)

theorem exists_addArguments (C : UfwCodec) (rule : UfwRule) :
    ∃ rest, rule.addArguments C false = rule.action.asArg :: "in" :: rest := ⟨_, rfl⟩

theorem perform_add (rule : UfwRule) : host.perform R (rule.addArguments C false) =
    some (host.append (R (rule.addArguments C false))) := by
  obtain ⟨rest, hrest⟩ := exists_addArguments C rule
  have haction : rule.action.asArg ≠ "status" ∧ rule.action.asArg ≠ "--dry-run" ∧
      rule.action.asArg ≠ "--force" := by
    cases rule.action <;> decide
  rw [hrest, perform, if_neg, if_neg]
  · simp [haction.2.2]
  · simp [statusArguments, haction.1, haction.2.1]

theorem perform_delete (hpos : 0 < n) (hle : n ≤ host.rows.length) :
    host.perform R (deleteArguments n) = some { host with rows := host.rows.eraseIdx (n - 1) } := by
  have hnumber : parseUnsigned (host.rows.length + 1) (toString n).toList = some n := by
    rw [Nat.toString_eq_repr, Nat.toList_repr, parseUnsigned_toDigits, if_pos (by omega)]
  rw [perform, if_neg (by simp [deleteArguments, statusArguments]), if_pos (by simp [deleteArguments])]
  change host.delete (toString n) = _
  rw [delete, hnumber, Option.bind_some, if_neg (Nat.ne_of_gt hpos)]

theorem exists_eraseIdx {i : ℕ} (h : rows[i]? = some row) :
    ∃ a b, rows = a ++ row :: b ∧ rows.eraseIdx i = a ++ b := by
  obtain ⟨hlt, rfl⟩ := List.getElem?_eq_some_iff.1 h
  refine ⟨rows.take i, rows.drop (i + 1), ?_, List.eraseIdx_eq_take_drop_succ rows i⟩
  rw [← List.drop_eq_getElem_cons hlt, List.take_append_drop]

end UfwHost

end VpsGuard
