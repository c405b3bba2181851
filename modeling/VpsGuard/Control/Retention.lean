import VpsGuard.Control.Rollups

/-!
# Retention

What is stored does not stay. Each table has a time before which its rows are deleted,
and the addresses of clients are removed from samples earlier than the samples
themselves (`RetentionCutoffs`). One call deletes a bounded number of rows of each table
(`retain`), tells whether there is more to do, and is repeated.

A call deletes and clears nothing that is not due (`OnlyDue`). It reports a backlog
exactly if something is still due (`NothingDue`), and calls with the same times are done
after as many as it takes to delete the largest number of rows that are due in a table
(`retain_exact`).

A time of 64 bits is cut off where a column ends (`toI64`). This matters for a row with
the largest time that a column has, and a later cutoff: the row is due, and neither
deleted nor reported (`retain_overlooks`).
-/

namespace VpsGuard

open Store List

/-- How long things are kept. -/
structure RetentionConfig where
  detailHours : ℕ
  aggregateDays : ℕ
  incidentDays : ℕ
  auditDays : ℕ
  rawIpDays : ℕ

/-- The times before which things go, numbers of 64 bits. -/
structure RetentionCutoffs where
  detailSinceMs : ℕ
  rawIpSinceMs : ℕ
  aggregateSinceMs : ℕ
  incidentSinceSeconds : ℕ
  auditSinceSeconds : ℕ

def hoursToMillis (hours : ℕ) : ℕ := saturatingProd 64 (saturatingProd 64 hours 60) 60000

def daysToMillis (days : ℕ) : ℕ := saturatingProd 64 (saturatingProd 64 days 24) (60 * 60000)

namespace RetentionCutoffs

/-- The times before which rows are due. A duration that is too long reaches back to the epoch. -/
def fromConfig (retention : RetentionConfig) (nowMs : ℕ) : RetentionCutoffs where
  detailSinceMs := nowMs - hoursToMillis retention.detailHours
  rawIpSinceMs := nowMs - daysToMillis retention.rawIpDays
  aggregateSinceMs := nowMs - daysToMillis retention.aggregateDays
  incidentSinceSeconds := (nowMs - daysToMillis retention.incidentDays) / 1000
  auditSinceSeconds := (nowMs - daysToMillis retention.auditDays) / 1000

/-- No time is later than a column may have. -/
structure Representable (cutoffs : RetentionCutoffs) : Prop where
  detail : cutoffs.detailSinceMs ≤ largestColumn
  rawIp : cutoffs.rawIpSinceMs ≤ largestColumn
  aggregate : cutoffs.aggregateSinceMs ≤ largestColumn
  incident : cutoffs.incidentSinceSeconds ≤ largestColumn
  audit : cutoffs.auditSinceSeconds ≤ largestColumn

end RetentionCutoffs

/-! ## The database -/

/-- A row with a text that says when it was written. -/
structure Dated (α : Type) where
  occurredAt : String
  columns : α

structure ServiceRollupKey where
  bucketMs : ℤ
  name : String
  deriving DecidableEq

/-- The tables that are retained, and the deliveries, which go with their events. What
    else the rows of a table have is a type. -/
structure Database (ω σ ε α δ : Type) extends TrafficTables where
  resourceOs : Table ℤ ω
  resourceService : Table ServiceRollupKey σ
  guardEvents : Table String (Dated ε)
  auditActions : Table String (Dated α)
  deliveries : Table String δ

variable {ω σ ε α δ : Type} {K V : Type} [DecidableEq K]

/-- The time of a row is before the cutoff. -/
def older (time : Option ℤ) (cutoff : ℕ) : Bool := time.any (· < (toI64 cutoff : ℤ))

def retentionDeleteLimit : ℕ := 10000

/-- Delete what is older, as much of it as one pass may. -/
def executeBoundedDelete (scan : Scan (Row K V)) (time : Row K V → Option ℤ) (cutoff : ℕ)
    (table : Table K V) : Table K V × ℕ :=
  let keys := table.select scan (fun row => older (time row) cutoff) retentionDeleteLimit
  (table.deleteIn keys, keys.length)

/-- The orders in which a call goes through the tables. -/
structure RetentionScans (ω σ ε α : Type) where
  samples : Scan (Row ℕ TrafficSample)
  addresses : Scan (Row ℕ TrafficSample)
  clientRollups1m : Scan (Row (ClientRollupKey ℤ) ClientRollupValue)
  rollups10s : Scan (Row (RouteRollupKey ℤ) RouteRollupValue)
  rollups1m : Scan (Row (RouteRollupKey ℤ) RouteRollupValue)
  botRollups1m : Scan (Row (BotRollupKey ℤ) BotRollupValue)
  resourceOs : Scan (Row ℤ ω)
  resourceService : Scan (Row ServiceRollupKey σ)
  guardEvents : Scan (Row String (Dated ε))
  auditActions : Scan (Row String (Dated α))

/-- What a pass did, and whether more is left. -/
structure RetentionHealth where
  deletedRows : ℕ
  anonymizedRows : ℕ
  backlog : Bool

/-! ## The times of the rows -/

def sampleTime (row : Row ℕ TrafficSample) : Option ℤ := some row.2.occurredAtMs

def routeTime (row : Row (RouteRollupKey ℤ) RouteRollupValue) : Option ℤ := some row.1.bucketMs

def clientTime (row : Row (ClientRollupKey ℤ) ClientRollupValue) : Option ℤ := some row.1.bucketMs

def botTime (row : Row (BotRollupKey ℤ) BotRollupValue) : Option ℤ := some row.1.bucketMs

def osTime (row : Row ℤ ω) : Option ℤ := some row.1

def serviceTime (row : Row ServiceRollupKey σ) : Option ℤ := some row.1.bucketMs

def datedTime (unixepoch : String → Option ℤ) (row : Row String (Dated ε)) : Option ℤ :=
  unixepoch row.2.occurredAt

def addressDue (cutoff : ℕ) (row : Row ℕ TrafficSample) : Bool :=
  older (sampleTime row) cutoff && row.2.clientIp.isSome

/-- The sample without its address. -/
def TrafficSample.anonymized (sample : TrafficSample) : TrafficSample :=
  { sample with clientIp := none }

namespace Database

variable (unixepoch : String → Option ℤ) (cutoffs : RetentionCutoffs)

/-- Something is still due in one of the tables. -/
def hasRetentionBacklog (db : Database ω σ ε α δ) : Bool :=
  db.samples.entries.any (fun row => older (sampleTime row) cutoffs.detailSinceMs) ||
    db.samples.entries.any (addressDue cutoffs.rawIpSinceMs) ||
    db.clientRollups1m.entries.any (fun row => older (clientTime row) cutoffs.rawIpSinceMs) ||
    db.rollups10s.entries.any (fun row => older (routeTime row) cutoffs.detailSinceMs) ||
    db.rollups1m.entries.any (fun row => older (routeTime row) cutoffs.aggregateSinceMs) ||
    db.botRollups1m.entries.any (fun row => older (botTime row) cutoffs.aggregateSinceMs) ||
    db.resourceOs.entries.any (fun row => older (osTime row) cutoffs.aggregateSinceMs) ||
    db.resourceService.entries.any (fun row => older (serviceTime row) cutoffs.aggregateSinceMs) ||
    db.guardEvents.entries.any
      (fun row => older (datedTime unixepoch row) cutoffs.incidentSinceSeconds) ||
    db.auditActions.entries.any
      (fun row => older (datedTime unixepoch row) cutoffs.auditSinceSeconds)

/-- Delete and clear what is due, in one transaction, and say whether there is more. -/
def retain (scans : RetentionScans ω σ ε α) (db : Database ω σ ε α δ) (health : RetentionHealth) :
    Database ω σ ε α δ × RetentionHealth × ℕ :=
  let (samples, n₁) :=
    executeBoundedDelete scans.samples sampleTime cutoffs.detailSinceMs db.samples
  let addresses :=
    samples.select scans.addresses (addressDue cutoffs.rawIpSinceMs) retentionDeleteLimit
  let (clientRollups1m, n₂) :=
    executeBoundedDelete scans.clientRollups1m clientTime cutoffs.rawIpSinceMs db.clientRollups1m
  let (rollups10s, n₃) :=
    executeBoundedDelete scans.rollups10s routeTime cutoffs.detailSinceMs db.rollups10s
  let (rollups1m, n₄) :=
    executeBoundedDelete scans.rollups1m routeTime cutoffs.aggregateSinceMs db.rollups1m
  let (botRollups1m, n₅) :=
    executeBoundedDelete scans.botRollups1m botTime cutoffs.aggregateSinceMs db.botRollups1m
  let (resourceOs, n₆) :=
    executeBoundedDelete scans.resourceOs osTime cutoffs.aggregateSinceMs db.resourceOs
  let (resourceService, n₇) :=
    executeBoundedDelete scans.resourceService serviceTime cutoffs.aggregateSinceMs
      db.resourceService
  let (guardEvents, n₈) :=
    executeBoundedDelete scans.guardEvents (datedTime unixepoch) cutoffs.incidentSinceSeconds
      db.guardEvents
  let (auditActions, n₉) :=
    executeBoundedDelete scans.auditActions (datedTime unixepoch) cutoffs.auditSinceSeconds
      db.auditActions
  let deleted := [n₁, n₂, n₃, n₄, n₅, n₆, n₇, n₈, n₉].foldl (saturatingAdd 64) 0
  let db : Database ω σ ε α δ :=
    { lastId := db.lastId
      samples := samples.updateIn addresses TrafficSample.anonymized
      clientRollups1m, rollups10s, rollups1m, botRollups1m, resourceOs, resourceService,
      guardEvents, auditActions
      -- A delivery is deleted with its event.
      deliveries := db.deliveries.deleteIn
        ((db.guardEvents.entries.filter fun row => row.1 ∉ guardEvents).map (·.1)) }
  (db,
    { deletedRows := (health.deletedRows + deleted) % 2 ^ 64
      anonymizedRows := (health.anonymizedRows + addresses.length) % 2 ^ 64
      backlog := db.hasRetentionBacklog unixepoch cutoffs },
    deleted)

/-- Some calls with the same times. -/
def retainAll : Database ω σ ε α δ × RetentionHealth → List (RetentionScans ω σ ε α) →
      Database ω σ ε α δ × RetentionHealth :=
  List.foldl fun (db, health) scans =>
    let (db, health, _) := db.retain unixepoch cutoffs scans health
    (db, health)

/-! ## What is due -/

/-- The numbers of the rows that are due in each table, to be deleted or cleared. -/
def due (db : Database ω σ ε α δ) : List ℕ :=
  [db.samples.entries.countP fun row => older (sampleTime row) cutoffs.detailSinceMs,
    db.samples.entries.countP (addressDue cutoffs.rawIpSinceMs),
    db.clientRollups1m.entries.countP fun row => older (clientTime row) cutoffs.rawIpSinceMs,
    db.rollups10s.entries.countP fun row => older (routeTime row) cutoffs.detailSinceMs,
    db.rollups1m.entries.countP fun row => older (routeTime row) cutoffs.aggregateSinceMs,
    db.botRollups1m.entries.countP fun row => older (botTime row) cutoffs.aggregateSinceMs,
    db.resourceOs.entries.countP fun row => older (osTime row) cutoffs.aggregateSinceMs,
    db.resourceService.entries.countP fun row => older (serviceTime row) cutoffs.aggregateSinceMs,
    db.guardEvents.entries.countP
      fun row => older (datedTime unixepoch row) cutoffs.incidentSinceSeconds,
    db.auditActions.entries.countP
      fun row => older (datedTime unixepoch row) cutoffs.auditSinceSeconds]

variable {unixepoch cutoffs} in
theorem hasRetentionBacklog_eq_false {db : Database ω σ ε α δ} :
    db.hasRetentionBacklog unixepoch cutoffs = false ↔ ∀ n ∈ db.due unixepoch cutoffs, n = 0 := by
  simp only [hasRetentionBacklog, due, Bool.or_eq_false_iff, any_eq_false,
    forall_mem_cons, countP_eq_zero, not_mem_nil, false_implies, implies_true,
    and_true, and_assoc]

end Database

/-! ## One table -/

def IsOlder (time : Option ℤ) (cutoff : ℕ) : Prop := ∃ t ∈ time, t < (cutoff : ℤ)

/-- Only rows that were older are gone. -/
def OlderDeleted (time : Row K V → Option ℤ) (cutoff : ℕ) (before after : Table K V) : Prop :=
  (∀ row ∈ after.entries, row ∈ before.entries) ∧
    ∀ row ∈ before.entries, row ∉ after.entries → IsOlder (time row) cutoff

variable {time : Option ℤ} {cutoff : ℕ}

theorem isOlder_of_older (h : older time cutoff) : IsOlder time cutoff := by
  obtain ⟨t, ht, hlt⟩ := (Option.any_eq_true _ _).1 h
  have hle : (toI64 cutoff : ℤ) ≤ cutoff := Int.ofNat_le.2 (min_le_left _ _)
  exact ⟨t, ht, (of_decide_eq_true hlt).trans_le hle⟩

theorem older_iff (hcutoff : cutoff ≤ largestColumn) : older time cutoff ↔ IsOlder time cutoff := by
  refine ⟨isOlder_of_older, fun ⟨t, ht, hlt⟩ => (Option.any_eq_true _ _).2 ⟨t, ht, ?_⟩⟩
  rw [toI64_eq hcutoff]
  exact decide_eq_true hlt

section Delete

variable {scan : Scan (Row K V)} {time : Row K V → Option ℤ} {cutoff : ℕ} {table : Table K V}

theorem olderDeleted_executeBoundedDelete :
    OlderDeleted time cutoff table (executeBoundedDelete scan time cutoff table).1 := by
  refine ⟨fun row hrow => (mem_filter.1 hrow).1, fun row hrow hgone => ?_⟩
  have hkey : row.1 ∈
      table.select scan (fun row => older (time row) cutoff) retentionDeleteLimit := by
    by_contra hkey
    exact hgone (mem_filter.2 ⟨hrow, decide_eq_true hkey⟩)
  exact isOlder_of_older (of_mem_select hrow hkey)

theorem countP_executeBoundedDelete : (executeBoundedDelete scan time cutoff table).1.entries.countP
        (fun row => older (time row) cutoff) =
      table.entries.countP (fun row => older (time row) cutoff) - retentionDeleteLimit :=
  countP_deleteIn_select

end Delete

/-! ## The samples -/

section Samples

variable {samples : Table ℕ TrafficSample} {keys : List ℕ} {cutoff : ℕ}

theorem countP_older_anonymized : (samples.updateIn keys TrafficSample.anonymized).entries.countP
        (fun row => older (sampleTime row) cutoff) =
      samples.entries.countP fun row => older (sampleTime row) cutoff := by
  rw [Table.updateIn, countP_map]
  refine countP_congr fun row _ => ?_
  rw [Function.comp_apply]
  split <;> exact Iff.rfl

theorem addressDue_anonymized (row : Row ℕ TrafficSample) :
    addressDue cutoff ⟨row.1, row.2.anonymized⟩ = false := Bool.and_false _

end Samples

namespace Database

variable {unixepoch : String → Option ℤ} {cutoffs : RetentionCutoffs} {db : Database ω σ ε α δ}
  {scans : RetentionScans ω σ ε α} {health : RetentionHealth}

theorem due_retain (db : Database ω σ ε α δ) (scans : RetentionScans ω σ ε α)
    (health : RetentionHealth) :
    List.Forall₂ (fun after before => after ≤ before - retentionDeleteLimit)
      ((db.retain unixepoch cutoffs scans health).1.due unixepoch cutoffs)
      (db.due unixepoch cutoffs) := by
  refine .cons ?_ (.cons ?_ (.cons ?_ (.cons ?_ (.cons ?_ (.cons ?_ (.cons ?_ (.cons ?_
    (.cons ?_ (.cons ?_ .nil)))))))))
  · exact (countP_older_anonymized.trans countP_executeBoundedDelete).le
  · -- What was deleted had an address, or had none.
    refine (countP_updateIn_select fun row _ => addressDue_anonymized row).le.trans ?_
    exact Nat.sub_le_sub_right filter_sublist.countP_le _
  all_goals exact countP_executeBoundedDelete.le

variable (unixepoch cutoffs) in
def largestDue (db : Database ω σ ε α δ) : ℕ := (db.due unixepoch cutoffs).foldr max 0

variable {n : ℕ}

theorem le_foldr_max {l : List ℕ} (h : n ∈ l) : n ≤ l.foldr max 0 := by
  induction l with
  | nil => cases h
  | cons m l ih =>
    rcases mem_cons.1 h with rfl | h
    · exact Nat.le_max_left _ _
    · exact (ih h).trans (Nat.le_max_right _ _)

theorem due_retainAll (calls : List (RetentionScans ω σ ε α))
    (h : ∀ m ∈ db.due unixepoch cutoffs, m ≤ n) :
    ∀ m ∈ (retainAll unixepoch cutoffs (db, health) calls).1.due unixepoch cutoffs, m ≤ n -
      retentionDeleteLimit * calls.length := by
  induction calls generalizing db health n with
  | nil => exact h
  | cons scans calls ih =>
    have hnext : ∀ m ∈ (db.retain unixepoch cutoffs scans health).1.due unixepoch cutoffs,
        m ≤ n - retentionDeleteLimit := by
      intro m hm
      obtain ⟨i, hi, rfl⟩ := getElem_of_mem hm
      have hi' : i < (db.due unixepoch cutoffs).length := hi
      have hstep := (due_retain db scans health).get hi hi'
      exact hstep.trans (Nat.sub_le_sub_right (h _ (getElem_mem hi')) _)
    intro m hm
    refine (ih hnext m hm).trans ?_
    rw [length_cons, Nat.mul_succ]
    omega

theorem backlog_retainAll {calls : List (RetentionScans ω σ ε α)} (hcalls : calls ≠ []) :
    (retainAll unixepoch cutoffs (db, health) calls).2.backlog =
      (retainAll unixepoch cutoffs (db, health) calls).1.hasRetentionBacklog unixepoch cutoffs := by
  obtain ⟨calls, last, rfl⟩ := (eq_nil_or_concat' calls).resolve_left hcalls
  rw [retainAll, foldl_append]
  rfl

/-! ## A call -/

variable (unixepoch cutoffs) in
/-- A pass deletes and anonymizes only what was due. -/
structure OnlyDue (before after : Database ω σ ε α δ) : Prop where
  /-- A sample that is left is as before, or has lost an address that was due. -/
  left : ∀ row ∈ after.samples.entries, ∃ old ∈ before.samples.entries, old.1 = row.1 ∧
    (row.2 = old.2 ∨
      IsOlder (sampleTime old) cutoffs.rawIpSinceMs ∧ row.2 = old.2.anonymized)
  samples : ∀ old ∈ before.samples.entries, old.1 ∉ after.samples →
    IsOlder (sampleTime old) cutoffs.detailSinceMs
  clientRollups1m : OlderDeleted clientTime cutoffs.rawIpSinceMs before.clientRollups1m
    after.clientRollups1m
  rollups10s : OlderDeleted routeTime cutoffs.detailSinceMs before.rollups10s after.rollups10s
  rollups1m : OlderDeleted routeTime cutoffs.aggregateSinceMs before.rollups1m after.rollups1m
  botRollups1m : OlderDeleted botTime cutoffs.aggregateSinceMs before.botRollups1m
    after.botRollups1m
  resourceOs : OlderDeleted osTime cutoffs.aggregateSinceMs before.resourceOs after.resourceOs
  resourceService : OlderDeleted serviceTime cutoffs.aggregateSinceMs before.resourceService
    after.resourceService
  guardEvents : OlderDeleted (datedTime unixepoch) cutoffs.incidentSinceSeconds before.guardEvents
    after.guardEvents
  auditActions : OlderDeleted (datedTime unixepoch) cutoffs.auditSinceSeconds before.auditActions
    after.auditActions

variable (unixepoch cutoffs) in
/-- In no table is anything due. -/
structure NothingDue (db : Database ω σ ε α δ) : Prop where
  samples : ∀ row ∈ db.samples.entries, ¬ IsOlder (sampleTime row) cutoffs.detailSinceMs
  addresses : ∀ row ∈ db.samples.entries,
    ¬ (IsOlder (sampleTime row) cutoffs.rawIpSinceMs ∧ row.2.clientIp.isSome)
  clientRollups1m : ∀ row ∈ db.clientRollups1m.entries,
    ¬ IsOlder (clientTime row) cutoffs.rawIpSinceMs
  rollups10s : ∀ row ∈ db.rollups10s.entries, ¬ IsOlder (routeTime row) cutoffs.detailSinceMs
  rollups1m : ∀ row ∈ db.rollups1m.entries, ¬ IsOlder (routeTime row) cutoffs.aggregateSinceMs
  botRollups1m : ∀ row ∈ db.botRollups1m.entries, ¬ IsOlder (botTime row) cutoffs.aggregateSinceMs
  resourceOs : ∀ row ∈ db.resourceOs.entries, ¬ IsOlder (osTime row) cutoffs.aggregateSinceMs
  resourceService : ∀ row ∈ db.resourceService.entries,
    ¬ IsOlder (serviceTime row) cutoffs.aggregateSinceMs
  guardEvents : ∀ row ∈ db.guardEvents.entries,
    ¬ IsOlder (datedTime unixepoch row) cutoffs.incidentSinceSeconds
  auditActions : ∀ row ∈ db.auditActions.entries,
    ¬ IsOlder (datedTime unixepoch row) cutoffs.auditSinceSeconds

theorem samples_retain : let after := (db.retain unixepoch cutoffs scans health).1
    (∀ row ∈ after.samples.entries, ∃ old ∈ db.samples.entries, old.1 = row.1 ∧
      (row.2 = old.2 ∨
        IsOlder (sampleTime old) cutoffs.rawIpSinceMs ∧ row.2 = old.2.anonymized)) ∧
    ∀ old ∈ db.samples.entries, old.1 ∉ after.samples →
      IsOlder (sampleTime old) cutoffs.detailSinceMs := by
  intro after
  obtain ⟨hleft, hgone⟩ : OlderDeleted sampleTime cutoffs.detailSinceMs db.samples
      (executeBoundedDelete scans.samples sampleTime cutoffs.detailSinceMs db.samples).1 :=
    olderDeleted_executeBoundedDelete
  constructor
  · intro row hrow
    obtain ⟨old, hold, heq⟩ := mem_map.1 hrow
    refine ⟨old, hleft old hold, ?_⟩
    split at heq
    · next hkey =>
      have hdue := of_mem_select hold hkey
      subst heq
      exact ⟨rfl, .inr ⟨isOlder_of_older (Bool.and_eq_true_iff.1 hdue).1, rfl⟩⟩
    · subst heq
      exact ⟨rfl, .inl rfl⟩
  · intro old hold hnot
    refine hgone old hold fun hmem => hnot (mem_map.2 ⟨_, mem_map_of_mem hmem, ?_⟩)
    split <;> rfl

theorem onlyDue_retain :
    OnlyDue unixepoch cutoffs db (db.retain unixepoch cutoffs scans health).1 where
  left := samples_retain.1
  samples := samples_retain.2
  clientRollups1m := olderDeleted_executeBoundedDelete
  rollups10s := olderDeleted_executeBoundedDelete
  rollups1m := olderDeleted_executeBoundedDelete
  botRollups1m := olderDeleted_executeBoundedDelete
  resourceOs := olderDeleted_executeBoundedDelete
  resourceService := olderDeleted_executeBoundedDelete
  guardEvents := olderDeleted_executeBoundedDelete
  auditActions := olderDeleted_executeBoundedDelete

theorem nothingDue_iff (hcutoffs : cutoffs.Representable) :
    NothingDue unixepoch cutoffs db ↔ db.hasRetentionBacklog unixepoch cutoffs = false := by
  simp only [hasRetentionBacklog, addressDue, Bool.or_eq_false_iff, any_eq_false, and_assoc,
    Bool.and_eq_true, older_iff hcutoffs.detail, older_iff hcutoffs.rawIp,
    older_iff hcutoffs.aggregate, older_iff hcutoffs.incident, older_iff hcutoffs.audit]
  constructor
  · rintro ⟨h₁, h₂, h₃, h₄, h₅, h₆, h₇, h₈, h₉, h₁₀⟩
    exact ⟨h₁, h₂, h₃, h₄, h₅, h₆, h₇, h₈, h₉, h₁₀⟩
  · rintro ⟨h₁, h₂, h₃, h₄, h₅, h₆, h₇, h₈, h₉, h₁₀⟩
    exact ⟨h₁, h₂, h₃, h₄, h₅, h₆, h₇, h₈, h₉, h₁₀⟩

/-- If no cutoff is later than a column may have: a call deletes and clears only what is
    due, it reports no backlog exactly if nothing is due any more, and calls with the same
    cutoffs report none after as many as it takes for the largest number of rows that are
    due in a table, and at least one. -/
theorem retain_exact (unixepoch : String → Option ℤ) {cutoffs : RetentionCutoffs}
    (hcutoffs : cutoffs.Representable) (db : Database ω σ ε α δ) (health : RetentionHealth) :
    (∀ scans, OnlyDue unixepoch cutoffs db (db.retain unixepoch cutoffs scans health).1 ∧
      ((db.retain unixepoch cutoffs scans health).2.1.backlog = false ↔
        NothingDue unixepoch cutoffs (db.retain unixepoch cutoffs scans health).1)) ∧
    ∀ calls : List (RetentionScans ω σ ε α),
      max 1 ((db.largestDue unixepoch cutoffs + 9999) / 10000) ≤ calls.length →
        (retainAll unixepoch cutoffs (db, health) calls).2.backlog = false := by
  refine ⟨fun scans => ⟨onlyDue_retain, (nothingDue_iff hcutoffs).symm⟩, fun calls hcalls => ?_⟩
  have hne : calls ≠ [] := by
    rintro rfl
    exact absurd hcalls (by simp)
  rw [backlog_retainAll hne, hasRetentionBacklog_eq_false]
  intro m hm
  have hle := due_retainAll calls (fun m hm => le_foldr_max hm) m hm
  rw [← largestDue, retentionDeleteLimit] at hle
  omega

def inOrderScans : RetentionScans ω σ ε α :=
  ⟨.inOrder _, .inOrder _, .inOrder _, .inOrder _, .inOrder _, .inOrder _, .inOrder _, .inOrder _,
    .inOrder _, .inOrder _⟩

def sampleAt (occurredAtMs : ℕ) : TrafficSample :=
  (⟨false, fun _ => ""⟩ : TrafficStore).sample (TrafficTables.sampleEnvelope "a" occurredAtMs)

def oneSample (occurredAtMs : ℕ) : Database Unit Unit Unit Unit Unit where
  lastId := 1
  samples := .singleton 1 (sampleAt occurredAtMs)
  rollups10s := ∅
  rollups1m := ∅
  clientRollups1m := ∅
  botRollups1m := ∅
  resourceOs := ∅
  resourceService := ∅
  guardEvents := ∅
  auditActions := ∅
  deliveries := ∅

def sampleRetention : RetentionConfig := ⟨24, 30, 30, 30, 7⟩

/-- A request of a client at some time. -/
def clientSampleAt (occurredAtMs : ℕ) : TrafficSample :=
  (⟨true, fun _ => "66.249.66.1"⟩ : TrafficStore).sample
    (TrafficTables.crawlerEnvelope occurredAtMs.repr occurredAtMs)

/-- Samples and events on both sides of the cutoffs of the fortieth day. -/
def fortiethDay : Database Unit Unit Unit Unit Unit :=
  { oneSample 0 with
    lastId := 3
    samples := ((AList.singleton 3 (clientSampleAt 2851200000)).insert 2
      (clientSampleAt 2592000000)).insert 1 (clientSampleAt 2591999999)
    guardEvents := (AList.singleton "new" ⟨"1970-01-11T00:00:00Z", ()⟩).insert "old"
      ⟨"1970-01-10T23:59:59Z", ()⟩
    deliveries := .singleton "old" () }

/-- The first sample goes, the second loses its address, and the third stays as it is. An event
    goes with its delivery. -/
theorem retain_exact_fortiethDay :
    let unixepoch : String → Option ℤ :=
      fun text => some (if text = "1970-01-10T23:59:59Z" then 863999 else 864000)
    let cutoffs := RetentionCutoffs.fromConfig ⟨240, 30, 30, 30, 7⟩ 3456000000
    let after := fortiethDay.retain unixepoch cutoffs inOrderScans ⟨0, 0, true⟩
    OnlyDue unixepoch cutoffs fortiethDay after.1 ∧ NothingDue unixepoch cutoffs after.1 ∧
      (retainAll unixepoch cutoffs (fortiethDay, ⟨0, 0, true⟩) [inOrderScans]).2.backlog = false ∧
      after.1.samples.entries.map (fun row => (row.1, row.2.clientIp)) =
        [(2, none), (3, some "66.249.66.1")] ∧
      after.1.guardEvents.keys = ["new"] ∧ after.1.deliveries.keys = [] ∧
      after.2.1.anonymizedRows = 1 := by
  intro unixepoch cutoffs after
  obtain ⟨hcall, hcalls⟩ := retain_exact unixepoch
    (⟨by decide, by decide, by decide, by decide, by decide⟩ : cutoffs.Representable) fortiethDay
    ⟨0, 0, true⟩
  have hbacklog := hcalls [inOrderScans] (by decide +kernel)
  exact ⟨(hcall _).1, (hcall _).2.1 hbacklog, hbacklog, by decide +kernel, by decide +kernel,
    by decide +kernel, by decide +kernel⟩

/-- The time of the request is the largest that a column has, and the cutoff is later. The
    request is due, and no backlog is reported. -/
theorem retain_overlooks : let cutoffs := RetentionCutoffs.fromConfig sampleRetention (2 ^ 64 - 1)
    let after := (oneSample (2 ^ 63 - 1)).retain (fun _ => none) cutoffs inOrderScans ⟨0, 0, false⟩
    after.2.1.backlog = false ∧
      ∃ row ∈ after.1.samples.entries, IsOlder (sampleTime row) cutoffs.detailSinceMs := by
  exact ⟨by decide +kernel, ⟨1, sampleAt (2 ^ 63 - 1)⟩, by decide +kernel, 2 ^ 63 - 1,
    by decide +kernel, by decide +kernel⟩

end Database

end VpsGuard
