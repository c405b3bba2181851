import VpsGuard.System.UfwHost

/-!
# Changes of the firewall

What `UfwController.apply` does to the rows of a host that nobody else changes.
Where commands that fail have no effect and the rows can be read back, it ends in
one of three ways (`Outcome`): the change is made, a command failed and the rows
are as before, or an addition did not append exactly one row and could not be
undone.

* So a failed `apply` leaves the rows as they were (`rows_of_apply_error`). A
  deletion that fails after its effect is not undone (`removed_of_apply_error`).
* On a host with IPv6 a rule is added and removed again exactly if it has a source and
  the row that it gets is not beyond the last number (`add_then_remove_iff`). A rule
  without a source is added as two rows with one comment, for which the controller has
  no number (`add_unsourced_fails`).
-/

namespace VpsGuard.UfwHost

open Effect UfwController List UfwSnapshot

variable (C : UfwCodec) (R : List String → List UfwRow)

def Carries : Prop :=
  ∀ (rule : UfwRule) (sshPort : UInt16), rule.validate sshPort = .ok () →
    ∀ row ∈ R (rule.addArguments C false), row.Commented rule.comment

/-- Commands fail only if `failures` says so. One that fails has no effect, and
    the status only fails where the rows are the given ones. -/
def Reliable (failures : Bool) (rows : List UfwRow) : List String → Choice → UfwHost → Prop
  | _, .done _ _, _ => True
  | arguments, .failed _ effect, host =>
    failures = true ∧ effect = false ∧ (arguments = statusArguments → host.rows = rows)

instance (failures : Bool) (rows : List UfwRow) (arguments : List String) (x : Choice)
    (host : UfwHost) : Decidable (Reliable failures rows arguments x host) :=
  match x with
  | .done _ _ => .isTrue trivial
  | .failed _ _ => inferInstanceAs (Decidable (_ ∧ _ ∧ (_ → _)))

/-- A host that nobody else changes. -/
def setting (failures : Bool) (rows : List UfwRow) : Setting Ufw UfwHost Choice where
  exec := exec R
  allow := Reliable failures rows
  inv _ := True

variable {C R} {failures : Bool} {rows : List UfwRow}
  {host host' : UfwHost} {plan : UfwPlan} {rule : UfwRule} {sshPort : UInt16} {α : Type}

/-! ## Commands in turn -/

variable {Q : Except UfwError α → UfwHost → Prop} {id : String}

theorem runThen_safe {arguments : List String} {k : CommandOutput → Prog Ufw (Except UfwError α)}
    (hperform : host.perform R arguments = some host')
    (herror : ∀ e, failures = true → (arguments = statusArguments → host.rows = rows) →
      Q (.error (.command e)) host)
    (hok : ∀ output : CommandOutput, (arguments = statusArguments → output.stdout = host.status) →
      (k output).Safe (setting R failures rows) .alone Q host') :
    (runThen arguments k).Safe (setting R failures rows) .alone Q host := by
  refine .call_alone fun _ x a t hallow hx => ⟨trivial, ?_⟩
  cases x with
  | done stdout audit =>
    simp only [setting, exec, hperform, Option.some.injEq, Prod.mk.injEq] at hx
    obtain ⟨rfl, rfl⟩ := hx
    exact hok _ fun hstatus => if_pos hstatus
  | failed e effect =>
    obtain ⟨hfailures, rfl, hrows⟩ := hallow
    simp only [setting, exec, Option.some.injEq, Prod.mk.injEq] at hx
    obtain ⟨rfl, rfl⟩ := hx
    exact .ret_alone fun _ => herror e hfailures hrows

theorem snapshotThen_safe {k : UfwSnapshot → CommandAudit → Prog Ufw (Except UfwError α)}
    (herror : ∀ e, failures = true → host.rows = rows → Q (.error (.command e)) host)
    (hok : ∀ audit, (k (.parse C host.status) audit).Safe (setting R failures rows) .alone Q host) :
    (snapshotThen C k).Safe (setting R failures rows) .alone Q host := by
  refine runThen_safe perform_status (fun e hfailures hrows => herror e hfailures (hrows rfl)) ?_
  intro output hstdout
  rw [hstdout rfl]
  exact hok output.audit

/-! ## Plans -/

theorem active_parse (host : UfwHost) : (parse C host.status).active = host.active := by
  cases h : host.active with
  | true => rw [parse_status h]
  | false =>
    have hstatus : host.status = Text.unlines ["Status: inactive".toList] := by
      rw [status, statusLines, h]
      rfl
    rw [active_parse_eq, hstatus]
    decide

/-- How often the identifier is there before the change. -/
def occurrences : UfwMutation → ℕ
  | .add _ => 0
  | .remove _ => 1

/-- The plan was made for the firewall as it is. -/
structure Planned (C : UfwCodec) (host : UfwHost) (plan : UfwPlan) : Prop where
  active : host.active
  fingerprint : plan.beforeFingerprint = (parse C host.status).fingerprint
  valid : plan.mutation.rule.validate plan.sshPort = .ok ()
  count : (parse C host.status).countId plan.mutation.rule.id =
    occurrences plan.mutation

theorem planned_of_plan {mode : FirewallMode} {mutation : UfwMutation}
    (h : UfwController.plan mode (.parse C host.status) mutation sshPort = .ok plan) :
    Planned C host plan ∧ plan.mutation = mutation := by
  unfold UfwController.plan at h
  split at h
  · cases h
  split at h
  · cases h
  next hactive =>
  rw [not_not, active_parse] at hactive
  split at h
  · cases h
  next hvalid =>
  split at h
  · split at h
    · cases h
    · next hcount =>
      cases h
      exact ⟨⟨hactive, rfl, hvalid, not_not.1 hcount⟩, rfl⟩
  · split at h
    · cases h
    · next hcount =>
      cases h
      exact ⟨⟨hactive, rfl, hvalid, not_not.1 hcount⟩, rfl⟩

theorem Planned.validate_add (h : Planned C host plan) (hmutation : plan.mutation = .add rule) :
    rule.validate plan.sshPort = .ok () := by
  have hvalid := h.valid
  rwa [hmutation] at hvalid

theorem Planned.countP_add (h : Planned C host plan) (hmutation : plan.mutation = .add rule)
    (hlength : host.rows.length < 4294967296) :
    host.rows.countP (fun row => row.ownedId = some rule.id) = 0 := by
  have hcount := h.count
  rwa [countId_parse h.active hlength, hmutation] at hcount

theorem Planned.countP_remove (h : Planned C host plan) (hmutation : plan.mutation = .remove rule)
    (hlength : host.rows.length < 4294967296) :
    host.rows.countP (fun row => row.ownedId = some rule.id) = 1 := by
  have hcount := h.count
  rwa [countId_parse h.active hlength, hmutation] at hcount

variable (C R)

/-- The firewall after the change. -/
def changed (plan : UfwPlan) (host : UfwHost) : UfwHost :=
  match plan.mutation with
  | .add rule => host.append (R (rule.addArguments C false))
  | .remove rule => host.without rule.id

/-- How many rows are appended. -/
def appended : UfwMutation → ℕ
  | .add rule => (R (rule.addArguments C false)).length
  | .remove _ => 0

/-- One row is appended, if any. -/
def Single : UfwMutation → Prop
  | .add rule => (R (rule.addArguments C false)).length = 1
  | .remove _ => True

/-- How a planned change ends. -/
def Outcome (failures : Bool) (plan : UfwPlan) (host : UfwHost) :
    Except UfwError (List CommandAudit) → UfwHost → Prop
  | .ok _, host' => Single C R plan.mutation ∧ host' = changed C R plan host
  | .error (.command _), host' => failures = true ∧ host'.rows = host.rows
  | .error .rollbackFailed, host' => ¬ Single C R plan.mutation ∧ host' = changed C R plan host
  | .error _, _ => False

variable {C R}

/-! ## Additions -/

theorem filter_eq_self_of_countP (h : rows.countP (fun row => row.ownedId = some id) = 0) :
    rows.filter (fun row => row.ownedId ≠ some id) = rows := by
  rw [countP_eq_zero] at h
  rw [filter_eq_self]
  intro row hrow
  simpa using h row hrow

section Add

variable (hR : Carries C R)

include hR

section

variable (hvalid : rule.validate sshPort = .ok ())

include hvalid

theorem ownedId_of_mem {row : UfwRow} (hrow : row ∈ R (rule.addArguments C false)) :
    row.ownedId = some rule.id :=
  ownedId_of_commented (id_of_validate hvalid).1 (id_of_validate hvalid).2
    (hR rule sshPort hvalid row hrow)

theorem filter_append_rows : (rows ++ R (rule.addArguments C false)).filter (·.ownedId.isNone) =
      rows.filter (·.ownedId.isNone) := by
  have hnone : (R (rule.addArguments C false)).filter (·.ownedId.isNone) = [] := by
    rw [filter_eq_nil_iff]
    intro row hrow
    simp [ownedId_of_mem hR hvalid hrow]
  rw [filter_append, hnone, append_nil]

theorem countP_append_rows :
    (rows ++ R (rule.addArguments C false)).countP (fun row => row.ownedId = some rule.id) =
      rows.countP (fun row => row.ownedId = some rule.id) + (R (rule.addArguments C false)).length := by
  rw [countP_append, Nat.add_left_cancel_iff, countP_eq_length]
  intro row hrow
  exact decide_eq_true (ownedId_of_mem hR hvalid hrow)

theorem without_append (hzero : host.rows.countP (fun row => row.ownedId = some rule.id) = 0) :
    (host.append (R (rule.addArguments C false))).without rule.id = host := by
  have hnone : (R (rule.addArguments C false)).filter (fun row => row.ownedId ≠ some rule.id) = [] := by
    rw [filter_eq_nil_iff]
    intro row hrow
    simp [ownedId_of_mem hR hvalid hrow]
  rw [without, rows_append, filter_append, hnone, append_nil,
    filter_eq_self_of_countP hzero, append]

end

variable (hplanned : Planned C host plan) (hmutation : plan.mutation = .add rule)
  (hlength : host.rows.length + (R (rule.addArguments C false)).length < 4294967296)

include hplanned hmutation hlength

theorem countId_add : (parse C
    (host.append (R (rule.addArguments C false))).status).countId rule.id =
      (R (rule.addArguments C false)).length := by
  have hactive : (host.append (R (rule.addArguments C false))).active := hplanned.active
  rw [countId_parse hactive (by rw [rows_append, length_append]; exact hlength),
    rows_append, countP_append_rows hR (hplanned.validate_add hmutation),
    hplanned.countP_add hmutation (by omega), Nat.zero_add]

theorem verifiesTransition_add : verifiesTransition (.parse C host.status)
    (.parse C (host.append (R (rule.addArguments C false))).status) plan =
      decide ((R (rule.addArguments C false)).length = 1) := by
  have hshort : (host.append (R (rule.addArguments C false))).rows.length < 4294967296 := by
    rwa [rows_append, length_append]
  have hactive : (host.append (R (rule.addArguments C false))).active := hplanned.active
  have hforeign : (parse C host.status).foreignRules = (parse C
      (host.append (R (rule.addArguments C false))).status).foreignRules := by
    rw [foreignRules_parse hplanned.active (by omega), foreignRules_parse hactive hshort,
      rows_append, filter_append_rows hR (hplanned.validate_add hmutation)]
  simp only [verifiesTransition, hmutation, active_parse, active_append, hplanned.active, hforeign,
    countId_add hR hplanned hmutation hlength, decide_true, Bool.and_self, Bool.true_and]

end Add

/-! ## Removals -/

theorem eraseIdx_eq_filter {i : ℕ} {row : UfwRow} (hrow : rows[i]? = some row)
    (hid : row.ownedId = some id) (hcount : rows.countP (fun row => row.ownedId = some id) = 1) :
    rows.eraseIdx i = rows.filter fun row => row.ownedId ≠ some id := by
  obtain ⟨a, b, rfl, herase⟩ := exists_eraseIdx hrow
  have hsum : a.countP (fun row => row.ownedId = some id) +
      b.countP (fun row => row.ownedId = some id) = 0 := by
    simp only [countP_append, countP_cons, hid, decide_true, if_true] at hcount
    omega
  rw [herase, filter_append, filter_cons_of_neg (by simp [hid]),
    filter_eq_self_of_countP (by omega), filter_eq_self_of_countP (by omega)]

theorem verifiesTransition_remove (hplanned : Planned C host plan)
    (hmutation : plan.mutation = .remove rule) (hlength : host.rows.length < 4294967296) :
    verifiesTransition (.parse C host.status) (.parse C (host.without rule.id).status) plan := by
  have hshort : (host.without rule.id).rows.length < 4294967296 :=
    Nat.lt_of_le_of_lt (length_filter_le _ _) hlength
  have hactive : (host.without rule.id).active := hplanned.active
  have hforeign : (parse C host.status).foreignRules =
      (parse C (host.without rule.id).status).foreignRules := by
    rw [foreignRules_parse hplanned.active hlength, foreignRules_parse hactive hshort,
      rows_without, filter_filter]
    congr 1
    refine filter_congr fun row _ => ?_
    cases row.ownedId <;> simp
  have hcount : (parse C (host.without rule.id).status).countId rule.id = 0 := by
    rw [countId_parse hactive hshort, rows_without, countP_filter, countP_eq_zero]
    intro row _
    simp
  simp only [verifiesTransition, hmutation, active_parse, active_without, hplanned.active, hforeign,
    hcount, decide_true, Bool.and_self]

/-! ## Planned changes -/

variable (failures) in
theorem apply_safe (hR : Carries C R) (hplanned : Planned C host plan)
    (hlength : host.rows.length + appended C R plan.mutation < 4294967296) :
    (UfwController.apply C plan).Safe (setting R failures host.rows) .alone
      (Outcome C R failures plan host) host := by
  refine snapshotThen_safe (fun _ hfailures hrows => ⟨hfailures, hrows⟩) fun _ => ?_
  rw [if_neg (not_not.2 hplanned.fingerprint.symm)]
  cases hmutation : plan.mutation with
  | add rule =>
    rw [hmutation] at hlength
    have hchanged : changed C R plan host = host.append (R (rule.addArguments C false)) := by
      rw [changed, hmutation]
    rw [dryRunThen, hmutation]
    refine runThen_safe (perform_dryRun rule) (fun _ hfailures _ => ⟨hfailures, rfl⟩) fun _ _ => ?_
    rw [mutateThen, hmutation]
    refine runThen_safe (perform_add rule) (fun _ hfailures _ => ⟨hfailures, rfl⟩) fun _ _ => ?_
    refine snapshotThen_safe (fun _ hfailures hrows => ⟨hfailures, hrows⟩) fun _ => ?_
    rw [verifiesTransition_add hR hplanned hmutation hlength]
    split
    · next hone =>
      refine .ret_alone fun _ => ⟨?_, hchanged.symm⟩
      rw [hmutation, Single]
      exact of_decide_eq_true hone
    · next hone =>
      -- There is no row, or there are several: none of them is deleted.
      have hunique : ∀ n, uniqueRuleNumber (.parse C
          (host.append (R (rule.addArguments C false))).status) rule.id ≠ .ok n := by
        intro n hn
        have hcount := uniqueRuleNumber_eq_ok_iff.1 ⟨n, hn⟩
        rw [countId_add hR hplanned hmutation hlength] at hcount
        exact hone (decide_eq_true hcount)
      rw [rollbackTransition, revertThen, hmutation]
      dsimp only
      rw [deleteThen]
      split
      · next n hn => exact absurd hn (hunique n)
      · refine .ret_alone fun _ => ⟨?_, hchanged.symm⟩
        rw [hmutation]
        exact fun h => hone (decide_eq_true h)
  | remove rule =>
    rw [dryRunThen, hmutation]
    dsimp only
    rw [mutateThen, hmutation]
    dsimp only
    have hcount := hplanned.countP_remove hmutation (by omega)
    obtain ⟨n, hn⟩ := uniqueRuleNumber_eq_ok_iff.2
      ((countId_parse (C := C) hplanned.active (by omega) rule.id).trans hcount)
    obtain ⟨hpos, row, hrow, hid⟩ := exists_of_uniqueRuleNumber hn
    have herase : { host with rows := host.rows.eraseIdx (n - 1) } = host.without rule.id := by
      rw [without, eraseIdx_eq_filter hrow hid hcount]
    have hperform : host.perform R (deleteArguments n) = some (host.without rule.id) := by
      rw [perform_delete hpos (by have := (List.getElem?_eq_some_iff.1 hrow).1; omega), herase]
    rw [deleteThen, hn]
    refine runThen_safe hperform (fun _ hfailures _ => ⟨hfailures, rfl⟩) fun _ _ => ?_
    refine snapshotThen_safe (fun _ hfailures hrows => ⟨hfailures, hrows⟩) fun _ => ?_
    rw [if_pos (verifiesTransition_remove hplanned hmutation (by omega))]
    refine .ret_alone fun _ => ⟨?_, ?_⟩
    · rw [hmutation]
      trivial
    · rw [changed, hmutation]

/-! ## A host with IPv6 -/

/-- Rules without a source are added for both families, the others for that of
    the source. -/
structure DualStack (C : UfwCodec) (R : List String → List UfwRow) : Prop where
  carries : Carries C R
  unsourced : ∀ rule : UfwRule, rule.source = none → (R (rule.addArguments C false)).length = 2
  sourced : ∀ rule : UfwRule, rule.source ≠ none → (R (rule.addArguments C false)).length = 1

/-- A row of these characters. -/
def rowOf (text : List Char) : UfwRow where
  text := text.filter (· ≠ '\n')
  newline_notMem := by simp

def dualStackRows (arguments : List String) : List UfwRow :=
  let comment := (arguments.getLast?.getD "").toList
  if arguments[2]? = some "from" then
    [rowOf ("443/tcp ALLOW IN 203.0.113.0/24 ".toList ++ ['#', ' '] ++ comment)]
  else
    [rowOf ("443/tcp ALLOW IN Anywhere ".toList ++ ['#', ' '] ++ comment),
      rowOf ("443/tcp (v6) ALLOW IN Anywhere (v6) ".toList ++ ['#', ' '] ++ comment)]

/-- The length of a text for a hash, and one network. -/
def plainUfw : UfwCodec where
  sha256Hex text := toString text.length
  printNet _ := "203.0.113.0/24"
  parseNet _ := none

theorem commented_rowOf (columns : List Char) (hid : id.toList.all isRuleIdChar)
    (hcolumns : '\n' ∉ columns) :
    (rowOf (columns ++ ['#', ' '] ++ (commentNamespace ++ id).toList)).Commented
      (commentNamespace ++ id) := by
  refine ⟨columns, filter_eq_self.2 fun c hc => decide_eq_true ?_⟩
  rintro rfl
  rw [mem_append, mem_append, String.toList_append, mem_append] at hc
  rcases hc with (hc | hc) | hc | hc
  · exact hcolumns hc
  · exact absurd hc (by decide)
  · exact absurd hc (by decide)
  · exact (black_of_isRuleIdChar (all_eq_true.1 hid _ hc)).1 rfl

theorem addArguments_getElem? (rule : UfwRule) :
    (rule.addArguments plainUfw false)[2]? = some "from" ↔ rule.source ≠ none := by
  obtain ⟨id, action, source, port, protocol⟩ := rule
  cases source with
  | some net => simp [UfwRule.addArguments]
  | none => cases port <;> cases protocol <;> simp [UfwRule.addArguments, UfwProtocol.asArg]

theorem dualStack_plain : DualStack plainUfw dualStackRows where
  carries rule sshPort hvalid row hrow := by
    have hid := (id_of_validate hvalid).2
    have hlast : (rule.addArguments plainUfw false).getLast?.getD "" = rule.comment := by
      rw [UfwRule.addArguments, getLast?_append]
      rfl
    rw [dualStackRows, hlast] at hrow
    split at hrow
    · rw [mem_singleton.1 hrow]
      exact commented_rowOf _ hid (by decide)
    · rcases mem_pair.1 hrow with rfl | rfl
      · exact commented_rowOf _ hid (by decide)
      · exact commented_rowOf _ hid (by decide)
  unsourced rule hsource := by
    rw [dualStackRows, if_neg (by rw [addArguments_getElem?]; exact not_not.2 hsource)]
    rfl
  sourced rule hsource := by
    rw [dualStackRows, if_pos ((addArguments_getElem? rule).2 hsource)]
    rfl

/-! ## Failures -/

/-- A planned change that fails leaves the rows as they were, unless it says that
    it could not undo them. -/
theorem rows_of_apply_error {mode : FirewallMode} {mutation : UfwMutation} {e : UfwError}
    (hR : Carries C R)
    (hlength : host.rows.length + (R (mutation.rule.addArguments C false)).length < 4294967296)
    (hplan : UfwController.plan mode (.parse C host.status) mutation sshPort = .ok plan)
    (hrun : Prog.Runs ⟨exec R⟩ (Reliable true host.rows) (UfwController.apply C plan) host (.error e)
      host') (he : e ≠ .rollbackFailed) : host'.rows = host.rows := by
  obtain ⟨hplanned, rfl⟩ := planned_of_plan hplan
  have happended : appended C R plan.mutation ≤
      (R (plan.mutation.rule.addArguments C false)).length := by
    cases plan.mutation with
    | add rule => exact le_rfl
    | remove rule => exact Nat.zero_le _
  have houtcome : Outcome C R true plan host (.error e) host' :=
    (hrun.safe (E := setting R true host.rows) (apply_safe true hR hplanned (by omega)) trivial).1
  cases e with
  | command _ => exact houtcome.2
  | rollbackFailed => exact absurd rfl he
  | _ => exact houtcome.elim

def sshHost : UfwHost := ⟨true, [rowOf "22/tcp ALLOW IN Anywhere".toList]⟩

def httpsRule : UfwRule := ⟨"public_https", .allow, none, some 443, .tcp⟩

def plainAudit : CommandAudit := ⟨"2026-07-22T00:00:00Z", "/usr/sbin/ufw", [], some 0, 1⟩

def httpsPlan : UfwPlan := ⟨plainUfw.sha256Hex sshHost.status, .add httpsRule, 22⟩

/-- The addition fails, without an effect. -/
theorem rows_of_add_error : ∃ host', Prog.Runs ⟨exec dualStackRows⟩ (Reliable true sshHost.rows)
    (UfwController.apply plainUfw httpsPlan) sshHost (.error (.command (.io "timeout"))) host' ∧
      host'.rows = sshHost.rows := by
  have hplan : UfwController.plan .standaloneUfw (.parse plainUfw sshHost.status) (.add httpsRule)
      22 = .ok httpsPlan := by decide +kernel
  have hrun : Prog.run ((⟨exec dualStackRows⟩ : Machine Ufw UfwHost Choice).restrict
      (Reliable true sshHost.rows)) [.done [] plainAudit, .done [] plainAudit,
        .failed (.io "timeout") false] (UfwController.apply plainUfw httpsPlan) sshHost =
      some (.error (.command (.io "timeout")), sshHost) := by decide +kernel
  have hruns := Prog.runs_of_run hrun
  exact ⟨sshHost, hruns, rows_of_apply_error dualStack_plain.carries (by decide +kernel) hplan hruns
    (by decide)⟩

def officeRule : UfwRule :=
  ⟨"office_https", .allow, some ⟨.v4 (203 <<< 24 + 113 <<< 8), 24⟩, some 443, .tcp⟩

def officeHost : UfwHost := sshHost.append (dualStackRows (officeRule.addArguments plainUfw false))

def officePlan : UfwPlan := ⟨plainUfw.sha256Hex officeHost.status, .remove officeRule, 22⟩

/-- The deletion times out after its effect. The error does not say that the row
    is gone. -/
theorem removed_of_apply_error :
    UfwController.plan .standaloneUfw (.parse plainUfw officeHost.status) (.remove officeRule) 22 =
        .ok officePlan ∧
      Prog.Runs ⟨exec dualStackRows⟩ (fun _ _ _ => True) (UfwController.apply plainUfw officePlan)
        officeHost (.error (.command (.io "timeout"))) sshHost ∧
      sshHost.rows ≠ officeHost.rows := by
  have hrun : Prog.run ((⟨exec dualStackRows⟩ : Machine Ufw UfwHost Choice).restrict
      fun _ _ _ => True) [.done [] plainAudit, .failed (.io "timeout") true]
        (UfwController.apply plainUfw officePlan) officeHost =
      some (.error (.command (.io "timeout")), sshHost) := by decide +kernel
  exact ⟨by decide +kernel, Prog.runs_of_run hrun, by decide⟩

/-! ## Both families -/

def change (C : UfwCodec) (mode : FirewallMode) (mutation : UfwMutation) (sshPort : UInt16) :
    Prog Ufw (Except UfwError (List CommandAudit)) :=
  snapshotThen C fun snapshot _ =>
    match UfwController.plan mode snapshot mutation sshPort with
    | .ok plan => UfwController.apply C plan
    | .error e => return .error e

/-- Where no command fails, the program returns without an error, and the host is
    then as given. -/
def Succeeds (R : List String → List UfwRow) (p : Prog Ufw (Except UfwError α))
    (host host' : UfwHost) : Prop :=
  (∃ result, Prog.Runs ⟨exec R⟩ (Reliable false host.rows) p host result host') ∧
    ∀ result t, Prog.Runs ⟨exec R⟩ (Reliable false host.rows) p host result t →
      (∃ a, result = .ok a) ∧ t = host'

variable {p : Prog Ufw (Except UfwError α)}

theorem exists_runs_reliable (h : p.Safe (setting R false rows) .alone Q host) :
    ∃ result t, Prog.Runs ⟨exec R⟩ (Reliable false rows) p host result t ∧ Q result t := by
  have hpossible : ∀ (arguments : Ufw.Op) (s : UfwHost), True → True →
      ∃ x a t, Reliable false rows arguments x s ∧ exec R arguments x s = some (a, t) := by
    intro arguments s _ _
    cases hperform : s.perform R arguments with
    | some t => exact ⟨.done [] plainAudit, _, t, trivial, by rw [exec, hperform]⟩
    | none => exact ⟨.done [] plainAudit, _, s, trivial, by rw [exec, hperform]⟩
  obtain ⟨result, t, hruns⟩ := Prog.exists_runs (Prog.performs_true p) hpossible h trivial
  exact ⟨result, t, hruns, (hruns.safe h trivial).1⟩

theorem succeeds_of_safe (h : p.Safe (setting R false host.rows) .alone
      (fun result t => (∃ a, result = .ok a) ∧ t = host') host) : Succeeds R p host host' := by
  constructor
  · obtain ⟨result, t, hruns, _, rfl⟩ := exists_runs_reliable h
    exact ⟨result, hruns⟩
  · intro result t hruns
    exact (hruns.safe (E := setting R false host.rows) h trivial).1

theorem plan_eq_ok (mutation : UfwMutation) (hactive : host.active)
    (hvalid : mutation.rule.validate sshPort = .ok ()) (hlength : host.rows.length < 4294967296)
    (hcount : host.rows.countP (fun row => row.ownedId = some mutation.rule.id) =
      occurrences mutation) :
    UfwController.plan .standaloneUfw (.parse C host.status) mutation sshPort =
      .ok ⟨(parse C host.status).fingerprint, mutation, sshPort⟩ := by
  rw [← countId_parse (C := C) hactive hlength] at hcount
  unfold UfwController.plan
  rw [if_neg (not_not.2 rfl), if_neg (by rw [active_parse, not_not]; exact hactive), hvalid]
  cases mutation with
  | add rule => exact if_neg (not_not.2 hcount)
  | remove rule => exact if_neg (not_not.2 hcount)

section Change

variable {mutation : UfwMutation} (hR : Carries C R)
  (hplan : UfwController.plan .standaloneUfw (.parse C host.status) mutation sshPort = .ok plan)
  (hlength : host.rows.length + appended C R mutation < 4294967296)

include hR hplan hlength

theorem change_safe :
    (change C .standaloneUfw mutation sshPort).Safe (setting R false host.rows) .alone
      (Outcome C R false plan host) host := by
  obtain ⟨hplanned, rfl⟩ := planned_of_plan hplan
  refine snapshotThen_safe (fun _ hfailures _ => absurd hfailures Bool.false_ne_true) fun _ => ?_
  rw [hplan]
  exact apply_safe false hR hplanned hlength

theorem succeeds_change (hsingle : Single C R mutation) :
    Succeeds R (change C .standaloneUfw mutation sshPort) host (changed C R plan host) := by
  refine succeeds_of_safe ((change_safe hR hplan hlength).weaken fun result t _ houtcome => ?_)
  rw [← (planned_of_plan hplan).2] at hsingle
  cases result with
  | ok audits => exact ⟨⟨audits, rfl⟩, houtcome.2⟩
  | error e =>
    cases e with
    | command _ => exact absurd houtcome.1 Bool.false_ne_true
    | rollbackFailed => exact absurd hsingle houtcome.1
    | _ => exact houtcome.elim

end Change

/-- What is true of a host after a change that returns without an error: the row of an
    addition is found, and a removal takes away one row. -/
def Done (C : UfwCodec) (R : List String → List UfwRow) (host host' : UfwHost) :
    UfwMutation → Prop
  | .add rule => (parse C
      (host.append (R (rule.addArguments C false))).status).countId rule.id = 1
  | .remove _ => host'.rows.length + 1 = host.rows.length

theorem countId_of_verifiesTransition {before after : UfwSnapshot}
    (h : verifiesTransition before after plan) (hmutation : plan.mutation = .add rule) :
    after.countId rule.id = 1 := by
  simp only [verifiesTransition, hmutation, Bool.and_eq_true, decide_eq_true_eq] at h
  exact h.2

section Reliable

variable {Q : Except UfwError α → UfwHost → Prop}

theorem runThen_reliable {arguments : List String}
    {k : CommandOutput → Prog Ufw (Except UfwError α)}
    (hperform : host.perform R arguments = some host')
    (hok : ∀ output, (k output).Safe (setting R false rows) .alone Q host') :
    (runThen arguments k).Safe (setting R false rows) .alone Q host :=
  runThen_safe hperform (fun _ hfailures => absurd hfailures Bool.false_ne_true)
    fun output _ => hok output

theorem snapshotThen_reliable {k : UfwSnapshot → CommandAudit → Prog Ufw (Except UfwError α)}
    (hok : ∀ audit, (k (.parse C host.status) audit).Safe (setting R false rows) .alone Q host) :
    (snapshotThen C k).Safe (setting R false rows) .alone Q host :=
  snapshotThen_safe (fun _ hfailures => absurd hfailures Bool.false_ne_true) hok

/-- What is read back is returned, or there is an error, however the rollback ends. -/
theorem readBack_reliable {Q : Except UfwError (List CommandAudit) → UfwHost → Prop}
    {before : UfwSnapshot} {audits : List CommandAudit}
    (hok : verifiesTransition before (.parse C host.status) plan → ∀ audits, Q (.ok audits) host)
    (herror : ∀ e t, Q (.error e) t) :
    (readBack C before plan audits).Safe (setting R false rows) .alone Q host := by
  refine snapshotThen_reliable fun _ => ?_
  split
  · next hverifies => exact .ret_alone fun _ => hok hverifies _
  · refine (Prog.Safe.of_meets (B := fun _ _ => True) (P := fun _ => True)
      ((Prog.performs_true _).meets (Prog.yields_true _)) (fun _ _ h _ _ => h)
      (fun _ _ _ _ _ _ _ _ _ _ => ⟨trivial, trivial, trivial, trivial⟩) trivial).bind
      fun result t _ _ => ?_
    cases result with
    | ok _ => exact .ret_alone fun _ => herror _ _
    | error _ => exact .ret_alone fun _ => herror _ _

end Reliable

theorem change_done (mutation : UfwMutation) :
    (change C .standaloneUfw mutation sshPort).Safe (setting R false host.rows) .alone
      (fun result t => ∀ audits, result = .ok audits → Done C R host t mutation) host := by
  refine snapshotThen_reliable fun _ => ?_
  split
  case h_2 => exact .ret_alone fun _ _ h => nomatch h
  next plan hplan =>
  obtain ⟨-, rfl⟩ := planned_of_plan hplan
  refine snapshotThen_reliable fun _ => ?_
  split
  · exact .ret_alone fun _ _ h => nomatch h
  cases hmutation : plan.mutation with
  | add rule =>
    rw [dryRunThen, hmutation]
    refine runThen_reliable (perform_dryRun rule) fun _ => ?_
    rw [mutateThen, hmutation]
    refine runThen_reliable (perform_add rule) fun _ => readBack_reliable ?_ ?_
    · exact fun hverifies _ _ _ => countId_of_verifiesTransition hverifies hmutation
    · rintro _ _ _ ⟨⟩
  | remove rule =>
    rw [dryRunThen, hmutation]
    dsimp only
    rw [mutateThen, hmutation]
    dsimp only
    rw [deleteThen]
    split
    case h_2 => exact .ret_alone fun _ _ h => nomatch h
    next n hn =>
    obtain ⟨hpos, row, hrow, -⟩ := exists_of_uniqueRuleNumber hn
    have hlt := (List.getElem?_eq_some_iff.1 hrow).1
    refine runThen_reliable (perform_delete hpos (by omega)) fun _ => readBack_reliable ?_ ?_
    · intro _ _ _ _
      rw [Done, length_eraseIdx_of_lt hlt]
      omega
    · rintro _ _ _ ⟨⟩

theorem Succeeds.done {mutation : UfwMutation}
    (h : Succeeds R (change C .standaloneUfw mutation sshPort) host host') :
    Done C R host host' mutation := by
  obtain ⟨⟨result, hruns⟩, hall⟩ := h
  obtain ⟨⟨audits, rfl⟩, -⟩ := hall result host' hruns
  exact (hruns.safe (E := setting R false host.rows) (change_done mutation) trivial).1 audits rfl

/-- A rule is added and then removed again, exactly if it has a source and there is a number
    for the row that is added for it. -/
theorem add_then_remove_iff (hR : DualStack C R) (hactive : host.active)
    (hvalid : rule.validate sshPort = .ok ())
    (hnew : ∀ row ∈ host.rows, row.ownedId ≠ some rule.id) :
    let added := host.append (R (rule.addArguments C false))
    Succeeds R (change C .standaloneUfw (.add rule) sshPort) host added ∧
      Succeeds R (change C .standaloneUfw (.remove rule) sshPort) added host ↔
    rule.source ≠ none ∧ host.rows.length + 1 < 4294967296 := by
  have hadded : (host.append (R (rule.addArguments C false))).active := hactive
  constructor
  · rintro ⟨hadd, hremove⟩
    constructor
    · -- Only one of the two rows would be removed.
      intro hsource
      have hlength : host.rows.length + 1 = (host.rows ++ R (rule.addArguments C false)).length :=
        hremove.done
      rw [length_append, hR.unsourced rule hsource] at hlength
      omega
    · -- The row would not be found.
      by_contra hlong
      have hone : (parse C (host.append (R (rule.addArguments C false))).status).countId
        rule.id = 1 := hadd.done
      have hzero := countId_eq_zero (C := C) hnew
      rw [countId, parse_status hactive] at hzero
      rw [countId, parse_status hadded, rows_append, numbered_append (by omega), hzero] at hone
      cases hone
  · rintro ⟨hsource, hlength⟩
    have hone := hR.sourced rule hsource
    have hzero : host.rows.countP (fun row => row.ownedId = some rule.id) = 0 := by
      rw [countP_eq_zero]
      exact fun row hrow => by simpa using hnew row hrow
    have hcount : (host.append (R (rule.addArguments C false))).rows.countP
        (fun row => row.ownedId = some rule.id) = 1 := by
      rw [rows_append, countP_append_rows hR.carries hvalid, hzero, hone]
    have hshort : (host.append (R (rule.addArguments C false))).rows.length < 4294967296 := by
      rw [rows_append, length_append, hone]
      exact hlength
    constructor
    · exact succeeds_change hR.carries (plan_eq_ok (.add rule) hactive hvalid (by omega) hzero)
        (by rw [appended, hone]; exact hlength) hone
    · have hsucceeds : Succeeds R (change C .standaloneUfw (.remove rule) sshPort) _
          ((host.append (R (rule.addArguments C false))).without rule.id) :=
        succeeds_change hR.carries (plan_eq_ok (.remove rule) hadded hvalid hshort hcount)
          hshort trivial
      rwa [without_append hR.carries hvalid hzero] at hsucceeds

/-- A network is admitted, and shut out again. -/
theorem add_then_remove_iff_office :
    Succeeds dualStackRows (change plainUfw .standaloneUfw (.add officeRule) 22) sshHost
        officeHost ∧
      Succeeds dualStackRows (change plainUfw .standaloneUfw (.remove officeRule) 22) officeHost
        sshHost :=
  (add_then_remove_iff dualStack_plain rfl (by decide) (by decide)).2 (by decide)

/-- A rule without a source is added in two rows, which are taken for a mistake
    and cannot be removed. -/
theorem add_unsourced_fails :
    DualStack plainUfw dualStackRows ∧ sshHost.active ∧ httpsRule.validate 22 = .ok () ∧
      (∀ row ∈ sshHost.rows, row.ownedId ≠ some httpsRule.id) ∧
      Prog.Runs ⟨exec dualStackRows⟩ (Reliable false sshHost.rows)
        (change plainUfw .standaloneUfw (.add httpsRule) 22) sshHost (.error .rollbackFailed)
        (sshHost.append (dualStackRows (httpsRule.addArguments plainUfw false))) := by
  have hactive : sshHost.active := rfl
  have hvalid : httpsRule.validate 22 = .ok () := by decide
  have htwo : ¬ Single plainUfw dualStackRows (.add httpsRule) := by
    rw [Single]
    decide
  have hplan := plan_eq_ok (C := plainUfw) (.add httpsRule) hactive hvalid (by decide) (by decide)
  obtain ⟨result, t, hruns, houtcome⟩ :=
    exists_runs_reliable (change_safe dualStack_plain.carries hplan (by decide))
  refine ⟨dualStack_plain, hactive, hvalid, by decide, ?_⟩
  cases result with
  | ok audits => exact absurd houtcome.1 htwo
  | error e =>
    cases e with
    | command _ => exact absurd houtcome.1 Bool.false_ne_true
    | rollbackFailed =>
      obtain ⟨-, rfl⟩ := houtcome
      exact hruns
    | _ => exact houtcome.elim

end VpsGuard.UfwHost
