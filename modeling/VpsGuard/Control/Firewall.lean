import Mathlib.Data.Multiset.AddSub
import VpsGuard.Effect.Pool
import VpsGuard.System.UfwChanges

/-!
# The firewall manager

`guard-control` plans and applies changes of the firewall. A plan is kept until it
is applied, under an identifier that it is given; the commands of an application
are sent to the root helper, which checks them before it runs them: it lists the
rows once more, and deletes a row only if its number is that of a row of the
namespace (`validateUfwArguments`).

Calls may overlap, and each command is a step. Between the snapshot of an
application and its deletion other applications may delete rows too, and then the
number is that of another row.

* `FirewallWorld.foreign_rows_kept`: if the rows at a deletion are those that its application
  has listed (`Undisturbed`), then the foreign rows stay, and the rows that are
  deleted are those named in the plans.
* `FirewallWorld.foreign_row_deleted`: two applications that delete a row each. The second one
  passes the check of the helper, and deletes a foreign row.
-/

namespace VpsGuard

open Effect

/-! ## Plans that are kept -/

/-- A plan that was shown and not yet applied. -/
structure PendingFirewallPlan where
  operationId : String
  plan : UfwPlan

/-- What is shown of the firewall. -/
structure FirewallStatus where
  mode : FirewallMode
  backend : String
  mutable : Bool
  snapshot : Option UfwSnapshot

/-- The commands that a plan led to. -/
structure FirewallApplyResult where
  operationId : String
  audits : List CommandAudit

/-- Why a request is refused. -/
inductive FirewallError
  | ufw (e : UfwError)
  | planNotFound

def maxPendingPlans : ℕ := 32

/-- A plan is kept, and the oldest are dropped for it. -/
def pushPending (plans : List PendingFirewallPlan) (pending : PendingFirewallPlan) :
    List PendingFirewallPlan :=
  plans.drop (plans.length + 1 - maxPendingPlans) ++ [pending]

/-- Take a plan. Nobody takes it again. -/
def takePending (plans : List PendingFirewallPlan) (operationId : String) :
    Option (PendingFirewallPlan × List PendingFirewallPlan) :=
  (plans.find? (·.operationId = operationId)).map fun pending =>
    (pending, plans.eraseP (·.operationId = operationId))

/-! ## The programs -/

/-- The operations of the calls. Those that are recorded in the world have the
    number of the call. -/
inductive FirewallOp
  | pushPending (pending : PendingFirewallPlan)
  | takePending (call : ℕ) (operationId : String)
  | newUuid
  /-- A request is sent to the root helper. -/
  | send
  /-- The root helper lists the rows for its check. -/
  | checkStatus
  /-- The root helper runs a command that was sent. -/
  | ufw (call : ℕ) (arguments : List String)

abbrev FirewallOp.Ans : FirewallOp → Type
  | .pushPending _ => Unit
  | .takePending _ _ => Option PendingFirewallPlan
  | .newUuid => String
  | .send => Except CommandError Unit
  | .checkStatus | .ufw _ _ => Except CommandError CommandOutput

abbrev Firewall : Sig := ⟨FirewallOp, FirewallOp.Ans⟩

/-- The settings of the manager, or of the root helper. -/
structure FirewallConfig where
  mode : FirewallMode
  sshPort : UInt16

section Programs

variable (C : UfwCodec)

/-- The check of the root helper. -/
def validateUfwArguments (arguments : List String) (sshPort : UInt16) :
    Prog Firewall (Except String Unit) :=
  if arguments = statusArguments then return .ok ()
  else if arguments.length = 3 ∧ arguments.take 2 = ["--force", "delete"] then
    match Text.parseUnsigned 4294967296 (arguments[2]?.getD "").toList with
    | none => return .error "ufw_arguments"
    | some number => .call .checkStatus fun
      | .error _ => return .error "ufw_status_failed"
      | .ok output =>
        if (UfwSnapshot.parse C output.stdout).ownedRules.any (·.number = number) then
          return .ok ()
        else return .error "ufw_foreign_delete"
  else
    match validateUfwAddArguments C arguments sshPort with
    | .ok _ => return .ok ()
    | .error _ => return .error "ufw_arguments"

/-- Only where the guard alone has the firewall may it change something. -/
def ufwModeAllowsMutation (mode : FirewallMode) : Bool := mode = .standaloneUfw

/-- The helper runs a command, if it is one of those it accepts. -/
def dispatch (helper : FirewallConfig) (call : ℕ) (arguments : List String) :
    Prog Firewall (Except String CommandOutput) :=
  if ufwModeAllowsMutation helper.mode then
    validateUfwArguments C arguments helper.sshPort >>= fun
      | .error code => return .error code
      | .ok () => .call (.ufw call arguments) fun
        | .ok output => return .ok output
        | .error _ => return .error "ufw_failed"
  else return .error "ownership_denied"

/-- A command is run by the root helper. -/
def privilegedRun (helper : FirewallConfig) (call : ℕ) (arguments : List String) :
    Prog Firewall (Except CommandError CommandOutput) :=
  .call .send fun
    | .error e => return .error e
    | .ok () => dispatch C helper call arguments >>= fun
      | .ok output => return .ok output
      | .error code => return .error (.io code)

namespace FirewallManager

variable (manager helper : FirewallConfig) (call : ℕ)

/-- Show the firewall. -/
def status : Prog Firewall (Except FirewallError FirewallStatus) :=
  if manager.mode ≠ .standaloneUfw then
    return .ok ⟨manager.mode, if manager.mode = .jwAgentDelegated then "jw-agent" else "disabled",
      false, none⟩
  else
    (UfwController.snapshotThen C fun snapshot _ => return .ok snapshot).handle
      (privilegedRun C helper call) >>= fun
      | .error e => return .error (.ufw e)
      | .ok snapshot => return .ok ⟨manager.mode, "ufw", true, some snapshot⟩

/-- Make a plan against what the firewall is now, and keep it. -/
def plan (mutation : UfwMutation) : Prog Firewall (Except FirewallError PendingFirewallPlan) :=
  if manager.mode ≠ .standaloneUfw then return .error (.ufw .ownershipDenied)
  else
    (UfwController.snapshotThen C fun snapshot _ => return .ok snapshot).handle
      (privilegedRun C helper call) >>= fun
      | .error e => return .error (.ufw e)
      | .ok snapshot =>
        match UfwController.plan manager.mode snapshot mutation manager.sshPort with
        | .error e => return .error (.ufw e)
        | .ok plan => .call .newUuid fun operationId =>
          .call (.pushPending ⟨operationId, plan⟩) fun _ => return .ok ⟨operationId, plan⟩

/-- Apply a plan that was kept, once. -/
def apply (operationId : String) : Prog Firewall (Except FirewallError FirewallApplyResult) :=
  if manager.mode ≠ .standaloneUfw then return .error (.ufw .ownershipDenied)
  else .call (.takePending call operationId) fun
    | none => return .error .planNotFound
    | some pending =>
      (UfwController.apply C pending.plan).handle (privilegedRun C helper call) >>= fun
        | .error e => return .error (.ufw e)
        | .ok audits => return .ok ⟨pending.operationId, audits⟩

end FirewallManager

/-- The requests to the firewall. -/
inductive FirewallCall
  | status
  | plan (mutation : UfwMutation)
  | apply (operationId : String)

inductive FirewallReply
  | status (result : Except FirewallError FirewallStatus)
  | plan (result : Except FirewallError PendingFirewallPlan)
  | apply (result : Except FirewallError FirewallApplyResult)

/-- The program of a request. -/
def FirewallCall.prog (manager helper : FirewallConfig) (call : ℕ) :
    FirewallCall → Prog Firewall FirewallReply
  | .status => FirewallManager.status C manager helper call >>= fun r => return .status r
  | .plan mutation => FirewallManager.plan C manager helper call mutation >>= fun r => return .plan r
  | .apply operationId =>
    FirewallManager.apply C manager helper call operationId >>= fun r => return .apply r

end Programs

/-! ## The world of the calls -/

/-- The host and the plans that are kept. The rest is a record of what the calls
    have done. -/
structure FirewallWorld where
  host : UfwHost
  pending : List PendingFirewallPlan
  taken : ℕ → Option UfwPlan
  /-- The rows that a call has listed last. -/
  seen : ℕ → List UfwRow
  /-- The rows that are gone, each with the plan of the call that made it go. -/
  removed : List (Option UfwPlan × UfwRow)

namespace FirewallWorld

/-- The world before the calls. -/
def start (host : UfwHost) (pending : List PendingFirewallPlan) : FirewallWorld :=
  ⟨host, pending, fun _ => none, fun _ => [], []⟩

/-- A call has run a command, and the host is then as given. -/
def after (w : FirewallWorld) (call : ℕ) (arguments : List String) (host : UfwHost) :
    FirewallWorld where
  host := host
  pending := w.pending
  taken := w.taken
  seen := if arguments = statusArguments then Function.update w.seen call w.host.rows else w.seen
  removed := w.removed ++ (w.host.rows.diff host.rows).map fun row => (w.taken call, row)

theorem seen_after_status (w : FirewallWorld) (call : ℕ) (host : UfwHost) :
    (w.after call statusArguments host).seen call = w.host.rows := by
  rw [after, if_pos rfl]
  exact Function.update_self _ _ _

theorem seen_after {arguments : List String} (h : arguments ≠ statusArguments) (w : FirewallWorld)
    (call : ℕ) (host : UfwHost) : (w.after call arguments host).seen = w.seen := if_neg h

/-- What the surroundings choose. -/
inductive Choice
  | ufw (x : UfwHost.Choice)
  | uuid (id : String)
  | sent (result : Except CommandError Unit)
  | none

/-- How the host answers the operations. -/
def exec (R : List String → List UfwRow) :
    (o : FirewallOp) → Choice → FirewallWorld → Option (o.Ans × FirewallWorld)
  | .pushPending pending, _, w =>
    some ((), { w with pending := VpsGuard.pushPending w.pending pending })
  | .takePending call operationId, _, w =>
    match VpsGuard.takePending w.pending operationId with
    | .none => some (.none, w)
    | some (pending, rest) => some (some pending,
        { w with pending := rest, taken := Function.update w.taken call (some pending.plan) })
  | .newUuid, .uuid id, w => some (id, w)
  | .send, .sent result, w => some (result, w)
  | .checkStatus, .ufw x, w =>
    (UfwHost.exec R statusArguments x w.host).map fun r => (r.1, { w with host := r.2 })
  | .ufw call arguments, .ufw x, w =>
    (UfwHost.exec R arguments x w.host).map fun r => (r.1, w.after call arguments r.2)
  | _, _, _ => .none

/-- The command deletes a rule. -/
def IsDelete (arguments : List String) : Prop := arguments.take 2 = ["--force", "delete"]

instance (arguments : List String) : Decidable (IsDelete arguments) :=
  inferInstanceAs (Decidable (_ = _))

/-- The rows at a deletion are those that the call has listed. -/
def Undisturbed : FirewallOp → Choice → FirewallWorld → Prop
  | .ufw call arguments, _, w => IsDelete arguments → w.host.rows = w.seen call
  | _, _, _ => True

instance (o : FirewallOp) (x : Choice) (w : FirewallWorld) : Decidable (Undisturbed o x w) :=
  match o with
  | .ufw _ _ => inferInstanceAs (Decidable (_ → _))
  | .pushPending _ | .takePending _ _ | .newUuid | .send | .checkStatus => .isTrue trivial

/-- The rows whose comment is not in the namespace. -/
def foreign (rows : List UfwRow) : List UfwRow := rows.filter (·.ownedId.isNone)

/-- The foreign rows are still there, in their order, and the rows that are gone
    were named in the plans. -/
structure Kept (rows : List UfwRow) (w : FirewallWorld) : Prop where
  foreign : (foreign rows).Sublist (foreign w.host.rows)
  removed : ∀ d ∈ w.removed, ∃ plan : UfwPlan, d.1 = some plan ∧
    d.2.ownedId = some plan.mutation.rule.id

/-- What a call knows is left alone by the others. -/
def sharing (call : ℕ) : Sharing FirewallWorld where
  rely w w' := w'.seen call = w.seen call ∧ w'.taken call = w.taken call
  guar w w' := ∀ other, other ≠ call → w'.seen other = w.seen other ∧ w'.taken other = w.taken other
  rely_refl _ := ⟨rfl, rfl⟩
  rely_trans h h' := ⟨h'.1.trans h.1, h'.2.trans h.2⟩

def setting (R : List String → List UfwRow) (rows : List UfwRow) :
    Setting Firewall FirewallWorld Choice where
  exec := exec R
  allow := Undisturbed
  inv := Kept rows

variable {C : UfwCodec} {R : List String → List UfwRow} {rows : List UfwRow} {w : FirewallWorld}
  {call : ℕ} {arguments : List String} {plan : UfwPlan} {host : UfwHost} {α : Type}

/-! ## Commands -/

theorem exists_rows_append {x : UfwHost.Choice} {host' : UfwHost}
    {a : Except CommandError CommandOutput} (hargs : ¬ IsDelete arguments)
    (h : UfwHost.exec R arguments x host = some (a, host')) :
    ∃ more, host'.rows = host.rows ++ more := by
  obtain ⟨rfl | hperform, -⟩ := UfwHost.exec_cases h
  · exact ⟨[], (List.append_nil _).symm⟩
  · rw [UfwHost.perform] at hperform
    split at hperform
    · cases hperform
      exact ⟨[], (List.append_nil _).symm⟩
    · rw [IsDelete] at hargs
      rw [if_neg hargs] at hperform
      cases hperform
      exact ⟨R arguments, rfl⟩

theorem diff_eq_of_add_eq {a b c : List UfwRow} (h : (a : Multiset UfwRow) + b = c)
    (ha : a.length ≤ 1) : c.diff b = a := by
  have hperm : (c.diff b).Perm a := by
    rw [← Multiset.coe_eq_coe, ← Multiset.coe_sub]
    exact (Multiset.eq_sub_of_add_eq h).symm
  match a with
  | [] => exact List.perm_nil.1 hperm
  | [row] => exact List.perm_singleton.1 hperm

theorem kept_after_append {more : List UfwRow} (hw : Kept rows w)
    (hhost : host.rows = w.host.rows ++ more) : Kept rows (w.after call arguments host) := by
  have hdiff : w.host.rows.diff host.rows = [] := by
    have hself : w.host.rows.diff w.host.rows = [] :=
      diff_eq_of_add_eq (Multiset.zero_add _) (Nat.zero_le _)
    rw [hhost, List.diff_append, hself, List.nil_diff]
  constructor
  · rw [after, hhost, foreign, foreign, List.filter_append]
    exact hw.foreign.trans (List.sublist_append_left _ _)
  · rw [after, hdiff, List.map_nil, List.append_nil]
    exact hw.removed

theorem kept_after_erase {i : ℕ} {row : UfwRow} (hw : Kept rows w) (hrow : w.host.rows[i]? = some row)
    (hid : row.ownedId = some plan.mutation.rule.id) (hplan : w.taken call = some plan)
    (hhost : host.rows = w.host.rows.eraseIdx i) : Kept rows (w.after call arguments host) := by
  obtain ⟨a, b, hsplit, herase⟩ := UfwHost.exists_eraseIdx hrow
  have hdiff : w.host.rows.diff host.rows = [row] := by
    have hperm : (row :: (a ++ b)).Perm (a ++ row :: b) := List.perm_middle.symm
    rw [hhost, herase, hsplit]
    exact diff_eq_of_add_eq (Multiset.coe_eq_coe.2 hperm) (Nat.le_refl 1)
  constructor
  · have hforeign := hw.foreign
    rw [hsplit] at hforeign
    rw [after, hhost, herase]
    simpa [foreign, hid] using hforeign
  · rw [after, hdiff, hplan]
    intro d hd
    rcases List.mem_append.1 hd with hd | hd
    · exact hw.removed d hd
    · rw [List.mem_singleton.1 hd]
      exact ⟨plan, rfl, hid⟩

theorem guar_after : (sharing call).guar w (w.after call arguments host) := by
  intro other hne
  refine ⟨?_, rfl⟩
  rw [after]
  split
  · exact Function.update_of_ne hne _ _
  · rfl

/-! ## The root helper -/

/-- The operations that concern no other call. -/
def IsAside : FirewallOp → Prop
  | .pushPending _ | .newUuid | .send | .checkStatus => True
  | .takePending _ _ | .ufw _ _ => False

theorem aside : (setting R rows).Aside (sharing call) IsAside := by
  intro o x s a t ho hs _ hx
  have hsame : t.host = s.host ∧ t.taken = s.taken ∧ t.seen = s.seen ∧ t.removed = s.removed := by
    cases o with
    | pushPending pending =>
      cases hx
      exact ⟨rfl, rfl, rfl, rfl⟩
    | takePending | ufw => exact ho.elim
    | newUuid | send =>
      cases x <;> cases hx
      exact ⟨rfl, rfl, rfl, rfl⟩
    | checkStatus =>
      cases x with
      | ufw x =>
        obtain ⟨⟨b, host⟩, hexec, heq⟩ := Option.map_eq_some_iff.1 hx
        cases heq
        obtain ⟨hhost | hhost, -⟩ := UfwHost.exec_cases hexec
        · exact ⟨hhost, rfl, rfl, rfl⟩
        · rw [UfwHost.perform_status, Option.some.injEq] at hhost
          exact ⟨hhost.symm, rfl, rfl, rfl⟩
      | uuid | sent | none => cases hx
  obtain ⟨hhost, htaken, hseen, hremoved⟩ := hsame
  refine ⟨⟨by rw [hseen], by rw [htaken]⟩, fun _ _ => ⟨by rw [hseen], by rw [htaken]⟩, ?_, ?_⟩
  · rw [hhost]
    exact hs.foreign
  · rw [hremoved]
    exact hs.removed

theorem meets_validateUfwArguments (sshPort : UInt16) :
    (validateUfwArguments C arguments sshPort).Meets IsAside (fun _ _ => True) fun _ => True := by
  unfold validateUfwArguments
  split
  · trivial
  split
  · split
    · trivial
    · refine ⟨trivial, fun a _ => ?_⟩
      cases a with
      | error e => trivial
      | ok output =>
        dsimp only
        split <;> trivial
  · split <;> trivial

section Run

variable {helper : FirewallConfig} {P : FirewallWorld → Prop}
  {Y : CommandOutput → FirewallWorld → Prop} {ε : Type}

theorem ret_safe {r : Except ε CommandOutput} (hY : ∀ output, (sharing call).Keeps (Y output))
    (hr : Prog.OnOk (Y · w) r) : (Prog.ret r : Prog Firewall _).Safe (setting R rows) (sharing call)
      (fun r t => Prog.OnOk (Y · t) r) w := by
  refine .ret fun t hrely _ => ?_
  cases r with
  | ok output => exact hY output w t hr hrely
  | error e => trivial

section

variable (hP : (sharing call).Keeps P) (hY : ∀ output, (sharing call).Keeps (Y output)) (hw : P w)
  (hrun : ∀ t x a host, P t → Kept rows t → Undisturbed (.ufw call arguments) (.ufw x) t →
    UfwHost.exec R arguments x t.host = some (a, host) →
    Kept rows (t.after call arguments host) ∧ Prog.OnOk (Y · (t.after call arguments host)) a)

include hP hY hw hrun

/-- A command is run where the root helper lets it. What its output says is still
    so when the others have moved. -/
theorem dispatch_safe : (dispatch C helper call arguments).Safe (setting R rows) (sharing call)
      (fun r t => Prog.OnOk (Y · t) r) w := by
  unfold dispatch
  split
  · refine (Prog.Safe.of_aside aside hP (meets_validateUfwArguments helper.sshPort) hw).bind
      fun checked t _ ht => ?_
    cases checked with
    | error code => exact ret_safe hY trivial
    | ok _ =>
      refine .call fun u htu hu x a u' hallow hx => ?_
      have hPu := hP t u ht.2 htu
      cases x with
      | ufw x =>
        obtain ⟨⟨b, host⟩, hexec, heq⟩ := Option.map_eq_some_iff.1 hx
        cases heq
        obtain ⟨hkept, houtput⟩ := hrun u x b host hPu hu hallow hexec
        refine ⟨guar_after, hkept, ?_⟩
        cases b with
        | error e => exact ret_safe hY trivial
        | ok output => exact ret_safe hY houtput
      | uuid | sent | none => cases hx
  · exact ret_safe hY trivial

theorem privilegedRun_safe :
    (privilegedRun C helper call arguments).Safe (setting R rows) (sharing call)
      (fun r t => Prog.OnOk (Y · t) r) w := by
  refine .call_aside aside trivial hP hw fun _ sent _ t _ _ _ ht => ?_
  cases sent with
  | error e => exact ret_safe hY trivial
  | ok _ =>
    refine (dispatch_safe hP hY ht hrun).bind fun r u _ hr => ?_
    cases r with
    | ok output => exact ret_safe hY hr
    | error code => exact ret_safe hY trivial

end

variable (R rows helper call) in
/-- Its commands run by the root helper, the program of a call keeps what is to
    be kept. -/
def Harmless (C : UfwCodec) (p : Prog Ufw α) (w : FirewallWorld) : Prop :=
  (p.handle (privilegedRun C helper call)).Safe (setting R rows) (sharing call) (fun _ _ => True) w

theorem runThen_harmless {k : CommandOutput → Prog Ufw (Except UfwError α)}
    (hP : (sharing call).Keeps P) (hw : P w)
    (hrun : ∀ t x a host, P t → Kept rows t → Undisturbed (.ufw call arguments) (.ufw x) t →
      UfwHost.exec R arguments x t.host = some (a, host) →
      Kept rows (t.after call arguments host) ∧ ∀ output, a = .ok output →
        Harmless R rows call helper C (k output) (t.after call arguments host)) :
    Harmless R rows call helper C (UfwController.runThen arguments k) w := by
  have hY : ∀ output, (sharing call).Keeps (Harmless R rows call helper C (k output)) :=
    fun _ _ _ h hrely => .rely h hrely
  refine (privilegedRun_safe hP hY hw fun t x a host ht hkept hallow hexec => ?_).bind
    fun r t _ hr => ?_
  · obtain ⟨hkept', hk⟩ := hrun t x a host ht hkept hallow hexec
    refine ⟨hkept', ?_⟩
    cases a with
    | ok output => exact hk output rfl
    | error e => trivial
  · cases r with
    | ok output => exact hr
    | error e => exact .ret_trivial

theorem ret_harmless {a : α} : Harmless R rows call helper C (Prog.ret a) w :=
  .ret_trivial

/-! ## Applications -/

/-- The call has taken the plan. -/
def Took (call : ℕ) (taken : Option UfwPlan) (w : FirewallWorld) : Prop := w.taken call = taken

theorem keeps_took {taken : Option UfwPlan} : (sharing call).Keeps (Took call taken) :=
  fun _ _ h hrely => hrely.2.trans h

/-- The call has seen the rules of a host that was there. -/
def Listed (C : UfwCodec) (call : ℕ) (snapshot : UfwSnapshot) (w : FirewallWorld) : Prop :=
  ∃ host : UfwHost, snapshot = .parse C host.status ∧ w.seen call = host.rows

theorem keeps_listed {snapshot : UfwSnapshot} : (sharing call).Keeps (Listed C call snapshot) :=
  fun _ _ ⟨host, hsnapshot, hseen⟩ hrely => ⟨host, hsnapshot, hrely.1.trans hseen⟩

theorem snapshotThen_harmless {taken : Option UfwPlan}
    {k : UfwSnapshot → CommandAudit → Prog Ufw (Except UfwError α)} (hw : Took call taken w)
    (hk : ∀ snapshot audit t, Took call taken t → Listed C call snapshot t →
      Harmless R rows call helper C (k snapshot audit) t) :
    Harmless R rows call helper C (UfwController.snapshotThen C k) w := by
  refine runThen_harmless keeps_took hw fun t x a host ht hkept _ hexec => ?_
  obtain ⟨more, hmore⟩ := exists_rows_append (by decide) hexec
  refine ⟨kept_after_append hkept hmore, ?_⟩
  rintro output rfl
  refine hk _ _ _ ht ⟨t.host, ?_, seen_after_status t call host⟩
  rw [(UfwHost.exec_cases hexec).2 output rfl rfl]

section Apply

variable {snapshot : UfwSnapshot} {k : CommandOutput → Prog Ufw (Except UfwError α)}
  (hw : Took call (some plan) w)

include hw

theorem addThen_harmless {rule : UfwRule} {dryRun : Bool} (hlisted : Listed C call snapshot w)
    (hk : ∀ output t, Took call (some plan) t → Listed C call snapshot t →
      Harmless R rows call helper C (k output) t) :
    Harmless R rows call helper C (UfwController.runThen (rule.addArguments C dryRun) k) w := by
  have hargs : rule.addArguments C dryRun ≠ statusArguments ∧
      ¬ IsDelete (rule.addArguments C dryRun) := by
    cases dryRun with
    | true =>
      exact ⟨by simp [UfwRule.addArguments, statusArguments],
        by simp [IsDelete, UfwRule.addArguments]⟩
    | false =>
      obtain ⟨rest, hrest⟩ := UfwHost.exists_addArguments C rule
      rw [hrest]
      cases rule.action <;> simp [UfwAction.asArg, statusArguments, IsDelete]
  refine runThen_harmless (keeps_took.and keeps_listed) ⟨hw, hlisted⟩
    fun t x a host ht hkept _ hexec => ?_
  obtain ⟨more, hmore⟩ := exists_rows_append hargs.2 hexec
  refine ⟨kept_after_append hkept hmore, fun output _ => hk output _ ht.1 ?_⟩
  obtain ⟨listed, hsnapshot, hseen⟩ := ht.2
  exact ⟨listed, hsnapshot, by rw [seen_after hargs.1, hseen]⟩

theorem deleteThen_harmless (hlisted : Listed C call snapshot w)
    (hk : ∀ output t, Took call (some plan) t → Harmless R rows call helper C (k output) t) :
    Harmless R rows call helper C
      (UfwController.deleteThen snapshot plan.mutation.rule.id k) w := by
  unfold UfwController.deleteThen
  split
  · next number hnumber =>
    refine runThen_harmless (keeps_took.and keeps_listed) ⟨hw, hlisted⟩
      fun t x a host ht hkept hallow hexec => ⟨?_, fun output _ => hk output _ ht.1⟩
    obtain ⟨listed, rfl, hseen⟩ := ht.2
    have hrows : t.host.rows = listed.rows := (hallow rfl).trans hseen
    obtain ⟨hpos, row, hrow, hid⟩ := UfwHost.exists_of_uniqueRuleNumber hnumber
    rw [← hrows] at hrow
    obtain ⟨rfl | hperform, -⟩ := UfwHost.exec_cases hexec
    · exact kept_after_append hkept (List.append_nil _).symm
    · have hlt := (List.getElem?_eq_some_iff.1 hrow).1
      rw [UfwHost.perform_delete hpos (by omega), Option.some.injEq] at hperform
      exact kept_after_erase hkept hrow hid ht.1 (by rw [← hperform])
  · exact ret_harmless

theorem rollbackTransition_harmless {before current : UfwSnapshot}
    (hlisted : Listed C call current w) :
    Harmless R rows call helper C (UfwController.rollbackTransition C before current plan) w := by
  have hreadBack : ∀ (output : CommandOutput) t, Took call (some plan) t →
      Harmless R rows call helper C (UfwController.snapshotThen C fun restored readback =>
        if UfwController.isRestored before restored then return .ok [output.audit, readback]
        else return .error .rollbackFailed) t := by
    intro output t ht
    refine snapshotThen_harmless ht fun restored _ u _ _ => ?_
    split <;> exact ret_harmless
  rw [UfwController.rollbackTransition, UfwController.revertThen]
  split
  · next rule hmutation =>
    have hid : rule.id = plan.mutation.rule.id := by rw [hmutation, UfwMutation.rule]
    rw [hid]
    exact deleteThen_harmless hw hlisted hreadBack
  · exact addThen_harmless hw hlisted fun output t ht _ => hreadBack output t ht

theorem readBack_harmless {before : UfwSnapshot} {audits : List CommandAudit} :
    Harmless R rows call helper C (UfwController.readBack C before plan audits) w := by
  refine snapshotThen_harmless hw fun after _ t ht hlisted => ?_
  split
  · exact ret_harmless
  · rw [Harmless, Prog.handle_bind]
    refine (rollbackTransition_harmless ht hlisted).bind fun r u _ _ => ?_
    cases r <;> exact ret_harmless

theorem apply_harmless : Harmless R rows call helper C (UfwController.apply C plan) w := by
  refine snapshotThen_harmless hw fun before _ t ht hlisted => ?_
  split
  · exact ret_harmless
  · rw [UfwController.dryRunThen]
    split
    · next rule hmutation =>
      refine addThen_harmless ht hlisted fun output u hu hlisted' => ?_
      rw [UfwController.mutateThen, hmutation]
      exact addThen_harmless hu hlisted' fun output' v hv _ => readBack_harmless hv
    · next rule hmutation =>
      have hid : rule.id = plan.mutation.rule.id := by rw [hmutation, UfwMutation.rule]
      rw [UfwController.mutateThen, hmutation]
      dsimp only
      rw [hid]
      exact deleteThen_harmless ht hlisted fun output u hu => readBack_harmless hu

end Apply

end Run

/-! ## Calls side by side -/

theorem takePending_safe {operationId : String}
    {k : Option PendingFirewallPlan → Prog Firewall α} {Q : α → FirewallWorld → Prop}
    (hk : ∀ pending t, (∀ p, pending = some p → Took call (some p.plan) t) →
      (k pending).Safe (setting R rows) (sharing call) Q t) :
    (Prog.call (.takePending call operationId) k : Prog Firewall α).Safe (setting R rows)
      (sharing call) Q w := by
  refine .call fun t _ ht x a u _ hx => ?_
  change (match VpsGuard.takePending t.pending operationId with
    | .none => some (.none, t)
    | some (pending, rest) => some (some pending,
        { t with pending := rest, taken := Function.update t.taken call (some pending.plan) })) =
      some (a, u) at hx
  split at hx
  · cases hx
    refine ⟨fun _ _ => ⟨rfl, rfl⟩, ht, hk _ _ fun p hp => ?_⟩
    cases hp
  · cases hx
    refine ⟨fun other hne => ⟨rfl, Function.update_of_ne hne _ _⟩, ⟨ht.foreign, ht.removed⟩,
      hk _ _ fun p hp => ?_⟩
    cases hp
    exact Function.update_self _ _ _

variable {manager helper : FirewallConfig}

theorem ret_safe_true {a : α} : (Prog.ret a : Prog Firewall α).Safe (setting R rows) (sharing call)
    (fun _ _ => True) w := .ret_trivial

theorem snapshot_harmless : Harmless R rows call helper C
    (UfwController.snapshotThen C fun snapshot _ => return .ok snapshot) w :=
  snapshotThen_harmless rfl fun _ _ _ _ _ => ret_harmless

theorem status_safe : (FirewallManager.status C manager helper call).Safe (setting R rows)
    (sharing call) (fun _ _ => True) w := by
  rw [FirewallManager.status]
  split
  · exact ret_safe_true
  · refine snapshot_harmless.bind fun r _ _ _ => ?_
    cases r <;> exact ret_safe_true

theorem plan_safe {mutation : UfwMutation} : (FirewallManager.plan C manager helper call mutation).Safe
    (setting R rows) (sharing call) (fun _ _ => True) w := by
  rw [FirewallManager.plan]
  split
  · exact ret_safe_true
  · refine snapshot_harmless.bind fun r _ _ _ => ?_
    cases r with
    | error e => exact ret_safe_true
    | ok snapshot =>
      dsimp only
      split
      · exact ret_safe_true
      · refine .call_aside aside trivial Sharing.keeps_true trivial fun _ _ _ _ _ _ _ _ => ?_
        refine .call_aside aside trivial Sharing.keeps_true trivial fun _ _ _ _ _ _ _ _ => ?_
        exact ret_safe_true

theorem apply_safe {operationId : String} :
    (FirewallManager.apply C manager helper call operationId).Safe (setting R rows) (sharing call)
      (fun _ _ => True) w := by
  rw [FirewallManager.apply]
  split
  · exact ret_safe_true
  · refine takePending_safe fun pending t hpending => ?_
    cases pending with
    | none => exact ret_safe_true
    | some pending =>
      refine (apply_harmless (hpending pending rfl)).bind fun r _ _ _ => ?_
      cases r <;> exact ret_safe_true

theorem prog_safe (firewallCall : FirewallCall) :
    (firewallCall.prog C manager helper call).Safe (setting R rows) (sharing call)
      (fun _ _ => True) w := by
  cases firewallCall with
  | status => exact status_safe.bind fun _ _ _ _ => ret_safe_true
  | plan mutation => exact plan_safe.bind fun _ _ _ _ => ret_safe_true
  | apply operationId => exact apply_safe.bind fun _ _ _ _ => ret_safe_true

/-- The calls, none of which has begun. -/
def pool (C : UfwCodec) (manager helper : FirewallConfig) (host : UfwHost)
    (pending : List PendingFirewallPlan) (calls : List FirewallCall) :
    Pool Firewall FirewallWorld FirewallReply :=
  ⟨start host pending, calls.mapIdx fun i call => call.prog C manager helper i⟩

/-- The foreign rows stay, and the rows that are deleted are those named in the
    plans, whatever the order in which the steps of the calls are made. -/
theorem foreign_rows_kept {pending : List PendingFirewallPlan} {calls : List FirewallCall}
    {q : Pool Firewall FirewallWorld FirewallReply}
    (h : Pool.Reaches ⟨exec R⟩ Undisturbed (pool C manager helper host pending calls) q) :
    Kept host.rows q.state := by
  have hsafe : (pool C manager helper host pending calls).Safe (setting R host.rows) sharing
      fun _ _ _ => True := by
    refine ⟨⟨List.Sublist.refl _, fun _ hd => absurd hd List.not_mem_nil⟩, fun {i prog} hi => ?_⟩
    rw [pool, List.getElem?_mapIdx] at hi
    obtain ⟨firewallCall, _, rfl⟩ := Option.map_eq_some_iff.1 hi
    exact prog_safe firewallCall
  exact (h.safe (E := setting R host.rows) (w := sharing)
    (fun i j s t hne _ _ hguar => hguar j hne.symm) hsafe).inv

open UfwHost (officeRule officeHost plainUfw plainAudit dualStackRows sshHost)

def standalone : FirewallConfig := ⟨.standaloneUfw, 22⟩

/-- A command that is run, and does not fail. -/
def ran (call : ℕ) : ℕ × Choice := (call, .ufw (.done [] plainAudit))

def sent (call : ℕ) : ℕ × Choice := (call, .sent (.ok ()))

/-- A call that plans a removal: it lists the rows and keeps the plan. -/
def planSchedule (call : ℕ) (id : String) : List (ℕ × Choice) :=
  [sent call, ran call, (call, .uuid id), (call, .none)]

/-- A rule is removed, and the rule for SSH stays. -/
theorem foreign_rows_kept_office : ∃ q, Pool.Reaches ⟨exec dualStackRows⟩ Undisturbed
      (pool plainUfw standalone standalone officeHost [] [.plan (.remove officeRule), .apply "a"]) q ∧
    q.state.removed.length = 1 ∧ Kept officeHost.rows q.state := by
  obtain ⟨q, hq, hremoved⟩ := Pool.exists_reaches_of_run ⟨exec dualStackRows⟩ Undisturbed
    (pool plainUfw standalone standalone officeHost [] [.plan (.remove officeRule), .apply "a"])
    (planSchedule 0 "a" ++ [(1, .none), sent 1, ran 1, sent 1, ran 1, ran 1])
    (P := fun q => q.state.removed.length = 1) (by decide +kernel)
  exact ⟨q, hq, of_decide_eq_true hremoved, foreign_rows_kept hq⟩

def backupRule : UfwRule := { officeRule with id := "backup_https" }

def sharedHost : UfwHost where
  active := true
  rows := dualStackRows (officeRule.addArguments plainUfw false) ++
    dualStackRows (backupRule.addArguments plainUfw false) ++ sshHost.rows

/-- Both rules are removed at the same time. The helper finds the second row in the
    namespace, and then the first row is deleted: the second one is now the row
    for SSH. -/
theorem foreign_row_deleted : ∃ q, Pool.Reaches ⟨exec dualStackRows⟩ (fun _ _ _ => True)
      (pool plainUfw standalone standalone sharedHost []
        [.plan (.remove officeRule), .plan (.remove backupRule), .apply "a", .apply "b"]) q ∧
    (∃ row ∈ sharedHost.rows, row.ownedId = none ∧ row ∉ q.state.host.rows) := by
  obtain ⟨q, hq, hrows⟩ := Pool.exists_reaches_of_run ⟨exec dualStackRows⟩ (fun _ _ _ => True)
    (pool plainUfw standalone standalone sharedHost []
      [.plan (.remove officeRule), .plan (.remove backupRule), .apply "a", .apply "b"])
    (planSchedule 0 "a" ++ planSchedule 1 "b" ++
      -- Both applications list the rows, and the helper checks the second deletion.
      [(2, .none), sent 2, ran 2, (3, .none), sent 3, ran 3, sent 3, ran 3] ++
      -- The first deletion comes in between.
      [sent 2, ran 2, ran 2, ran 3])
    (P := fun q => q.state.host.rows = dualStackRows (backupRule.addArguments plainUfw false))
    (by decide +kernel)
  refine ⟨q, hq, UfwHost.rowOf "22/tcp ALLOW IN Anywhere".toList, by decide, by decide, ?_⟩
  rw [of_decide_eq_true hrows]
  decide

end FirewallWorld

end VpsGuard
