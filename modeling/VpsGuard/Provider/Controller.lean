import VpsGuard.Provider.Transaction
import VpsGuard.System.AtomicStore

/-!
# The provider controller

The controller of `guard-control` drives the transaction: it keeps it in
memory, takes steps until there is nothing left to do or something fails, and
stores the transaction after every step. A new transaction is created when
there is none, when the last one was restored, and when the configuration
names another record.

The controller is a program over the operations of the provider, the clock and
the store (`Provider`). The loops of the source are given nine turns, as many
as there are stages. They never use them up, since every turn that is followed
by another one gets closer to the end (`yields_enableTurn`,
`yields_restoreTurn`).
-/

namespace VpsGuard

open Effect

/-- Why a command fails. -/
inductive ProviderControllerError
  | provider (e : ProviderError)
  | store (e : StoreError)
  | firewall

def ProviderControllerError.code : ProviderControllerError → String
  | provider e => e.code
  | store _ => "PROVIDER_STATE_STORE_FAILED"
  | firewall => "PROVIDER_FIREWALL_PLAN_FAILED"

structure CloudflareConfig where
  enabled : Bool
  recordName : String
  otherRecords : List String
  maxDnsTtlSeconds : ℕ

/-- The controller: its configuration, and the transaction there is. -/
structure ProviderController where
  transaction : Option ProviderTransaction
  recordName : String
  allowedRecords : List String
  preflightError : Option ProviderError
  maxDnsTtlSeconds : ℕ

/-- What the controller asks for. -/
inductive ProviderOp
  | backend (o : BackendOp)
  /-- The firewall plan and the credentials. -/
  | connect
  /-- Whether the provider can be used at all. -/
  | preflight
  | currentUnixSeconds
  /-- The stored transaction, if there is one. -/
  | readStore
  | writeStore (transaction : ProviderTransaction)

/-- The answers to the controller. -/
abbrev ProviderOp.Ans : ProviderOp → Type
  | backend o => o.Ans
  | connect => Except ProviderControllerError Unit
  | preflight => Except ProviderError Unit
  | currentUnixSeconds => ℕ
  | readStore => Except StoreError (Option ProviderTransaction)
  | writeStore _ => Except StoreError Unit

/-- The surroundings of the controller. -/
abbrev Provider : Sig := ⟨ProviderOp, ProviderOp.Ans⟩

/-- The provider among the surroundings of the controller. -/
def Provider.ofBackend : Sig.Hom Backend Provider where
  op := .backend
  ans _ a := a

def activationStagePending : ProviderStage → Bool
  | .snapshotted | .proxyRequested | .proxyVerified | .proxyDrain | .originLockRequested => true
  | .pending | .complete | .restoreRequested | .restored => false

namespace ProviderController

/-- What a command to the controller returns: the result, and the controller after. -/
abbrev Result := Except ProviderControllerError ProviderStage × ProviderController

/-- The controller of a configuration, resuming the stored transaction. -/
def fromConfig (config : CloudflareConfig) :
    Prog Provider (Except ProviderControllerError (Option ProviderController)) :=
  if !config.enabled then return .ok none
  else .call .connect fun
    | .error e => return .error e
    | .ok () => .call .preflight fun preflight => .call .readStore fun
      | .error e => return .error (.store e)
      | .ok transaction => return .ok (some
          { transaction
            recordName := config.recordName
            allowedRecords := config.recordName :: config.otherRecords
            preflightError := match preflight with
              | .error e => some e
              | .ok () => none
            maxDnsTtlSeconds := config.maxDnsTtlSeconds })

def protectionActive (ctl : ProviderController) : Bool :=
  ctl.transaction.any (·.stage = .complete)

def activationPending (ctl : ProviderController) : Bool :=
  ctl.transaction.any (activationStagePending ·.stage)

/-- The transaction with the code of the error of a step, if there is one. -/
def noteError (result : Except ProviderError ProviderStage) (txn : ProviderTransaction) :
    ProviderTransaction :=
  match result with
  | .error e => { txn with lastError := some e.code }
  | .ok _ => txn

variable {result : Except ProviderError ProviderStage} {txn : ProviderTransaction}

@[simp] theorem noteError_stage : (noteError result txn).stage = txn.stage := by
  cases result <;> rfl

@[simp] theorem noteError_snapshot : (noteError result txn).snapshot = txn.snapshot := by
  cases result <;> rfl

variable (ctl : ProviderController) (txn : ProviderTransaction)

/-- The transaction is stored, and `next` follows if that succeeds. -/
def checkpoint
    (next : Result ⊕ ProviderTransaction) : Prog Provider (Result ⊕ ProviderTransaction) :=
  .call (.writeStore txn) fun
    | .error e => return .inl (.error (.store e), { ctl with transaction := some txn })
    | .ok () => return next

/-- What follows a step forward that is stored: the end, or another turn. -/
def afterEnableStep : Except ProviderError ProviderStage → Result ⊕ ProviderTransaction
  | .error e => .inl (.error (.provider e), { ctl with transaction := some txn })
  | .ok .complete | .ok .proxyDrain => .inl (.ok txn.stage, { ctl with transaction := some txn })
  | .ok .restored => .inl (.error (.provider (.backend "RESTORED_TRANSACTION_CANNOT_RESUME")),
      { ctl with transaction := some txn })
  | .ok _ => .inr txn

/-- A turn of the activation: a step, which is then stored. -/
def enableTurn : Prog Provider (Result ⊕ ProviderTransaction) :=
  .call .currentUnixSeconds fun now => do
    let (result, txn) ← (txn.enableStepAt now ctl.maxDnsTtlSeconds).lift Provider.ofBackend
    let txn := noteError result txn
    ctl.checkpoint txn (ctl.afterEnableStep txn result)

/-- The turns of the activation. They are fewer than the nine stages. -/
def enableLoop : Prog Provider Result :=
  Prog.loop ctl.enableTurn (fun txn => (.ok txn.stage, { ctl with transaction := some txn })) 9 txn

/-- A new transaction is needed. -/
def createNew : Bool :=
  match ctl.transaction with
  | none => true
  | some txn => txn.stage = .restored || txn.recordName ≠ ctl.recordName

/-- The activation, once the provider is known to be usable. -/
def enablePrepared (createNew : Bool) (operationId : String) : Prog Provider Result :=
  if createNew then
    match ProviderTransaction.new operationId ctl.recordName ctl.allowedRecords with
    | .error e => return (.error (.provider e), ctl)
    | .ok txn => enableLoop ctl txn
  else
    match ctl.transaction with
    | none => return (.error (.provider (.backend "TRANSACTION_UNAVAILABLE")), ctl)
    | some txn => enableLoop ctl txn

/-- The activation: a new transaction is started, or the one there is resumed. -/
def enable (operationId : String) : Prog Provider Result :=
  if ctl.createNew || ctl.transaction.any (·.stage = .pending) then
    .call .preflight fun
      | .error e => return (.error (.provider e), { ctl with preflightError := some e })
      | .ok () => enablePrepared { ctl with preflightError := none } ctl.createNew operationId
  else enablePrepared ctl ctl.createNew operationId

/-- What follows a step back that is stored: the end, or another turn. -/
def afterRestoreStep : Except ProviderError ProviderStage → Result ⊕ ProviderTransaction
  | .error e => .inl (.error (.provider e), { ctl with transaction := some txn })
  | .ok .restored => .inl (.ok txn.stage, { ctl with transaction := some txn })
  | .ok .restoreRequested => .inr txn
  | .ok _ => .inl (.error (.provider (.backend "UNEXPECTED_PROVIDER_RESTORE_STAGE")),
      { ctl with transaction := some txn })

/-- A turn of the restoration. -/
def restoreTurn : Prog Provider (Result ⊕ ProviderTransaction) := do
  let (result, txn) ← txn.restoreStep.lift Provider.ofBackend
  ctl.checkpoint txn (ctl.afterRestoreStep txn result)

/-- The restoration of what the snapshot says. -/
def restore : Prog Provider Result :=
  match ctl.transaction with
  | none => return (.error (.provider .missingSnapshot), ctl)
  | some txn =>
    Prog.loop ctl.restoreTurn (fun txn => (.ok txn.stage, { ctl with transaction := some txn })) 9
      txn

/-! ## The number of turns -/

/-- The steps forward from a stage that are followed by another turn, at most. -/
def enableTurns : ProviderStage → ℕ
  | .pending => 3
  | .snapshotted => 2
  | .proxyRequested | .proxyDrain => 1
  | .proxyVerified | .originLockRequested | .complete | .restoreRequested | .restored => 0

theorem enableTurns_lt {txn txn' : ProviderTransaction} {now limit : ℕ}
    {calls : List BackendCall} {stage : ProviderStage}
    (h : txn.EnableMove now limit calls (.ok stage) txn') (hcomplete : stage ≠ .complete)
    (hdrain : stage ≠ .proxyDrain) : enableTurns txn'.stage < enableTurns txn.stage := by
  cases h with
  | idle _ _ hstage => exact ((hstage _ rfl).2.elim hcomplete hdrain).elim
  | snapshotted _ _ _ hstage | proxyRequested _ _ hstage | proxyVerified _ _ hstage =>
    simp [hstage, enableTurns]
  | originLockRequested _ _ hasks => simp [hasks.1, enableTurns]
  | proxyDrain => exact absurd rfl hdrain
  | complete => exact absurd rfl hcomplete

variable {ctl txn} {txn' : ProviderTransaction}

theorem afterEnableStep_cases (ctl : ProviderController) (txn : ProviderTransaction)
    (result : Except ProviderError ProviderStage) :
    (∃ r, ctl.afterEnableStep txn result = .inl (r, { ctl with transaction := some txn }) ∧
      ∀ stage, r = .ok stage → stage = txn.stage ∧
        (result = .ok .complete ∨ result = .ok .proxyDrain)) ∨
    ∃ stage, result = .ok stage ∧ stage ≠ .complete ∧ stage ≠ .proxyDrain ∧
      ctl.afterEnableStep txn result = .inr txn := by
  rcases result with e | stage
  · exact .inl ⟨_, rfl, nofun⟩
  · cases stage with
    | complete | proxyDrain => exact .inl ⟨_, rfl, by rintro _ ⟨⟩; simp⟩
    | restored => exact .inl ⟨_, rfl, nofun⟩
    | _ => exact .inr ⟨_, rfl, nofun, nofun, rfl⟩

theorem afterRestoreStep_cases (ctl : ProviderController) (txn : ProviderTransaction)
    (result : Except ProviderError ProviderStage) :
    (∃ r, ctl.afterRestoreStep txn result = .inl (r, { ctl with transaction := some txn }) ∧
      ∀ stage, r = .ok stage → stage = txn.stage ∧ result = .ok .restored) ∨
    result = .ok .restoreRequested ∧ ctl.afterRestoreStep txn result = .inr txn := by
  rcases result with e | stage
  · exact .inl ⟨_, rfl, nofun⟩
  · cases stage with
    | restored => exact .inl ⟨_, rfl, by rintro _ ⟨⟩; simp⟩
    | restoreRequested => exact .inr ⟨rfl, rfl⟩
    | _ => exact .inl ⟨_, rfl, nofun⟩

theorem yields_checkpoint {Y : Result → Prop} {Z : ProviderTransaction → Prop}
    {next : Result ⊕ ProviderTransaction} (hY : ∀ r, Y r) (hnext : Sum.elim Y Z next) :
    (ctl.checkpoint txn next).Yields (Sum.elim Y Z) := by
  rintro (e | ⟨⟨⟩⟩)
  · exact hY _
  · exact hnext

theorem yields_enableTurn (txn : ProviderTransaction) : (ctl.enableTurn txn).Yields
    (Sum.elim (fun _ => True) fun txn' => enableTurns txn'.stage < enableTurns txn.stage) := by
  intro now
  refine ProviderTransaction.enableStepAt_single.yields_bind ?_
  rintro calls ⟨result, txn'⟩ hmove
  refine yields_checkpoint (fun _ => trivial) ?_
  rcases afterEnableStep_cases ctl (noteError result txn') result with
    ⟨r, hnext, -⟩ | ⟨stage, rfl, hcomplete, hdrain, hnext⟩ <;> rw [hnext]
  · trivial
  · exact enableTurns_lt hmove hcomplete hdrain

/-- The steps back from a stage that are followed by another turn, at most. -/
def restoreTurns : ProviderStage → ℕ
  | .restoreRequested => 0
  | _ => 1

theorem yields_restoreTurn (txn : ProviderTransaction) : (ctl.restoreTurn txn).Yields
    (Sum.elim (fun _ => True) fun txn' => restoreTurns txn'.stage < restoreTurns txn.stage) := by
  refine ProviderTransaction.restoreStep_single.yields_bind ?_
  rintro calls ⟨result, txn'⟩ hmove
  refine yields_checkpoint (fun _ => trivial) ?_
  rcases afterRestoreStep_cases ctl txn' result with ⟨r, hnext, -⟩ | ⟨rfl, hnext⟩ <;> rw [hnext]
  · trivial
  · -- Another turn follows the intent to restore.
    cases hmove with
    | idle _ _ hstage => simp at hstage
    | requested _ hne => cases hs : txn.stage <;> simp_all [restoreTurns]

theorem enableLoop_eq (n : ℕ) (txn : ProviderTransaction) :
    Prog.loop ctl.enableTurn (fun txn => (.ok txn.stage, { ctl with transaction := some txn }))
      (9 + n) txn = ctl.enableLoop txn := by
  induction n with
  | zero => rfl
  | succ n ih =>
    rw [← ih, ← Nat.add_assoc]
    exact Prog.loop_succ yields_enableTurn (by cases txn.stage <;> simp [enableTurns] <;> omega)

end ProviderController

end VpsGuard
