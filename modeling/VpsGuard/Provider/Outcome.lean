import VpsGuard.Provider.World

/-!
# What the commands to the controller lead to

A command run alone, with a store that does not fail. Whatever the provider
answers:

* the controller remembers what is stored;
* a failure does not complete the external protection: if it is complete
  afterwards, it was before;
* an activation that succeeds is complete, or waits for the addresses in the
  caches to expire; a restoration that succeeds leaves nothing complete.

And an activation that finds the external protection of its record complete
succeeds (`ProviderWorld.safe_enable_standing`).
-/

namespace VpsGuard

open Effect ProviderController

namespace ProviderTransaction

variable {txn txn' : ProviderTransaction} {now limit : ℕ} {calls : List BackendCall}
  {e : ProviderError} {stage : ProviderStage}

theorem EnableMove.stage_of_ok (h : EnableMove txn now limit calls (.ok stage) txn') :
    txn'.stage = stage := by
  cases h with
  | idle _ _ hstage => exact (hstage stage rfl).1.symm
  | _ => rfl

theorem EnableMove.stage_of_error (h : EnableMove txn now limit calls (.error e) txn') :
    txn'.stage = txn.stage := by
  cases h <;> rfl

theorem RestoreMove.stage_of_ok (h : RestoreMove txn calls (.ok stage) txn') :
    txn'.stage = stage ∧ stage ≠ .complete := by
  cases h with
  | idle _ _ hstage =>
    obtain ⟨rfl, hrestored⟩ := hstage stage rfl
    exact ⟨hrestored, nofun⟩
  | requested | restored => exact ⟨rfl, nofun⟩

theorem RestoreMove.stage_of_error (h : RestoreMove txn calls (.error e) txn') :
    txn'.stage = txn.stage := by
  cases h <;> rfl

end ProviderTransaction

/-- The external protection of the configured record is in effect. -/
def ProviderController.standing (ctl : ProviderController) : Bool :=
  ctl.transaction.any fun txn => txn.stage = .complete && txn.recordName = ctl.recordName

namespace ProviderWorld

open ProviderController (Result)

variable {s t : ProviderWorld} {ctl : ProviderController} {txn : ProviderTransaction} {before : Prop}

def complete (s : ProviderWorld) : Bool := s.store.any (·.stage = .complete)

def Storing : ProviderOp → ProviderChoice → ProviderWorld → Prop
  | .writeStore _, .write fault, _ => fault = none
  | _, _, _ => True

/-- The controller alone in its world, with a store that does not fail. -/
def storingSetting : Setting Provider ProviderWorld ProviderChoice where
  exec := exec
  allow := Storing
  inv _ := True

/-- The controller of the process remembers what is stored. -/
def Synced (s : ProviderWorld) : Prop := ∀ ctl ∈ s.controller, ctl.transaction = s.store

/-- What a command leads to, where `before` says that the external protection was
    complete. -/
structure Outcome {ε : Type} (command : ProviderCommand) (before : Prop)
    (result : Except ε ProviderStage) (t : ProviderWorld) : Prop where
  error : ∀ e, result = .error e → t.complete = true → before
  ok : ∀ stage, result = .ok stage →
    match command with
    | .enable _ => stage = .complete ∨ stage = .proxyDrain
    | .restore => t.complete = false

variable {command : ProviderCommand} {operationId : String}

theorem Outcome.imp {ε : Type} {after : Prop} {result : Except ε ProviderStage}
    (h : Outcome command before result t) (himp : before → after) :
    Outcome command after result t :=
  ⟨fun e he hc => himp (h.error e he hc), h.ok⟩

theorem Outcome.mapError {ε ε' : Type} {f : ε → ε'} {result : Except ε ProviderStage}
    (h : Outcome command before result t) : Outcome command before (result.mapError f) t := by
  rcases result with e | stage
  · exact ⟨fun _ _ => h.error e rfl, nofun⟩
  · exact ⟨nofun, fun _ hr => h.ok _ (by cases hr; rfl)⟩

/-- What a command returns: also the controller, which remembers what is stored. -/
def Returned (command : ProviderCommand) (before : Prop) (r : Result) (t : ProviderWorld) : Prop :=
  r.2.transaction = t.store ∧ Outcome command before r.1 t

theorem complete_of_store (h : s.store = some txn) : s.complete = true ↔ txn.stage = .complete := by
  simp [complete, h]

theorem safe_store {next : Result ⊕ ProviderTransaction} {Q : Result ⊕ ProviderTransaction →
    ProviderWorld → Prop} (hnext : ∀ t : ProviderWorld, t.store = some txn → Q next t) :
    (ctl.checkpoint txn next).Safe storingSetting .alone Q s := by
  refine .call_alone fun _ x a u hallow hx => ⟨trivial, ?_⟩
  cases x with
  | write fault =>
    obtain rfl : fault = none := hallow
    cases hx
    exact .ret_alone fun _ => hnext _ rfl
  | _ => cases hx

/-- What the turns keep: nothing is complete that was not before. -/
def NotYet (before : Prop) (txn : ProviderTransaction) : Prop := txn.stage = .complete → before

/-! ## Activations -/

theorem safe_enableTurn_returned (h : NotYet before txn) :
    (ctl.enableTurn txn).Safe storingSetting .alone
      (fun r t => Sum.elim (Returned (.enable operationId) before · t) (NotYet before) r) s := by
  refine .call_alone fun _ x now u _ hx => ⟨trivial, ?_⟩
  refine safe_step ProviderTransaction.enableStepAt_single fun calls ⟨result, txn'⟩ hmove =>
    ⟨trivial, safe_store fun t ht => ?_⟩
  have hstage : t.complete = true ↔ txn'.stage = .complete := by
    rw [complete_of_store ht, noteError_stage]
  rcases result with e | stage
  · refine ⟨ht.symm, fun _ _ hc => h ?_, nofun⟩
    rw [← hmove.stage_of_error]
    exact hstage.1 hc
  · have htxn' := hmove.stage_of_ok
    cases stage with
    | complete => exact ⟨ht.symm, nofun, fun _ hr => .inl (by cases hr; exact htxn')⟩
    | proxyDrain => exact ⟨ht.symm, nofun, fun _ hr => .inr (by cases hr; exact htxn')⟩
    | restored =>
      exact ⟨ht.symm, fun _ _ hc => (nomatch (hstage.1 hc).symm.trans htxn'), nofun⟩
    | _ => exact fun hc => nomatch hc.symm.trans htxn'

theorem safe_enableLoop_returned (h : NotYet before txn) :
    (ctl.enableLoop txn).Safe storingSetting .alone (Returned (.enable operationId) before) s :=
  .loop (P := fun txn _ => NotYet before txn) yields_enableTurn
    (fun _ _ => safe_enableTurn_returned)
    (by cases txn.stage <;> simp [enableTurns]) h

theorem returned_of_error {e : ProviderControllerError} (hctl : ctl.transaction = s.store) :
    Returned command (s.complete = true) (.error e, ctl) s :=
  ⟨hctl, fun _ _ h => h, nofun⟩

theorem notYet_of_transaction (hctl : ctl.transaction = s.store) (htxn : ctl.transaction = some txn) :
    NotYet (s.complete = true) txn :=
  (complete_of_store (hctl.symm.trans htxn)).2

theorem safe_enablePrepared_returned {createNew : Bool} (hctl : ctl.transaction = s.store) :
    (ctl.enablePrepared createNew operationId).Safe storingSetting .alone
      (Returned (.enable operationId) (s.complete = true)) s := by
  unfold enablePrepared ProviderTransaction.new
  cases createNew with
  | true =>
    rw [if_pos rfl]
    split_ifs
    · exact safe_enableLoop_returned nofun
    · exact .ret_alone fun _ => returned_of_error hctl
  | false =>
    cases htxn : ctl.transaction with
    | none => exact .ret_alone fun _ => returned_of_error hctl
    | some txn => exact safe_enableLoop_returned (notYet_of_transaction hctl htxn)

theorem safe_enable_returned (hctl : ctl.transaction = s.store) :
    (ctl.enable operationId).Safe storingSetting .alone
      (Returned (.enable operationId) (s.complete = true)) s := by
  unfold enable
  split
  · refine .call_alone fun _ x answer u _ hx => ⟨trivial, ?_⟩
    obtain rfl := of_exec_preflight hx
    cases answer with
    | error e => exact .ret_alone fun _ => returned_of_error hctl
    | ok _ => exact safe_enablePrepared_returned hctl
  · exact safe_enablePrepared_returned hctl

theorem exists_of_standing (h : ctl.standing = true) : ∃ txn, ctl.transaction = some txn ∧
    txn.stage = .complete ∧ txn.recordName = ctl.recordName := by
  unfold standing at h
  cases htxn : ctl.transaction with
  | none => simp [htxn] at h
  | some txn => exact ⟨txn, rfl, by simpa [htxn] using h⟩

/-- An activation that finds the external protection in effect succeeds. -/
theorem safe_enable_standing (hctl : ctl.standing = true) :
    (ctl.enable operationId).Safe storingSetting .alone (fun r _ => r.1 = .ok .complete) s := by
  obtain ⟨txn, htxn, hstage, hrecord⟩ := exists_of_standing hctl
  -- The transaction is resumed, and its first turn is the last.
  have hnew : ctl.createNew = false := by
    simp [createNew, htxn, hstage, hrecord]
  have henable : ctl.enable operationId = ctl.enableLoop txn := by
    simp [enable, hnew, enablePrepared, htxn, hstage]
  have hstep : ∀ now, txn.enableStepAt now ctl.maxDnsTtlSeconds = .ret (.ok .complete, txn) := by
    intro now
    rw [ProviderTransaction.enableStepAt, if_pos hstage, hstage]
  rw [henable]
  refine .bind (R := fun r _ => ∃ ctl', r = .inl (.ok .complete, ctl')) ?_ ?_
  · refine .call_alone fun _ x now u _ hx => ⟨trivial, ?_⟩
    dsimp only
    rw [hstep]
    refine safe_store fun t ht => ⟨{ ctl with transaction := some txn }, ?_⟩
    simp [noteError, afterEnableStep, hstage]
  · rintro _ t - ⟨ctl', rfl⟩
    exact .ret_alone fun _ => rfl

/-! ## Restorations -/

theorem safe_restoreTurn_returned (h : NotYet before txn) :
    (ctl.restoreTurn txn).Safe storingSetting .alone
      (fun r t => Sum.elim (Returned .restore before · t) (NotYet before) r) s := by
  refine safe_step ProviderTransaction.restoreStep_single fun calls ⟨result, txn'⟩ hmove =>
    ⟨trivial, safe_store fun t ht => ?_⟩
  have hstage := complete_of_store ht
  rcases result with e | stage
  · refine ⟨ht.symm, fun _ _ hc => h ?_, nofun⟩
    rw [← hmove.stage_of_error]
    exact hstage.1 hc
  · obtain ⟨htxn', hne⟩ := hmove.stage_of_ok
    have hnot : t.complete = false := Bool.eq_false_iff.2 fun hc => hne (htxn' ▸ hstage.1 hc)
    cases stage with
    | restored => exact ⟨ht.symm, nofun, fun _ _ => hnot⟩
    | restoreRequested => exact fun hc => nomatch hc.symm.trans htxn'
    | _ => exact ⟨ht.symm, fun _ _ hc => (nomatch hnot.symm.trans hc), nofun⟩

theorem safe_restore_returned (hctl : ctl.transaction = s.store) :
    ctl.restore.Safe storingSetting .alone (Returned .restore (s.complete = true)) s := by
  unfold restore
  cases htxn : ctl.transaction with
  | none => exact .ret_alone fun _ => returned_of_error hctl
  | some txn =>
    exact .loop (P := fun txn _ => NotYet (s.complete = true) txn)
      yields_restoreTurn (fun _ _ => safe_restoreTurn_returned)
      (by cases txn.stage <;> simp [restoreTurns])
      (notYet_of_transaction hctl htxn)

theorem safe_command_returned (hctl : ctl.transaction = s.store) :
    (command.run ctl).Safe storingSetting .alone (fun r t =>
      Returned command (s.complete = true) r t ∧
        (command ≠ .restore → ctl.standing = true → r.1 = .ok .complete)) s := by
  cases command with
  | enable operationId =>
    by_cases hstanding : ctl.standing = true
    · refine (safe_enable_returned hctl).and ((safe_enable_standing hstanding).weaken ?_)
      exact fun _ _ _ h _ _ => h
    · exact (safe_enable_returned hctl).weaken fun _ _ _ h => ⟨h, fun _ hs => (hstanding hs).elim⟩
  | restore =>
    exact (safe_restore_returned hctl).weaken fun _ _ _ h => ⟨h, fun hne => (hne rfl).elim⟩

end ProviderWorld

end VpsGuard
