import VpsGuard.Provider.World
import VpsGuard.Effect.Restart

/-!
# The snapshot is not lost

What the controller records of the provider before it changes it is what an
administrator can restore. This module is about where that record is while the
provider is changed: in the store, where it survives the process.

A process starts from the stored transaction, with whatever record the
configuration names, and serves commands to enable and to restore. The
provider answers anything, writes of the store fail in any way, and the
process may crash before any of its operations.

The snapshot is in the store whenever the provider may be changed, in every
run in which the commands to enable find their last checkpoint in the store
(`Checkpointed`, `snapshot_kept`). It is not so in every run: after a write of
the store that failed, the next command goes on with a transaction that is in
memory only (`snapshot_lost_unstored`).
-/

namespace VpsGuard

open Effect ProviderController

/-! ## The process -/

def serve : List ProviderCommand → Prog Host Unit
  | [] => return ()
  | command :: commands => .call (.lock command) fun
    | none => .call (.unlock none) fun _ => serve commands
    | some ctl => do
      let (_, ctl) ← (command.run ctl).lift Host.ofProvider
      .call (.unlock (some ctl)) fun _ => serve commands

/-- A lifetime: the transaction is read, and then commands are served. -/
def lifetime (config : CloudflareConfig) (commands : List ProviderCommand) : Prog Host Unit := do
  match ← (fromConfig config).lift Host.ofProvider with
  | .error _ => return ()
  | .ok controller => .call (.unlock controller) fun _ => serve commands

/-- The stages from the snapshot to the complete protection. -/
def Enabling (stage : ProviderStage) : Prop :=
  activationStagePending stage = true ∨ stage = .complete

instance : DecidablePred Enabling := fun _ => inferInstanceAs (Decidable (_ ∨ _))

/-- The process: a configuration and commands for every start. A crash leaves
    the store and the provider. -/
def providerProcess : Process Host ProviderWorld (CloudflareConfig × List ProviderCommand) Unit where
  boot b := lifetime b.1 b.2
  crash s := { s with controller := none, locked := false }

/-! ## The invariant -/

namespace ProviderWorld

variable (s : ProviderWorld)

/-- The store holds the snapshot taken last, in a transaction that is neither new nor done. -/
def Held : Prop :=
  ∃ txn, s.store = some txn ∧ txn.snapshot = s.taken ∧ s.taken ≠ none ∧
    txn.stage ≠ .pending ∧ txn.stage ≠ .restored

/-- What holds of the world at any time. -/
structure Kept : Prop where
  /-- The snapshot taken before the first change is the last one, and it is held. -/
  changed : s.changed = true → s.Held ∧ s.original = s.taken
  /-- A stored transaction under way has the snapshot taken last. -/
  store : ∀ txn, s.store = some txn → Enabling txn.stage →
    txn.snapshot = s.taken ∧ s.taken ≠ none

/-- What holds of a transaction in memory. -/
structure Tracks (txn : ProviderTransaction) : Prop where
  enabling : Enabling txn.stage → txn.snapshot = s.taken ∧ s.taken ≠ none
  /-- Once the proxy was requested, the snapshot is held. -/
  held : Enabling txn.stage → txn.stage ≠ .snapshotted → s.Held
  restoring : txn.stage = .restoreRequested → s.changed = true → txn.snapshot = s.taken
  pending : txn.stage = .pending → s.changed = false ∧
    ∀ t, s.store = some t → ¬Enabling t.stage
  restored : txn.stage = .restored → s.changed = false

/-- What holds of the controller when it is not in use. -/
def Remembers (ctl : ProviderController) : Prop :=
  match ctl.transaction with
  | none => s.changed = false ∧ ∀ t, s.store = some t → ¬Enabling t.stage
  | some txn => s.Tracks txn

/-- What a transaction under way needs: the snapshot is held, at the stage
    before the first change, too. -/
structure Ready (txn : ProviderTransaction) : Prop where
  tracks : s.Tracks txn
  snapshotted : txn.stage = .snapshotted → s.Held

variable {s} {txn txn' : ProviderTransaction}

theorem enabling_iff {stage : ProviderStage} : Enabling stage ↔ stage ≠ .pending ∧
    stage ≠ .restoreRequested ∧ stage ≠ .restored := by
  cases stage <;> decide

theorem Tracks.congr (h : s.Tracks txn) (hstage : txn'.stage = txn.stage)
    (hsnap : txn'.snapshot = txn.snapshot) : s.Tracks txn' := by
  constructor <;> rw [hstage]
  · rw [hsnap]; exact h.enabling
  · exact h.held
  · rw [hsnap]; exact h.restoring
  · exact h.pending
  · exact h.restored

theorem Tracks.of_changed (h : s.Tracks txn) (hc : s.changed = true) :
    txn.snapshot = s.taken ∧ txn.stage ≠ .pending ∧ txn.stage ≠ .restored := by
  have hp : txn.stage ≠ .pending := fun hp => by simp [(h.pending hp).1] at hc
  have hr : txn.stage ≠ .restored := fun hr => by simp [h.restored hr] at hc
  refine ⟨?_, hp, hr⟩
  by_cases hreq : txn.stage = .restoreRequested
  · exact h.restoring hreq hc
  · exact (h.enabling (enabling_iff.2 ⟨hp, hreq, hr⟩)).1

theorem Kept.change (h : s.Kept) (hheld : s.Held) : s.change.Kept where
  changed _ := by
    refine ⟨hheld, ?_⟩
    change (if s.changed then s.original else s.taken) = s.taken
    split
    · next hc => exact (h.changed hc).2
    · rfl
  store := h.store

theorem Tracks.change (h : s.Tracks txn) (henabling : Enabling txn.stage) :
    s.change.Tracks txn where
  enabling := h.enabling
  held := h.held
  restoring hr := absurd hr (enabling_iff.1 henabling).2.1
  pending hp := absurd hp (enabling_iff.1 henabling).1
  restored hr := absurd hr (enabling_iff.1 henabling).2.2

theorem Kept.take (hp : s.changed = false ∧ ∀ t, s.store = some t → ¬Enabling t.stage)
    (snapshot : ProviderSnapshot) : ({ s with taken := some snapshot } : ProviderWorld).Kept where
  changed hc := by simp [hp.1] at hc
  store t ht henabling := absurd henabling (hp.2 t ht)

theorem Tracks.take (h : s.Tracks txn) (hp : txn.stage = .pending) (snapshot : ProviderSnapshot) :
    ({ s with taken := some snapshot } : ProviderWorld).Tracks txn where
  enabling he := absurd hp (enabling_iff.1 he).1
  held he := absurd hp (enabling_iff.1 he).1
  restoring hr := by simp [hp] at hr
  pending := h.pending
  restored := h.restored

theorem Ready.noteCall (h : s.Ready txn) (hk : s.Kept) {now : ℕ} {o : BackendOp}
    (ho : txn.Asks now o) (answer : o.Ans) :
    (s.noteCall o answer).Kept ∧ (s.noteCall o answer).Tracks txn := by
  cases o with
  | snapshot recordName =>
    cases answer with
    | error e => exact ⟨hk, h.tracks⟩
    | ok snapshot => exact ⟨.take (h.tracks.pending ho.1) snapshot, h.tracks.take ho.1 snapshot⟩
  | requestProxyEnable recordName =>
    exact ⟨hk.change (h.snapshotted ho.1), h.tracks.change (by rw [ho.1]; decide)⟩
  | requestOriginLock =>
    have he : Enabling txn.stage := by rw [ho.1]; decide
    exact ⟨hk.change (h.tracks.held he (by rw [ho.1]; decide)), h.tracks.change he⟩
  | verifyProxyEnabled | verifyOriginLock => exact ⟨hk, h.tracks⟩
  | restore => exact ho.elim

theorem Tracks.advance (h : s.Tracks txn) (hs : Enabling txn.stage) (hheld : s.Held)
    (hs' : Enabling txn'.stage) (hsnap : txn'.snapshot = txn.snapshot) : s.Tracks txn' where
  enabling _ := hsnap ▸ h.enabling hs
  held _ _ := hheld
  restoring hr := absurd hr (enabling_iff.1 hs').2.1
  pending hp := absurd hp (enabling_iff.1 hs').1
  restored hr := absurd hr (enabling_iff.1 hs').2.2

variable {calls : List BackendCall} {result : Except ProviderError ProviderStage}

theorem Ready.enableMove (h : s.Ready txn) (hk : s.Kept) {now limit : ℕ}
    (hm : txn.EnableMove now limit calls result txn') :
    (s.noteCalls calls).Kept ∧ (s.noteCalls calls).Tracks txn' := by
  cases hm with
  | idle => exact ⟨hk, h.tracks.congr rfl rfl⟩
  | refused answer _ _ _ hasks =>
    obtain ⟨hk', ht⟩ := h.noteCall hk hasks answer
    exact ⟨hk', ht.congr rfl rfl⟩
  | snapshotted snapshot _ _ hstage =>
    -- The transaction now has the snapshot just taken, and the store has none.
    have hp := h.tracks.pending hstage
    refine ⟨.take hp snapshot, ⟨fun _ => ⟨rfl, nofun⟩, fun _ hne => absurd rfl hne, nofun, nofun,
      nofun⟩⟩
  | proxyRequested _ _ hstage =>
    have hheld := h.snapshotted hstage
    have he : Enabling txn.stage := by rw [hstage]; decide
    exact ⟨hk.change hheld, (h.tracks.change he).advance he hheld (.inl rfl) rfl⟩
  | originLockRequested _ _ hasks =>
    have he : Enabling txn.stage := by rw [hasks.1]; decide
    have hheld := h.tracks.held he (by rw [hasks.1]; decide)
    exact ⟨hk.change hheld, (h.tracks.change he).advance he hheld (.inl rfl) rfl⟩
  | proxyVerified _ _ hstage | proxyDrain _ _ _ hstage | complete _ _ hstage =>
    have he : Enabling txn.stage := by rw [hstage]; decide
    have hheld := h.tracks.held he (by rw [hstage]; decide)
    exact ⟨hk, h.tracks.advance he hheld (enabling_iff.2 (by simp)) rfl⟩

theorem Tracks.of_restored (hstage : txn.stage = .restored) (hc : s.changed = false) :
    s.Tracks txn where
  enabling he := absurd hstage (enabling_iff.1 he).2.2
  held he := absurd hstage (enabling_iff.1 he).2.2
  restoring hr := by simp [hstage] at hr
  pending hp := by simp [hstage] at hp
  restored _ := hc

theorem Tracks.restoreMove (h : s.Tracks txn) (hk : s.Kept) (hm : txn.RestoreMove calls result txn') :
    (s.noteCalls calls).Kept ∧ (s.noteCalls calls).Tracks txn' := by
  cases hm with
  | idle => exact ⟨hk, h.congr rfl rfl⟩
  | requested hp hreq hres =>
    have he := enabling_iff.2 ⟨hp, hreq, hres⟩
    exact ⟨hk, ⟨fun he' => absurd rfl (enabling_iff.1 he').2.1,
      fun he' => absurd rfl (enabling_iff.1 he').2.1, fun _ _ => (h.enabling he).1, nofun, nofun⟩⟩
  | refused snapshot e _ hstage => exact ⟨hk, h.congr rfl rfl⟩
  | restored snapshot _ hstage hsnap =>
    -- If the provider is changed, what is restored is the original snapshot.
    have horiginal : s.changed = true → s.original = some snapshot := fun hc =>
      ((hk.changed hc).2.trans (h.restoring hstage hc).symm).trans hsnap
    change (if s.original = some snapshot then { s with changed := false } else s).Kept ∧
      (if s.original = some snapshot then { s with changed := false } else s).Tracks _
    split
    · exact ⟨⟨nofun, hk.store⟩, .of_restored rfl rfl⟩
    · next hne => exact ⟨hk, .of_restored rfl (by simpa using mt horiginal hne)⟩

theorem Tracks.write (h : s.Tracks txn) (hk : s.Kept) (fault : Option WriteFault) :
    let s' := { s with store := AtomicStore.written txn s.store fault }
    s'.Kept ∧ s'.Tracks txn ∧ (fault = none → Enabling txn.stage → s'.Held) := by
  intro s'
  rcases AtomicStore.written_eq_or txn s.store fault with hstore | ⟨hstore, hfault⟩
  · -- The transaction is visible: where the snapshot is to be held, it is by this one.
    have hheld : Enabling txn.stage → s'.Held := fun he =>
      ⟨txn, hstore, (h.enabling he).1, (h.enabling he).2, (enabling_iff.1 he).1,
        (enabling_iff.1 he).2.2⟩
    refine ⟨⟨fun hc => ⟨?_, (hk.changed hc).2⟩, fun t ht he => ?_⟩,
      ⟨h.enabling, fun he _ => hheld he, h.restoring, fun hp => ⟨(h.pending hp).1, ?_⟩,
        h.restored⟩, fun _ => hheld⟩
    · obtain ⟨hsnap, hp, hr⟩ := h.of_changed hc
      obtain ⟨-, -, -, htaken, -⟩ := (hk.changed hc).1
      exact ⟨txn, hstore, hsnap, htaken, hp, hr⟩
    · obtain rfl : txn = t := Option.some.inj (hstore.symm.trans ht)
      exact h.enabling he
    · intro t ht he
      obtain rfl : txn = t := Option.some.inj (hstore.symm.trans ht)
      exact (enabling_iff.1 he).1 hp
  · have hs' : s' = s := by
      change { s with store := AtomicStore.written txn s.store fault } = s
      rw [hstore]
    rw [hs']
    exact ⟨hk, h, fun hnone => absurd hnone hfault⟩

variable {t : ProviderWorld} {x : ProviderChoice}

/-! ## The controller -/

/-- The controller in its world: the invariant is kept, by all the steps. -/
def setting : Setting Provider ProviderWorld ProviderChoice where
  exec := exec
  allow _ _ _ := True
  inv := Kept

variable {ctl : ProviderController}

theorem safe_checkpoint {next : ProviderController.Result ⊕ ProviderTransaction}
    {P : ProviderWorld → ProviderTransaction → Prop} (h : s.Tracks txn)
    (hnext : ∀ t : ProviderWorld, t.Tracks txn → (Enabling txn.stage → t.Held) →
      Sum.elim (fun r => t.Remembers r.2) (P t) next) :
    (ctl.checkpoint txn next).Safe setting .alone
      (fun r t => Sum.elim (fun r => t.Remembers r.2) (P t) r) s := by
  refine .call_alone fun hk x a u _ hx => ?_
  obtain ⟨fault, rfl, rfl⟩ := of_exec_writeStore hx
  obtain ⟨hk', ht, hheld⟩ := h.write hk fault
  refine ⟨hk', ?_⟩
  cases fault with
  | none => exact .ret_alone fun _ => hnext _ ht (hheld rfl)
  | some fault => exact .ret_alone fun _ => ht

theorem safe_enableTurn (h : s.Ready txn) : (ctl.enableTurn txn).Safe setting .alone
    (fun r t => Sum.elim (fun r => t.Remembers r.2) t.Ready r) s := by
  refine .call_alone fun hk x now u _ hx => ?_
  obtain rfl := of_exec_currentUnixSeconds hx
  refine ⟨hk, ?_⟩
  refine safe_step ProviderTransaction.enableStepAt_single fun calls ⟨result, txn'⟩ hmove => ?_
  -- Whatever the step asked for, the transaction is stored after it.
  obtain ⟨hk', ht⟩ := h.enableMove hk hmove
  refine ⟨hk', safe_checkpoint (ht.congr (by simp) (by simp)) fun t ht hheld => ?_⟩
  rcases afterEnableStep_cases ctl (noteError result txn')
    result with ⟨r, hnext, -⟩ | ⟨stage, -, -, -, hnext⟩ <;> rw [hnext]
  · exact ht
  · exact ⟨ht, fun hs => hheld (by rw [hs]; decide)⟩

theorem safe_restoreTurn (h : s.Tracks txn) : (ctl.restoreTurn txn).Safe setting .alone
    (fun r t => Sum.elim (fun r => t.Remembers r.2) t.Tracks r) s := by
  refine .of_rely ?_
  rintro _ rfl hk
  refine safe_step ProviderTransaction.restoreStep_single fun calls ⟨result, txn'⟩ hmove => ?_
  obtain ⟨hk', ht⟩ := h.restoreMove hk hmove
  refine ⟨hk', safe_checkpoint ht fun t ht _ => ?_⟩
  rcases afterRestoreStep_cases ctl txn' result with
    ⟨r, hnext, -⟩ | ⟨-, hnext⟩ <;> rw [hnext] <;> exact ht

/-- The transaction of the controller was stored where it matters: at the stage
    before the first change, with its snapshot; and when it is done, no earlier
    one under way is left. And it is for the record of the configuration,
    unless it is new or done. -/
def Stored (s : ProviderWorld) (ctl : ProviderController) : Prop :=
  ∀ txn ∈ ctl.transaction,
    (txn.stage = .snapshotted → ∃ t ∈ s.store, t.stage = .snapshotted ∧
      t.snapshot = txn.snapshot) ∧
    (txn.stage = .restored → ∀ t ∈ s.store, ¬Enabling t.stage) ∧
    (txn.recordName ≠ ctl.recordName → txn.stage = .pending ∨ txn.stage = .restored)

theorem safe_enableLoop (h : s.Ready txn) : (ctl.enableLoop txn).Safe setting .alone
    (fun r t => t.Remembers r.2) s :=
  .loop yields_enableTurn (fun _ _ => safe_enableTurn)
    (by cases txn.stage <;> simp [enableTurns]) h

theorem safe_enablePrepared {createNew : Bool} {operationId : String}
    (hnew : createNew = true → s.changed = false ∧ ∀ t, s.store = some t → ¬Enabling t.stage)
    (hold : createNew = false → ∀ txn, ctl.transaction = some txn → s.Ready txn)
    (h : s.Remembers ctl) : (ctl.enablePrepared createNew operationId).Safe setting .alone
      (fun r t => t.Remembers r.2) s := by
  have hret : ∀ r, (Prog.ret (r, ctl) : Prog Provider ProviderController.Result).Safe setting .alone
      (fun r t => t.Remembers r.2) s := fun r => .ret_alone fun _ => h
  unfold enablePrepared ProviderTransaction.new
  cases createNew with
  | true =>
    rw [if_pos rfl]
    split_ifs
    · refine safe_enableLoop ⟨⟨?_, ?_, nofun, fun _ => hnew rfl, nofun⟩, nofun⟩ <;>
        exact fun he => absurd rfl (enabling_iff.1 he).1
    · exact hret _
  | false =>
    cases htxn : ctl.transaction with
    | none => exact hret _
    | some txn => exact safe_enableLoop (hold rfl txn htxn)

theorem Remembers.congr {ctl' : ProviderController} (h : s.Remembers ctl)
    (htxn : ctl'.transaction = ctl.transaction) : s.Remembers ctl' := by
  unfold Remembers
  rw [htxn]
  exact h

theorem Remembers.lock (h : s.Remembers ctl) (controller : Option ProviderController)
    (locked : Bool) : Remembers { s with controller, locked } ctl := by
  unfold Remembers at h ⊢
  split
  · next htxn => simpa [htxn] using h
  · next txn htxn =>
    rw [htxn] at h
    exact ⟨h.enabling, h.held, h.restoring, h.pending, h.restored⟩

section

variable (hs : s.Stored ctl) (h : s.Remembers ctl)

include hs h

theorem Stored.of_createNew (hnew : ctl.createNew = true) :
    s.changed = false ∧ ∀ t, s.store = some t → ¬Enabling t.stage := by
  unfold Remembers at h
  unfold createNew at hnew
  cases htxn : ctl.transaction with
  | none => simpa [htxn] using h
  | some txn =>
    simp only [htxn, Bool.or_eq_true, decide_eq_true_eq] at h hnew
    obtain ⟨-, hrestored, hrecord⟩ := hs txn htxn
    rcases hnew.elim .inr hrecord with hp | hr
    · exact h.pending hp
    · exact ⟨h.restored hr, hrestored hr⟩

theorem Stored.ready (htxn : ctl.transaction = some txn) : s.Ready txn := by
  have htracks : s.Tracks txn := by
    unfold Remembers at h
    rwa [htxn] at h
  refine ⟨htracks, fun hstage => ?_⟩
  obtain ⟨t, hstore, hstage', hsnap⟩ := (hs txn htxn).1 hstage
  obtain ⟨htaken, hne⟩ := htracks.enabling (by rw [hstage]; decide)
  exact ⟨t, hstore, hsnap.trans htaken, hne, by simp [hstage'], by simp [hstage']⟩

theorem safe_enable {operationId : String} :
    (ctl.enable operationId).Safe setting .alone (fun r t => t.Remembers r.2) s := by
  have hprepared : ∀ e, (enablePrepared { ctl with preflightError := e }
      ctl.createNew operationId).Safe setting .alone (fun r t => t.Remembers r.2) s := fun e =>
    safe_enablePrepared (hs.of_createNew h) (fun _ _ => hs.ready h) (h.congr rfl)
  unfold enable
  split
  · refine .call_alone fun hk x answer u _ hx => ?_
    obtain rfl := of_exec_preflight hx
    refine ⟨hk, ?_⟩
    cases answer with
    | error e => exact .ret_alone fun _ => h.congr rfl
    | ok _ => exact hprepared none
  · exact hprepared ctl.preflightError

end

theorem safe_restore (h : s.Remembers ctl) :
    ctl.restore.Safe setting .alone (fun r t => t.Remembers r.2) s := by
  unfold restore
  cases htxn : ctl.transaction with
  | none => exact .ret_alone fun _ => h
  | some txn =>
    have htracks : s.Tracks txn := by
      unfold Remembers at h
      rwa [htxn] at h
    exact .loop yields_restoreTurn (fun _ _ => safe_restoreTurn)
      (by cases txn.stage <;> simp [restoreTurns]) htracks

theorem Kept.remembers (hk : s.Kept) (htxn : ctl.transaction = s.store) : s.Remembers ctl := by
  unfold Remembers
  rw [htxn]
  cases hstore : s.store with
  | none =>
    refine ⟨Bool.eq_false_iff.2 fun hc => ?_, nofun⟩
    obtain ⟨t, ht, -⟩ := (hk.changed hc).1
    simp [hstore] at ht
  | some txn =>
    -- While the provider is changed, it is this transaction that holds the snapshot.
    have hheld : s.changed = true → txn.snapshot = s.taken ∧ txn.stage ≠ .pending ∧
        txn.stage ≠ .restored := by
      intro hc
      obtain ⟨t, ht, hsnap, -, hp, hr⟩ := (hk.changed hc).1
      obtain rfl : txn = t := Option.some.inj (hstore.symm.trans ht)
      exact ⟨hsnap, hp, hr⟩
    refine ⟨hk.store txn hstore, fun he _ => ?_, fun _ hc => (hheld hc).1, fun hp => ⟨?_, ?_⟩,
      fun hr => ?_⟩
    · obtain ⟨hsnap, hne⟩ := hk.store txn hstore he
      exact ⟨txn, hstore, hsnap, hne, (enabling_iff.1 he).1, (enabling_iff.1 he).2.2⟩
    · exact Bool.eq_false_iff.2 fun hc => (hheld hc).2.1 hp
    · rintro t ht he
      obtain rfl : txn = t := Option.some.inj (hstore.symm.trans ht)
      exact (enabling_iff.1 he).1 hp
    · exact Bool.eq_false_iff.2 fun hc => (hheld hc).2.2 hr

variable {config : CloudflareConfig}

theorem safe_fromConfig : (fromConfig config).Safe setting .alone
      (fun r t => ∀ ctl, r = .ok (some ctl) → t.Remembers ctl) s := by
  unfold fromConfig
  split
  · exact .ret_alone fun _ _ h => nomatch h
  refine .call_alone fun hk x connected u _ hx => ?_
  obtain rfl := of_exec_connect hx
  refine ⟨hk, ?_⟩
  cases connected with
  | error e => exact .ret_alone fun _ _ h => nomatch h
  | ok _ =>
    refine .call_alone fun hk x preflight u _ hx => ?_
    obtain rfl := of_exec_preflight hx
    refine ⟨hk, .call_alone fun hk x stored u _ hx => ?_⟩
    obtain ⟨rfl, hread⟩ := of_exec_readStore hx
    refine ⟨hk, ?_⟩
    cases stored with
    | error e => exact .ret_alone fun _ _ h => nomatch h
    | ok transaction =>
      refine .ret_alone fun hk => ?_
      rintro ctl ⟨⟩
      exact hk.remembers (hread transaction rfl)

/-! ## The process -/

def Checkpointed : HostOp → Option ProviderChoice → ProviderWorld → Prop
  | .lock (.enable _), _, s => ∀ ctl ∈ s.controller, s.Stored ctl
  | _, _, _ => True

instance (s : ProviderWorld) (ctl : ProviderController) : Decidable (s.Stored ctl) :=
  inferInstanceAs (Decidable (∀ _ ∈ _, _))

instance : ∀ o x s, Decidable (Checkpointed o x s)
  | .lock (.enable _), _, s => inferInstanceAs (Decidable (∀ ctl ∈ s.controller, s.Stored ctl))
  | .lock .restore, _, _ => .isTrue trivial
  | .provider _, _, _ => .isTrue trivial
  | .unlock _, _, _ => .isTrue trivial

/-- The process in its world. -/
def hostSetting : Setting Host ProviderWorld (Option ProviderChoice) where
  exec := hostExec
  allow := Checkpointed
  inv s := s.Kept ∧ (s.locked = false → ∀ ctl, s.controller = some ctl → s.Remembers ctl)

/-- The controller is in use, or there is none. -/
def Busy (s : ProviderWorld) : Prop := s.locked = true ∨ s.controller = none

theorem safe_lift {α : Type} {p : Prog Provider α} {Q : α → ProviderWorld → Prop}
    (hp : p.Safe setting .alone Q s) (hs : s.Busy) :
    (p.lift Host.ofProvider).Safe hostSetting .alone (fun a t => Q a t ∧ t.Busy) s := by
  refine .lift id Busy ?_ (fun s _ h => h.1) ?_ hp hs
  · rintro s _ hs rfl -
    exact ⟨rfl, hs⟩
  · intro o y s a t hs _ _ hx
    obtain ⟨x, rfl, hx⟩ := of_hostExec_provider hx
    obtain ⟨hctl, hlocked⟩ := exec_frame hx
    have ht : t.Busy := hs.imp hlocked.trans hctl.trans
    refine ⟨x, trivial, hx, fun _ hk => ⟨trivial, ⟨hk, fun hl ctl hc => ?_⟩, ht⟩⟩
    rcases ht with ht | ht
    · simp [hl] at ht
    · simp [hc] at ht

theorem safe_command {command : ProviderCommand} {x : Option ProviderChoice}
    (hs : Checkpointed (.lock command) x s) (hctl : s.controller = some ctl)
    (h : s.Remembers ctl) :
    (command.run ctl).Safe setting .alone (fun r t => t.Remembers r.2) { s with locked := true } := by
  have hrem : Remembers { s with locked := true } ctl := h.lock s.controller true
  cases command with
  | enable operationId =>
    have hstored : Stored { s with locked := true } ctl := hs ctl hctl
    change (ctl.enable operationId).Safe _ _ _ _
    exact safe_enable hstored hrem
  | restore =>
    change ctl.restore.Safe _ _ _ _
    exact safe_restore hrem

theorem safe_unlock {controller : Option ProviderController} {p : Prog Host Unit}
    (h : ∀ ctl, controller = some ctl → s.Remembers ctl)
    (hp : ∀ t, p.Safe hostSetting .alone (fun _ _ => True) t) :
    (Prog.call (.unlock controller) fun _ => p : Prog Host Unit).Safe hostSetting .alone
      (fun _ _ => True) s := by
  refine .call_alone fun hinv x a u _ hx => ?_
  obtain ⟨hk, -⟩ := hinv
  rw [of_hostExec_unlock hx]
  exact ⟨⟨⟨hk.changed, hk.store⟩, fun _ ctl hctl => (h ctl hctl).lock _ _⟩, hp _⟩

theorem safe_serve (commands : List ProviderCommand) (s : ProviderWorld) :
    (serve commands).Safe hostSetting .alone (fun _ _ => True) s := by
  induction commands generalizing s with
  | nil => exact .ret_trivial
  | cons command commands ih =>
    refine .call_alone fun hinv x controller u hallow hx => ?_
    obtain ⟨hk, hmem⟩ := hinv
    obtain ⟨hlocked, hcontroller, rfl⟩ := of_hostExec_lock hx
    refine ⟨⟨⟨hk.changed, hk.store⟩, fun h => absurd h (by simp)⟩, ?_⟩
    cases controller with
    | none => exact safe_unlock (fun _ h => absurd h (by simp)) ih
    | some ctl =>
      have hrem := hmem hlocked ctl hcontroller.symm
      refine (safe_lift (safe_command hallow hcontroller.symm hrem) (.inl rfl)).bind ?_
      rintro ⟨_, ctl'⟩ t - ⟨hrem', -⟩
      refine safe_unlock ?_ ih
      rintro _ ⟨⟩
      exact hrem'

theorem safe_lifetime {commands : List ProviderCommand}
    (hs : s.Busy) : (lifetime config commands).Safe hostSetting .alone (fun _ _ => True) s := by
  refine (safe_lift safe_fromConfig hs).bind fun r t _ hr => ?_
  cases r with
  | error e => exact .ret_trivial
  | ok controller => exact safe_unlock (fun ctl h => hr.1 ctl (h ▸ rfl)) (safe_serve commands)

def fresh : ProviderWorld where
  controller := none
  locked := false
  store := none
  taken := none
  changed := false
  original := none

/-- **The snapshot is not lost.** In every run of the process in which the
    commands to enable find their last checkpoint in the store, over any number
    of crashes and starts: whenever the provider may be changed and was not
    completely restored since, the store holds a transaction with the snapshot
    that was taken before the first change. -/
theorem snapshot_kept (s : ProviderWorld) (p : Prog Host Unit)
    (h : Restarts ⟨hostExec⟩ providerProcess (fun _ _ => True) Checkpointed fresh s p)
    (hchanged : s.changed = true) :
    ∃ txn snapshot, s.store = some txn ∧ txn.snapshot = some snapshot ∧
      s.original = some snapshot := by
  have hinv : hostSetting.inv fresh :=
    ⟨⟨fun h => absurd h (by decide), fun _ h => absurd h (by simp [fresh])⟩,
      fun _ _ h => absurd h (by simp [fresh])⟩
  obtain ⟨⟨hk, -⟩, -⟩ := Restarts.safe (E := hostSetting) (Q := fun _ _ => True) Busy h
    ⟨hinv, .inr rfl⟩ (fun s hs => ⟨⟨⟨hs.1.changed, hs.1.store⟩,
      fun _ _ h => absurd h (by simp [providerProcess])⟩, .inr rfl⟩)
    fun b s _ hs _ => safe_lifetime hs
  obtain ⟨⟨txn, hstore, hsnap, hne, -⟩, horiginal⟩ := hk.changed hchanged
  obtain ⟨snapshot, htaken⟩ := Option.ne_none_iff_exists'.1 hne
  exact ⟨txn, snapshot, hstore, hsnap.trans htaken, horiginal.trans htaken⟩

def exampleConfig : CloudflareConfig where
  enabled := true
  recordName := "www"
  otherRecords := []
  maxDnsTtlSeconds := 300

/-- The choices of a start that succeeds, from a store that can be read. -/
def started : List (Option ProviderChoice) :=
  [some (.connect (.ok ())), some (.preflight (.ok ())), some (.read none), none]

/-- The choices of an activation up to the request of the proxy, with what
    becomes of the first checkpoint. -/
def snapshotThen (fault : Option WriteFault) : List (Option ProviderChoice) :=
  [none, some (.preflight (.ok ())), some (.time 10), some (.backend obliging),
    some (.write fault)]

def stepThen : List (Option ProviderChoice) := [some (.time 20), some (.backend obliging)]

/-- The proxy is requested with the snapshot in the store. -/
theorem snapshot_kept_proxyRequested :
    ∃ s p, Restarts ⟨hostExec⟩ providerProcess (fun _ _ => True) Checkpointed fresh s p ∧
      s.changed = true ∧ ∃ txn snapshot, s.store = some txn ∧ txn.snapshot = some snapshot ∧
        s.original = some snapshot := by
  obtain ⟨s, p, h, hchanged⟩ := Restarts.exists_of_run ⟨hostExec⟩ providerProcess Checkpointed
    fresh (exampleConfig, [.enable "op"])
    ((started ++ snapshotThen none ++ stepThen).map .inr) (R := (·.changed)) (by decide)
  exact ⟨s, p, h, hchanged, snapshot_kept s p h hchanged⟩

/-- After a first checkpoint that failed, the next command requests the proxy
    with nothing in the store. -/
theorem snapshot_lost_unstored :
    ∃ s p, Restarts ⟨hostExec⟩ providerProcess (fun _ _ => True) (fun _ _ _ => True) fresh s p ∧
      s.changed = true ∧ s.store = none := by
  obtain ⟨s, p, h, hlost⟩ := Restarts.exists_of_run ⟨hostExec⟩ providerProcess (fun _ _ _ => True)
    fresh (exampleConfig, [.enable "op", .enable "retry"])
    ((started ++ snapshotThen (some .createTemp) ++ [none, none] ++ stepThen).map .inr)
    (R := fun s => s.changed && s.store.isNone) (by decide)
  simp only [Bool.and_eq_true, Option.isNone_iff_eq_none] at hlost
  exact ⟨s, p, h, hlost⟩

end ProviderWorld

end VpsGuard
