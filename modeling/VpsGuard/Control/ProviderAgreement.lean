import VpsGuard.Control.DetectionLoop
import VpsGuard.Core.Hysteresis
import VpsGuard.Provider.Outcome

/-!
# The mode agrees with the external protection

Once the external protection is complete, the guard state is in the emergency
or waits for its end, unless it is held — so it is meant. But the mode and the
transaction of the provider are in two places, and not everyone who changes the
one looks at the other:

* a release leads to `watch`, whatever the provider has;
* a window that fails to enable the external protection keeps to local
  protection, even where the protection is in effect and the failure is that
  somebody else has the lease;
* the loop writes a state that goes on from the one it has read, over what a
  command to the provider has written since;
* an activation that was pending is completed after the mode was reconciled, and
  the mode may have changed in between.

So the agreement holds under conditions (`agreeOrder`), beside that no store
fails: it holds in the runs where nothing of this happens
(`App.provider_agreement`).

The tasks share the transaction by the lease: whoever has it finds the
transaction as it was, and the guard state answering for it, if it did
(`ProviderRely`).
-/

namespace VpsGuard

open Effect

namespace ControlLog

/-- An emergency was activated, and the loop has not written its state yet. -/
def owes : ControlLog → Bool
  | [] => false
  | .emergencyActivated :: _ => true
  | .committed (.loop _) _ :: _ => false
  | _ :: log => owes log

end ControlLog

namespace App

variable {C : ProtectionCodec} {s t : App}

/-- The guard state answers for an external protection: it is held, or of a mode
    for it. -/
def Answers (s : App) : Prop :=
  s.state.manualHold = true ∨ GuardState.External s.state.currentMode

instance (s : App) : Decidable s.Answers := inferInstanceAs (Decidable (_ ∨ _))

/-- A release is written where there is no external protection, and no command
    about to change that; the loop writes over the state it has read; it goes on
    with an activation where the state answers for it, and asks for one, from
    the wait for the end of another one, where this is in effect and the lease
    is free. -/
def agreeOrder : ControlOp → ControlChoice → App → Prop
  | .writeState (.resume _) _, _, s =>
    s.providerActionActive = none ∧ s.provider.complete = false
  | .writeState (.loop read) _, _, s => s.state = read
  | .acquireLease _ .pending, _, s => s.Answers
  | .acquireLease _ (.emergency .recoveryReady), _, s =>
    s.providerActionActive = none ∧ s.provider.controller.any (·.standing) = true
  | _, _, _ => True

instance (o : ControlOp) (x : ControlChoice) (s : App) : Decidable (agreeOrder o x s) := by
  induction o using ControlOp.casesOn with
  | writeState writer =>
    induction writer using StateWriter.casesOn <;> unfold agreeOrder <;> infer_instance
  | acquireLease _ caller =>
    induction caller using LeaseCaller.casesOn with
    | emergency current =>
      induction current using GuardMode.casesOn <;> unfold agreeOrder <;> infer_instance
    | _ => unfold agreeOrder; infer_instance
  | _ => exact .isTrue trivial

variable (C) in
def agrees (o : ControlOp) (x : ControlChoice) (s : App) : Prop :=
  smooth C o x s ∧ agreeOrder o x s

instance (o : ControlOp) (x : ControlChoice) (s : App) : Decidable (agrees C o x s) :=
  inferInstanceAs (Decidable (_ ∧ _))

/-- The guard state answers for an external protection, or is about to. -/
def Covered (s : App) : Prop := s.Answers ∨ s.log.owes = true

/-- While the lease is free, the guard state answers for the external protection. -/
structure Agreeing (s : App) : Prop where
  working : s.protection.Working
  owes : s.log.owes = true → s.log.inTick = true
  covered : s.providerActionActive = none → s.provider.complete = true → s.Covered
  synced : s.providerActionActive = none → s.provider.Synced

/-! ## What the tasks have from each other -/

/-- What the task `i` relies on. While it has the lease, the transaction is its
    own, and the guard state goes on answering for it. The loop has the ticks,
    the emergencies and the policy for itself. -/
structure ProviderRely (i : ℕ) (s t : App) : Prop where
  leased : s.providerActionActive = some i → t.providerActionActive = some i ∧
    t.provider = s.provider ∧ (s.Covered → t.Covered)
  loop : i = 0 → t.log.inTick = s.log.inTick ∧ t.log.owes = s.log.owes ∧
    t.protection = s.protection

/-- Nothing that matters here is changed. -/
structure SameProvider (s t : App) : Prop where
  state : t.state = s.state
  inTick : t.log.inTick = s.log.inTick
  owes : t.log.owes = s.log.owes
  provider : t.provider = s.provider
  protection : t.protection = s.protection
  lease : t.providerActionActive = s.providerActionActive

theorem SameProvider.covered (h : SameProvider s t) : s.Covered → t.Covered := by
  rw [Covered, Covered, Answers, Answers, h.state, h.owes]
  exact id

theorem SameProvider.agreeing (h : SameProvider s t) (hs : s.Agreeing) : t.Agreeing where
  working := h.protection ▸ hs.working
  owes ht := by rw [h.inTick]; exact hs.owes (h.owes ▸ ht)
  covered hfree hc := h.covered (hs.covered (h.lease ▸ hfree) (h.provider ▸ hc))
  synced hfree := by rw [h.provider]; exact hs.synced (h.lease ▸ hfree)

theorem SameProvider.rely (h : SameProvider s t) (i : ℕ) : ProviderRely i s t :=
  ⟨fun hi => ⟨h.lease.trans hi, h.provider, h.covered⟩,
    fun _ => ⟨h.inTick, h.owes, h.protection⟩⟩

def providerSharing (i : ℕ) : Sharing App where
  rely := ProviderRely i
  guar s t := ∀ j, j ≠ i → ProviderRely j s t
  rely_refl _ := SameProvider.rely ⟨rfl, rfl, rfl, rfl, rfl, rfl⟩ i
  rely_trans {s t u} h h' := by
    refine ⟨fun hi => ?_, fun hi => ?_⟩
    · obtain ⟨ht, hp, hc⟩ := h.leased hi
      obtain ⟨hu, hp', hc'⟩ := h'.leased ht
      exact ⟨hu, hp'.trans hp, fun hs => hc' (hc hs)⟩
    · obtain ⟨ht, ho, hp⟩ := h.loop hi
      obtain ⟨ht', ho', hp'⟩ := h'.loop hi
      exact ⟨ht'.trans ht, ho'.trans ho, hp'.trans hp⟩

/-- A step of the task `i` while no other task has the lease; the ticks, the
    emergencies and the policy are left to the loop. -/
theorem guar_of_unleased {i : ℕ} (hlease : ∀ j, j ≠ i → s.providerActionActive ≠ some j)
    (hloop : i ≠ 0 → t.log.inTick = s.log.inTick ∧ t.log.owes = s.log.owes ∧
      t.protection = s.protection) : (providerSharing i).guar s t := fun j hji =>
  ⟨fun hj => (hlease j hji hj).elim, fun hj => hloop (hj ▸ hji.symm)⟩

/-- A step of the task `i` that leaves the provider alone, and the guard state
    answering for it. -/
theorem guar_of_covered {i : ℕ} (hlease : t.providerActionActive = s.providerActionActive)
    (hprovider : t.provider = s.provider) (hcovered : s.Covered → t.Covered)
    (hloop : i ≠ 0 → t.log.inTick = s.log.inTick ∧ t.log.owes = s.log.owes ∧
      t.protection = s.protection) : (providerSharing i).guar s t := fun _ hji =>
  ⟨fun hj => ⟨hlease.trans hj, hprovider, hcovered⟩, fun hj => hloop (hj ▸ hji.symm)⟩

variable (C) in
abbrev providerSetting : Setting Control App ControlChoice := setting (agrees C) Agreeing

namespace Agreeing

/-- The operations that have nothing to do with the provider, the mode and the ticks. -/
def Aside : ControlOp → Prop
  | .provider _ | .protection _ | .writeState _ _ | .acquireLease _ _ | .releaseLease _ _
  | .intervalTick | .tickDone => False
  | _ => True

theorem of_exec_aside {o : ControlOp} {x : ControlChoice} {a : o.Ans}
    (h : exec o x s = some (a, t)) (ho : Aside o) : SameProvider s t := by
  have ht := of_exec_traced h
  have hlog : t.log.inTick = s.log.inTick ∧ t.log.owes = s.log.owes := by
    rw [ht.log]
    unfold eventOf
    split <;> first | exact ⟨rfl, rfl⟩ | exact ho.elim
  refine ⟨ht.state.resolve_right ?_, hlog.1, hlog.2, ht.provider ?_, ht.protection ?_,
    ht.providerActionActive ?_ ?_⟩
  · rintro ⟨writer, rfl⟩
    exact ho
  · rintro o' rfl
    exact ho
  · rintro o' rfl
    exact ho
  all_goals
    rintro _ _ rfl
    exact ho

section Rules

variable {i : ℕ} {α : Type} {P : App → Prop} {Q : α → App → Prop}

variable (C i) in
/-- Safety of what the task `i` runs. -/
abbrev Safe (p : Prog Control α) (Q : α → App → Prop) : App → Prop :=
  p.Safe (providerSetting C) (providerSharing i) Q

theorem aside : (providerSetting C).Aside (providerSharing i) Aside :=
  fun _ _ _ _ _ ho hs _ hx =>
    have hsame := of_exec_aside hx ho
    ⟨hsame.rely i, fun j _ => hsame.rely j, hsame.agreeing hs⟩

theorem safe_aside {o : ControlOp} {k : o.Ans → Prog Control α} (ho : Aside o)
    (hP : (providerSharing i).Keeps P) (hs : P s)
    (hk : ∀ a t, P t → Safe C i (k a) Q t) :
    Safe C i (Prog.call o k) Q s :=
  .call_aside aside ho hP hs fun _ a _ u _ _ _ hu => hk a u hu

theorem safe_store {writer : StateWriter} {state : GuardState}
    {k : Except StoreError Unit → Prog Control α} (hP : (providerSharing i).Keeps P) (hs : P s)
    (hk : ∀ t, P t → Safe C i (k (.ok ())) Q t) :
    Safe C i (.call (.writeStore writer state) k) Q s := by
  have ho : Aside (.writeStore writer state) := trivial
  refine .call_aside aside ho hP hs fun x a t u _ hallow hx hu => ?_
  obtain ⟨fault, rfl, rfl, -⟩ := of_exec_writeStore hx
  obtain rfl : fault = none := hallow.1
  exact hk u hu

end Rules

/-! ## Commands to the provider -/

section Commands

variable {i : ℕ} {before : Prop} {command : ProviderCommand}

/-- The task `i` has the lease, and the guard state answers for what was complete. -/
structure Leasing (i : ℕ) (before : Prop) (s : App) : Prop where
  lease : s.providerActionActive = some i
  covered : before → s.Covered

theorem keeps_leasing : (providerSharing i).Keeps (Leasing i before) := fun _ _ hs h =>
  have ⟨hlease, _, hcovered⟩ := h.leased hs.lease
  ⟨hlease, fun hb => hcovered (hs.covered hb)⟩

/-- The lease is as good as given back. -/
structure Releasable (i : ℕ) (s : App) : Prop where
  leasing : Leasing i (s.provider.complete = true) s
  synced : s.provider.Synced

theorem keeps_releasable : (providerSharing i).Keeps (Releasable i) := fun s t hs h => by
  have hprovider : t.provider = s.provider := (h.leased hs.leasing.lease).2.1
  refine ⟨?_, ?_⟩ <;> rw [hprovider]
  · exact keeps_leasing s t hs.leasing h
  · exact hs.synced

theorem storing_of_smooth {o : ProviderOp} {x : ProviderChoice}
    (h : smooth C (.provider (.provider o)) (.provider (some x)) s) :
    ProviderWorld.Storing o x s.provider := by
  cases o with
  | writeStore txn =>
    cases x with
    | write fault => exact h
    | _ => trivial
  | _ => trivial

theorem step_of_leasing {u : ProviderWorld} (hs : Leasing i before s) (hinv : s.Agreeing) :
    (providerSharing i).guar s { s with provider := u } ∧
      Agreeing { s with provider := u } ∧ Leasing i before { s with provider := u } := by
  refine ⟨guar_of_unleased (fun j hj h => hj ?_) fun _ => ⟨rfl, rfl, rfl⟩, ?_, ?_⟩
  · exact Option.some.inj (h.symm.trans hs.lease)
  · exact ⟨hinv.working, hinv.owes, fun h => (nomatch h.symm.trans hs.lease),
      fun h => (nomatch h.symm.trans hs.lease)⟩
  · exact ⟨hs.lease, hs.covered⟩

/-- What a command leaves, with what it answered. -/
structure Commanded (i : ℕ) (command : ProviderCommand) (before : Prop) (standing : Bool)
    (r : Except String ProviderStage) (t : App) : Prop where
  leasing : Leasing i before t
  synced : t.provider.Synced
  outcome : t.provider.Outcome command before r
  standing : command ≠ .restore → standing = true → r = .ok .complete

theorem safe_unlock {controller : Option ProviderController} {r : Except String ProviderStage}
    {standing : Bool} (hs : Leasing i before s)
    (hsync : ∀ ctl ∈ controller, ctl.transaction = s.provider.store)
    (houtcome : s.provider.Outcome command before r)
    (hstanding : command ≠ .restore → standing = true → r = .ok .complete) :
    Safe C i (.call (.provider (.unlock controller)) fun _ => .ret r)
      (Commanded i command before standing) s := by
  refine .call fun t hst ht x _ u _ hx => ?_
  have hleasing := keeps_leasing s t hs hst
  have hprovider : t.provider = s.provider := (hst.leased hs.lease).2.1
  obtain ⟨y, v, rfl, hv, rfl⟩ := of_exec_provider hx
  obtain ⟨hguar, hinv, hleasing⟩ := step_of_leasing (u := v) hleasing ht
  refine ⟨hguar, hinv, .ret fun w hw _ => ?_⟩
  have hprovider' : w.provider = { s.provider with controller, locked := false } := by
    rw [← hprovider, ← ProviderWorld.of_hostExec_unlock hv]
    exact (hw.leased hleasing.lease).2.1
  refine ⟨keeps_leasing _ w hleasing hw, ?_, ?_, hstanding⟩ <;> rw [hprovider']
  · exact hsync
  · exact ⟨houtcome.error, houtcome.ok⟩

theorem safe_providerCommand (hs : Leasing i before s) (hsync : s.provider.Synced)
    (hbefore : s.provider.complete = true → before) :
    Safe C i (providerCommand command)
      (Commanded i command before (s.provider.controller.any (·.standing))) s := by
  refine .call fun t hst ht x controller u _ hx => ?_
  have hleasing := keeps_leasing s t hs hst
  have hprovider : t.provider = s.provider := (hst.leased hs.lease).2.1
  obtain ⟨y, v, rfl, hv, rfl⟩ := of_exec_provider hx
  obtain ⟨hguar, hinv, hleasing⟩ := step_of_leasing (u := v) hleasing ht
  refine ⟨hguar, hinv, ?_⟩
  rw [hprovider] at hv
  obtain ⟨-, hcontroller, hlocked⟩ := ProviderWorld.of_hostExec_lock hv
  have hbefore' : v.complete = true → before := by
    rw [hlocked]
    exact hbefore
  rw [← hcontroller]
  cases controller with
  | none =>
    exact safe_unlock hleasing (by simp) ⟨fun _ _ => hbefore', by simp⟩ (by simp)
  | some ctl =>
    have hstore : ctl.transaction = v.store := by
      rw [hlocked]
      exact hsync ctl hcontroller.symm
    have hrun : (command.run ctl).Safe _ .alone _ v := ProviderWorld.safe_command_returned hstore
    have hlift := hrun.lift (F := providerSetting C) (v := providerSharing i)
      (f := Control.ofProvider) App.provider (Leasing i before)
      (fun s t hs hst _ => ⟨((ProviderRely.leased hst) hs.lease).2.1.symm, keeps_leasing s t hs hst⟩)
      (fun _ _ _ => trivial) ?_ hleasing
    · refine hlift.bind ?_
      rintro ⟨result, ctl'⟩ w - ⟨⟨⟨hstored, houtcome⟩, hstanding⟩, hleasing⟩
      refine safe_unlock hleasing ?_ (houtcome.imp hbefore').mapError fun hne hs => ?_
      · rintro _ ⟨⟩
        exact hstored
      · obtain rfl : result = .ok .complete := hstanding hne hs
        rfl
    · -- A step of the controller is one of the task, with the lease.
      intro o x s a t hs hinv hallow hx
      obtain ⟨y, v, rfl, hv, rfl⟩ := of_exec_provider hx
      obtain ⟨z, rfl, hz⟩ := ProviderWorld.of_hostExec_provider hv
      refine ⟨z, ?_, hz, fun _ _ => step_of_leasing hs hinv⟩
      exact storing_of_smooth hallow.1

/-- The lease is asked for. Where it is free, the guard state answers for what
    is complete. -/
theorem safe_acquireLease {α : Type} {P : App → Prop} {Q : α → App → Prop} {caller : LeaseCaller}
    {k : Bool → Prog Control α} (hP : (providerSharing i).Keeps P) (hs : P s)
    (hfree : ∀ x t u, agreeOrder (.acquireLease i caller) x t → (t.Covered → u.Covered) →
      u.provider = t.provider → P u → Releasable i u →
      Safe C i (k true) Q u)
    (hbusy : ∀ x t u, agreeOrder (.acquireLease i caller) x t → t.providerActionActive ≠ none →
      P u → Safe C i (k false) Q u) :
    Safe C i (.call (.acquireLease i caller) k) Q s := by
  refine .call fun t hst ht x a u hallow hx => ?_
  have hPt := hP s t hs hst
  have hsame : SameProvider t (t.askLease caller) := by
    cases caller <;> exact ⟨rfl, rfl, rfl, rfl, rfl, rfl⟩
  have hask := hsame.agreeing ht
  rcases of_exec_acquireLease hx with ⟨rfl, hnone, rfl⟩ | ⟨rfl, hsome, rfl⟩
  · -- Nobody has the lease, so nobody relies on it.
    have hleased : ∀ j, t.providerActionActive ≠ some j := by simp [hnone]
    have hloop := (hsame.rely 0).loop rfl
    refine ⟨guar_of_unleased (fun j _ => hleased j) fun _ => hloop,
      ⟨hask.working, hask.owes, nofun, nofun⟩, ?_⟩
    refine hfree x t _ hallow.2 hsame.covered hsame.provider
      (hP t _ hPt ⟨fun h => (hleased i h).elim, fun _ => hloop⟩) ⟨⟨rfl, ?_⟩, ?_⟩
    · exact hask.covered (hsame.lease.trans hnone)
    · exact hask.synced (hsame.lease.trans hnone)
  · exact ⟨fun j _ => hsame.rely j, hask, hbusy x t _ hallow.2 hsome (hP t _ hPt (hsame.rely i))⟩

theorem step_of_release {activated : Bool} (hlease : s.providerActionActive = some i)
    (hsync : s.provider.Synced)
    (hcovered : s.provider.complete = true → activated = true ∨ s.Covered)
    (hloop : activated = true → i = 0 ∧ s.log.inTick = true) (hs : s.Agreeing)
    (ht : t = if activated then { s with providerActionActive := none }.note .emergencyActivated
      else { s with providerActionActive := none }) :
    (providerSharing i).guar s t ∧ t.Agreeing := by
  have hleased : ∀ j, j ≠ i → s.providerActionActive ≠ some j := fun j hj h =>
    hj (Option.some.inj (h.symm.trans hlease))
  subst ht
  cases activated with
  | false =>
    exact ⟨guar_of_unleased hleased fun _ => ⟨rfl, rfl, rfl⟩, hs.working, hs.owes,
      fun _ hc => (hcovered hc).resolve_left nofun, fun _ => hsync⟩
  | true =>
    obtain ⟨hi, htick⟩ := hloop rfl
    exact ⟨guar_of_unleased hleased fun hne => (hne hi).elim, hs.working, fun _ => htick,
      fun _ _ => .inr rfl, fun _ => hsync⟩

end Commands

/-! ## The requests -/

section Requests

variable {i : ℕ}

theorem guar_rfl (s : App) : (providerSharing i).guar s s := fun j _ =>
  SameProvider.rely ⟨rfl, rfl, rfl, rfl, rfl, rfl⟩ j

theorem safe_remember {P : App → Prop} {action : CompletedAction} {result : ControlResult}
    (hP : (providerSharing i).Keeps P) (hs : P s) :
    Safe C i (.call (.rememberAction action) fun _ => .ret result) (fun _ => P) s :=
  safe_aside trivial hP hs fun _ t ht => .ret fun u htu _ => hP t u ht htu

variable {operationId : String} {restore : Bool}

theorem safe_commitAction {hold : Bool} {action : String} {writer : StateWriter}
    (hwriter : hold = true ∧ writer = .hold ∨ hold = false ∧ ∃ holds, writer = .resume holds) :
    Safe C i (commitAction hold action writer operationId)
      (fun _ _ => True) s := by
  refine safe_aside trivial Sharing.keeps_true trivial fun now t _ => ?_
  refine safe_aside trivial Sharing.keeps_true trivial fun state t _ => ?_
  refine safe_store Sharing.keeps_true trivial fun t _ => ?_
  refine .call fun u _ hu x _ v hallow hx => ?_
  rw [of_exec_writeState hx]
  rcases hwriter with ⟨rfl, rfl⟩ | ⟨rfl, holds, rfl⟩
  · have hanswers : Covered ({ u with state := state.hold now }.note
        (.committed .hold (state.hold now))) := .inl (.inl rfl)
    exact ⟨guar_of_covered rfl rfl (fun _ => hanswers) fun _ => ⟨rfl, rfl, rfl⟩,
      ⟨hu.working, hu.owes, fun _ _ => hanswers, hu.synced⟩,
      safe_remember Sharing.keeps_true trivial⟩
  · obtain ⟨hnone, hcomplete⟩ := hallow.2
    exact ⟨guar_of_unleased (by simp [hnone]) fun _ => ⟨rfl, rfl, rfl⟩,
      ⟨hu.working, hu.owes, fun _ hc => (nomatch hcomplete.symm.trans hc), hu.synced⟩,
      safe_remember Sharing.keeps_true trivial⟩

/-- A command has succeeded, and its lease is still held. -/
structure Succeeded (i : ℕ) (restore : Bool) (s : App) : Prop where
  lease : s.providerActionActive = some i
  synced : s.provider.Synced
  restored : restore = true → s.provider.complete = false

theorem keeps_succeeded : (providerSharing i).Keeps (Succeeded i restore) := by
  intro s t hs h
  obtain ⟨hlease, hprovider, -⟩ := h.leased hs.lease
  refine ⟨hlease, ?_, ?_⟩ <;> rw [hprovider]
  · exact hs.synced
  · exact hs.restored

theorem safe_commitProviderAction (hs : Succeeded i restore s) :
    Safe C i (commitProviderAction restore operationId) (fun _ => Releasable i) s := by
  refine safe_aside trivial keeps_succeeded hs fun now t ht => ?_
  refine safe_aside trivial keeps_succeeded ht fun state t ht => ?_
  refine safe_store keeps_succeeded ht fun t ht => ?_
  refine .call fun u htu hu x _ v _ hx => ?_
  obtain ⟨hlease, hsync, hrestored⟩ := keeps_succeeded t u ht htu
  have hreleasable : Releasable i v := by
    rw [of_exec_writeState hx]
    refine ⟨⟨hlease, fun hc => ?_⟩, hsync⟩
    cases restore with
    | false => exact .inl (.inr (.inl afterProviderAction_currentMode))
    | true => exact nomatch (hrestored rfl).symm.trans hc
  rw [of_exec_writeState hx] at hreleasable ⊢
  refine ⟨guar_of_unleased (fun j hj h => hj (Option.some.inj (h.symm.trans hlease))) fun _ =>
    ⟨rfl, rfl, rfl⟩, ⟨hu.working, hu.owes, fun h => ?_, fun h => ?_⟩, ?_⟩
  · exact nomatch h.symm.trans hlease
  · exact nomatch h.symm.trans hlease
  · exact safe_remember keeps_releasable hreleasable

theorem safe_runProviderAction (hs : Releasable i s) :
    Safe C i (runProviderAction restore operationId)
      (fun _ => Releasable i) s := by
  refine (safe_providerCommand hs.leasing hs.synced id).bind fun r t _ ht => ?_
  rcases r with e | stage
  · -- If it is complete, it was before.
    have hreleasable : Releasable i t :=
      ⟨⟨ht.leasing.lease, fun hc => ht.leasing.covered (ht.outcome.error e rfl hc)⟩, ht.synced⟩
    exact .ret fun u htu _ => keeps_releasable t u hreleasable htu
  · refine safe_commitProviderAction ⟨ht.leasing.lease, ht.synced, ?_⟩
    rintro rfl
    exact ht.outcome.ok stage rfl

theorem safe_applyProviderAction {operationId : Option String} :
    Safe C i (applyProviderAction i restore operationId)
      (fun _ _ => True) s := by
  refine safe_onceOnly guar_rfl fun operationId t _ _ => ?_
  refine safe_aside trivial Sharing.keeps_true trivial fun state t _ => ?_
  split
  · exact .ret_trivial
  refine safe_acquireLease Sharing.keeps_true trivial (fun _ _ u _ _ _ _ hu => ?_)
    fun _ _ _ _ _ _ => .ret_trivial
  refine (safe_runProviderAction hu).bind fun result t _ ht => ?_
  refine .call fun u htu hu x _ v _ hx => ?_
  obtain ⟨hleasing, hsync⟩ := keeps_releasable t u ht htu
  obtain ⟨hguar, hv⟩ := step_of_release hleasing.lease hsync (fun hc => .inr (hleasing.covered hc))
    (by simp) hu (of_exec_releaseLease hx)
  exact ⟨hguar, hv, .ret_trivial⟩

theorem safe_request {request : ControlRequest} (h : request.IsModeRequest) :
    Safe C i (request.run C i) (fun _ _ => True) s := by
  cases request with
  | hold operationId =>
    exact safe_onceOnly guar_rfl fun _ _ _ _ => safe_commitAction (.inl ⟨rfl, rfl⟩)
  | resume operationId =>
    refine safe_aside trivial Sharing.keeps_true trivial fun holds t _ => ?_
    exact safe_onceOnly guar_rfl fun _ _ _ _ => safe_commitAction (.inr ⟨rfl, holds, rfl⟩)
  | emergencyProxy operationId => exact safe_applyProviderAction
  | providerRestore operationId => exact safe_applyProviderAction
  | protection | client => exact h.elim

end Requests

/-! ## The loop -/

section Loop

variable {owes : Bool} {last : Option ℕ}

def Ticking (owes : Bool) (s : App) : Prop := s.log.inTick = true ∧ s.log.owes = owes

theorem keeps_ticking : (providerSharing 0).Keeps (Ticking owes) := fun _ _ hs h =>
  have ⟨htick, howes, _⟩ := h.loop rfl
  ⟨htick.trans hs.1, howes.trans hs.2⟩

/-- What the loop may write over a state: it does not end a hold, nor the
    emergency. -/
structure Suited (read next : GuardState) : Prop where
  held : read.manualHold = true → next.manualHold = true
  external : GuardState.External read.currentMode → GuardState.External next.currentMode

theorem safe_writePolicyForMode {state : GuardState} (hs : Ticking owes s) :
    Safe C 0 (writePolicyForMode C state) (fun r t =>
      (∃ version, r = some { state with policyVersion := version }) ∧ Ticking owes t) s := by
  have hwrite : (ProtectionManager.writeForState C state).Safe _ .alone _ s.protection :=
    ProtectionWorld.safe_writeForState
  have hlift := hwrite.lift (F := providerSetting C) (v := providerSharing 0)
    (f := Control.ofProtection) App.protection (Ticking owes)
    (fun s t hs hst _ => ⟨((ProviderRely.loop hst) rfl).2.2.symm, keeps_ticking s t hs hst⟩)
    (fun s _ h => h.working) ?_ hs
  · refine hlift.bind fun r t _ ht => .ret fun u htu _ => ?_
    obtain ⟨⟨⟨version, rfl⟩, -⟩, hticking⟩ := ht
    exact ⟨⟨version, rfl⟩, keeps_ticking t u hticking htu⟩
  · -- A step of the manager is one of the loop, which has the policy for itself.
    intro o x s a t hs hinv hallow hx
    obtain ⟨y, u, rfl, hu, rfl⟩ := of_exec_protection hx
    refine ⟨y, hallow.1, hu, fun _ hworking => ⟨?_, ?_, hs⟩⟩
    · exact guar_of_covered rfl rfl id fun h => (h rfl).elim
    · exact ⟨hworking, hinv.owes, hinv.covered, hinv.synced⟩

variable {read next : GuardState} {caller : LeaseCaller} {current : GuardState}

/-- The loop writes a state that is suited, and answers for the emergency it
    has activated. -/
theorem safe_persist (hs : Ticking owes s) (hnext : Suited read next)
    (howes : owes = true → GuardState.External next.currentMode) :
    Safe C 0 (persistState read next)
      (fun _ => Ticking false) s := by
  refine safe_store keeps_ticking hs fun t ht => ?_
  refine .call fun u htu hu x _ v hallow hx => ?_
  have hticking := keeps_ticking t u ht htu
  obtain rfl : u.state = read := hallow.2
  have hcovered : u.Covered →
      Covered ({ u with state := next }.note (.committed (.loop u.state) next)) := by
    rintro ((hheld | hexternal) | howing)
    · exact .inl (.inl (hnext.held hheld))
    · exact .inl (.inr (hnext.external hexternal))
    · exact .inl (.inr (howes (hticking.2.symm.trans howing)))
  have hdone : Ticking false ({ u with state := next }.note (.committed (.loop u.state) next)) :=
    ⟨hticking.1, rfl⟩
  rw [of_exec_writeState hx]
  exact ⟨guar_of_covered rfl rfl hcovered fun h => (h rfl).elim,
    ⟨hu.working, nofun, fun hfree hc => hcovered (hu.covered hfree hc), hu.synced⟩,
    .ret fun w hw _ => keeps_ticking _ w hdone hw⟩

theorem safe_refreshedAt {refreshed : Bool} (hs : Ticking owes s) :
    Safe C 0 (refreshedAt refreshed last) (fun _ => Ticking owes) s :=
  (Prog.Safe.of_aside aside keeps_ticking (meets_refreshedAt (fun _ => trivial) _ _) hs).weaken
    fun _ _ _ h => h.2

theorem Suited.policyVersion (h : Suited read next) (version : ℕ) :
    Suited read { next with policyVersion := version } := ⟨h.held, h.external⟩

theorem safe_publishState (hs : Ticking false s) (hnext : Suited read next) :
    Safe C 0 (publishState C read next last) (fun _ => Ticking false) s := by
  refine (safe_writePolicyForMode hs).bind fun r t _ ht => ?_
  obtain ⟨⟨version, rfl⟩, hticking⟩ := ht
  refine (safe_persist hticking (hnext.policyVersion version) nofun).bind fun r u _ hu => ?_
  exact safe_refreshedAt hu

theorem safe_withLock {α : Type} {p : Prog Control α} {P R : App → Prop}
    (hP : (providerSharing 0).Keeps P) (hs : P s) (hR : (providerSharing 0).Keeps R)
    (hp : ∀ t, P t → Safe C 0 p (fun _ => R) t) :
    Safe C 0 (withPolicyOperation 0 p) (fun _ => R) s := by
  refine safe_aside trivial hP hs fun _ t ht => (hp t ht).bind fun a u _ hu => ?_
  exact safe_aside trivial hR hu fun _ u hu => .ret fun w hw _ => hR u w hu hw

/-! ### The external protection -/

/-- The loop has the lease, as `agreeOrder` says. -/
structure Prepared (caller : LeaseCaller) (s : App) : Prop where
  ticking : Ticking false s
  releasable : Releasable 0 s
  pending : caller = .pending → s.Covered
  standing : caller = .emergency .recoveryReady → s.provider.controller.any (·.standing) = true

theorem keeps_prepared : (providerSharing 0).Keeps (Prepared caller) := by
  intro s t hs h
  obtain ⟨-, hprovider, hcovered⟩ := h.leased hs.releasable.leasing.lease
  refine ⟨keeps_ticking s t hs.ticking h, keeps_releasable s t hs.releasable h,
    fun hc => hcovered (hs.pending hc), fun hc => ?_⟩
  rw [hprovider]
  exact hs.standing hc

theorem safe_tickingCommand {before : Prop} {command : ProviderCommand} (hs : Ticking owes s)
    (hleasing : Leasing 0 before s) :
    Safe C 0 (providerCommand command) (fun _ => Ticking owes) s := by
  have hmeets : (providerCommand command).Meets (fun o => ∃ o', o = ControlOp.provider o')
      (fun _ _ => True) fun _ => True := meets_providerCommand (fun o => ⟨o, rfl⟩) command
  refine (Prog.Safe.of_meets hmeets (P := fun s => Ticking owes s ∧ Leasing 0 before s)
    (fun s t h hst _ => keeps_ticking.and keeps_leasing s t h hst) ?_ ⟨hs, hleasing⟩).weaken
    fun _ _ _ h => h.2.1
  rintro _ x s a t ⟨o, rfl⟩ ⟨hs, hleasing⟩ hinv _ hx
  obtain ⟨y, u, rfl, -, rfl⟩ := of_exec_provider hx
  obtain ⟨hguar, ht, hleasing⟩ := step_of_leasing (u := u) hleasing hinv
  exact ⟨hguar, ht, ⟨hs, hleasing⟩, trivial⟩

theorem safe_release {operationId : String} {standing complete : Bool}
    {r : Except String ProviderStage}
    (hs : Commanded 0 (.enable operationId) (caller = .pending ∨ complete = true) standing r s)
    (hticking : Ticking false s)
    (hstanding : caller = .emergency .recoveryReady → standing = true) :
    Safe C 0 (.call (.releaseLease 0 (caller ≠ .pending && activated r)) fun _ => .ret r)
      (fun r t => Ticking (caller ≠ .pending && activated r) t ∧
        (caller = .emergency .recoveryReady → activated r = true)) s := by
  refine .call fun t hst ht x _ u _ hx => ?_
  obtain ⟨hlease, hprovider, -⟩ := hst.leased hs.leasing.lease
  have hleasing := keeps_leasing s t hs.leasing hst
  have htick := keeps_ticking s t hticking hst
  -- A failure completes nothing, and a success is owed, unless the state answers for it already.
  have hcovered : t.provider.complete = true →
      (decide (caller ≠ .pending) && activated r) = true ∨ t.Covered := by
    intro hc
    by_cases hpending : caller = .pending
    · exact .inr (hleasing.covered (.inl hpending))
    rcases r with e | stage
    · exact .inr (hleasing.covered (hs.outcome.error e rfl (hprovider ▸ hc)))
    · refine .inl ?_
      rcases hs.outcome.ok stage rfl with rfl | rfl <;> simp [hpending, activated]
  have hrelease := of_exec_releaseLease hx
  obtain ⟨hguar, hu⟩ := step_of_release hlease (hprovider ▸ hs.synced) hcovered
    (fun _ => ⟨rfl, htick.1⟩) ht hrelease
  have hticking' : Ticking (caller ≠ .pending && activated r) u := by
    rw [hrelease]
    split
    · next h => rw [h]; exact ⟨htick.1, rfl⟩
    · next h => rw [Bool.eq_false_iff.2 h]; exact htick
  refine ⟨hguar, hu, .ret fun v huv _ => ⟨keeps_ticking u v hticking' huv, fun hcaller => ?_⟩⟩
  rw [hs.standing nofun (hstanding hcaller)]
  rfl

/-- The loop enables the external protection. If that succeeds for an emergency,
    the loop owes its state; and it does from the wait for the end of another one. -/
theorem safe_runProviderTransaction (hs : Ticking false s) :
    Safe C 0 (runProviderTransaction caller) (fun r t =>
      Ticking (caller ≠ .pending && activated r) t ∧
        (caller = .emergency .recoveryReady → activated r = true)) s := by
  refine safe_acquireLease keeps_ticking hs (fun x t u hallow hcovered hprovider hu hreleasable => ?_)
    fun x t u hallow hbusy hu => ?_
  · have hprepared : Prepared caller u := by
      refine ⟨hu, hreleasable, ?_, ?_⟩
      · rintro rfl
        exact hcovered (.inl hallow)
      · rintro rfl
        rw [hprovider]
        exact hallow.2
    refine safe_aside trivial keeps_prepared hprepared fun uuid t ht => ?_
    have hleasing : Leasing 0 (caller = .pending ∨ t.provider.complete = true) t :=
      ⟨ht.releasable.leasing.lease, fun h => h.elim ht.pending ht.releasable.leasing.covered⟩
    refine ((safe_providerCommand hleasing ht.releasable.synced .inr).and
      (safe_tickingCommand ht.ticking hleasing)).bind fun r u _ hu => ?_
    exact safe_release hu.1 hu.2 ht.standing
  · refine .ret fun v huv _ => ⟨?_, ?_⟩
    · simpa [activated] using keeps_ticking u v hu huv
    · rintro rfl
      exact (hbusy hallow.1).elim

/-- What a window leads to: a state that is suited; where the loop owes it, it is
    of the emergency, and another one than before. -/
structure Escalated (current next : GuardState) (owes : Bool) (s : App) : Prop where
  ticking : Ticking owes s
  suited : Suited current next
  owed : owes = true → GuardState.External next.currentMode ∧ current ≠ next

theorem safe_escalate (hs : Ticking false s) (hnext : Suited current next) :
    Safe C 0 (escalate true current next) (fun next t => ∃ owes, Escalated current next owes t)
      s := by
  unfold escalate
  split
  · next hemergency =>
    obtain ⟨-, hcurrent, hmode⟩ := hemergency
    refine (safe_runProviderTransaction hs).bind fun r t _ ht => .ret fun u htu _ => ?_
    have hticking : Ticking (activated r) u := by
      simpa using keeps_ticking t u ht.1 htu
    refine ⟨activated r, ?_⟩
    cases hr : activated r with
    | true =>
      exact ⟨hr ▸ hticking, hnext, fun _ => ⟨.inl hmode, fun h => hcurrent (h ▸ hmode)⟩⟩
    | false =>
      -- From the wait for the end of an emergency, the activation does not fail.
      refine ⟨hr ▸ hticking, ⟨hnext.held, fun hexternal => ?_⟩, nofun⟩
      have hrecovery : current.currentMode = .recoveryReady := hexternal.resolve_left hcurrent
      cases (ht.2 (congrArg _ hrecovery)).symm.trans hr
  · exact .ret fun u htu _ => ⟨false, keeps_ticking s u hs htu, hnext, nofun⟩

theorem suited_reconcile {occurredAt uuid : String}
    (h : reconcileProviderActivationState occurredAt uuid current = some next) :
    Suited current next := by
  obtain ⟨hmode, hheld, -⟩ := reconcile_eq_some h
  exact ⟨fun h => hheld.trans h, fun _ => .inl hmode⟩

theorem safe_resumeActivation (hs : Ticking false s) :
    Safe C 0 (resumeActivation C last) (fun _ => Ticking false) s := by
  refine safe_aside trivial keeps_ticking hs fun provider t ht => ?_
  refine safe_aside trivial keeps_ticking ht fun state t ht => ?_
  split
  · refine (safe_withLock (R := Ticking false) keeps_ticking ht keeps_ticking fun t ht => ?_).bind
      fun last t _ ht => ?_
    · refine safe_aside trivial keeps_ticking ht fun current t ht => ?_
      refine safe_aside trivial keeps_ticking ht fun occurredAt t ht => ?_
      refine safe_aside trivial keeps_ticking ht fun uuid t ht => ?_
      split
      · exact .ret fun u htu _ => keeps_ticking t u ht htu
      · next hreconciled => exact safe_publishState ht (suited_reconcile hreconciled)
    · refine (safe_runProviderTransaction ht).bind fun _ t _ ht => ?_
      exact .ret fun u htu _ => keeps_ticking t u (by simpa using ht.1) htu
  · exact .ret fun u htu _ => keeps_ticking t u ht htu

theorem safe_commitDetection {refreshPolicy : Bool} (hs : Escalated current next owes s) :
    Safe C 0 (commitDetection C current next refreshPolicy last) (fun _ => Ticking false) s := by
  refine .bind (R := fun r t => ∃ version,
    r = some { next with policyVersion := version } ∧ Ticking owes t) ?_ fun r t _ ht => ?_
  · cases refreshPolicy with
    | true =>
      refine (safe_writePolicyForMode hs.ticking).weaken fun r t _ ht => ?_
      obtain ⟨⟨version, rfl⟩, hticking⟩ := ht
      exact ⟨version, rfl, hticking⟩
    | false =>
      exact .ret fun t hst _ => ⟨next.policyVersion, rfl, keeps_ticking s t hs.ticking hst⟩
  · obtain ⟨version, rfl, hticking⟩ := ht
    refine safe_aside trivial keeps_ticking hticking fun uuid t ht => ?_
    refine (safe_persist ht ⟨fun h => ?_, fun h => ?_⟩ fun h => ?_).bind fun r u _ hu => ?_
    · simpa using hs.suited.held h
    · simpa using hs.suited.external h
    · simpa using (hs.owed h).1
    · exact safe_refreshedAt hu

theorem suited_windowState {input : DetectionInput} {occurredAt : String}
    {provider : Option ProviderController} :
    Suited current (windowState true current input occurredAt provider) :=
  ⟨fun h => GuardState.transition_manualHold.trans h, fun h => h.transition⟩

theorem suited_refl {state : GuardState} : Suited state state := ⟨id, id⟩

theorem safe_detect (hs : Ticking false s) :
    Safe C 0 (detect C true last) (fun _ => Ticking false) s := by
  refine safe_aside trivial keeps_ticking hs fun now t ht => ?_
  refine safe_aside trivial keeps_ticking ht fun input t ht => ?_
  refine safe_aside trivial keeps_ticking ht fun occurredAt t ht => ?_
  refine safe_aside trivial keeps_ticking ht fun current t ht => ?_
  rcases input with _ | input
  · dsimp only
    split
    · refine safe_withLock keeps_ticking ht keeps_ticking fun t ht => ?_
      exact safe_aside trivial keeps_ticking ht fun current t ht => safe_publishState ht suited_refl
    · exact .ret fun u htu _ => keeps_ticking t u ht htu
  · refine safe_aside trivial keeps_ticking ht fun provider t ht => ?_
    refine (safe_escalate ht suited_windowState).bind fun next t _ ht => ?_
    obtain ⟨owes, hescalated⟩ := ht
    have hkeeps : (providerSharing 0).Keeps (Escalated current next owes) := fun s t hs hst =>
      ⟨keeps_ticking s t hs.ticking hst, hs.suited, hs.owed⟩
    dsimp only
    split
    · exact safe_withLock hkeeps hescalated keeps_ticking fun t ht => safe_commitDetection ht
    · next hpersist =>
      -- What is owed would be committed.
      have howes : owes = false := by
        refine Bool.eq_false_iff.2 fun h => hpersist ?_
        simp [detectionCommit, (hescalated.owed h).2]
      exact .ret fun u htu _ => howes ▸ keeps_ticking t u hescalated.ticking htu

def Idle (s : App) : Prop := s.log.inTick = false

theorem keeps_idle : (providerSharing 0).Keeps Idle := fun _ _ hs h => (h.loop rfl).1.trans hs

theorem safe_tick (last : Option ℕ) (s : App) (hs : Idle s) :
    Safe C 0 (tick C true last) (fun _ => Idle) s := by
  refine .call fun t hst ht x _ u _ hx => ?_
  have hidle := keeps_idle s t hs hst
  have howes : t.log.owes = false := Bool.eq_false_iff.2 fun h => by
    cases (ht.owes h).symm.trans hidle
  have hticking : Ticking false (t.note .tickStarted) := ⟨rfl, howes⟩
  rw [of_exec_intervalTick hx]
  refine ⟨guar_of_covered rfl rfl id fun h => (h rfl).elim,
    ⟨ht.working, fun _ => rfl, ht.covered, ht.synced⟩, ?_⟩
  refine (safe_resumeActivation hticking).bind fun last t _ ht => ?_
  refine (safe_detect ht).bind fun last t _ ht => ?_
  refine .call fun u htu hu x _ v _ hx => ?_
  have hticking := keeps_ticking t u ht htu
  have hidle : Idle (u.note .tickDone) := rfl
  rw [of_exec_tickDone hx]
  exact ⟨guar_of_covered rfl rfl id fun h => (h rfl).elim,
    ⟨hu.working, fun h => (nomatch hticking.2.symm.trans h), hu.covered, hu.synced⟩,
    .ret fun w hw _ => keeps_idle _ w hidle hw⟩

end Loop

end Agreeing

/-- **Agreement.** Where no store fails and the steps are as `agreeOrder` says,
    the mode is of the emergency, or of the wait for its end, whenever the
    external protection is complete — between ticks, while no command to the
    provider is carried out, and unless the state is held. -/
theorem provider_agreement (C : ProtectionCodec) (s : App) (hworking : s.protection.Working)
    (hlog : s.log = []) (hsynced : s.provider.Synced)
    (hs : s.provider.complete = true → s.Answers) (n : ℕ) (requests : List ControlRequest)
    (hrequests : ∀ request ∈ requests, request.IsModeRequest) (q : Pool Control App Unit)
    (hq : Pool.Reaches machine (agrees C) (controlPool C true s n requests) q)
    (htick : q.state.log.inTick = false) (hlease : q.state.providerActionActive = none)
    (hheld : q.state.state.manualHold = false) (hcomplete : q.state.provider.complete = true) :
    q.state.state.currentMode = .emergencyProxy ∨
      q.state.state.currentMode = .recoveryReady := by
  have hstart : s.Agreeing := by
    refine ⟨hworking, fun h => ?_, fun _ hc => .inl (hs hc), fun _ => hsynced⟩
    rw [hlog] at h
    cases h
  have hidle : Agreeing.Idle s := by
    rw [Agreeing.Idle, hlog]
    rfl
  have hsafe := Pool.Reaches.safe (E := providerSetting C) (Q := fun _ _ _ => True)
    (w := providerSharing) (fun i j s t hij _ _ hguar => hguar j hij.symm) hq ⟨hstart, ?_⟩
  · rcases hsafe.inv.covered hlease hcomplete with (h | h) | howes
    · cases hheld.symm.trans h
    · exact h
    · cases htick.symm.trans (hsafe.inv.owes howes)
  · intro i p hp
    cases i with
    | zero =>
      cases hp
      exact safe_ticks C Agreeing.safe_tick n none hidle
    | succ i =>
      obtain ⟨request, hrequest, rfl⟩ := exists_request_of_task hp
      exact (Agreeing.safe_request (hrequests request hrequest)).bind fun _ _ _ _ =>
        .ret_trivial

end App

namespace ControlChoice

/-- A step of a transaction that asks the provider for something, and gets it. -/
def advances (task now : ℕ) : List (ℕ × ControlChoice) :=
  [.provider (some (.time now)), .provider (some (.backend obliging)),
    .provider (some (.write none))].map (task, ·)

/-- A task starts an activation, up to the wait for what is in the caches. -/
def activates (task : ℕ) : List (ℕ × ControlChoice) :=
  leases task ++ [(task, .provider none), (task, .provider (some (.preflight (.ok ()))))] ++
    advances task 0 ++ advances task 0 ++ advances task 0 ++
    [(task, .provider (some (.time 0))), (task, .provider (some (.write none))),
      (task, .provider none)] ++ commits task

def completes (task : ℕ) : List (ℕ × ControlChoice) :=
  leases task ++ [(task, .provider none)] ++ advances task 300 ++ advances task 300 ++
    [(task, .provider none)] ++ commits task

def releases (task : ℕ) : List (ℕ × ControlChoice) := (task, .proceed) :: holds task

end ControlChoice

namespace App

/-- Nothing is in progress, nothing is held, and the external protection is
    complete: the mode is one for that, or is not. -/
def protectedIn (external : Bool) (q : Pool Control App Unit) : Bool :=
  !q.state.log.inTick && q.state.providerActionActive.isNone && !q.state.state.manualHold &&
    q.state.provider.complete &&
    decide (GuardState.External q.state.state.currentMode) = external

theorem of_protectedIn {external : Bool} {q : Pool Control App Unit}
    (h : protectedIn external q = true) : q.state.log.inTick = false ∧
      q.state.providerActionActive = none ∧ q.state.state.manualHold = false ∧
      q.state.provider.complete = true ∧
      (GuardState.External q.state.state.currentMode ↔ external = true) := by
  simp only [protectedIn, Bool.and_eq_true, Bool.not_eq_true', Option.isNone_iff_eq_none,
    decide_eq_true_eq] at h
  obtain ⟨⟨⟨⟨htick, hlease⟩, hheld⟩, hcomplete⟩, rfl⟩ := h
  exact ⟨htick, hlease, hheld, hcomplete, decide_eq_true_iff.symm⟩

theorem started_working {state : GuardState} {stage : ProviderStage} :
    (started state stage).protection.Working :=
  ⟨_, rfl, ProtectionSettings.valid_default, by decide⟩

open ControlChoice in
/-- Two commands to enable complete the external protection, in the emergency. -/
theorem provider_agreement_activated :
    ∃ q : Pool Control App Unit, Pool.Reaches machine (agrees .plain)
      (controlPool .plain true (started (.normal "t0") .restored) 1
        [.emergencyProxy (some "a"), .emergencyProxy (some "b")]) q ∧ q.state.provider.complete =
      true ∧ (q.state.state.currentMode = .emergencyProxy ∨ q.state.state.currentMode =
        .recoveryReady) := by
  obtain ⟨q, hq, hdone⟩ := Pool.exists_reaches_of_run machine (agrees .plain)
    (controlPool .plain true (started (.normal "t0") .restored) 1
      [.emergencyProxy (some "a"), .emergencyProxy (some "b")])
    (activates 1 ++ completes 2) (P := protectedIn true) (by decide)
  obtain ⟨htick, hlease, hheld, hcomplete, -⟩ := of_protectedIn hdone
  refine ⟨q, hq, hcomplete, provider_agreement .plain _ started_working rfl ?_ ?_ 1 _ ?_ q hq htick
    hlease hheld hcomplete⟩
  · rintro ctl ⟨⟩
    rfl
  · decide
  · simp [ControlRequest.IsModeRequest]

open ControlChoice in
/-- When the external protection is complete, a hold and a release lead to
    `watch`, without any failure. -/
theorem provider_disagreement : (started (.normal "t0") .restored).provider.complete = false ∧
    ∃ q : Pool Control App Unit,
      Pool.Reaches machine (smooth .plain) (controlPool .plain true
        (started (.normal "t0") .restored) 1 [.emergencyProxy (some "a"),
          .emergencyProxy (some "b"), .hold (some "c"), .resume (some "d")]) q ∧
      q.state.log.inTick = false ∧ q.state.providerActionActive = none ∧
      q.state.state.manualHold = false ∧ q.state.provider.complete = true ∧
      ¬(q.state.state.currentMode = .emergencyProxy ∨
        q.state.state.currentMode = .recoveryReady) := by
  refine ⟨by decide, ?_⟩
  obtain ⟨q, hq, hdone⟩ := Pool.exists_reaches_of_run machine (smooth .plain)
    (controlPool .plain true (started (.normal "t0") .restored) 1 [.emergencyProxy (some "a"),
      .emergencyProxy (some "b"), .hold (some "c"), .resume (some "d")])
    (activates 1 ++ completes 2 ++ holds 3 ++ releases 4) (P := protectedIn false) (by decide)
  obtain ⟨htick, hlease, hheld, hcomplete, hmode⟩ := of_protectedIn hdone
  exact ⟨q, hq, htick, hlease, hheld, hcomplete, fun h => nomatch hmode.1 h⟩

end App

end VpsGuard
