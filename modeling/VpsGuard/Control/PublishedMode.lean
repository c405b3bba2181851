import VpsGuard.Control.DetectionLoop
import VpsGuard.Protection.Publication

/-!
# The published policy follows the mode

The edge reads its limits from the policy file, and these depend on the mode.
A tick of the loop writes the policy when the mode changes in its own window, or
when the policy is to be renewed. Holds, releases and commands to the provider
change the mode too, without a policy, and a tick that finds the mode already
changed sees nothing to do.

So a completed tick leaves a policy of the current mode only under conditions
(`publishOrder`), beside that nothing fails: a request writes the state between
ticks, and not while someone writes a policy; and a tick that finds the policy
of another mode finds it due to be renewed. In the runs where this is so, the
policy file has the mode of the guard state after every tick, until a request or
the next tick changes it (`App.published_mode`).

The tasks share the policy by the lock of the policy operations: whoever has it
finds the policy and the mode unchanged (`PolicyRely`).
-/

namespace VpsGuard

open Effect ProtectionManager

namespace ControlLog

/-- A tick is completed, and since then no other one has started, and no request
    has changed the mode. -/
def settled : ControlLog → Bool
  | [] => false
  | .tickDone :: _ => true
  | .tickStarted :: _ => false
  | .committed .hold _ :: _ | .committed (.resume _) _ :: _ | .committed .provider _ :: _ => false
  | _ :: log => settled log

theorem settled_of_inTick {log : ControlLog} (h : log.inTick = true) : log.settled = false := by
  induction log with
  | nil => rfl
  | cons event log ih =>
    cases event with
    | tickStarted => rfl
    | tickDone => cases h
    | committed writer state => cases writer <;> first | rfl | exact ih h
    | _ => exact ih h

end ControlLog

namespace App

variable {C : ProtectionCodec} {s t : App}

/-- The policy file is for the mode of the guard. -/
def ModeAgrees (s : App) : Prop := s.protection.fileMode = some s.state.currentMode

instance (s : App) : Decidable s.ModeAgrees := inferInstanceAs (Decidable (_ = _))

/-- Requests write the state between ticks and policies, and a tick that finds
    the policy of another mode finds it due to be renewed. -/
def publishOrder : ControlOp → ControlChoice → App → Prop
  | .writeState .hold _, _, s | .writeState (.resume _) _, _, s | .writeState .provider _, _, s =>
    s.log.inTick = false ∧ s.policyOperation = none
  | .instantNow (.renewal last), .instant now, s => policyRenewalDue last now = true ∨ s.ModeAgrees
  | _, _, _ => True

instance (o : ControlOp) (x : ControlChoice) (s : App) : Decidable (publishOrder o x s) := by
  induction o using ControlOp.casesOn with
  | writeState writer =>
    induction writer using StateWriter.casesOn <;> unfold publishOrder <;> infer_instance
  | instantNow use =>
    induction use using InstantUse.casesOn with
    | renewal =>
      induction x using ControlChoice.casesOn <;> unfold publishOrder <;> infer_instance
    | refreshed => exact .isTrue trivial
  | _ => exact .isTrue trivial

variable (C) in
def publishes (o : ControlOp) (x : ControlChoice) (s : App) : Prop :=
  smooth C o x s ∧ publishOrder o x s

instance (o : ControlOp) (x : ControlChoice) (s : App) : Decidable (publishes C o x s) :=
  inferInstanceAs (Decidable (_ ∧ _))

/-- The policy file has the mode of the state when a tick is completed. -/
structure Publishing (s : App) : Prop where
  working : s.protection.Working
  settled : s.log.settled = true → s.ModeAgrees

/-! ## What the tasks have from each other -/

/-- What the task `i` relies on. While it has the lock, the policy and the mode
    are its own; the loop is the only one to change the mode in a tick. -/
structure PolicyRely (i : ℕ) (s t : App) : Prop where
  locked : s.policyOperation = some i → t.policyOperation = some i ∧
    t.protection = s.protection ∧ t.state.currentMode = s.state.currentMode
  inTick : i = 0 → t.log.inTick = s.log.inTick
  mode : i = 0 → s.log.inTick = true →
    t.state.currentMode = s.state.currentMode ∧ (s.ModeAgrees → t.ModeAgrees)

/-- Nothing changed that the published mode depends on. -/
structure SamePolicy (s t : App) : Prop where
  mode : t.state.currentMode = s.state.currentMode
  inTick : t.log.inTick = s.log.inTick
  settled : t.log.settled = s.log.settled
  protection : t.protection = s.protection
  policyOperation : t.policyOperation = s.policyOperation

theorem SamePolicy.modeAgrees (h : SamePolicy s t) : t.ModeAgrees ↔ s.ModeAgrees := by
  rw [ModeAgrees, ModeAgrees, h.protection, h.mode]

theorem SamePolicy.publishing (h : SamePolicy s t) (hs : s.Publishing) : t.Publishing :=
  ⟨h.protection ▸ hs.working, fun ht => h.modeAgrees.2 (hs.settled (h.settled ▸ ht))⟩

theorem SamePolicy.rely (h : SamePolicy s t) (i : ℕ) : PolicyRely i s t :=
  ⟨fun hi => ⟨h.policyOperation.trans hi, h.protection, h.mode⟩, fun _ => h.inTick,
    fun _ _ => ⟨h.mode, h.modeAgrees.2⟩⟩

def policySharing (i : ℕ) : Sharing App where
  rely := PolicyRely i
  guar s t := ∀ j, j ≠ i → PolicyRely j s t
  rely_refl _ := SamePolicy.rely ⟨rfl, rfl, rfl, rfl, rfl⟩ i
  rely_trans {s t u} h h' := by
    refine ⟨fun hi => ?_, fun hi => (h'.inTick hi).trans (h.inTick hi), fun hi hs => ?_⟩
    · obtain ⟨ht, hp, hm⟩ := h.locked hi
      obtain ⟨hu, hp', hm'⟩ := h'.locked ht
      exact ⟨hu, hp'.trans hp, hm'.trans hm⟩
    · obtain ⟨hm, ha⟩ := h.mode hi hs
      obtain ⟨hm', ha'⟩ := h'.mode hi ((h.inTick hi).trans hs)
      exact ⟨hm'.trans hm, fun hs => ha' (ha hs)⟩

/-- A step of the task `i` while no other task has the lock; the others are to
    leave the ticks, and in a tick the mode, to the loop. -/
theorem guar_of_unlocked {i : ℕ} (hlock : ∀ j, j ≠ i → s.policyOperation ≠ some j)
    (hloop : i ≠ 0 → t.log.inTick = s.log.inTick ∧ (s.log.inTick = true →
      t.state.currentMode = s.state.currentMode ∧ (s.ModeAgrees → t.ModeAgrees))) :
    (policySharing i).guar s t := by
  intro j hji
  exact ⟨fun hj => (hlock j hji hj).elim, fun hj => (hloop (hj ▸ hji.symm)).1,
    fun hj => (hloop (hj ▸ hji.symm)).2⟩

variable (C) in
abbrev policySetting : Setting Control App ControlChoice := setting (publishes C) Publishing

namespace Publishing

/-! ## Rules for the tasks -/

/-- The operations that have nothing to do with the policy, the mode and the ticks. -/
def Aside : ControlOp → Prop
  | .protection _ | .lockPolicyOperation _ | .unlockPolicyOperation _ | .writeState _ _
  | .intervalTick | .tickDone => False
  | _ => True

theorem of_exec_aside {o : ControlOp} {x : ControlChoice} {a : o.Ans}
    (h : exec o x s = some (a, t)) (ho : Aside o) : SamePolicy s t := by
  have ht := of_exec_traced h
  have hlog : t.log.inTick = s.log.inTick ∧ t.log.settled = s.log.settled := by
    rw [ht.log]
    unfold eventOf
    split <;> first | exact ⟨rfl, rfl⟩ | exact ho.elim
  refine ⟨congrArg _ (ht.state.resolve_right ?_), hlog.1, hlog.2, ht.protection ?_,
    ht.policyOperation ?_ ?_⟩
  · rintro ⟨writer, rfl⟩
    exact ho
  all_goals
    rintro _ rfl
    exact ho

section Rules

variable {i : ℕ} {α : Type} {P R : App → Prop} {Q : α → App → Prop}

/-- What the others keep for the task `i`. -/
def Steady (i : ℕ) (P : App → Prop) : Prop := ∀ s t, P s → PolicyRely i s t → P t

theorem steady_true : Steady i fun _ => True := Sharing.keeps_true (w := policySharing i)

/-- The task `i` has the lock. -/
def Holding (i : ℕ) (s : App) : Prop := s.policyOperation = some i

theorem steady_holding : Steady i (Holding i) := fun _ _ hs h => (h.locked hs).1

theorem Steady.and {P' : App → Prop} (h : Steady i P) (h' : Steady i P') :
    Steady i fun s => P s ∧ P' s :=
  Sharing.Keeps.and (w := policySharing i) h h'

variable (C i) in
/-- Safety of what the task `i` runs. -/
abbrev Safe (p : Prog Control α) (Q : α → App → Prop) : App → Prop :=
  p.Safe (policySetting C) (policySharing i) Q

theorem aside : (policySetting C).Aside (policySharing i) Aside :=
  fun _ _ _ _ _ ho hs _ hx =>
    have hsame := of_exec_aside hx ho
    ⟨hsame.rely i, fun j _ => hsame.rely j, hsame.publishing hs⟩

variable {p : Prog Control α}

theorem safe_of_aside {Y : α → Prop} (hP : Steady i P) (hp : p.Meets Aside (fun _ _ => True) Y)
    (hs : P s) : Safe C i p (fun a t => Y a ∧ P t) s :=
  .of_aside aside hP hp hs

theorem safe_aside {o : ControlOp} {k : o.Ans → Prog Control α} (ho : Aside o) (hP : Steady i P)
    (hs : P s) (hk : ∀ a t, P t → Safe C i (k a) Q t) :
    Safe C i (Prog.call o k) Q s :=
  .call_aside aside ho hP hs fun _ a _ u _ _ _ hu => hk a u hu

theorem safe_readMode {reader : StateReader} {k : GuardState → Prog Control α} (hP : Steady i P)
    (hs : P s) (hk : ∀ (state : GuardState) t, P t → t.state.currentMode = state.currentMode →
      Safe C i (k state) Q t) :
    Safe C i (.call (.readState reader) k) Q s := by
  have ho : Aside (.readState reader) := trivial
  refine .call_aside aside ho hP hs fun x a t u _ _ hx hu => ?_
  obtain ⟨rfl, -⟩ := of_exec_readState hx
  exact hk t.state u hu (of_exec_aside hx ho).mode

theorem safe_store {writer : StateWriter} {state : GuardState}
    {k : Except StoreError Unit → Prog Control α} (hP : Steady i P) (hs : P s)
    (hk : ∀ t, P t → Safe C i (k (.ok ())) Q t) :
    Safe C i (.call (.writeStore writer state) k) Q s := by
  have ho : Aside (.writeStore writer state) := trivial
  refine .call_aside aside ho hP hs fun x a t u _ hallow hx hu => ?_
  obtain ⟨fault, rfl, rfl, -⟩ := of_exec_writeStore hx
  obtain rfl : fault = none := hallow.1
  exact hk u hu

theorem safe_withLock (hP : Steady i P) (hs : P s) (hR : Steady i R)
    (hunlock : ∀ s, R s → R { s with policyOperation := none })
    (hp : ∀ t, P t ∧ Holding i t → Safe C i p (fun _ u => R u ∧ Holding i u) t) :
    Safe C i (withPolicyOperation i p) (fun _ => R) s := by
  refine .call fun t hst ht x _ u _ hx => ?_
  obtain ⟨hfree, rfl⟩ := of_exec_lockPolicyOperation hx
  have hlock : PolicyRely i t { t with policyOperation := some i } :=
    ⟨fun h => (nomatch hfree.symm.trans h), fun _ => rfl, fun _ _ => ⟨rfl, id⟩⟩
  refine ⟨guar_of_unlocked (by simp [hfree]) fun _ => ⟨rfl, fun _ => ⟨rfl, id⟩⟩,
    ⟨ht.working, ht.settled⟩, ?_⟩
  refine (hp _ ⟨hP t _ (hP s t hs hst) hlock, rfl⟩).bind fun a u _ hu => ?_
  refine .call fun v huv hv x _ _ _ hx => ?_
  obtain ⟨hRv, hholding⟩ := (hR.and steady_holding) u v hu huv
  rw [of_exec_unlockPolicyOperation hx]
  refine ⟨guar_of_unlocked (fun j hj h => hj ?_) fun _ => ⟨rfl, fun _ => ⟨rfl, id⟩⟩,
    ⟨hv.working, hv.settled⟩, .ret fun w hw _ => hR _ w (hunlock v hRv) hw⟩
  exact Option.some.inj (h.symm.trans hholding)

end Rules

/-! ## The loop -/

section Loop

variable {α : Type} {last : Option ℕ}

def Ticking (s : App) : Prop := s.log.inTick = true

theorem steady_ticking : Steady 0 Ticking := fun _ _ hs h => (h.inTick rfl).trans hs

/-- The loop is in a tick, and has the lock. -/
def Writing (s : App) : Prop := Ticking s ∧ Holding 0 s

theorem steady_writing : Steady 0 Writing := steady_ticking.and steady_holding

def Written (mode : GuardMode) (s : App) : Prop := Writing s ∧ s.protection.fileMode = some mode

variable {mode : GuardMode} {next : GuardState}

theorem steady_written : Steady 0 (Written mode) := fun s t hs h =>
  ⟨steady_writing s t hs.1 h, by rw [(h.locked hs.1.2).2.1]; exact hs.2⟩

/-- The loop is in a tick, and the policy is of the mode of the state. -/
def Agreeing (s : App) : Prop := Ticking s ∧ s.ModeAgrees

theorem steady_agreeing : Steady 0 Agreeing := fun s t hs h =>
  ⟨steady_ticking s t hs.1 h, (h.mode rfl hs.1).2 hs.2⟩

theorem guar_of_writing (hs : Writing s) : (policySharing 0).guar s t :=
  guar_of_unlocked (fun _ hj h => hj (Option.some.inj (h.symm.trans hs.2))) fun h => (h rfl).elim

theorem publishing_of_ticking (hworking : s.protection.Working) (hs : Ticking s) : s.Publishing :=
  ⟨hworking, fun h => nomatch (ControlLog.settled_of_inTick hs).symm.trans h⟩

theorem safe_writePolicyForMode {state : GuardState} (hs : Writing s) :
    Safe C 0 (writePolicyForMode C state) (fun r t =>
      (∃ version, r = some { state with policyVersion := version }) ∧
        Written state.currentMode t) s := by
  have hwrite : (writeForState C state).Safe _ .alone _ s.protection :=
    ProtectionWorld.safe_writeForState
  have hlift := hwrite.lift (F := policySetting C) (v := policySharing 0)
    (f := Control.ofProtection) App.protection Writing
    (fun s t hs hst _ => ⟨((PolicyRely.locked hst) hs.2).2.1.symm, steady_writing s t hs hst⟩)
    (fun s _ h => h.working) ?_ hs
  · refine hlift.bind fun r t _ ht => .ret fun u htu _ => ?_
    obtain ⟨⟨⟨version, rfl⟩, hmode⟩, hwriting⟩ := ht
    exact ⟨⟨version, rfl⟩, steady_written t u ⟨hwriting, hmode⟩ htu⟩
  · -- A step of the manager is one of the loop, with the lock.
    intro o x s a t hs hinv hallow hx
    obtain ⟨y, u, rfl, hu, rfl⟩ := of_exec_protection hx
    refine ⟨y, hallow.1, hu, fun _ hworking => ⟨guar_of_writing hs, ?_, hs⟩⟩
    exact publishing_of_ticking hworking hs.1

variable {read : GuardState}

theorem safe_persist (hs : Written mode s) (hnext : next.currentMode = mode) :
    Safe C 0 (persistState read next) (fun r t => r = true ∧ Agreeing t ∧ Holding 0 t) s := by
  refine safe_store steady_written hs fun t ht => ?_
  refine .call fun u htu hu x _ v _ hx => ?_
  obtain ⟨hwriting, hmode⟩ := steady_written t u ht htu
  have hagreeing : Agreeing ({ u with state := next }.note (.committed (.loop read) next)) :=
    ⟨hwriting.1, hmode.trans (congrArg some hnext.symm)⟩
  rw [of_exec_writeState hx]
  refine ⟨guar_of_writing hwriting, publishing_of_ticking hu.working hwriting.1, ?_⟩
  exact .ret fun w hw _ =>
    ⟨rfl, (steady_agreeing.and steady_holding) _ w ⟨hagreeing, hwriting.2⟩ hw⟩

theorem safe_refreshedAt {refreshed : Bool} (hs : Agreeing s ∧ Holding 0 s) :
    Safe C 0 (refreshedAt refreshed last) (fun _ t => Agreeing t ∧ Holding 0 t) s :=
  (safe_of_aside (steady_agreeing.and steady_holding)
    (meets_refreshedAt (fun _ => trivial) _ _) hs).weaken fun _ _ _ h => h.2

theorem safe_publishState (hs : Writing s) :
    Safe C 0 (publishState C read next last) (fun _ t => Agreeing t ∧ Holding 0 t) s := by
  refine (safe_writePolicyForMode hs).bind fun r t _ ht => ?_
  obtain ⟨⟨version, rfl⟩, hwritten⟩ := ht
  refine (safe_persist hwritten ?_).bind fun r u _ hu => ?_
  · rfl
  exact safe_refreshedAt hu.2

theorem aside_runProviderTransaction (caller : LeaseCaller) :
    (runProviderTransaction caller).Meets Aside (fun _ _ => True) fun _ => True := by
  refine ⟨trivial, fun free _ => ?_⟩
  cases free with
  | false => trivial
  | true =>
    exact ⟨trivial, fun uuid _ => (meets_providerCommand (fun _ => trivial) _).bind fun _ _ =>
      ⟨trivial, fun _ _ => trivial⟩⟩

variable {current : GuardState}

theorem aside_escalate {enforce : Bool} :
    (escalate enforce current next).Meets Aside (fun _ _ => True) fun _ => True := by
  unfold escalate
  split
  · exact (aside_runProviderTransaction _).bind fun _ _ => trivial
  · trivial

theorem safe_resumeActivation (hs : Ticking s) :
    Safe C 0 (resumeActivation C last) (fun _ => Ticking) s := by
  refine safe_aside trivial steady_ticking hs fun provider t ht => ?_
  refine safe_aside trivial steady_ticking ht fun state t ht => ?_
  split
  · refine (safe_withLock steady_ticking ht steady_ticking (fun _ h => h) fun t ht => ?_).bind
      fun last t _ ht => ?_
    · refine safe_aside trivial steady_writing ht fun current t ht => ?_
      refine safe_aside trivial steady_writing ht fun occurredAt t ht => ?_
      refine safe_aside trivial steady_writing ht fun uuid t ht => ?_
      split
      · exact .ret fun u htu _ => steady_writing t u ht htu
      · exact (safe_publishState ht).weaken fun _ _ _ h => ⟨h.1.1, h.2⟩
    · refine (safe_of_aside steady_ticking (aside_runProviderTransaction _) ht).bind
        fun _ t _ ht => ?_
      exact .ret fun u htu _ => steady_ticking t u ht.2 htu
  · exact .ret fun u htu _ => steady_ticking t u ht htu

/-- A window is committed. Where no policy is written for it, there is one of
    its mode. -/
theorem safe_commitDetection {refreshPolicy : Bool} (hs : Writing s)
    (hmode : refreshPolicy = false → s.protection.fileMode = some next.currentMode) :
    Safe C 0 (commitDetection C current next refreshPolicy last)
      (fun _ t => Agreeing t ∧ Holding 0 t) s := by
  refine .bind (R := fun r t => ∃ state : GuardState, r = some state ∧
    Written state.currentMode t) ?_ fun r t _ ht => ?_
  · cases refreshPolicy with
    | true =>
      refine (safe_writePolicyForMode hs).weaken fun r t _ ht => ?_
      obtain ⟨⟨version, rfl⟩, hwritten⟩ := ht
      exact ⟨_, rfl, hwritten⟩
    | false => exact .ret fun t hst _ => ⟨next, rfl, steady_written s t ⟨hs, hmode rfl⟩ hst⟩
  · obtain ⟨state, rfl, hwritten⟩ := ht
    refine safe_aside trivial steady_written hwritten fun uuid t ht => ?_
    refine (safe_persist ht updateIncident_currentMode).bind fun r u _ hu => ?_
    exact safe_refreshedAt hu.2

/-- In a tick, the policy is due to be written again, or of the mode of the state. -/
def Due (due : Bool) (s : App) : Prop := Ticking s ∧ (due = true ∨ s.ModeAgrees)

theorem steady_due {due : Bool} : Steady 0 (Due due) := fun s t hs h =>
  ⟨steady_ticking s t hs.1 h, hs.2.imp_right (h.mode rfl hs.1).2⟩

def ReadMode (mode : GuardMode) (s : App) : Prop := Ticking s ∧ s.state.currentMode = mode

theorem steady_readMode : Steady 0 (ReadMode mode) := fun s t hs h =>
  ⟨steady_ticking s t hs.1 h, (h.mode rfl hs.1).1.trans hs.2⟩

theorem safe_detect (hs : Ticking s) : Safe C 0 (detect C true last) (fun _ => Agreeing) s := by
  refine .bind (R := fun due t => Due due t) ?_ fun due t _ ht => ?_
  · refine .call fun t hst ht x now u hallow hx => ?_
    have hticking := steady_ticking s t hs hst
    cases x with
    | instant now' =>
      cases hx
      exact ⟨fun j _ => SamePolicy.rely ⟨rfl, rfl, rfl, rfl, rfl⟩ j, ht,
        .ret fun u htu _ => steady_due t u ⟨hticking, hallow.2⟩ htu⟩
    | _ => cases hx
  refine safe_aside trivial steady_due ht fun input t ht => ?_
  refine safe_aside trivial steady_due ht fun occurredAt t ht => ?_
  refine safe_readMode steady_due ht fun current t ht hmode => ?_
  rcases input with _ | input
  · dsimp only
    split
    · refine safe_withLock steady_ticking ht.1 steady_agreeing (fun _ h => h) fun t ht => ?_
      exact safe_aside trivial steady_writing ht fun current t ht => safe_publishState ht
    · next hdue => exact .ret fun u htu _ => steady_agreeing t u ⟨ht.1, ht.2.resolve_left hdue⟩ htu
  · refine safe_aside trivial (steady_due.and steady_readMode) ⟨ht, ht.1, hmode⟩
      fun provider t ht => ?_
    refine (safe_of_aside (steady_due.and steady_readMode) aside_escalate ht).bind
      fun next t _ ht => ?_
    obtain ⟨-, hdue, hread⟩ := ht
    dsimp only
    split
    · refine safe_withLock (steady_due.and steady_readMode) ⟨hdue, hread⟩ steady_agreeing
        (fun _ h => h) fun t ht => ?_
      obtain ⟨⟨hdue, hread⟩, hholding⟩ := ht
      refine safe_commitDetection ⟨hdue.1, hholding⟩ fun hrefresh => ?_
      -- No policy is asked for: the window did not change the mode, and none was due.
      simp only [detectionCommit, Bool.true_and, Bool.or_eq_false_iff, decide_eq_false_iff_not,
        not_not] at hrefresh
      rw [← hrefresh.1, ← hread.2]
      exact hdue.2.resolve_left (by simp [hrefresh.2])
    · next hpersist =>
      simp only [detectionCommit, Bool.or_eq_true, not_or] at hpersist
      exact .ret fun u htu _ => steady_agreeing t u ⟨hdue.1, hdue.2.resolve_left hpersist.2⟩ htu

theorem guar_note {event : ControlEvent} : (policySharing 0).guar s (s.note event) := fun _ hj =>
  ⟨fun h => ⟨h, rfl, rfl⟩, fun h => (hj h).elim, fun h => (hj h).elim⟩

theorem safe_tick (last : Option ℕ) (s : App) (_ : True) :
    Safe C 0 (tick C true last) (fun _ _ => True) s := by
  refine .call fun t _ ht x _ u _ hx => ?_
  rw [of_exec_intervalTick hx]
  have hticking : Ticking (t.note .tickStarted) := rfl
  refine ⟨guar_note, publishing_of_ticking ht.working hticking, ?_⟩
  refine (safe_resumeActivation hticking).bind fun last t _ ht => ?_
  refine (safe_detect ht).bind fun last t _ ht => ?_
  refine .call fun u htu hu x _ v _ hx => ?_
  rw [of_exec_tickDone hx]
  exact ⟨guar_note, ⟨hu.working, fun _ => (steady_agreeing t u ht htu).2⟩,
    .ret_trivial⟩

end Loop

/-! ## The requests -/

section Requests

variable {i : ℕ} {task : ℕ} {mode : GuardMode}

theorem guar_rfl (s : App) : (policySharing i).guar s s := fun j _ =>
  SamePolicy.rely ⟨rfl, rfl, rfl, rfl, rfl⟩ j

variable {writer : StateWriter} {next : GuardState}

theorem safe_changeMode {α : Type} {k : Unit → Prog Control α} {Q : α → App → Prop}
    (hwriter : writer = .hold ∨ (∃ holds, writer = .resume holds) ∨ writer = .provider)
    (hk : ∀ t, Safe C i (k ()) Q t) : Safe C i (.call (.writeState writer next) k) Q s := by
  refine .call fun t _ ht x _ u hallow hx => ?_
  rw [of_exec_writeState hx]
  have hquiet : t.log.inTick = false ∧ t.policyOperation = none := by
    rcases hwriter with rfl | ⟨holds, rfl⟩ | rfl <;> exact hallow.2
  have hsettled : ControlLog.settled (.committed writer next :: t.log) = false := by
    rcases hwriter with rfl | ⟨holds, rfl⟩ | rfl <;> rfl
  refine ⟨guar_of_unlocked (by simp [hquiet.2]) fun _ => ⟨rfl, fun h => ?_⟩,
    ⟨ht.working, fun h => ?_⟩, hk _⟩
  · cases hquiet.1.symm.trans h
  · cases hsettled.symm.trans h

variable {action : CompletedAction}

theorem safe_remember {result : ControlResult} :
    Safe C i (.call (.rememberAction action) fun _ => .ret result) (fun _ _ => True) s :=
  safe_aside trivial steady_true trivial fun _ _ _ => .ret_trivial

variable {operationId : Option String}

theorem safe_applyAction {hold : Bool}
    (hwriter : writer = .hold ∨ (∃ holds, writer = .resume holds) ∨ writer = .provider) :
    Safe C i (applyAction hold operationId writer) (fun _ _ => True) s := by
  refine safe_onceOnly guar_rfl fun operationId t _ _ => ?_
  refine safe_aside trivial steady_true trivial fun now t _ => ?_
  refine safe_aside trivial steady_true trivial fun state t _ => ?_
  refine safe_store steady_true trivial fun t _ => ?_
  exact safe_changeMode hwriter fun t => safe_remember

theorem safe_applyProviderAction {restore : Bool} :
    Safe C i (applyProviderAction task restore operationId)
      (fun _ _ => True) s := by
  refine safe_onceOnly guar_rfl fun operationId t _ _ => ?_
  refine safe_aside trivial steady_true trivial fun state t _ => ?_
  split
  · exact .ret_trivial
  refine safe_aside trivial steady_true trivial fun free t _ => ?_
  cases free with
  | false => exact .ret_trivial
  | true =>
    refine .bind (R := fun _ _ => True) ?_ fun _ t _ _ =>
      safe_aside trivial steady_true trivial fun _ _ _ => .ret_trivial
    refine (safe_of_aside steady_true (meets_providerCommand (fun _ => trivial) _) trivial).bind
      fun r t _ _ => ?_
    rcases r with e | _
    · exact .ret_trivial
    refine safe_aside trivial steady_true trivial fun now t _ => ?_
    refine safe_aside trivial steady_true trivial fun state t _ => ?_
    refine safe_store steady_true trivial fun t _ => ?_
    exact safe_changeMode (.inr (.inr rfl)) fun t => safe_remember

/-- A request has the lock, and the state is of the mode. -/
def Serving (i : ℕ) (mode : GuardMode) (s : App) : Prop :=
  Holding i s ∧ s.state.currentMode = mode

theorem steady_serving : Steady i (Serving i mode) := fun s t hs h =>
  ⟨steady_holding s t hs.1 h, (h.locked hs.1).2.2.trans hs.2⟩

theorem guar_of_serving (hs : Serving i mode s) (hmode : t.state.currentMode = mode)
    (hlog : t.log.inTick = s.log.inTick)
    (hfile : t.protection.fileMode = s.protection.fileMode ∨ t.protection.fileMode = some mode) :
    (policySharing i).guar s t ∧ (s.ModeAgrees → t.ModeAgrees) := by
  have hagrees : s.ModeAgrees → t.ModeAgrees := fun h => by
    unfold ModeAgrees at h ⊢
    rw [hmode]
    rcases hfile with hfile | hfile
    · rw [hfile, h, hs.2]
    · exact hfile
  exact ⟨guar_of_unlocked (fun j hj h => hj (Option.some.inj (h.symm.trans hs.1)))
    fun _ => ⟨hlog, fun _ => ⟨hmode.trans hs.2.symm, hagrees⟩⟩, hagrees⟩

/-- What the manager performs for the mode, and what it is answered. -/
def ManagerOp (mode : GuardMode) : ControlOp → Prop
  | .protection o => ProtectionManager.WritesMode mode o
  | _ => False

@[inherit_doc ManagerOp]
def ManagerAns : (o : ControlOp) → o.Ans → Prop
  | .protection o, a => ProtectionManager.LocksWorking o a
  | _, _ => True

theorem safe_served {α : Type} {version : α → ℕ}
    {p : Prog Protection (PolicyResult α)}
    (hp : ProtectionManager.Served C version mode p) (hs : Serving i mode s) :
    Safe C i (p.lift Control.ofProtection)
      (fun _ => Serving i mode) s := by
  have hmeets : (p.lift Control.ofProtection).Meets (ManagerOp mode) ManagerAns fun _ => True :=
    hp.meets.lift Control.ofProtection (fun _ ho => ho) fun _ _ ha => ha
  refine (Prog.Safe.of_meets hmeets (fun s t h hst _ => steady_serving s t h hst) ?_ hs).weaken
    fun _ _ _ h => h.2
  intro o x s a t ho hs hinv _ hx
  cases o with
  | protection o =>
    obtain ⟨y, u, rfl, hu, rfl⟩ := of_exec_protection hx
    obtain ⟨hworking, hfile, hlock⟩ := hinv.working.exec ho hu
    obtain ⟨hguar, hagrees⟩ := guar_of_serving (t := { s with protection := u }) hs hs.2 rfl hfile
    exact ⟨hguar, ⟨hworking, fun h => hagrees (hinv.settled h)⟩, hs, hlock⟩
  | _ => exact ho.elim

theorem safe_commitPolicyVersion (hs : Serving i mode s) (hnext : next.currentMode = mode) :
    Safe C i (commitPolicyVersion next) (fun _ => Serving i mode) s := by
  refine safe_aside trivial steady_serving hs fun r t ht => ?_
  refine .call fun u htu hu x _ v _ hx => ?_
  have hserving := steady_serving t u ht htu
  obtain ⟨hguar, hagrees⟩ := guar_of_serving
    (t := { u with state := next }.note (.committed .protection next)) hserving hnext rfl (.inl rfl)
  have hserving' : Serving i mode ({ u with state := next }.note (.committed .protection next)) :=
    ⟨hserving.1, hnext⟩
  rw [of_exec_writeState hx]
  exact ⟨hguar, ⟨hu.working, fun h => hagrees (hu.settled h)⟩,
    .ret fun w hw _ => steady_serving _ w hserving' hw⟩

theorem aside_rememberOnce : (rememberOnce action).Meets Aside (fun _ _ => True) fun _ => True := by
  refine ⟨trivial, fun completed _ => ?_⟩
  rcases completed with _ | completed
  · exact ⟨trivial, fun _ _ => trivial⟩
  · trivial

theorem safe_applyProtection {currentFingerprint planHash : String}
    {settings : ProtectionSettings} :
    Safe C i (applyProtection C i operationId currentFingerprint planHash settings)
      (fun _ _ => True) s := by
  refine safe_identified guar_rfl fun operationId t _ _ => ?_
  refine safe_aside trivial steady_true trivial fun completed t _ => ?_
  split
  · exact .ret_trivial
  refine safe_withLock steady_true trivial steady_true (fun _ h => h) fun t ht => ?_
  refine safe_readMode steady_holding ht.2 fun state t ht hmode => ?_
  refine (safe_served served_apply ⟨ht, hmode⟩).bind fun r t _ ht => ?_
  rcases r with e | outcome
  · exact .ret fun u htu _ => ⟨trivial, (steady_serving t u ht htu).1⟩
  refine safe_readMode steady_serving ht fun state' t ht hmode' => ?_
  have hdone : ∀ (t : App) {result : ControlResult} {action : CompletedAction},
      Serving i state.currentMode t →
      Safe C i (rememberOnce action >>= fun _ => Prog.ret result)
        (fun _ u => True ∧ Holding i u) t :=
    fun t _ _ ht => (safe_of_aside steady_serving aside_rememberOnce ht).bind fun _ t _ ht =>
      .ret fun u htu _ => ⟨trivial, (steady_serving t u ht.2 htu).1⟩
  dsimp only
  split
  · refine (safe_commitPolicyVersion ht ?_).bind fun _ t _ ht => hdone t ht
    exact hmode'.symm.trans ht.2
  · exact hdone t ht

theorem safe_mutateClientRule {action : String} {clientIp : IpAddr} {ttlSeconds : Option ℕ} :
    Safe C i (mutateClientRule C i operationId action clientIp ttlSeconds) (fun _ _ => True) s := by
  refine safe_identified guar_rfl fun operationId t _ _ => ?_
  refine safe_withLock steady_true trivial steady_true (fun _ h => h) fun t ht => ?_
  refine safe_aside trivial steady_holding ht.2 fun completed t ht => ?_
  rcases completed with _ | completed
  · refine safe_readMode steady_holding ht fun state t ht hmode => ?_
    have hserved : ProtectionManager.Served C ProtectionSnapshot.policyVersion state.currentMode
        (clientRule C clientIp ttlSeconds state.currentMode) := by
      rcases ttlSeconds with _ | ttlSeconds
      · exact served_unblockClient
      · exact served_blockClient
    refine (safe_served hserved ⟨ht, hmode⟩).bind fun r t _ ht => ?_
    rcases r with e | snapshot
    · exact .ret fun u htu _ => ⟨trivial, (steady_serving t u ht htu).1⟩
    refine safe_readMode steady_serving ht fun state' t ht hmode' => ?_
    refine (safe_commitPolicyVersion ht ?_).bind fun _ t _ ht => ?_
    · exact hmode'.symm.trans ht.2
    · exact safe_aside trivial steady_serving ht fun _ t ht =>
        .ret fun u htu _ => ⟨trivial, (steady_serving t u ht htu).1⟩
  · dsimp only
    split
    · exact .ret fun u htu _ => ⟨trivial, steady_holding t u ht htu⟩
    · exact safe_aside trivial steady_holding ht fun _ t ht =>
        .ret fun u htu _ => ⟨trivial, steady_holding t u ht htu⟩

theorem safe_request (request : ControlRequest) :
    Safe C i (request.run C i) (fun _ _ => True) s := by
  cases request with
  | hold operationId => exact safe_applyAction (.inl rfl)
  | resume operationId =>
    exact safe_aside trivial steady_true trivial fun holds _ _ =>
      safe_applyAction (.inr (.inl ⟨holds, rfl⟩))
  | emergencyProxy operationId => exact safe_applyProviderAction
  | providerRestore operationId => exact safe_applyProviderAction
  | protection operationId currentFingerprint planHash settings => exact safe_applyProtection
  | client operationId action clientIp ttlSeconds => exact safe_mutateClientRule

end Requests

end Publishing

/-- **Publication.** Where nothing fails and the requests are as `publishOrder`
    says, the policy file has the mode of the guard state after every tick, until
    a request or the next tick changes it. -/
theorem published_mode (C : ProtectionCodec) (s : App) (hs : s.protection.Working)
    (hlog : s.log = []) (n : ℕ) (requests : List ControlRequest) (q : Pool Control App Unit)
    (hq : Pool.Reaches machine (publishes C) (controlPool C true s n requests) q)
    (hsettled : q.state.log.settled = true) :
    ∃ policy, q.state.protection.policy = some policy ∧
      policy.mode = q.state.state.currentMode := by
  have hstart : s.Publishing := ⟨hs, fun h => by rw [hlog] at h; cases h⟩
  have hsafe := Pool.Reaches.safe (E := policySetting C) (Q := fun _ _ _ => True)
    (w := policySharing) (fun i j s t hij _ _ hguar => hguar j hij.symm) hq ⟨hstart, ?_⟩
  · exact Option.map_eq_some_iff.1 (hsafe.inv.settled hsettled)
  · intro i p hp
    cases i with
    | zero =>
      cases hp
      exact safe_ticks C Publishing.safe_tick n none trivial
    | succ i =>
      obtain ⟨request, -, rfl⟩ := exists_request_of_task hp
      exact (Publishing.safe_request request).bind fun _ _ _ _ => .ret_trivial

/-- A tick was completed, and the policy has the mode of the state, which is a hold, or has not. -/
def completedTick (agrees : Bool) (q : Pool Control App Unit) : Bool :=
  q.state.log.settled && decide q.state.ModeAgrees = agrees &&
    q.state.state.currentMode = .manualHold

open ControlChoice in
/-- After a hold between two ticks, the second of which finds the policy due to be renewed, the
    policy is of the held mode. -/
theorem published_mode_held : ∃ q : Pool Control App Unit, Pool.Reaches machine (publishes .plain)
      (controlPool .plain true (started (.normal "t0") .complete) 2 [.hold (some "a")]) q ∧
    q.state.log.settled = true ∧ q.state.state.currentMode = .manualHold ∧
    ∃ policy, q.state.protection.policy = some policy ∧
      policy.mode = q.state.state.currentMode := by
  obtain ⟨q, hq, hdone⟩ := Pool.exists_reaches_of_run machine (publishes .plain)
    (controlPool .plain true (started (.normal "t0") .complete) 2 [.hold (some "a")])
    (beginsRenewal 0 ++ endsRenewal 0 ++ endsTick 0 ++ holds 1 ++ beginsRenewal 300 ++
      endsRenewal 300 ++ endsTick 300) (P := completedTick true) (by decide)
  obtain ⟨hagrees, hheld⟩ := Bool.and_eq_true_iff.1 hdone
  have hsettled : q.state.log.settled = true := (Bool.and_eq_true_iff.1 hagrees).1
  have hworking : (started (.normal "t0") .complete).protection.Working :=
    ⟨_, rfl, ProtectionSettings.valid_default, by decide⟩
  exact ⟨q, hq, hsettled, of_decide_eq_true hheld,
    published_mode .plain _ hworking rfl 2 _ q hq hsettled⟩

open ControlChoice in
/-- After a hold, a tick with nothing due is completed, and the policy is still
    of the mode from before. -/
theorem published_mode_stale : (started (.normal "t0") .complete).protection.Working ∧
    ∃ q : Pool Control App Unit,
      Pool.Reaches machine (smooth .plain)
        (controlPool .plain true (started (.normal "t0") .complete) 2 [.hold (some "a")]) q ∧
      q.state.log.settled = true ∧ ¬q.state.ModeAgrees := by
  refine ⟨⟨_, rfl, ProtectionSettings.valid_default, by decide⟩, ?_⟩
  obtain ⟨q, hq, hdone⟩ := Pool.exists_reaches_of_run machine (smooth .plain)
    (controlPool .plain true (started (.normal "t0") .complete) 2 [.hold (some "a")])
    (beginsRenewal 0 ++ endsRenewal 0 ++ endsTick 0 ++ holds 1 ++ idleTick)
    (P := completedTick false) (by decide)
  obtain ⟨hsettled, hmode⟩ := Bool.and_eq_true_iff.1 (Bool.and_eq_true_iff.1 hdone).1
  exact ⟨q, hq, hsettled, by simpa using hmode⟩

end App

end VpsGuard
