import VpsGuard.Control.DetectionLoop

/-!
# Stored states can be loaded again

A start refuses a stored guard state that is held without the mode saying so,
or the other way round. All tasks of the process write the store, each from a
state that it read earlier. That they only ever write valid states depends on
one read: the one after a command to the provider. The command is refused if
the state is held, but a hold may arrive while it runs, and the update that
follows it sets the mode and leaves the hold.

`App.stored_valid` is what remains true: in the runs where no command to the
provider finds the state held when it reads it again, every state handed to
the store is valid. A task is looked at alone, assuming that the states it
reads are valid (`ReadsValid`): it then writes valid states (`WritesValid`).
-/

namespace VpsGuard

open Effect

/-- What the operation writes is a valid state. -/
def WritesValid : ControlOp → Prop
  | .writeStore _ state | .writeState _ state => state.Valid
  | _ => True

/-- A state that is read is valid, and not held after a command to the provider. -/
def ReadsValid : (o : ControlOp) → o.Ans → Prop
  | .readState .providerCommit, state => state.Valid ∧ state.manualHold = false
  | .readState _, state => state.Valid
  | _, _ => True

/-! ## The requests -/

section Requests

variable {C : ProtectionCodec}

/-- The program writes valid states, if it reads valid ones. -/
abbrev KeepsValid {α : Type} (p : Prog Control α) : Prop :=
  p.Meets WritesValid ReadsValid fun _ => True

variable {operationId : Option String} {body : String → Acting}

theorem keepsValid_identified (h : ∀ operationId, KeepsValid (body operationId)) :
    KeepsValid (identified operationId body) := by
  refine ⟨trivial, fun code _ => ?_⟩
  rcases code with _ | code
  · rcases operationId with _ | operationId
    · trivial
    · exact h operationId
  · trivial

theorem keepsValid_onceOnly {action : String} (h : ∀ operationId, KeepsValid (body operationId)) :
    KeepsValid (onceOnly action operationId body) := by
  refine keepsValid_identified fun operationId => ⟨trivial, fun completed _ => ?_⟩
  rcases completed with _ | completed
  · exact h operationId
  · trivial

theorem keepsValid_write {writer : StateWriter} {state : GuardState}
    {k : Except StoreError Unit → Acting} (hstate : state.Valid)
    (herror : ∀ e, KeepsValid (k (.error e))) (hok : KeepsValid (k (.ok ()))) :
    KeepsValid (.call (.writeStore writer state) k) := by
  refine ⟨hstate, fun r _ => ?_⟩
  rcases r with e | _
  · exact herror e
  · exact hok

theorem keepsValid_applyAction (hold : Bool) (operationId : Option String) (writer : StateWriter) :
    KeepsValid (applyAction hold operationId writer) := by
  refine keepsValid_onceOnly fun operationId => ⟨trivial, fun now _ => ⟨trivial, fun s hs => ?_⟩⟩
  have hnext : (if hold then s.hold now else s.resume now).Valid := by
    split
    · exact GuardState.Valid.hold hs
    · exact GuardState.Valid.resume hs
  refine keepsValid_write hnext (fun _ => trivial) ?_
  exact ⟨hnext, fun _ _ => ⟨trivial, fun _ _ => trivial⟩⟩

theorem keepsValid_commitProviderAction (restore : Bool) (operationId : String) :
    KeepsValid (commitProviderAction restore operationId) := by
  refine ⟨trivial, fun now _ => ⟨trivial, fun s hs => ?_⟩⟩
  have hnext : (afterProviderAction restore operationId now s).Valid :=
    valid_afterProviderAction_iff.2 ⟨(GuardState.valid_iff.1 hs.1).1, hs.2⟩
  refine keepsValid_write hnext (fun _ => trivial) ?_
  exact ⟨hnext, fun _ _ => ⟨trivial, fun _ _ => trivial⟩⟩

theorem keepsValid_applyProviderAction (task : ℕ) (restore : Bool) (operationId : Option String) :
    KeepsValid (applyProviderAction task restore operationId) := by
  refine keepsValid_onceOnly fun operationId => ⟨trivial, fun state _ => ?_⟩
  dsimp only
  split
  · trivial
  refine ⟨trivial, fun free _ => ?_⟩
  cases free with
  | false => trivial
  | true =>
    have hrun : KeepsValid (runProviderAction restore operationId) := by
      refine (meets_providerCommand (fun _ => trivial) _).bind fun r _ => ?_
      rcases r with e | _
      · trivial
      · exact keepsValid_commitProviderAction restore operationId
    exact hrun.bind fun _ _ => ⟨trivial, fun _ _ => trivial⟩

theorem keepsValid_commitPolicyVersion {state : GuardState} (hstate : state.Valid) :
    KeepsValid (commitPolicyVersion state) :=
  ⟨hstate, fun _ _ => ⟨hstate, fun _ _ => trivial⟩⟩

theorem keepsValid_withPolicyOperation {α : Type} {task : ℕ} {p : Prog Control α}
    {Y : α → Prop} (h : p.Meets WritesValid ReadsValid Y) :
    KeepsValid (withPolicyOperation task p) :=
  ⟨trivial, fun _ _ => h.bind fun _ _ => ⟨trivial, fun _ _ => trivial⟩⟩

theorem keepsValid_ofProtection {α : Type} (p : Prog Protection α) :
    KeepsValid (p.lift Control.ofProtection) :=
  (Prog.performs_lift Control.ofProtection (fun _ => trivial) p).meets (Prog.yields_true _)

theorem keepsValid_applyProtection (task : ℕ) (operationId : Option String)
    (currentFingerprint planHash : String) (settings : ProtectionSettings) :
    KeepsValid (applyProtection C task operationId currentFingerprint planHash settings) := by
  refine keepsValid_identified fun operationId => ⟨trivial, fun completed _ => ?_⟩
  dsimp only
  split
  · trivial
  refine keepsValid_withPolicyOperation (Y := fun _ => True) ⟨trivial, fun _ _ => ?_⟩
  refine (keepsValid_ofProtection _).bind fun r _ => ?_
  rcases r with e | outcome
  · trivial
  refine ⟨trivial, fun s hs => ?_⟩
  have hremember : ∀ action, KeepsValid (rememberOnce action) := fun action =>
    ⟨trivial, fun completed _ => by rcases completed with _ | _ <;> simp [Prog.Meets, WritesValid]⟩
  dsimp only
  split
  · exact (keepsValid_commitPolicyVersion (valid_policyVersion hs _)).bind fun _ _ =>
      (hremember _).bind fun _ _ => trivial
  · exact (hremember _).bind fun _ _ => trivial

theorem keepsValid_mutateClientRule (task : ℕ) (operationId : Option String) (action : String)
    (clientIp : IpAddr) (ttlSeconds : Option ℕ) :
    KeepsValid (mutateClientRule C task operationId action clientIp ttlSeconds) := by
  refine keepsValid_identified fun operationId => keepsValid_withPolicyOperation
    (Y := fun _ => True) ⟨trivial, fun completed _ => ?_⟩
  rcases completed with _ | completed
  · refine ⟨trivial, fun _ _ => (keepsValid_ofProtection _).bind fun r _ => ?_⟩
    rcases r with e | snapshot
    · trivial
    refine ⟨trivial, fun s hs => ?_⟩
    exact (keepsValid_commitPolicyVersion (valid_policyVersion hs _)).bind fun _ _ =>
      ⟨trivial, fun _ _ => trivial⟩
  · dsimp only
    split
    · trivial
    · exact ⟨trivial, fun _ _ => trivial⟩

theorem keepsValid_request (task : ℕ) (request : ControlRequest) :
    KeepsValid (request.run C task) := by
  cases request with
  | hold operationId => exact keepsValid_applyAction true operationId _
  | resume operationId => exact ⟨trivial, fun _ _ => keepsValid_applyAction false operationId _⟩
  | emergencyProxy operationId => exact keepsValid_applyProviderAction task false operationId
  | providerRestore operationId => exact keepsValid_applyProviderAction task true operationId
  | protection operationId currentFingerprint planHash settings =>
    exact keepsValid_applyProtection task operationId currentFingerprint planHash settings
  | client operationId action clientIp ttlSeconds =>
    exact keepsValid_mutateClientRule task operationId action clientIp ttlSeconds

end Requests

/-! ## The detection loop -/

section Loop

variable {C : ProtectionCodec} {enforce : Bool} {last : Option ℕ}

theorem keepsValid_runProviderTransaction (caller : LeaseCaller) :
    KeepsValid (runProviderTransaction caller) := by
  refine ⟨trivial, fun free _ => ?_⟩
  cases free with
  | false => trivial
  | true =>
    exact ⟨trivial, fun uuid _ => (meets_providerCommand (fun _ => trivial) _).bind fun _ _ =>
      ⟨trivial, fun _ _ => trivial⟩⟩

theorem meets_escalate {current next : GuardState} (h : next.Valid) :
    (escalate enforce current next).Meets WritesValid ReadsValid GuardState.Valid := by
  unfold escalate
  split
  · next hmode =>
    have hheld : next.manualHold = false := by
      rw [Bool.eq_false_iff, ne_eq, (GuardState.valid_iff.1 h).2, hmode.2.2]
      exact nofun
    refine (keepsValid_runProviderTransaction _).bind fun r _ => ?_
    cases activated r with
    | true => exact h
    | false => exact valid_keepLocalGuard (GuardState.valid_iff.1 h).1 hheld
  · exact h

theorem commits_valid : Commits WritesValid GuardState.Valid where
  protection _ := trivial
  newUuid := trivial
  instantNow _ := trivial
  lock _ := ⟨trivial, trivial⟩
  writing _ _ h := ⟨h, h⟩
  policyVersion _ version h := valid_policyVersion h version
  incident _ _ h := valid_updateIncident_iff.2 h

theorem keepsValid_resumeActivation : KeepsValid (resumeActivation C last) := by
  refine ⟨trivial, fun provider _ => ⟨trivial, fun state _ => ?_⟩⟩
  dsimp only
  split
  · refine Prog.Meets.bind (commits_valid.withPolicyOperation (Y := fun _ => True) ?_) fun _ _ =>
      (keepsValid_runProviderTransaction _).bind fun _ _ => trivial
    refine ⟨trivial, fun current hcurrent => ⟨trivial, fun occurredAt _ =>
      ⟨trivial, fun uuid _ => ?_⟩⟩⟩
    dsimp only
    split
    · trivial
    · next hr => exact commits_valid.publishState (GuardState.Valid.reconcile hcurrent hr)
  · trivial

theorem keepsValid_detect : KeepsValid (detect C enforce last) := by
  refine Prog.Meets.bind (Z := fun _ => True) ?_ fun due _ => ?_
  · unfold refreshDue
    split
    · exact ⟨trivial, fun _ _ => trivial⟩
    · trivial
  refine ⟨trivial, fun input _ => ⟨trivial, fun occurredAt _ => ⟨trivial, fun current hcurrent => ?_⟩⟩⟩
  rcases input with _ | input
  · dsimp only
    split
    · exact commits_valid.withPolicyOperation
        ⟨trivial, fun state hstate => commits_valid.publishState hstate⟩
    · trivial
  · refine ⟨trivial, fun provider _ => ?_⟩
    refine (meets_escalate (valid_windowState hcurrent)).bind fun next hnext => ?_
    dsimp only
    split
    · exact commits_valid.withPolicyOperation (commits_valid.commitDetection hnext _)
    · trivial

theorem keepsValid_detectionLoop (n : ℕ) (last : Option ℕ) :
    KeepsValid (detectionLoop C enforce n last) := by
  induction n generalizing last with
  | zero => trivial
  | succ n ih =>
    refine Prog.Meets.bind (Z := fun _ => True) ?_ fun last _ => ih last
    exact ⟨trivial, fun _ _ => keepsValid_resumeActivation.bind fun _ _ =>
      keepsValid_detect.bind fun _ _ => ⟨trivial, fun _ _ => trivial⟩⟩

end Loop

namespace App

/-! ## All tasks -/

/-- The guard state is valid, and so is every state handed to the store. -/
structure Restartable (s : App) : Prop where
  state : s.state.Valid
  stored : ∀ {writer state}, ControlEvent.stored writer state ∈ s.log → state.Valid

/-- When a command to the provider reads the state again, it is not held. -/
def unheldCommit : ControlOp → ControlChoice → App → Prop
  | .readState .providerCommit, _, s => s.state.manualHold = false
  | _, _, _ => True

instance (o : ControlOp) (x : ControlChoice) (s : App) : Decidable (unheldCommit o x s) := by
  unfold unheldCommit
  split <;> infer_instance

/-- Every step of a task that writes valid states keeps all of them valid, and
    reads are answered accordingly. -/
theorem Restartable.exec {s t : App} {o : ControlOp} {x : ControlChoice} {a : o.Ans}
    (h : s.Restartable) (hwrite : WritesValid o) (hallow : unheldCommit o x s)
    (hx : App.exec o x s = some (a, t)) : t.Restartable ∧ ReadsValid o a := by
  have ht := of_exec_traced hx
  refine ⟨⟨?_, fun {writer state} hmem => ?_⟩, ?_⟩
  · rcases ht.state with hstate | ⟨writer, rfl⟩
    · exact hstate ▸ h.state
    · exact hwrite
  · rw [ht.log, List.mem_append, Option.mem_toList] at hmem
    refine hmem.elim (fun hevent => ?_) h.stored
    unfold eventOf at hevent
    split at hevent <;> cases hevent
    exact hwrite
  · cases o with
    | readState reader =>
      obtain ⟨rfl, rfl⟩ := of_exec_readState hx
      cases reader with
      | providerCommit => exact ⟨h.state, hallow⟩
      | _ => exact h.state
    | _ => trivial

theorem keepsValid_task {C : ProtectionCodec} {enforce : Bool} {s : App} {n : ℕ}
    {requests : List ControlRequest} {p : Prog Control Unit}
    (hp : p ∈ (controlPool C enforce s n requests).tasks) : KeepsValid p := by
  rcases List.mem_cons.1 hp with rfl | hp
  · exact keepsValid_detectionLoop n none
  · obtain ⟨i, hi, rfl⟩ := List.mem_mapIdx.1 hp
    exact (keepsValid_request (i + 1) _).bind fun _ _ => trivial

/-- **Restartability.** Where no command to the provider finds the state held
    when it reads it again, every state that a task hands to the store is one
    that a start accepts. -/
theorem stored_valid (C : ProtectionCodec) (enforce : Bool) (s : App) (hs : s.state.Valid)
    (hlog : s.log = []) (n : ℕ) (requests : List ControlRequest) (q : Pool Control App Unit)
    (hq : Pool.Reaches machine unheldCommit (controlPool C enforce s n requests) q)
    (writer : StateWriter) (state : GuardState)
    (hstored : .stored writer state ∈ q.state.log) : state.Valid := by
  have hstart : s.Restartable := ⟨hs, fun hmem => by rw [hlog] at hmem; cases hmem⟩
  have hinv : q.state.Restartable := by
    refine Pool.Reaches.inv (E := setting unheldCommit Restartable) hq hstart fun p hp => ?_
    refine (Prog.Safe.of_meets (P := fun _ => True) (keepsValid_task hp) (fun _ _ _ _ _ => trivial)
      (fun o x s a t hwrite _ h hallow hx => ?_) trivial).weaken fun _ _ _ _ => trivial
    obtain ⟨ht, hread⟩ := h.exec hwrite hallow hx
    exact ⟨trivial, ht, trivial, hread⟩
  exact hinv.stored hstored

def storedAny (valid : Bool) (q : Pool Control App Unit) : Bool :=
  q.state.log.any fun
    | .stored _ state => decide state.Valid = valid
    | _ => false

open ControlChoice in
/-- A command to the provider, in a process where the external protection is
    enabled, stores a state, which is valid. -/
theorem stored_valid_enable : ∃ q : Pool Control App Unit,
    Pool.Reaches machine unheldCommit (controlPool .plain true (started (.normal "t0") .complete) 0
      [.emergencyProxy (some "a")]) q ∧
    ∃ writer state, .stored writer state ∈ q.state.log ∧ state.Valid := by
  obtain ⟨q, hq, hstored⟩ := Pool.exists_reaches_of_run machine unheldCommit
    (controlPool .plain true (started (.normal "t0") .complete) 0 [.emergencyProxy (some "a")])
    (leases 1 ++ enables 1 ++ commits 1) (P := storedAny true) (by decide)
  obtain ⟨event, hmem, hevent⟩ := List.any_eq_true.1 hstored
  cases event with
  | stored writer state =>
    exact ⟨q, hq, writer, state, hmem, stored_valid .plain true _ (GuardState.valid_normal) rfl 0
      _ q hq writer state hmem⟩
  | _ => cases hevent

open ControlChoice in
/-- A hold that arrives between the start of a command to the provider and its
    end: the state that is stored then is in the emergency, and held. -/
theorem stored_invalid : (started (.normal "t0") .complete).state.Valid ∧
    ∃ q : Pool Control App Unit,
      Pool.Reaches machine (fun _ _ _ => True)
        (controlPool .plain true (started (.normal "t0") .complete) 0
          [.emergencyProxy (some "a"), .hold (some "b")]) q ∧
      ∃ writer state, .stored writer state ∈ q.state.log ∧ ¬state.Valid := by
  refine ⟨GuardState.valid_normal, ?_⟩
  obtain ⟨q, hq, hstored⟩ := Pool.exists_reaches_of_run machine (fun _ _ _ => True)
    (controlPool .plain true (started (.normal "t0") .complete) 0
      [.emergencyProxy (some "a"), .hold (some "b")])
    (leases 1 ++ holds 2 ++ enables 1 ++ commits 1) (P := storedAny false) (by decide)
  obtain ⟨event, hmem, hevent⟩ := List.any_eq_true.1 hstored
  cases event with
  | stored writer state => exact ⟨q, hq, writer, state, hmem, by simpa using hevent⟩
  | _ => cases hevent

end App

end VpsGuard
