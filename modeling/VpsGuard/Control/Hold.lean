import VpsGuard.Control.DetectionLoop

/-!
# Holds are respected

From the moment a hold is in memory until a release starts, the detection loop
is to leave the guard state alone: it writes no state of another mode, and does
not ask for the external protection (`ControlLog.Respected`). It looks at the
hold when it reads the state, and writes much later what it made of it, without
a lock that a hold or a release would take. So this depends on when a hold is
written, and on when a release is (`holdOrder`):

* a hold is written while the loop has not read, in the tick in progress, a
  state that is not held;
* a release is written only if no hold was written since it started.

In the runs where this is so, holds are respected (`App.holds_respected`). The
invariant (`App.Heeded`) is that an acknowledged hold is in the state, and that
none is acknowledged while the loop goes on from a state that is not held.
-/

namespace VpsGuard

open Effect List

/-! ## The log -/

namespace ControlLog

/-- A hold was written, and no release has started since. -/
def acknowledged : ControlLog → Bool
  | [] => false
  | .committed .hold _ :: _ => true
  | .resumeStarted :: _ => false
  | _ :: log => acknowledged log

/-- Whether the state was held when the loop read it last in the tick in progress. -/
def lastRead : ControlLog → Option Bool
  | [] => none
  | .tickDone :: _ => none
  | .loopRead held :: _ => some held
  | _ :: log => lastRead log

end ControlLog

/-- The event does not go against a hold. -/
def ControlEvent.Respectful : ControlEvent → Prop
  | .stored (.loop _) state | .committed (.loop _) state => state.currentMode = .manualHold
  | .automaticEnable => False
  | _ => True

namespace ControlLog

variable {log l : ControlLog} {event : ControlEvent} {k : ℕ}

/-- Once a hold is acknowledged, no event goes against it. -/
def Respected (log : ControlLog) : Prop :=
  ∀ (event : ControlEvent) (rest : ControlLog), event :: rest <:+ log →
    rest.acknowledged = true → event.Respectful

theorem Respected.cons (h : Respected log) (he : log.acknowledged = true → event.Respectful) :
    Respected (event :: log) := by
  intro event' rest hsuffix hack
  rcases suffix_cons_iff.1 hsuffix with heq | hsuffix
  · cases heq
    exact he hack
  · exact h event' rest hsuffix hack

/-- Since there were `k` holds a release has started, and there may be more holds by now. -/
structure ReleasedSince (k : ℕ) (log : ControlLog) : Prop where
  le_holds : k ≤ log.holds
  released : log.holds = k → log.acknowledged = false

theorem ReleasedSince.cons (h : ReleasedSince k log) : ReleasedSince k (event :: log) := by
  have hle := h.le_holds
  cases event with
  | committed writer state =>
    cases writer with
    | hold =>
      have hholds : holds (.committed .hold state :: log) = log.holds + 1 := by simp [holds]
      exact ⟨by omega, by omega⟩
    | _ => exact ⟨by simpa [holds] using hle, fun heq => h.released (by simpa [holds] using heq)⟩
  | resumeStarted => exact ⟨by simpa [holds] using hle, fun _ => rfl⟩
  | _ => exact ⟨by simpa [holds] using hle, fun heq => h.released (by simpa [holds] using heq)⟩

theorem ReleasedSince.of_suffix (h : ReleasedSince k l) (hl : l <:+ log) : ReleasedSince k log := by
  obtain ⟨l', rfl⟩ := hl
  induction l' with
  | nil => exact h
  | cons event l' ih => exact ih.cons

end ControlLog

/-! ## The invariant -/

/-- A request to hold or to release. -/
def ControlRequest.IsAction : ControlRequest → Prop
  | hold _ | resume _ => True
  | _ => False

namespace App

/-- A hold is written when the loop does not go on from a state that is not
    held, and a release when no hold was written since it started. -/
def holdOrder : ControlOp → ControlChoice → App → Prop
  | .writeState .hold _, _, s => s.log.lastRead ≠ some false
  | .writeState (.resume holds) _, _, s => s.log.holds = holds
  | _, _, _ => True

instance (o : ControlOp) (x : ControlChoice) (s : App) : Decidable (holdOrder o x s) := by
  unfold holdOrder
  split <;> infer_instance

/-- Holds are respected, and the state and the loop are as that needs. -/
structure Heeded (s : App) : Prop where
  valid : s.state.Valid
  /-- An acknowledged hold is in the state. -/
  held : s.log.acknowledged = true → s.state.manualHold = true
  /-- None is acknowledged while the loop goes on from a state that is not held. -/
  read : s.log.lastRead = some false → s.log.acknowledged = false
  respected : s.log.Respected

variable {s t : App}

theorem Heeded.congr (h : s.Heeded) (ht : t.state = s.state ∧ t.log = s.log) : t.Heeded :=
  ⟨ht.1 ▸ h.valid, ht.1 ▸ ht.2 ▸ h.held, ht.2 ▸ h.read, ht.2 ▸ h.respected⟩

theorem Heeded.note (h : s.Heeded) (event : ControlEvent)
    (hack : ControlLog.acknowledged (event :: s.log) = s.log.acknowledged)
    (hread : ControlLog.lastRead (event :: s.log) = s.log.lastRead)
    (he : s.log.acknowledged = true → event.Respectful) : (s.note event).Heeded where
  valid := h.valid
  held h' := h.held (hack ▸ h')
  read h' := hack.trans (h.read (hread ▸ h'))
  respected := h.respected.cons he

/-! ## What the tasks have from each other -/

/-- What the loop relies on: it is known what it read last, and a state that is
    not held stays so while the loop goes on from one. -/
structure LoopRely (s t : App) : Prop where
  read : t.log.lastRead = s.log.lastRead
  unheld : s.log.lastRead = some false → s.state.manualHold = false → t.state.manualHold = false

theorem LoopRely.of_eq (h : t.state = s.state ∧ t.log = s.log) : LoopRely s t :=
  ⟨by rw [h.2], fun _ hs => h.1 ▸ hs⟩

/-- What the detection loop has from the others, and gives to them. -/
def loopSharing : Sharing App where
  rely := LoopRely
  guar s t := s.log <:+ t.log
  rely_refl _ := .of_eq ⟨rfl, rfl⟩
  rely_trans h h' := ⟨h'.read.trans h.read, fun hr hs =>
    h'.unheld (h.read.trans hr) (h.unheld hr hs)⟩

/-- A request relies on the log being added to. -/
def actionSharing : Sharing App where
  rely s t := s.log <:+ t.log
  guar s t := s.log <:+ t.log ∧ LoopRely s t
  rely_refl _ := suffix_rfl
  rely_trans := List.IsSuffix.trans

abbrev holdSetting : Setting Control App ControlChoice := setting holdOrder Heeded

/-! ## The loop -/

section Loop

variable {α : Type} {P : App → Prop} {Q : α → App → Prop}

/-- What the others keep for the loop. -/
def Stable (P : App → Prop) : Prop := ∀ s t, P s → LoopRely s t → P t

/-- The last read of the detection loop found this. -/
def GoesOn (held : Bool) (s : App) : Prop := s.log.lastRead = some held

theorem stable_true : Stable fun _ => True := Sharing.keeps_true (w := loopSharing)

theorem stable_goesOn {held : Bool} : Stable (GoesOn held) := fun _ _ hs h => h.read.trans hs

theorem aside_silent : holdSetting.Aside loopSharing Silent := by
  intro o x s a t ho hs _ hx
  have heq := of_exec_silent hx ho
  refine ⟨.of_eq heq, ?_, hs.congr heq⟩
  change s.log <:+ t.log
  rw [heq.2]

theorem safe_quiet {p : Prog Control α} {Y : α → Prop} (hP : Stable P)
    (hp : p.Meets Silent (fun _ _ => True) Y) (hs : P s) :
    p.Safe holdSetting loopSharing (fun a t => Y a ∧ P t) s :=
  .of_aside aside_silent hP hp hs

theorem safe_silent {o : ControlOp} {k : o.Ans → Prog Control α} (ho : Silent o) (hP : Stable P)
    (hs : P s) (hk : ∀ a t, P t → (k a).Safe holdSetting loopSharing Q t) :
    (Prog.call o k).Safe holdSetting loopSharing Q s :=
  .call_aside aside_silent ho hP hs fun _ a _ u _ _ _ hu => hk a u hu

theorem safe_loopRead {k : GuardState → Prog Control α} (hP : Stable P) (hs : P s)
    (hk : ∀ t : App, P t → t.state.Valid → ∀ u : App, u.state = t.state →
      GoesOn t.state.manualHold u → (k t.state).Safe holdSetting loopSharing Q u) :
    (Prog.call (ControlOp.readState .loop) k : Prog Control α).Safe holdSetting loopSharing Q s := by
  refine .call fun t hst ht x a u _ hx => ?_
  obtain ⟨rfl, rfl⟩ := of_exec_readState hx
  refine ⟨suffix_cons _ _, ⟨ht.valid, ht.held, fun hread => ?_, ht.respected.cons
    fun _ => trivial⟩, hk t (hP s t hs hst) ht.valid _ rfl rfl⟩
  -- A hold that is acknowledged is in the state, so the loop sees it.
  have hunheld : t.state.manualHold = false := Option.some.inj hread
  change t.log.acknowledged = false
  cases hack : t.log.acknowledged with
  | false => rfl
  | true => rw [ht.held hack] at hunheld; cases hunheld

/-- What the loop may write when it goes on from a state that is held, or not. -/
structure Suits (held : Bool) (next : GuardState) : Prop where
  valid : next.Valid
  mode : held = true → next.currentMode = .manualHold

variable {held : Bool}

theorem Heeded.goesOn (h : s.Heeded) (hs : GoesOn held s) (hack : s.log.acknowledged = true) :
    held = true := by
  cases held with
  | true => rfl
  | false => rw [h.read hs] at hack; cases hack

theorem safe_persistState {read next : GuardState} (hnext : Suits held next) (hs : GoesOn held s) :
    (persistState read next).Safe holdSetting loopSharing (fun _ t => GoesOn held t) s := by
  refine .call fun t hst ht x a u _ hx => ?_
  obtain ⟨fault, -, -, rfl⟩ := of_exec_writeStore hx
  have hgoes : GoesOn held t := stable_goesOn s t hs hst
  refine ⟨suffix_cons _ _, ?_, ?_⟩
  · exact ⟨ht.valid, ht.held, ht.read, ht.respected.cons fun hack =>
      hnext.mode (ht.goesOn hgoes hack)⟩
  rcases a with e | _
  · exact .ret fun t' hst' _ => (LoopRely.read hst').trans hgoes
  · refine .call fun t' hst' ht' x a u _ hx => ?_
    have hgoes' : GoesOn held t' := (LoopRely.read hst').trans hgoes
    have hmode : t'.log.acknowledged = true → next.currentMode = .manualHold := fun hack =>
      hnext.mode (ht'.goesOn hgoes' hack)
    rw [of_exec_writeState hx]
    refine ⟨suffix_cons _ _, ?_, .ret fun _ hst'' _ => (LoopRely.read hst'').trans hgoes'⟩
    exact ⟨hnext.valid, fun hack => (GuardState.valid_iff.1 hnext.valid).2.2 (hmode hack), ht'.read,
      ht'.respected.cons hmode⟩

theorem Suits.policyVersion {next : GuardState} (h : Suits held next) (version : ℕ) :
    Suits held { next with policyVersion := version } := ⟨h.valid, h.mode⟩

theorem safe_refreshedAt {refreshed : Bool} {last : Option ℕ} (hP : Stable P) (hs : P s) :
    (refreshedAt refreshed last).Safe holdSetting loopSharing (fun _ t => P t) s :=
  (safe_quiet hP (meets_refreshedAt (fun _ => trivial) _ _) hs).weaken fun _ _ _ h => h.2

theorem safe_withPolicyOperation {p : Prog Control α} {P' : App → Prop} (hP : Stable P) (hs : P s)
    (hP' : Stable P')
    (hp : ∀ t, P t → p.Safe holdSetting loopSharing (fun _ u => P' u) t) :
    (withPolicyOperation 0 p).Safe holdSetting loopSharing (fun _ u => P' u) s :=
  safe_silent trivial hP hs fun _ t ht => (hp t ht).bind fun _ _ _ hu =>
    safe_silent trivial hP' hu fun _ v hv => .ret fun v' hvv' _ => hP' v v' hv hvv'

variable {C : ProtectionCodec} {enforce : Bool} {last : Option ℕ}

theorem safe_publishState {read next : GuardState} (hnext : Suits held next) (hs : GoesOn held s) :
    (publishState C read next last).Safe holdSetting loopSharing (fun _ t => GoesOn held t) s := by
  refine (safe_quiet stable_goesOn (meets_writePolicyForMode (fun _ => trivial) next) hs).bind
    fun r t _ ht => ?_
  rcases r with _ | refreshed
  · exact .ret fun u htu _ => stable_goesOn t u ht.2 htu
  · obtain ⟨version, rfl⟩ := ht.1 refreshed rfl
    exact (safe_persistState (hnext.policyVersion version) ht.2).bind fun _ _ _ hu =>
      safe_refreshedAt stable_goesOn hu

/-- The loop asks for the external protection only if it goes on from a state
    that is not held. -/
theorem safe_runProviderTransaction {caller : LeaseCaller} (hcaller : caller ≠ .request)
    (hs : GoesOn false s) : (runProviderTransaction caller).Safe holdSetting loopSharing
      (fun _ t => GoesOn false t) s := by
  refine .call fun t hst ht x free u _ hx => ?_
  have hgoes : GoesOn false t := stable_goesOn s t hs hst
  have hasked : (t.note .automaticEnable).Heeded := ht.note _ rfl rfl fun hack => by
    cases ht.goesOn hgoes hack
  have hask : t.askLease caller = t.note .automaticEnable := by
    cases caller with
    | request => exact absurd rfl hcaller
    | _ => rfl
  have hlog : u.state = t.state ∧ u.log = .automaticEnable :: t.log := by
    rcases of_exec_acquireLease hx with ⟨-, -, rfl⟩ | ⟨-, -, rfl⟩ <;> rw [hask] <;> exact ⟨rfl, rfl⟩
  have hu : GoesOn false u := by
    rw [GoesOn, hlog.2]
    exact hgoes
  refine ⟨?_, hasked.congr hlog, ?_⟩
  · change t.log <:+ u.log
    rw [hlog.2]
    exact suffix_cons _ _
  cases free with
  | false => exact .ret fun v huv _ => stable_goesOn u v hu huv
  | true =>
    refine safe_silent trivial stable_goesOn hu fun uuid v hv => ?_
    refine (safe_quiet stable_goesOn (meets_providerCommand (fun _ => trivial) _) hv).bind
      fun result v _ hv => .call fun t hst ht x a u _ hx => ?_
    have hgoes : GoesOn false t := stable_goesOn v t hv.2 hst
    have hfree : ({ t with providerActionActive := none } : App).Heeded := ht.congr ⟨rfl, rfl⟩
    rw [of_exec_releaseLease hx]
    split
    · have hnoted := hfree.note .emergencyActivated rfl rfl fun _ => trivial
      exact ⟨suffix_cons _ _, hnoted, .ret fun _ h _ => (LoopRely.read h).trans hgoes⟩
    · exact ⟨suffix_rfl, hfree, .ret fun _ h _ => (LoopRely.read h).trans hgoes⟩

theorem suits_of_valid {state : GuardState} (h : state.Valid) : Suits state.manualHold state :=
  ⟨h, (GuardState.valid_iff.1 h).2.1⟩

theorem suits_windowState {current : GuardState} {input : DetectionInput} {occurredAt : String}
    {provider : Option ProviderController} (h : current.Valid) :
    Suits current.manualHold (windowState enforce current input occurredAt provider) := by
  refine ⟨valid_windowState h, fun hheld => ?_⟩
  have hmode := (suits_of_valid h).mode hheld
  simp only [windowState, GuardState.transition_of_held hheld]
  cases enforce <;> simp [observeOnly, hmode]

variable {current next : GuardState}

theorem safe_escalate (hnext : Suits held next) (hs : GoesOn held s) :
    (escalate enforce current next).Safe holdSetting loopSharing
      (fun r t => Suits held r ∧ GoesOn held t) s := by
  unfold escalate
  split
  · next hmode =>
    -- A state that suits a held one is not of the emergency.
    obtain rfl : held = false := by
      rw [Bool.eq_false_iff]
      intro hheld
      rw [hnext.mode hheld] at hmode
      cases hmode.2.2
    have hheld : next.manualHold = false := by
      rw [Bool.eq_false_iff, ne_eq, (GuardState.valid_iff.1 hnext.valid).2, hmode.2.2]
      simp
    refine (safe_runProviderTransaction (by simp) hs).bind fun result t _ ht => ?_
    refine .ret fun u htu _ => ⟨?_, stable_goesOn t u ht htu⟩
    cases activated result with
    | true => exact hnext
    | false =>
      exact ⟨valid_keepLocalGuard (GuardState.valid_iff.1 hnext.valid).1 hheld, fun h => nomatch h⟩
  · exact .ret fun t hst _ => ⟨hnext, stable_goesOn s t hs hst⟩

/-- The detection loop found the state not held, and it still is not. -/
def FoundUnheld (s : App) : Prop := GoesOn false s ∧ s.state.manualHold = false

theorem stable_foundUnheld : Stable FoundUnheld := fun _ _ hs h =>
  ⟨h.read.trans hs.1, h.unheld hs.1 hs.2⟩

theorem safe_resumeActivation : (resumeActivation C last).Safe holdSetting loopSharing
    (fun _ _ => True) s := by
  refine safe_silent trivial stable_true trivial fun provider t _ => ?_
  refine safe_loopRead stable_true trivial fun t _ _ u hstate hgoes => ?_
  split
  · next hcase =>
    have hheld : t.state.manualHold = false := by simpa using (Bool.and_eq_true_iff.1 hcase).2
    rw [hheld] at hgoes
    refine (safe_withPolicyOperation stable_foundUnheld ⟨hgoes, hstate ▸ hheld⟩
      (stable_goesOn : Stable (GoesOn false)) fun t ht => ?_).bind fun last t _ ht => ?_
    · -- The state is read again, and still not held.
      refine safe_loopRead stable_foundUnheld ht fun t ht hvalid u _ hgoes => ?_
      rw [ht.2] at hgoes
      refine safe_silent trivial stable_goesOn hgoes fun occurredAt u hu => ?_
      refine safe_silent trivial stable_goesOn hu fun uuid u hu => ?_
      split
      · exact .ret fun v huv _ => stable_goesOn u v hu huv
      · next hr =>
        exact safe_publishState ⟨GuardState.Valid.reconcile hvalid hr, fun h => nomatch h⟩ hu
    · exact (safe_runProviderTransaction (by simp) ht).bind fun _ _ _ _ => .ret_trivial
  · exact .ret_trivial

theorem safe_commitDetection {refreshPolicy : Bool} (hnext : Suits held next) (hs : GoesOn held s) :
    (commitDetection C current next refreshPolicy last).Safe holdSetting loopSharing
      (fun _ t => GoesOn held t) s := by
  refine .bind (R := fun r t => (∀ next, r = some next → Suits held next) ∧
    GoesOn held t) ?_ fun r t _ ht => ?_
  · unfold writePolicyIf
    split
    · refine (safe_quiet stable_goesOn (meets_writePolicyForMode (fun _ => trivial) next)
        hs).weaken fun r t _ ht => ⟨fun next' h => ?_, ht.2⟩
      obtain ⟨version, rfl⟩ := ht.1 next' h
      exact hnext.policyVersion version
    · refine .ret fun t hst _ => ⟨fun next' h => ?_, stable_goesOn s t hs hst⟩
      exact Option.some.inj h ▸ hnext
  · rcases r with _ | next
    · exact .ret fun u htu _ => stable_goesOn t u ht.2 htu
    · refine safe_silent trivial stable_goesOn ht.2 fun uuid u hu => ?_
      have hnext' := ht.1 next rfl
      have hincident : Suits held (updateIncident uuid next) :=
        ⟨valid_updateIncident_iff.2 hnext'.valid, fun h => by simpa using hnext'.mode h⟩
      exact (safe_persistState hincident hu).bind fun _ _ _ hv => safe_refreshedAt stable_goesOn hv

theorem safe_detect : (detect C enforce last).Safe holdSetting loopSharing (fun _ _ => True) s := by
  refine .bind (R := fun _ _ => True) ?_ fun due t _ _ => ?_
  · unfold refreshDue
    split
    · exact safe_silent trivial stable_true trivial fun _ _ _ => .ret_trivial
    · exact .ret_trivial
  refine safe_silent trivial stable_true trivial fun input t _ => ?_
  refine safe_silent trivial stable_true trivial fun occurredAt t _ => ?_
  refine safe_loopRead stable_true trivial fun t _ hvalid u _ hgoes => ?_
  rcases input with _ | input
  · dsimp only
    split
    · refine safe_withPolicyOperation stable_true trivial stable_true fun t _ => ?_
      refine safe_loopRead stable_true trivial fun t _ hvalid u _ hgoes => ?_
      exact (safe_publishState (suits_of_valid hvalid) hgoes).weaken fun _ _ _ _ => trivial
    · exact .ret_trivial
  · refine safe_silent trivial stable_goesOn hgoes fun provider u hu => ?_
    refine (safe_escalate (suits_windowState hvalid) hu).bind fun next u _ hu => ?_
    dsimp only
    split
    · refine safe_withPolicyOperation stable_goesOn hu.2 stable_true fun v hv => ?_
      exact (safe_commitDetection hu.1 hv).weaken fun _ _ _ _ => trivial
    · exact .ret_trivial

theorem safe_tick (last : Option ℕ) (s : App) (_ : True) :
    (tick C enforce last).Safe holdSetting loopSharing (fun _ _ => True) s := by
  refine .call fun t _ ht x a u _ hx => ?_
  rw [of_exec_intervalTick hx]
  refine ⟨suffix_cons _ _, ht.note _ rfl rfl fun _ => trivial, ?_⟩
  refine safe_resumeActivation.bind fun last t _ _ => safe_detect.bind fun last t _ _ => ?_
  refine .call fun t _ ht x a u _ hx => ?_
  rw [of_exec_tickDone hx]
  refine ⟨suffix_cons _ _, ?_, .ret_trivial⟩
  exact ⟨ht.valid, ht.held, (nomatch ·), ht.respected.cons fun _ => trivial⟩

end Loop

/-! ## Holds and releases -/

section Actions

variable {action operationId : String}

theorem actionSharing_guar_of_eq (h : t.state = s.state ∧ t.log = s.log) :
    actionSharing.guar s t := by
  refine ⟨?_, .of_eq h⟩
  rw [h.2]

theorem actionSharing_guar_rfl (s : App) : actionSharing.guar s s :=
  actionSharing_guar_of_eq ⟨rfl, rfl⟩

theorem safe_commitAction {hold : Bool} {writer : StateWriter} {P : App → Prop}
    (hP : ∀ s t : App, P s → s.log <:+ t.log → P t)
    (hwriter : ∀ state, ControlEvent.Respectful (.stored writer state))
    (hwrite : ∀ (t : App) x (read : GuardState) now next, P t → t.Heeded → read.Valid →
      next = (if hold then read.hold now else read.resume now) →
      holdOrder (.writeState writer next) x t →
      LoopRely t ({ t with state := next }.note (.committed writer next)) ∧
        ({ t with state := next }.note (.committed writer next)).Heeded)
    (hs : P s) : (commitAction hold action writer operationId).Safe holdSetting actionSharing
      (fun _ _ => True) s := by
  refine safe_asking trivial actionSharing_guar_rfl fun now t hst _ => ?_
  refine safe_readState (by simp) actionSharing_guar_rfl fun t' htt' ht' => ?_
  have hPt' : P t' := hP t t' (hP s t hs hst) htt'
  refine .call fun u htu hu x r v _ hx => ?_
  obtain ⟨fault, -, -, rfl⟩ := of_exec_writeStore hx
  refine ⟨⟨suffix_cons _ _, rfl, fun _ h => h⟩,
    ⟨hu.valid, hu.held, hu.read, hu.respected.cons fun _ => hwriter _⟩, ?_⟩
  rcases r with e | _
  · exact .ret_trivial
  refine .call fun v huv hv x a w hallow hx => ?_
  rw [of_exec_writeState hx]
  have hPv : P v := hP _ v (hP u _ (hP t' u hPt' htu) (suffix_cons _ _)) huv
  obtain ⟨hrely, hheeded⟩ := hwrite v x t'.state now _ hPv hv ht'.valid rfl hallow
  refine ⟨⟨suffix_cons _ _, hrely⟩, hheeded, ?_⟩
  refine .call fun t _ ht x a u _ hx => ?_
  have heq := of_exec_silent hx trivial
  exact ⟨actionSharing_guar_of_eq heq, ht.congr heq, .ret_trivial⟩

variable {operationId : Option String}

theorem safe_manualHold :
    (manualHold operationId).Safe holdSetting actionSharing (fun _ _ => True) s := by
  refine safe_onceOnly actionSharing_guar_rfl fun operationId t _ _ => ?_
  refine safe_commitAction (P := fun _ => True) (fun _ _ _ _ => trivial) (fun _ => trivial)
    (fun t x read now next _ ht hread hnext hallow => ?_) trivial
  subst hnext
  have hlast : t.log.lastRead ≠ some false := hallow
  exact ⟨⟨rfl, fun h => (hlast h).elim⟩, hread.hold, fun _ => rfl, fun h => (hlast h).elim,
    ht.respected.cons fun _ => trivial⟩

/-- A release is written while no hold is acknowledged: one has started, and no
    hold was written since. -/
theorem safe_resumeAuto :
    (resumeAuto operationId).Safe holdSetting actionSharing (fun _ _ => True) s := by
  refine .call fun t _ ht x holds u _ hx => ?_
  obtain ⟨rfl, rfl⟩ := of_exec_startResume hx
  refine ⟨⟨suffix_cons _ _, rfl, fun _ h => h⟩, ⟨ht.valid, (nomatch ·), fun _ => rfl,
    ht.respected.cons fun _ => trivial⟩, ?_⟩
  have hreleased : ControlLog.ReleasedSince t.log.holds (.resumeStarted :: t.log) :=
    ⟨by simp [ControlLog.holds], fun _ => rfl⟩
  refine safe_onceOnly actionSharing_guar_rfl fun operationId u htu _ => ?_
  refine safe_commitAction (P := fun s => s.log.ReleasedSince t.log.holds)
    (fun _ _ h hl => h.of_suffix hl) (fun _ => trivial)
    (fun u x read now next hu hinv hread hnext hallow => ?_) (hreleased.of_suffix htu)
  subst hnext
  have hack : u.log.acknowledged = false := hu.released hallow
  refine ⟨⟨rfl, fun _ _ => rfl⟩, hread.resume, fun h => ?_, fun _ => hack,
    hinv.respected.cons fun _ => trivial⟩
  cases hack.symm.trans h

end Actions

/-! ## All tasks -/

theorem safe_isAction {C : ProtectionCodec} {task : ℕ} {request : ControlRequest}
    (h : request.IsAction) :
    (request.run C task).Safe holdSetting actionSharing (fun _ _ => True) s := by
  cases request with
  | hold operationId => exact safe_manualHold
  | resume operationId => exact safe_resumeAuto
  | _ => exact h.elim

/-- **Holds.** In a process that serves holds and releases, where these are
    written as `holdOrder` says, the loop respects the holds that are acknowledged. -/
theorem holds_respected (C : ProtectionCodec) (enforce : Bool) (s : App) (hs : s.state.Valid)
    (hlog : s.log = []) (n : ℕ) (requests : List ControlRequest)
    (hrequests : ∀ request ∈ requests, request.IsAction) (q : Pool Control App Unit)
    (hq : Pool.Reaches machine holdOrder (controlPool C enforce s n requests) q) :
    q.state.log.Respected := by
  have hstart : s.Heeded := by
    refine ⟨hs, fun h => ?_, fun _ => by rw [hlog]; rfl, fun event rest hsuffix => ?_⟩
    · rw [hlog] at h
      cases h
    · rw [hlog] at hsuffix
      cases suffix_nil.1 hsuffix
  refine (Pool.Reaches.safe (E := holdSetting) (Q := fun _ _ _ => True)
    (w := fun i => if i = 0 then loopSharing else actionSharing) ?_ hq ⟨hstart, ?_⟩).inv.respected
  · -- A request gives the loop what it relies on, and everyone adds to the log.
    intro i j s t hij _ _ hguar
    by_cases hj : j = 0
    · subst hj
      rw [if_neg hij] at hguar
      exact hguar.2
    · rw [if_neg hj]
      split at hguar
      · exact hguar
      · exact hguar.1
  · intro i p hp
    cases i with
    | zero =>
      cases hp
      exact safe_ticks C safe_tick n none trivial
    | succ i =>
      obtain ⟨request, hrequest, rfl⟩ := exists_request_of_task hp
      rw [if_neg (Nat.succ_ne_zero i)]
      exact (safe_isAction (hrequests request hrequest)).bind fun _ _ _ _ => .ret_trivial

/-- The last event is that the loop wrote a state while a hold was acknowledged. -/
def wroteAcknowledged (held : Bool) (q : Pool Control App Unit) : Bool :=
  match q.state.log with
  | .committed (.loop _) state :: rest =>
    ControlLog.acknowledged rest && decide (state.currentMode = .manualHold) = held
  | _ => false

theorem exists_of_wroteAcknowledged {held : Bool} {q : Pool Control App Unit}
    (h : wroteAcknowledged held q = true) :
    ∃ (read state : GuardState) (rest : ControlLog),
      q.state.log = .committed (.loop read) state :: rest ∧ rest.acknowledged = true ∧
        decide (state.currentMode = .manualHold) = held := by
  unfold wroteAcknowledged at h
  split at h
  · next read state rest hlog =>
    simp only [Bool.and_eq_true, decide_eq_true_eq] at h
    exact ⟨read, state, rest, hlog, h.1, h.2⟩
  · cases h

open ControlChoice in
/-- After a hold, the policy is written again, of the held mode. -/
theorem holds_respected_renewal : ∃ q : Pool Control App Unit, Pool.Reaches machine holdOrder
      (controlPool .plain true (started (.normal "t0") .complete) 1 [.hold (some "a")]) q ∧
    (∃ (read state : GuardState) (rest : ControlLog),
      q.state.log = .committed (.loop read) state :: rest ∧ rest.acknowledged = true) ∧
    q.state.log.Respected := by
  obtain ⟨q, hq, hwrote⟩ := Pool.exists_reaches_of_run machine holdOrder
    (controlPool .plain true (started (.normal "t0") .complete) 1 [.hold (some "a")])
    (holds 1 ++ beginsRenewal 0 ++ endsRenewal 0) (P := wroteAcknowledged true) (by decide)
  obtain ⟨read, state, rest, hlog, hack, -⟩ := exists_of_wroteAcknowledged hwrote
  refine ⟨q, hq, ⟨read, state, rest, hlog, hack⟩, ?_⟩
  exact holds_respected .plain true _ GuardState.valid_normal rfl 1 _
    (by simp [ControlRequest.IsAction]) q hq

open ControlChoice in
/-- A hold that arrives while the policy is written again is overwritten by the
    state from before it. -/
theorem hold_overwritten : (started (.normal "t0") .complete).state.Valid ∧
    ∃ q : Pool Control App Unit,
      Pool.Reaches machine (fun _ _ _ => True)
        (controlPool .plain true (started (.normal "t0") .complete) 1 [.hold (some "a")]) q ∧
      ¬q.state.log.Respected := by
  refine ⟨GuardState.valid_normal, ?_⟩
  obtain ⟨q, hq, hwrote⟩ := Pool.exists_reaches_of_run machine (fun _ _ _ => True)
    (controlPool .plain true (started (.normal "t0") .complete) 1 [.hold (some "a")])
    (beginsRenewal 0 ++ holds 1 ++ endsRenewal 0) (P := wroteAcknowledged false) (by decide)
  obtain ⟨read, state, rest, hlog, hack, hmode⟩ := exists_of_wroteAcknowledged hwrote
  refine ⟨q, hq, fun h => of_decide_eq_false hmode ?_⟩
  rw [hlog] at h
  exact h (.committed (.loop read) state) rest suffix_rfl hack

end App

end VpsGuard
