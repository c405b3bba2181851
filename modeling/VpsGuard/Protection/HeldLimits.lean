import VpsGuard.Protection.Linearization

/-!
# The limits under a hold

A hold is meant to keep the limits that are in force. But it makes `manualHold`
the mode of the state, for which there are no limits of routes, and the policy
that is published next is one for this mode. So a policy that is published under
a hold has no limits of routes, whatever the mode was before: the limits are
kept only if the hold is applied in `normal`, where there are none
(`heldRun_limits`).
-/

namespace VpsGuard

open Effect

namespace ProtectionWorld

variable {C : ProtectionCodec} {settings : ProtectionSettings} {state : GuardState}
  {s t : ProtectionWorld} {mgr : ProtectionManager}

def HasSettings (settings : ProtectionSettings) (s : ProtectionWorld) : Prop :=
  ∃ mgr, s.memory = some mgr ∧ mgr.current.settings = settings

def Limited (rules : List RouteRule) (s t : ProtectionWorld) : Prop :=
  t.policy = s.policy ∨ ∃ p, t.policy = some p ∧ p.routeRules = rules

/-- A step of a publication: the manager stays, and what it writes has the limits
    of the mode. -/
theorem Limited.exec {rules : List RouteRule} {u : ProtectionWorld} {mode : GuardMode}
    {limits : StaticLimits} {next : CurrentProtection} {o : ProtectionOp} {x : ProtectionChoice}
    {a : o.Ans} (h : Limited rules s t) (ho : ProtectionManager.Publishing C mode limits next o)
    (hrules : next.settings.routeRules mode = rules) (hx : exec o x t = some (a, u)) :
    Limited rules s u := by
  rcases (exec_frame hx).2 with hpolicy | ⟨policy, rfl, hpolicy⟩
  · rwa [Limited, hpolicy]
  · obtain ⟨now, hgenerated⟩ := ho
    exact .inr ⟨policy, hpolicy, by rw [hgenerated.routeRules, hgenerated.mode, hrules]⟩

open ProtectionManager in
theorem safe_writeForState_limited (hs : s.HasSettings settings) :
    (writeForState C state).Safe (setting (fun _ _ _ => True) fun _ => True) .alone
      (fun _ t => t.HasSettings settings ∧
        Limited (settings.routeRules state.currentMode) s t) s := by
  refine .call_alone fun _ x mgr t _ hx => ⟨trivial, ?_⟩
  obtain ⟨hmgr, rfl⟩ := of_exec_lockWriter hx
  have hsettings : mgr.current.settings = settings := by
    obtain ⟨mgr', hmgr', h⟩ := hs
    exact Option.some.inj (hmgr'.symm.trans hmgr) ▸ h
  subst hsettings
  -- Until the writer is given back: the settings are those from before, whatever is returned.
  refine .bind
    (R := fun (r : PolicyResult GuardState × ProtectionManager) t =>
      r.2.current.settings = mgr.current.settings ∧
        Limited (mgr.current.settings.routeRules state.currentMode) s t) ?_ fun r u _ hr => ?_
  · dsimp only
    split
    · exact .ret_alone fun _ => ⟨rfl, .inl rfl⟩
    · next version _ =>
      have hpublish : (mgr.publish C state.currentMode ⟨mgr.current.settings, version⟩
          mgr.clientRules).Safe (setting (fun _ _ _ => True) fun _ => True) .alone
            (fun _ t => True ∧ Limited (mgr.current.settings.routeRules state.currentMode) s t)
            (s.lock (.writeForState state.policyVersion) mgr) := by
        refine .of_meets (B := fun _ _ => True)
          (performs_publish.meets (Prog.yields_true _)) ?_ ?_ (.inl rfl)
        · rintro s t h rfl -
          exact h
        · intro o x s' a t ho h _ _ hx
          exact ⟨trivial, trivial, h.exec ho rfl hx, trivial⟩
      refine hpublish.bind fun r u _ hr => ?_
      cases r with
      | error e => exact .ret_alone fun _ => ⟨rfl, hr.2⟩
      | ok _ => exact .ret_alone fun _ => ⟨rfl, hr.2⟩
  · refine .call_alone fun _ x _ v _ hx => ⟨trivial, ?_⟩
    rw [of_exec_unlockWriter hx]
    exact .ret_alone fun _ => ⟨⟨r.2, rfl, hr.1⟩, hr.2⟩

/-! ## From a hold on -/

variable (C settings) in
/-- What happens after a hold of the state `held`, with the policies that are
    published for it: as long as it stays held, the state may change, and others
    may work with the files, which leave the settings as they are. -/
inductive HeldRun (held : GuardState) (now : String) :
    GuardState → ProtectionWorld → List PolicySnapshot → Prop
  | hold {s : ProtectionWorld} : s.HasSettings settings → HeldRun held now (held.hold now) s []
  | state {state state' : GuardState} {s : ProtectionWorld} {l : List PolicySnapshot} :
      HeldRun held now state s l → state'.Valid → state'.manualHold = true →
      HeldRun held now state' s l
  | world {state : GuardState} {s s' : ProtectionWorld} {l : List PolicySnapshot} :
      HeldRun held now state s l → s'.HasSettings settings → HeldRun held now state s' l
  | renew {state : GuardState} {s t : ProtectionWorld} {l : List PolicySnapshot}
      {result : PolicyResult GuardState} : HeldRun held now state s l →
      Prog.Runs machine (fun _ _ _ => True) (ProtectionManager.writeForState C state) s result t →
      HeldRun held now state t (l ++ if t.policy = s.policy then [] else t.policy.toList)

variable {held : GuardState} {now : String} {l : List PolicySnapshot}

theorem HeldRun.routeRules (h : HeldRun C settings held now state s l) :
    state.currentMode = .manualHold ∧ s.HasSettings settings ∧ ∀ p ∈ l, p.routeRules = [] := by
  induction h with
  | hold hs => exact ⟨rfl, hs, by simp⟩
  -- The mode of a valid state that is held can only be that of the hold.
  | state _ hvalid hhold ih => exact ⟨(GuardState.valid_iff.1 hvalid).2.1 hhold, ih.2⟩
  | world _ hs ih => exact ⟨ih.1, hs, ih.2.2⟩
  | renew _ hruns ih =>
    obtain ⟨hmode, hs, hl⟩ := ih
    obtain ⟨⟨ht, hlimited⟩, -⟩ := Prog.Runs.safe
      (E := setting (fun _ _ _ => True) fun _ => True) hruns (safe_writeForState_limited hs) trivial
    refine ⟨hmode, ht, fun p hp => ?_⟩
    rcases List.mem_append.1 hp with hp | hp
    · exact hl p hp
    · split at hp
      · cases hp
      · next hne =>
        -- There are no limits of routes in the mode of the hold.
        obtain ⟨p', hp', hrules⟩ := hlimited.resolve_left hne
        rw [hp', Option.toList_some, List.mem_singleton] at hp
        rw [hp, hrules, hmode]
        rfl

/-- A policy has, for every class of routes that is limited in a mode, a limit
    that is not larger. -/
def KeepsLimits (settings : ProtectionSettings) (mode : GuardMode) (p : PolicySnapshot) : Prop :=
  ∀ rule ∈ settings.routeRules mode, ∃ rule' ∈ p.routeRules,
    rule'.routeClass = rule.routeClass ∧ rule'.requestsPerMinute ≤ rule.requestsPerMinute

theorem keepsLimits_of_nil_iff {mode : GuardMode} {p : PolicySnapshot} (hmode : mode ≠ .manualHold)
    (hp : p.routeRules = []) : KeepsLimits settings mode p ↔ mode = .normal := by
  have hnil : KeepsLimits settings mode p ↔ settings.routeRules mode = [] := by
    simp [KeepsLimits, hp, List.eq_nil_iff_forall_not_mem]
  rw [hnil]
  cases mode <;> simp_all [ProtectionSettings.routeRules]

/-- **The limits under a hold.** The policies that are published after a hold keep
    the limits of the mode in which it was applied if, and only if, this was
    `normal`, where no routes are limited. -/
theorem heldRun_limits (C : ProtectionCodec) (settings : ProtectionSettings) (held : GuardState)
    (now : String) (state : GuardState) (s : ProtectionWorld) (l : List PolicySnapshot)
    (hmode : held.currentMode ≠ .manualHold) (h : HeldRun C settings held now state s l) :
    ∀ p ∈ l, KeepsLimits settings held.currentMode p ↔ held.currentMode = .normal :=
  fun p hp => keepsLimits_of_nil_iff hmode (h.routeRules.2.2 p hp)

theorem exists_heldRun (held : GuardState) (h : (Prog.run (machine.restrict fun _ _ _ => True)
      [.proceed, .time 0, .write none, .write none, .read none, .read none, .time 0, .proceed]
      (ProtectionManager.writeForState .plain (held.hold "t1"))
      { fresh with memory := some firstMemory }).any (·.2.policy.isSome) = true) :
    ∃ s p, HeldRun .plain .default held "t1" (held.hold "t1") s [p] := by
  obtain ⟨r, hr, hpolicy⟩ := (Option.any_eq_true _ _).1 h
  obtain ⟨p, hp⟩ := Option.isSome_iff_exists.1 hpolicy
  have hrun := HeldRun.renew (.hold ⟨firstMemory, rfl, rfl⟩) (Prog.runs_of_run hr)
  rw [if_neg (by rw [hp]; simp [fresh]), hp] at hrun
  exact ⟨r.2, p, hrun⟩

theorem heldRun_limits_normal : ∃ s p,
    HeldRun .plain .default (.normal "t0") "t1" ((GuardState.normal "t0").hold "t1") s [p] ∧
      (KeepsLimits .default .normal p ↔ GuardMode.normal = .normal) := by
  obtain ⟨s, p, h⟩ := exists_heldRun (.normal "t0") (by decide)
  refine ⟨s, p, h, ?_⟩
  exact heldRun_limits .plain .default (.normal "t0") "t1" _ s [p] (by decide) h p (by simp)

def watching : GuardState := { GuardState.normal "t0" with currentMode := .watch }

/-- The strict routes are limited to 120 requests in a minute, and not at all
    once this is held. -/
theorem watch_unlimited : watching.Valid ∧ ProtectionSettings.default.Valid ∧
    ProtectionSettings.default.routeRules .watch = [⟨"strict", 120⟩] ∧
    ∃ s p, HeldRun .plain .default watching "t1" (watching.hold "t1") s [p] ∧
      p.routeRules = [] ∧ ¬KeepsLimits .default .watch p := by
  obtain ⟨s, p, h⟩ := exists_heldRun watching (by decide)
  have hrules := h.routeRules.2.2 p (by simp)
  refine ⟨by decide, ProtectionSettings.valid_default, rfl, s, p, h, hrules, ?_⟩
  rw [keepsLimits_of_nil_iff (by decide) hrules]
  decide

end ProtectionWorld

end VpsGuard
