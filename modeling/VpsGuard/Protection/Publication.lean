import VpsGuard.Protection.Files

/-!
# Policies of a mode

What an operation of the protection manager does to the mode in the policy
file, whatever fails: every policy it writes is of the mode it was called with,
and the memory it gives back can be worked with, if the one it got could
(`Served.meets`). And that the policy of a guard state is written where nothing
fails (`ProtectionWorld.safe_writeForState`): the file then has the mode of the
state.
-/

namespace VpsGuard

open Effect

namespace ProtectionManager

/-- A memory from which policies can be generated. -/
structure Working (mgr : ProtectionManager) : Prop where
  settings : mgr.current.settings.Valid
  limits : mgr.limits.Positive

/-- The policies written are of the mode, and the memory given back can be worked with. -/
def WritesMode (mode : GuardMode) : ProtectionOp → Prop
  | .writePolicy policy => policy.mode = mode
  | .unlockWriter mgr => mgr.Working
  | _ => True

def LocksWorking : (o : ProtectionOp) → o.Ans → Prop
  | .lockWriter _, mgr => mgr.Working
  | _, _ => True

variable {C : ProtectionCodec} {α : Type} {version : α → ℕ} {mode : GuardMode}
  {call : ProtectionCall} {mgr : ProtectionManager}

def Publishing (C : ProtectionCodec) (mode : GuardMode) (limits : StaticLimits)
    (next : CurrentProtection) : ProtectionOp → Prop
  | .lockWriter _ | .unlockWriter _ => False
  | .writePolicy policy =>
    ∃ now, GeneratedPolicy C mode next.policyVersion limits next.settings now policy
  | _ => True

theorem performs_readBack {limits : StaticLimits} {policy : PolicySnapshot}
    {next expected : CurrentProtection} :
    (readBack C policy expected).Performs (Publishing C mode limits next) := by
  refine ⟨trivial, fun r => ?_⟩
  rcases r with e | _ | p
  · trivial
  · trivial
  · refine ⟨trivial, fun r => ?_⟩
    rcases r with e | _ | m
    · trivial
    · trivial
    · exact ⟨trivial, fun _ => trivial⟩

theorem performs_publish {next : CurrentProtection} {rules : List ClientRule} :
    (mgr.publish C mode next rules).Performs (Publishing C mode mgr.limits next) := by
  refine ⟨trivial, fun now => ?_⟩
  dsimp only
  split
  · trivial
  · next policy hpolicy =>
    have hgenerated := (generatedPolicy_of_buildPolicyAt hpolicy).withClientRules rules
    refine ⟨trivial, fun r => ?_⟩
    rcases r with e | _
    · trivial
    · refine ⟨⟨now, hgenerated⟩, fun r => ?_⟩
      rcases r with e | _
      · exact ⟨trivial, fun _ => trivial⟩
      · exact performs_readBack

theorem Publishing.writesMode {limits : StaticLimits} {next : CurrentProtection} {o : ProtectionOp}
    (h : Publishing C mode limits next o) : WritesMode mode o := by
  cases o with
  | writePolicy policy =>
    obtain ⟨now, hgenerated⟩ := h
    exact hgenerated.mode
  | unlockWriter mgr => exact h.elim
  | _ => trivial

theorem meets_publish {next : CurrentProtection} {rules : List ClientRule} :
    (mgr.publish C mode next rules).Meets (WritesMode mode) LocksWorking fun _ => True :=
  (performs_publish.mono fun _ => Publishing.writesMode).meets (Prog.yields_true _)

theorem Working.next (h : mgr.Working)
    (hvalid : ∀ settings, call = .apply settings → settings.Valid) :
    (call.next mgr).settings.Valid := by
  cases call with
  | apply settings => exact hvalid settings rfl
  | writeForState | clientRules => exact h.settings

theorem Operation.meets {body : Prog Protection (PolicyResult α × ProtectionManager)}
    (h : Operation C version mode call mgr body) (hmgr : mgr.Working)
    (hvalid : ∀ settings, call = .apply settings → settings.Valid) :
    body.Meets (WritesMode mode) LocksWorking fun r => r.2.Working := by
  induction h with
  | done hcurrent hlimits _ => exact ⟨hcurrent ▸ hmgr.settings, hlimits ▸ hmgr.limits⟩
  | clock _ ih => exact ⟨trivial, fun now _ => ih now⟩
  | publish herr hok hcurrent hlimits _ _ =>
    refine meets_publish.bind fun r _ => ?_
    cases r with
    | error e =>
      obtain ⟨e', he⟩ := herr e
      rw [he]
      exact hmgr
    | ok _ =>
      rw [hok]
      exact ⟨hcurrent ▸ hmgr.next hvalid, hlimits ▸ hmgr.limits⟩

/-- Whatever fails, an operation writes policies of its mode, and gives back a
    memory that can be worked with. -/
theorem Served.meets {p : Prog Protection (PolicyResult α)}
    (h : Served C version mode p) : p.Meets (WritesMode mode) LocksWorking fun _ => True := by
  cases h with
  | refused e => trivial
  | served hvalid hbody =>
    refine ⟨trivial, fun mgr hmgr => ((hbody mgr).meets hmgr hvalid).bind fun r hr => ?_⟩
    exact ⟨hr, fun _ _ => trivial⟩

theorem checkReadBack_self {p : PolicySnapshot} {expires now : ℕ} {next : CurrentProtection}
    (hp : p.Sound C.toCodec expires) (hnow : now < expires) (hnext : next.settings.Valid) :
    checkReadBack C p next p (.new C next) now = .ok () := by
  have hpolicy : p.validateAt C.toCodec now = .ok () :=
    PolicySnapshot.validateAt_eq_ok_iff.2 ⟨expires, hp, hnow⟩
  simp [checkReadBack, hpolicy, PersistedProtection.validate_new C hnext]

end ProtectionManager

namespace ProtectionWorld

variable {C : ProtectionCodec} {s : ProtectionWorld}

def Working (s : ProtectionWorld) : Prop := ∃ mgr, s.memory = some mgr ∧ mgr.Working

def fileMode (s : ProtectionWorld) : Option GuardMode := s.policy.map (·.mode)

/-- A step of an operation: the mode of the policy file stays, or is that of the
    operation, and the memory can still be worked with. -/
theorem Working.exec {t : ProtectionWorld} {o : ProtectionOp} {x : ProtectionChoice} {a : o.Ans}
    {mode : GuardMode} (h : s.Working) (ho : ProtectionManager.WritesMode mode o)
    (hx : exec o x s = some (a, t)) : t.Working ∧ (t.fileMode = s.fileMode ∨ t.fileMode = some mode) ∧
      ProtectionManager.LocksWorking o a := by
  obtain ⟨hmemory, hpolicy⟩ := exec_frame hx
  obtain ⟨mgr, hmgr, hworking⟩ := h
  refine ⟨?_, ?_, ?_⟩
  · rcases hmemory with hmemory | ⟨mgr', rfl, hmemory⟩
    · exact ⟨mgr, hmemory.trans hmgr, hworking⟩
    · exact ⟨mgr', hmemory, ho⟩
  · rcases hpolicy with hpolicy | ⟨policy, rfl, hpolicy⟩
    · exact .inl (congrArg (Option.map PolicySnapshot.mode) hpolicy)
    · exact .inr (by rw [fileMode, hpolicy]; exact congrArg some ho)
  · cases o with
    | lockWriter call =>
      obtain ⟨hmgr', -⟩ := of_exec_lockWriter hx
      exact Option.some.inj (hmgr.symm.trans hmgr') ▸ hworking
    | _ => trivial

/-- There is a version after that of the manager and that of the guard state. -/
def Room : ProtectionOp → ProtectionWorld → Prop
  | .lockWriter (.writeForState version), s =>
    ∀ mgr ∈ s.memory, max mgr.current.policyVersion version + 1 < 2 ^ 64
  | _, _ => True

instance (o : ProtectionOp) (s : ProtectionWorld) : Decidable (Room o s) := by
  unfold Room
  split <;> infer_instance

variable (C) in
/-- Nothing fails, and the versions are not exhausted. -/
def Flowing (o : ProtectionOp) (x : ProtectionChoice) (s : ProtectionWorld) : Prop :=
  Healthy C o x s ∧ Room o s

instance (o : ProtectionOp) (x : ProtectionChoice) (s : ProtectionWorld) :
    Decidable (Flowing C o x s) := inferInstanceAs (Decidable (_ ∧ _))

section Publish

variable {allow : ProtectionCondition}
  {inv : ProtectionWorld → Prop}

open ProtectionManager in
theorem safe_readBack_ok {policy : PolicySnapshot} {next : CurrentProtection} {expires : ℕ}
    (hallow : ∀ o x s, allow o x s → Healthy C o x s)
    (hpolicy : policy.Sound C.toCodec expires) (hnext : next.settings.Valid)
    (hfile : s.policy = some policy) (hmetadata : s.metadata = some (.new C next)) :
    (readBack C policy next).Safe (setting allow inv) .alone (fun r t => r = .ok () ∧ t = s) s := by
  refine .call_alone fun hs x r t hC hx => ⟨?_, ?_⟩
  all_goals obtain ⟨rfl, fault, rfl, rfl⟩ := of_exec_readPolicy hx
  · exact hs
  obtain rfl : fault = none := by cases hallow _ _ _ hC; rfl
  rw [AtomicStore.readExisting_none, hfile]
  refine .call_alone fun hs x r u hC hx => ⟨?_, ?_⟩
  all_goals obtain ⟨rfl, fault, rfl, rfl⟩ := of_exec_readMetadata hx
  · exact hs
  obtain rfl : fault = none := by cases hallow _ _ _ hC; rfl
  rw [AtomicStore.readExisting_none, hmetadata]
  refine .call_alone fun hs x now v hC hx => ?_
  obtain ⟨rfl, rfl⟩ := of_exec_nowUtc hx
  have hnow : now < expires := hallow _ _ _ hC policy hfile expires hpolicy.expiresAt
  exact ⟨hs, .ret_alone fun _ => ⟨checkReadBack_self hpolicy hnow hnext, rfl⟩⟩

/-- What comes of a policy that is to be published: it is in the file, or
    something failed, which it does not if `strict`. -/
def Publishes (C : ProtectionCodec) (mgr : ProtectionManager) (mode : GuardMode)
    (next : CurrentProtection) (rules : List ClientRule) (strict : Prop) (s : ProtectionWorld)
    (r : PolicyResult Unit) (t : ProtectionWorld) : Prop :=
  t.memory = s.memory ∧
    ((∃ now p, buildPolicyAt C mode next.policyVersion mgr.limits next.settings now = .ok p ∧
        r = .ok () ∧ t.policy = some (withClientRules C p rules)) ∨
      ¬strict ∧ ∃ e, r = .error e)

open ProtectionManager in
theorem safe_publish {strict : Prop} {mgr : ProtectionManager} {mode : GuardMode}
    {next : CurrentProtection} {rules : List ClientRule}
    (hallow : strict → ∀ o x s, allow o x s → Healthy C o x s)
    (hinv : ∀ s t, t.memory = s.memory → inv s → inv t) (hnext : next.settings.Valid)
    (hlimits : mgr.limits.Positive) : (mgr.publish C mode next rules).Safe (setting allow inv) .alone
      (Publishes C mgr mode next rules strict s) s := by
  refine .call_alone fun hs x now t hC hx => ?_
  obtain ⟨rfl, rfl⟩ := of_exec_nowUtc hx
  refine ⟨hs, ?_⟩
  split
  · next e he =>
    refine .ret_alone fun _ => ⟨rfl, .inr ⟨fun h => ?_, e, rfl⟩⟩
    obtain ⟨hgenerated, hexpires⟩ := hallow h _ _ _ hC
    obtain ⟨p, hp⟩ := exists_buildPolicyAt hnext hgenerated hexpires
    exact nomatch he.symm.trans hp
  next policy hpolicy =>
  have hgen := (generatedPolicy_of_buildPolicyAt hpolicy).withClientRules rules
  refine .call_alone fun hs x r u hC hx => ?_
  obtain ⟨fault, rfl, rfl, rfl⟩ := of_exec_writeMetadata hx
  refine ⟨hinv t _ rfl hs, ?_⟩
  cases fault with
  | some fault =>
    exact .ret_alone fun _ => ⟨rfl, .inr ⟨fun h => (nomatch hallow h _ _ _ hC), _, rfl⟩⟩
  | none =>
    refine .call_alone fun hs x r u hC hx => ?_
    obtain ⟨fault, rfl, rfl, rfl⟩ := of_exec_writePolicy hx
    refine ⟨hinv (t.writeMetadata _ _) _ rfl hs, ?_⟩
    cases fault with
    | some fault =>
      refine .call_alone fun hs x r u hC' hx => ?_
      obtain ⟨_, rfl, rfl, rfl⟩ := of_exec_rewriteMetadata hx
      refine ⟨hinv ((t.writeMetadata _ _).writePolicy _ _) _ rfl hs,
        .ret_alone fun _ => ⟨rfl, .inr ⟨fun h => ?_, _, rfl⟩⟩⟩
      exact nomatch hallow h _ _ _ hC
    | none =>
      by_cases hstrict : strict
      · refine (safe_readBack_ok (hallow hstrict) (hgen.sound hlimits) hnext rfl rfl).weaken ?_
        rintro r v _ ⟨rfl, rfl⟩
        exact ⟨rfl, .inl ⟨now, policy, hpolicy, rfl, rfl⟩⟩
      · refine (safe_readBack C).weaken ?_
        rintro (e | _) v _ rfl
        · exact ⟨rfl, .inr ⟨hstrict, e, rfl⟩⟩
        · exact ⟨rfl, .inl ⟨now, policy, hpolicy, rfl, rfl⟩⟩

end Publish

open ProtectionManager in
/-- Where nothing fails, the policy of a guard state is written. -/
theorem safe_writeForState {state : GuardState} : (writeForState C state).Safe
    (setting (Flowing C) Working) .alone (fun r t =>
      (∃ version, r = .ok { state with policyVersion := version }) ∧
        t.fileMode = some state.currentMode) s := by
  refine .call_alone fun hs x mgr t hallow hx => ?_
  obtain ⟨hmgr, rfl⟩ := of_exec_lockWriter hx
  have hworking : mgr.Working := by
    obtain ⟨mgr', hmgr', h⟩ := hs
    exact Option.some.inj (hmgr'.symm.trans hmgr) ▸ h
  refine ⟨hs, ?_⟩
  dsimp only
  rw [nextVersion_of_lt (hallow.2 mgr hmgr)]
  refine .bind
    (R := fun (r : PolicyResult GuardState × ProtectionManager) t =>
      r.2.Working ∧ (∃ version, r.1 = .ok { state with policyVersion := version }) ∧
        t.fileMode = some state.currentMode) ?_ fun r u _ hr => ?_
  · have hkeeps : ∀ s t : ProtectionWorld, t.memory = s.memory → s.Working → t.Working :=
      fun _ _ h ⟨mgr, hmgr, hw⟩ => ⟨mgr, h.trans hmgr, hw⟩
    have hflowing : True → ∀ o x s, Flowing C o x s → Healthy C o x s := fun _ _ _ _ h => h.1
    refine .bind (safe_publish hflowing hkeeps ?_ hworking.limits) fun r u _ hr => ?_
    · exact hworking.settings
    rcases hr.2 with ⟨now, p, hp, rfl, hfile⟩ | ⟨h, -⟩
    · refine .ret_alone fun _ => ⟨⟨hworking.settings, hworking.limits⟩, ⟨_, rfl⟩, ?_⟩
      rw [fileMode, hfile]
      exact congrArg some ((generatedPolicy_of_buildPolicyAt hp).withClientRules mgr.clientRules).mode
    · exact absurd trivial h
  refine .call_alone fun _ x _ v _ hx => ?_
  rw [of_exec_unlockWriter hx]
  exact ⟨⟨r.2, rfl, hr.1⟩, .ret_alone fun _ => hr.2⟩

end ProtectionWorld

end VpsGuard
