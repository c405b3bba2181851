import VpsGuard.Protection.Files

/-!
# Recovery at a start

After a crash, the manager is loaded from what the two files hold: the
metadata leads, and the policy of a later version is accepted if its limits are
those of the settings in the metadata. This module is about which histories
of failed writes and crashes leave files that can be loaded.

In every run in which operations find the settings of the memory in the
metadata, and a policy whose write fails although it is visible has the limits
of the settings before (`Recoverable`), a start succeeds with the settings
before or after the operation in progress, and leaves the policy of what it
loaded (`load_recovers`). Without these conditions it need not succeed: new
settings whose policy is visible although its write failed leave a policy that
the metadata, written back, does not match (`load_refused`).
-/

namespace VpsGuard

open Effect ProtectionManager

namespace ProtectionWorld

/-- Operations find the settings of the memory in the metadata, and new
    settings find a policy that is not ahead of the memory. A policy whose write
    fails although it is visible has the limits of the settings before. -/
def Recoverable : ProtectionCondition
  | .lockWriter call, _, s => ∀ mgr ∈ s.memory, s.stored.settings = mgr.current.settings ∧
    (call.settings mgr ≠ mgr.current.settings → s.fileVersion ≤ mgr.current.policyVersion)
  | .writePolicy policy, x, s => x = .write (some .syncParent) → ∀ mgr ∈ s.memory,
    policy.routeRules = mgr.current.settings.routeRules policy.mode
  | _, _, _ => True

instance (o : ProtectionOp) (x : ProtectionChoice) (s : ProtectionWorld) :
    Decidable (Recoverable o x s) :=
  match o with
  | .lockWriter _ => inferInstanceAs (Decidable (∀ _ ∈ _, _ ∧ _))
  | .writePolicy _ => inferInstanceAs (Decidable (_ → ∀ _ ∈ _, _))
  | .unlockWriter _ | .nowUtc _ | .readPolicy | .readMetadata | .writeMetadata _
  | .rewriteMetadata _ => .isTrue trivial

/-- The policy has the limits of the settings, if it is not of an earlier version. -/
def Agrees (s : ProtectionWorld) (current : CurrentProtection) : Prop :=
  ∀ p ∈ s.policy, current.policyVersion ≤ p.policyVersion →
    p.routeRules = current.settings.routeRules p.mode

variable (C : ProtectionCodec)

/-- Files that can be loaded. -/
structure Consistent (s : ProtectionWorld) : Prop where
  empty : s.metadata = none → s.policy = none ∧ s.returned = []
  policy : ∀ p ∈ s.policy, ∃ expires, p.Sound C.toCodec expires ∧ 0 < expires
  metadata : ∀ m ∈ s.metadata, m.validate C = .ok ()
  agrees : s.Agrees s.stored
  returned : ∀ v ∈ s.returned, v ≤ max s.fileVersion s.stored.policyVersion
  settings : s.stored.settings = s.before ∨ s.stored.settings = s.after

/-- The files are those of the current protection. -/
structure Follows (current : CurrentProtection) (limits : StaticLimits) (s : ProtectionWorld) :
    Prop where
  valid : current.settings.Valid
  limits : limits.Positive
  metadata : s.metadata.isSome
  version : current.policyVersion ≤ s.stored.policyVersion
  returned : ∀ v ∈ s.returned, v ≤ current.policyVersion
  agrees : s.stored.settings = current.settings → s.Agrees current

variable {C} {s t : ProtectionWorld} {current : CurrentProtection} {limits : StaticLimits}
  {p : PolicySnapshot} {mode : GuardMode}

theorem le_fileVersion (hp : s.policy = some p) : s.fileVersion = p.policyVersion := by
  rw [fileVersion, hp]; rfl

/-! ## Writes of the files -/

theorem stored_writeMetadata_or (c : CurrentProtection) (fault : Option WriteFault) :
    (s.writeMetadata (.new C c) fault).metadata = some (.new C c) ∨
      s.writeMetadata (.new C c) fault = s ∧ fault ≠ none := by
  rcases AtomicStore.written_eq_or (.new C c) s.metadata fault with h | ⟨h, hfault⟩
  · exact .inl h
  · exact .inr ⟨by rw [writeMetadata, h], hfault⟩

theorem Consistent.writeMetadata (h : s.Consistent C) (hvalid : current.settings.Valid)
    (hsettings : current.settings = s.before ∨ current.settings = s.after)
    (hagrees : s.Agrees current)
    (hreturned : ∀ v ∈ s.returned, v ≤ max s.fileVersion current.policyVersion)
    (fault : Option WriteFault) : (s.writeMetadata (.new C current) fault).Consistent C := by
  rcases stored_writeMetadata_or (C := C) (s := s) current fault with hm | ⟨hsame, -⟩
  · have hstored : (s.writeMetadata (.new C current) fault).stored = current := by
      rw [stored, hm]; rfl
    refine ⟨fun hnone => absurd (hm.symm.trans hnone) (by simp), h.policy, ?_, ?_, ?_, ?_⟩
    · intro m hmem
      obtain rfl := Option.some.inj (hm.symm.trans hmem)
      exact PersistedProtection.validate_new C hvalid
    · rw [hstored]
      exact hagrees
    · rw [hstored]
      exact hreturned
    · rw [hstored]
      exact hsettings
  · rw [hsame]
    exact h

theorem Consistent.writePolicy (h : s.Consistent C) (hmetadata : s.metadata.isSome) {expires : ℕ}
    (hsound : p.Sound C.toCodec expires) (hpos : 0 < expires)
    (hagrees : p.routeRules = s.stored.settings.routeRules p.mode)
    (hreturned : ∀ v ∈ s.returned, v ≤ max p.policyVersion s.stored.policyVersion)
    (fault : Option WriteFault) : (s.writePolicy p fault).Consistent C := by
  rcases AtomicStore.written_eq_or p s.policy fault with hp | ⟨hp, -⟩
  all_goals have hpolicy : (s.writePolicy p fault).policy = _ := hp
  · refine ⟨fun hnone => ?_, ?_, h.metadata, ?_, ?_, h.settings⟩
    · rw [show s.metadata = none from hnone] at hmetadata
      cases hmetadata
    · intro q hq
      obtain rfl := Option.some.inj (hpolicy.symm.trans hq)
      exact ⟨expires, hsound, hpos⟩
    · intro q hq _
      obtain rfl := Option.some.inj (hpolicy.symm.trans hq)
      exact hagrees
    · rw [le_fileVersion hpolicy]
      exact hreturned
  · refine ⟨fun hnone => ⟨hpolicy.trans (h.empty hnone).1, (h.empty hnone).2⟩, ?_, h.metadata, ?_, ?_,
      h.settings⟩
    · intro q hq
      exact h.policy q (hpolicy.symm.trans hq)
    · intro q hq
      exact h.agrees q (hpolicy.symm.trans hq)
    · rw [show (s.writePolicy p fault).fileVersion = s.fileVersion by rw [fileVersion, hpolicy]; rfl]
      exact h.returned

theorem Follows.writeMetadata (h : Follows current limits s) (hagrees : s.Agrees current)
    {c : CurrentProtection} (hc : current.policyVersion ≤ c.policyVersion)
    (fault : Option WriteFault) :
    Follows current limits (s.writeMetadata (.new C c) fault) := by
  rcases stored_writeMetadata_or (C := C) (s := s) c fault with hm | ⟨hsame, -⟩
  · refine ⟨h.valid, h.limits, Option.isSome_iff_exists.2 ⟨_, hm⟩, ?_, h.returned, fun _ => hagrees⟩
    rw [stored, hm]
    exact hc
  · rw [hsame]
    exact h

theorem Follows.writePolicy (h : Follows current limits s) {fault : Option WriteFault}
    (hagrees : (s.writePolicy p fault).Agrees current) :
    Follows current limits (s.writePolicy p fault) :=
  ⟨h.valid, h.limits, h.metadata, h.version, h.returned, fun _ => hagrees⟩

/-! ## The operations -/

/-- What an operation that is going to write finds. -/
structure Begun (call : ProtectionCall) (mgr : ProtectionManager) (s : ProtectionWorld) : Prop where
  memory : s.memory = some mgr
  before : s.before = mgr.current.settings
  after : s.after = call.settings mgr
  follows : Follows mgr.current mgr.limits s
  agrees : s.Agrees mgr.current
  valid : (call.settings mgr).Valid
  /-- New settings find a policy that is not ahead. -/
  behind : call.settings mgr ≠ mgr.current.settings → s.fileVersion ≤ mgr.current.policyVersion

variable {call : ProtectionCall} {mgr : ProtectionManager}

theorem begun_lock {x : ProtectionChoice} (hmgr : s.memory = some mgr)
    (hs : Follows mgr.current mgr.limits s) (hallow : Recoverable (.lockWriter call) x s)
    (hvalid : ∀ settings, call = .apply settings → settings.Valid) :
    Begun call mgr (s.lock call mgr) := by
  obtain ⟨hsettings, hbehind⟩ := hallow mgr hmgr
  refine ⟨hmgr, rfl, rfl, ⟨hs.valid, hs.limits, hs.metadata, hs.version, hs.returned, hs.agrees⟩,
    hs.agrees hsettings, ?_, hbehind⟩
  cases call with
  | apply settings => exact hvalid settings rfl
  | writeForState _ => exact hs.valid
  | clientRules => exact hs.valid

theorem Begun.agrees_next (h : Begun call mgr s) : s.Agrees (call.next mgr) := by
  intro p hp hle
  have hlt : mgr.current.policyVersion < p.policyVersion :=
    Nat.lt_of_lt_of_le (Nat.lt_succ_of_le ProtectionCall.le_base) hle
  by_cases hsame : call.settings mgr = mgr.current.settings
  · rw [show (call.next mgr).settings = mgr.current.settings from hsame]
    exact h.agrees p hp (Nat.le_of_lt hlt)
  · exact absurd (h.behind hsame) (Nat.not_le.2 (le_fileVersion hp ▸ hlt))

theorem Begun.le_next (_ : Begun call mgr s) :
    mgr.current.policyVersion ≤ (call.next mgr).policyVersion :=
  Nat.le_succ_of_le ProtectionCall.le_base

theorem Begun.returned_le_next (h : Begun call mgr s) :
    ∀ v ∈ s.returned, v ≤ (call.next mgr).policyVersion :=
  fun v hv => Nat.le_trans (h.follows.returned v hv) h.le_next

/-- The policy agrees with the memory after a failure to write `p`, which is
    either not visible or has the limits of the memory. -/
theorem Begun.agrees_of_fault (h : Begun call mgr s) (fault : WriteFault)
    (hp : fault = .syncParent → p.routeRules = mgr.current.settings.routeRules p.mode)
    (m : PersistedProtection) :
    ((s.writeMetadata m none).writePolicy p (some fault)).Agrees mgr.current := by
  rintro q hq hle
  cases fault with
  | syncParent =>
    obtain rfl : p = q := Option.some.inj hq
    exact hp rfl
  | _ => exact h.agrees q hq hle

theorem safe_rewriteMetadata {e : ProtectionPolicyError} (hs : Follows mgr.current mgr.limits s)
    (hbefore : s.before = mgr.current.settings) (hagrees : s.Agrees mgr.current) :
    (Prog.call (.rewriteMetadata (.new C mgr.current)) fun _ => .ret (.error e) :
      Prog Protection (PolicyResult Unit)).Safe
      (setting Recoverable (Consistent C)) .alone
      (fun r t => r = .error e ∧ Follows mgr.current mgr.limits t) s := by
  refine .call_alone fun hinv x r t _ hx => ?_
  obtain ⟨fault, -, -, rfl⟩ := of_exec_rewriteMetadata hx
  refine ⟨hinv.writeMetadata hs.valid (.inl hbefore.symm) hagrees
    (fun v hv => Nat.le_trans (hs.returned v hv) (Nat.le_max_right _ _)) fault, ?_⟩
  exact .ret_alone fun _ => ⟨rfl, hs.writeMetadata hagrees (Nat.le_refl _) fault⟩

theorem Begun.safe_publish (h : Begun call mgr s) (mode : GuardMode) (rules : List ClientRule) :
    (mgr.publish C mode (call.next mgr) rules).Safe (setting Recoverable (Consistent C)) .alone
      (fun r t => Follows (if r = .ok () then call.next mgr else mgr.current) mgr.limits t) s := by
  refine .call_alone fun hinv x now t _ hx => ?_
  obtain ⟨-, rfl⟩ := of_exec_nowUtc hx
  refine ⟨hinv, ?_⟩
  split
  · exact .ret_alone fun _ => h.follows
  next policy hpolicy =>
  have hgen := (generatedPolicy_of_buildPolicyAt hpolicy).withClientRules rules
  refine .call_alone fun hinv x r u _ hx => ?_
  obtain ⟨fault, -, rfl, rfl⟩ := of_exec_writeMetadata hx
  refine ⟨hinv.writeMetadata h.valid (.inr h.after.symm) h.agrees_next
    (fun v hv => Nat.le_trans (h.returned_le_next v hv) (Nat.le_max_right _ _)) fault, ?_⟩
  cases fault with
  | some fault =>
    exact .ret_alone fun _ => h.follows.writeMetadata h.agrees h.le_next (some fault)
  | none =>
  -- the metadata is that of what is next, and the policy agrees with it
  refine .call_alone fun hinv x r u hallow hx => ?_
  obtain ⟨fault, rfl, rfl, rfl⟩ := of_exec_writePolicy hx
  have hreturned : ∀ v ∈ t.returned, v ≤ (withClientRules C policy rules).policyVersion :=
    hgen.policyVersion ▸ h.returned_le_next
  refine ⟨hinv.writePolicy rfl (hgen.sound h.follows.limits) (Nat.lt_add_left now (by decide))
    hgen.routeRules (fun v hv => Nat.le_trans (hreturned v hv) (Nat.le_max_left _ _)) fault, ?_⟩
  cases fault with
  | none =>
    refine (safe_readBack C).weaken fun r v _ hv => ?_
    subst hv
    have hagrees : ∀ c : CurrentProtection, c.settings = call.settings mgr →
        ((t.writeMetadata (.new C (call.next mgr)) none).writePolicy
          (withClientRules C policy rules) none).Agrees c := by
      rintro c hc q ⟨⟩ _
      rw [hc]
      exact hgen.routeRules
    split
    · exact ⟨h.valid, h.follows.limits, rfl, Nat.le_refl _, h.returned_le_next,
        fun _ => hagrees _ rfl⟩
    · exact ⟨h.follows.valid, h.follows.limits, rfl, h.le_next, h.follows.returned,
        fun hsettings => hagrees _ hsettings.symm⟩
  | some fault =>
    have hagrees := h.agrees_of_fault fault
      (fun hvisible => hallow (by rw [hvisible]) mgr h.memory) (.new C (call.next mgr))
    have hfollows := (h.follows.writeMetadata (C := C) h.agrees h.le_next none).writePolicy hagrees
    refine (safe_rewriteMetadata hfollows h.before hagrees).weaken ?_
    rintro r v _ ⟨rfl, hv⟩
    exact hv

/-! ## A start -/

/-- The policy file is that of what is current, if there is a policy at all. -/
def Published (s : ProtectionWorld) (current : CurrentProtection) : Prop :=
  s.policy = none ∧ current.policyVersion = 0 ∨
    ∃ p, s.policy = some p ∧ p.policyVersion = current.policyVersion ∧
      p.routeRules = current.settings.routeRules p.mode

/-- What a start has recovered. -/
structure Recovered (limits : StaticLimits) (s : ProtectionWorld) (current : CurrentProtection)
    (t : ProtectionWorld) : Prop where
  follows : Follows current limits t
  published : t.Published current
  settings : current.settings = s.before ∨ current.settings = s.after
  returned : t.returned = s.returned

/-- A start from `s` that leads to what is recovered, or to an error in spite
    of `fine`. -/
def RecoversTo (fine : Prop) (limits : StaticLimits) (s : ProtectionWorld) :
    PolicyResult CurrentProtection → ProtectionWorld → Prop
  | .ok current, t => Recovered limits s current t
  | .error _, _ => ¬fine

section Start

variable {allow : ProtectionCondition} {fine : Prop}
  {m : PersistedProtection} {mode : GuardMode}

theorem Consistent.returned_le (h : s.Consistent C) {n : ℕ} (hfile : s.fileVersion ≤ n)
    (hstored : s.stored.policyVersion ≤ n) : ∀ v ∈ s.returned, v ≤ n :=
  fun v hv => Nat.le_trans (h.returned v hv) (Nat.max_le.2 ⟨hfile, hstored⟩)

theorem stored_of_metadata (hm : s.metadata = some m) : s.stored = m.current := by
  rw [stored, hm]; rfl

section

variable (hfine : fine → ∀ o x s, allow o x s → Healthy C o x s) (hlimits : limits.Positive)

include hfine hlimits

open ProtectionManager in
theorem safe_writeRecoveredMetadata (hvalid : current.settings.Valid)
    (hsettings : current.settings = s.before ∨ current.settings = s.after)
    (hpublished : s.Published current) (hreturned : ∀ v ∈ s.returned, v ≤ current.policyVersion) :
    (writeRecoveredMetadata C current).Safe (setting allow (Consistent C)) .alone
      (RecoversTo fine limits s) s := by
  have hagrees : s.Agrees current := by
    intro p hp _
    rcases hpublished with ⟨hnone, -⟩ | ⟨q, hq, -, hrules⟩
    · exact absurd (hnone.symm.trans hp) (by simp)
    · exact Option.some.inj (hq.symm.trans hp) ▸ hrules
  refine .call_alone fun hinv x r t hallow hx => ?_
  obtain ⟨fault, rfl, rfl, rfl⟩ := of_exec_writeMetadata hx
  refine ⟨hinv.writeMetadata hvalid hsettings hagrees
    (fun v hv => Nat.le_trans (hreturned v hv) (Nat.le_max_right _ _)) fault, ?_⟩
  cases fault with
  | none =>
    exact .ret_alone fun _ =>
      ⟨⟨hvalid, hlimits, rfl, Nat.le_refl _, hreturned, fun _ => hagrees⟩, hpublished, hsettings,
        rfl⟩
  | some fault =>
    exact .ret_alone fun _ h => absurd (hfine h _ _ _ hallow) (by simp [Healthy])

variable (hm : s.metadata = some m) (hlt : s.fileVersion < m.policyVersion)

include hm hlt

open ProtectionManager in
theorem safe_writeRecoveredPolicy :
    (writeRecoveredPolicy C mode m.current limits).Safe (setting allow (Consistent C)) .alone
      (fun r t => RecoversTo fine limits s (r.map fun _ => m.current) t) s := by
  have hstored := stored_of_metadata hm
  refine .call_alone fun hinv x now t hallow hx => ?_
  obtain ⟨rfl, rfl⟩ := of_exec_nowUtc hx
  have hvalid := PersistedProtection.settings_valid (hinv.metadata m hm)
  refine ⟨hinv, ?_⟩
  split
  · next e he =>
    -- The policy can be built where nothing fails.
    refine .ret_alone fun _ h => ?_
    obtain ⟨hnow, hexpires⟩ := hfine h _ _ _ hallow
    obtain ⟨p, hp⟩ := exists_buildPolicyAt hvalid hnow hexpires
    cases hp.symm.trans he
  next p hp =>
  have hgen := generatedPolicy_of_buildPolicyAt hp
  have hsound := hgen.sound hlimits
  refine .call_alone fun hinv x r u hallow hx => ?_
  obtain ⟨fault, rfl, rfl, rfl⟩ := of_exec_writePolicy hx
  have hreturned : ∀ v ∈ t.returned, v ≤ m.policyVersion :=
    hinv.returned_le (Nat.le_of_lt hlt) (Nat.le_of_eq (congrArg _ hstored))
  refine ⟨hinv.writePolicy (by rw [hm]; rfl) hsound (Nat.lt_add_left now (by decide))
    (by rw [hstored]; exact hgen.routeRules)
    (fun v hv => Nat.le_trans (hreturned v hv) (by rw [hgen.policyVersion]; exact Nat.le_max_left _ _))
    fault, ?_⟩
  cases fault with
  | some fault =>
    exact .ret_alone fun _ h => absurd (hfine h _ _ _ hallow) (by simp [Healthy])
  | none =>
  refine .call_alone fun hinv x r u hallow hx => ?_
  obtain ⟨rfl, fault, rfl, rfl⟩ := of_exec_readPolicy hx
  refine ⟨hinv, ?_⟩
  cases fault with
  | some fault =>
    exact .ret_alone fun _ h => absurd (hfine h _ _ _ hallow) (by simp [Healthy])
  | none =>
  refine .call_alone fun hinv x now' u hallow hx => ?_
  obtain ⟨rfl, rfl⟩ := of_exec_nowUtc hx
  refine ⟨hinv, ?_⟩
  dsimp only [writePolicy]
  split
  · next e he =>
    refine .ret_alone fun _ h => ?_
    have hnow := hfine h _ _ _ hallow p rfl _ hsound.expiresAt
    cases (PolicySnapshot.validateAt_eq_ok_iff.2 ⟨_, hsound, hnow⟩).symm.trans he
  · rw [if_neg (not_not.2 hgen.policyVersion),
      ensurePolicyMatchesSettings_eq_ok_iff.2 hgen.routeRules]
    refine .ret_alone fun _ => ⟨⟨hvalid, hlimits, ?_, ?_, hreturned, fun _ => ?_⟩, ?_, ?_, rfl⟩
    · exact Option.isSome_iff_exists.2 ⟨m, hm⟩
    · exact Nat.le_of_eq (congrArg _ hstored.symm)
    · rintro q ⟨⟩ _
      exact hgen.routeRules
    · exact .inr ⟨p, rfl, hgen.policyVersion, hgen.routeRules⟩
    · exact hstored ▸ hinv.settings

open ProtectionManager in
theorem safe_recoverPolicy :
    (recoverPolicy C mode m limits).Safe (setting allow (Consistent C)) .alone
      (RecoversTo fine limits s) s := by
  refine (safe_writeRecoveredPolicy hfine hlimits hm hlt).bind fun r t _ hr => ?_
  cases r with
  | error e => exact .ret_alone fun _ => hr
  | ok _ => exact .ret_alone fun _ => hr

end

theorem Consistent.recoversTo (h : s.Consistent C) (hlimits : limits.Positive)
    (hm : s.metadata = some m) (hfile : s.fileVersion ≤ m.policyVersion)
    (hpublished : s.Published m.current) : RecoversTo fine limits s (.ok m.current) s := by
  have hstored := stored_of_metadata hm
  have hversion : s.stored.policyVersion = m.policyVersion := congrArg _ hstored
  exact ⟨⟨PersistedProtection.settings_valid (h.metadata m hm), hlimits,
    Option.isSome_iff_exists.2 ⟨m, hm⟩, Nat.le_of_eq hversion.symm,
    h.returned_le hfile (Nat.le_of_eq hversion), fun _ => hstored ▸ h.agrees⟩,
    hpublished, hstored ▸ h.settings, rfl⟩

variable {v : ℕ} (hfine : fine → (v = 0 ∨ v ∈ s.returned) ∧ ∀ o x s, allow o x s → Healthy C o x s)
  (hlimits : limits.Positive) (hinv : s.Consistent C)

include hfine hlimits hinv

open ProtectionManager in
theorem safe_recoverFiles :
    (recoverFiles C s.policy s.metadata v mode limits).Safe (setting allow (Consistent C)) .alone
      (RecoversTo fine limits s) s := by
  unfold recoverFiles
  cases hp : s.policy with
  | none =>
    have hfile : s.fileVersion = 0 := by rw [fileVersion, hp]; rfl
    cases hm : s.metadata with
    | none =>
      obtain ⟨-, hreturned⟩ := hinv.empty hm
      have hstored : s.stored = ⟨.default, 0⟩ := by rw [stored, hm]; rfl
      dsimp only
      split
      · next hv =>
        refine .ret_alone fun _ h => ?_
        rcases (hfine h).1 with rfl | hmem
        · exact Nat.lt_irrefl 0 hv
        · rw [hreturned] at hmem
          cases hmem
      · exact safe_writeRecoveredMetadata (fun h => (hfine h).2) hlimits
          ProtectionSettings.valid_default (hstored ▸ hinv.settings) (.inl ⟨hp, rfl⟩)
          (by simp [hreturned])
    | some m =>
      dsimp only
      split
      · next hpos => exact safe_recoverPolicy (fun h => (hfine h).2) hlimits hm (hfile ▸ hpos)
      · next hpos =>
        have hzero : m.policyVersion = 0 := Nat.eq_zero_of_not_pos hpos
        exact .ret_alone fun _ =>
          hinv.recoversTo hlimits hm (Nat.le_of_eq (hfile.trans hzero.symm)) (.inl ⟨hp, hzero⟩)
  | some p =>
    have hfile := le_fileVersion hp
    cases hm : s.metadata with
    | none => exact absurd ((hinv.empty hm).1.symm.trans hp) (by simp)
    | some m =>
      have hstored := stored_of_metadata hm
      have hagrees : m.policyVersion ≤ p.policyVersion →
          p.routeRules = m.settings.routeRules p.mode :=
        fun hle => (hstored ▸ hinv.agrees : s.Agrees m.current) p hp hle
      have hsettings : m.settings = s.before ∨ m.settings = s.after :=
        (hstored ▸ hinv.settings : m.current.settings = s.before ∨ m.current.settings = s.after)
      dsimp only
      split
      · -- the policy is ahead, and agrees with the metadata
        next hlt =>
        have hrules := hagrees (Nat.le_of_lt hlt)
        rw [ensurePolicyMatchesSettings_eq_ok_iff.2 hrules]
        exact safe_writeRecoveredMetadata (fun h => (hfine h).2) hlimits
          (PersistedProtection.settings_valid (hinv.metadata m hm)) hsettings
          (.inr ⟨p, hp, rfl, hrules⟩)
          (hinv.returned_le (Nat.le_of_eq hfile) (hstored ▸ Nat.le_of_lt hlt))
      · next hle =>
        split
        · next hlt => exact safe_recoverPolicy (fun h => (hfine h).2) hlimits hm (hfile ▸ hlt)
        · next hle' =>
          have heq : p.policyVersion = m.policyVersion :=
            Nat.le_antisymm (Nat.not_lt.1 hle) (Nat.not_lt.1 hle')
          have hrules := hagrees (Nat.le_of_eq heq.symm)
          rw [ensurePolicyMatchesSettings_eq_ok_iff.2 hrules]
          exact .ret_alone fun _ => hinv.recoversTo hlimits hm
            (Nat.le_of_eq (hfile.trans heq)) (.inr ⟨p, hp, heq, hrules⟩)

open ProtectionManager in
theorem safe_load_recovers (mode : GuardMode) :
    (load C v mode limits).Safe (setting allow (Consistent C)) .alone
      (fun r t => LoadedAs (RecoversTo fine limits s) limits t r) s := by
  refine safe_load ?_ ?_ ?_ ?_
  · intro fault e hfault hallow h
    rcases hallow with hallow | hallow <;>
      exact hfault (ProtectionChoice.read.inj ((hfine h).2 _ _ _ hallow))
  · intro p hp hinv hvalid e h
    obtain ⟨expires, hsound, hpos⟩ := hinv.policy p hp
    exact hvalid (PolicySnapshot.validateAt_eq_ok_iff.2 ⟨expires, hsound, hpos⟩)
  · intro m hm hinv hvalid e h
    exact hvalid (hinv.metadata m hm)
  · refine (safe_recoverFiles hfine hlimits hinv).bind fun r t _ hr => ?_
    cases r with
    | error e => exact .ret_alone fun _ => hr
    | ok current =>
      dsimp only
      split
      · next hv =>
        refine .ret_alone fun _ h => ?_
        rcases (hfine h).1 with rfl | hmem
        · exact Nat.not_lt_zero _ hv
        · exact absurd (hr.follows.returned v (hr.returned ▸ hmem)) (Nat.not_le.2 hv)
      · exact .ret_alone fun _ => hr

end Start

theorem sustains_consistent : Sustains C Recoverable (Consistent C) Follows where
  fresh := ⟨fun _ => ⟨rfl, rfl⟩, fun _ h => (nomatch h), fun _ h => (nomatch h),
    fun _ h => (nomatch h), fun _ h => (nomatch h), .inl rfl⟩
  crash h := ⟨h.empty, h.policy, h.metadata, h.agrees, h.returned, h.settings⟩
  load v mode hinv _ hlimits := by
    refine (safe_load_recovers (fun h : False => h.elim) hlimits hinv mode).weaken
      fun r t _ hr mgr hmgr => ?_
    subst hmgr
    exact hr.2 ▸ hr.1.follows
  lock h hmgr hidle hallow hvalid := by
    have hbegun := begun_lock hmgr hidle hallow hvalid
    refine ⟨⟨h.empty, h.policy, h.metadata, h.agrees, h.returned, .inl ?_⟩, hbegun.follows⟩
    exact (hallow _ hmgr).1
  publish mode rules _ hmgr hidle hallow hvalid :=
    (begun_lock hmgr hidle hallow hvalid).safe_publish mode rules
  unlock h hidle := ⟨⟨h.empty, h.policy, h.metadata, h.agrees, h.returned, h.settings⟩,
    ⟨hidle.valid, hidle.limits, hidle.metadata, hidle.version, hidle.returned, hidle.agrees⟩⟩
  respond h _ hidle hv := by
    refine ⟨⟨fun hnone => ?_, h.policy, h.metadata, h.agrees, ?_, h.settings⟩,
      ⟨hidle.valid, hidle.limits, hidle.metadata, hidle.version, ?_, hidle.agrees⟩⟩
    · obtain ⟨m, hm⟩ := Option.isSome_iff_exists.1 hidle.metadata
      exact absurd (hm.symm.trans hnone) (by simp)
    · rintro v (_ | ⟨_, hmem⟩)
      · exact Nat.le_trans (Nat.le_trans hv hidle.version) (Nat.le_max_right _ _)
      · exact h.returned v hmem
    · rintro v (_ | ⟨_, hmem⟩)
      · exact hv
      · exact hidle.returned v hmem

/-! ## What a start leads to -/

def OfStart : ProtectionOp → Prop
  | .lockWriter _ | .unlockWriter _ => False
  | _ => True

open ProtectionManager in
theorem performs_writeRecoveredPolicy :
    (writeRecoveredPolicy C mode current limits).Performs OfStart := by
  refine Prog.performs_call.2 ⟨trivial, fun now => ?_⟩
  split
  · exact trivial
  refine Prog.performs_call.2 ⟨trivial, fun r => ?_⟩
  split
  · exact trivial
  refine Prog.performs_call.2 ⟨trivial, fun r => ?_⟩
  split
  · exact trivial
  · exact trivial
  refine Prog.performs_call.2 ⟨trivial, fun now => ?_⟩
  split
  · exact trivial
  · split <;> exact trivial

open ProtectionManager in
theorem performs_recoverFiles {policy : Option PolicySnapshot}
    {metadata : Option PersistedProtection} {v : ℕ} :
    (recoverFiles C policy metadata v mode limits).Performs OfStart := by
  have hmetadata : ∀ current, (writeRecoveredMetadata C current).Performs OfStart :=
    fun _ => ⟨trivial, fun r => by cases r <;> exact trivial⟩
  have hpolicy : ∀ m, (recoverPolicy C mode m limits).Performs OfStart :=
    fun _ => performs_writeRecoveredPolicy.bind fun r => by cases r <;> exact trivial
  unfold recoverFiles
  split
  · split
    · exact trivial
    · exact hmetadata _
  · split
    · exact trivial
    · exact hmetadata _
  · split
    · exact hpolicy _
    · exact trivial
  · split
    · split
      · exact trivial
      · exact hmetadata _
    · split
      · exact hpolicy _
      · split <;> exact trivial

open ProtectionManager in
theorem performs_load {v : ℕ} : (load C v mode limits).Performs OfStart := by
  refine Prog.performs_call.2 ⟨trivial, fun r => ?_⟩
  split
  · exact trivial
  split
  · exact trivial
  refine Prog.performs_call.2 ⟨trivial, fun r => ?_⟩
  split
  · exact trivial
  split
  · exact trivial
  refine (performs_recoverFiles.bind fun r => ?_).bind fun r => ?_
  · cases r with
    | error e => exact trivial
    | ok current => dsimp only; split <;> exact trivial
  · cases r <;> exact trivial

theorem exists_healthy_step {now : ℕ} (hnow : (C.formatRfc3339 now).isSome)
    (hexpires : (C.formatRfc3339 (now + policyTtl)).isSome) (o : ProtectionOp) (s : ProtectionWorld)
    (ho : OfStart o) (hs : s.Consistent C) :
    ∃ x a t, Healthy C o x s ∧ exec o x s = some (a, t) := by
  cases o with
  | lockWriter call => exact ho.elim
  | unlockWriter mgr => exact ho.elim
  | nowUtc use =>
    cases use with
    | generate => exact ⟨.time now, _, _, ⟨hnow, hexpires⟩, rfl⟩
    | clientRule => exact ⟨.time 0, _, _, trivial, rfl⟩
    | readBack =>
      refine ⟨.time 0, _, _, fun p hp expires hexpires => ?_, rfl⟩
      obtain ⟨e, hsound, hpos⟩ := hs.policy p hp
      exact Option.some.inj (hsound.expiresAt.symm.trans hexpires) ▸ hpos
  | readPolicy => exact ⟨.read none, _, _, rfl, rfl⟩
  | readMetadata => exact ⟨.read none, _, _, rfl, rfl⟩
  | writePolicy policy => exact ⟨.write none, _, _, rfl, rfl⟩
  | writeMetadata metadata => exact ⟨.write none, _, _, rfl, rfl⟩
  | rewriteMetadata metadata => exact ⟨.write none, _, _, rfl, rfl⟩

/-- In every run whose steps are `Recoverable`, a crash at any point can be
    recovered from: a start in which nothing fails, with a version that was
    returned before, returns, and always with the settings before or after the
    last operation and with their policy in the file. -/
theorem load_recovers (hs : Reached C Recoverable s) {v : ℕ} (hv : v = 0 ∨ v ∈ s.returned)
    (mode : GuardMode) (hlimits : limits.Positive) (now : ℕ) (hnow : (C.formatRfc3339 now).isSome)
    (hexpires : (C.formatRfc3339 (now + policyTtl)).isSome) :
    (∃ r t, Prog.Runs machine (Healthy C) (load C v mode limits) s.crash r t) ∧
    ∀ r t, Prog.Runs machine (Healthy C) (load C v mode limits) s.crash r t →
      ∃ mgr, r = .ok mgr ∧
        (mgr.current.settings = s.before ∨ mgr.current.settings = s.after) ∧
        t.Published mgr.current := by
  have hinv : s.crash.Consistent C := sustains_consistent.crash (sustains_consistent.reached hs)
  have hload := safe_load_recovers (s := s.crash) (fun _ : True => ⟨hv, fun _ _ _ h => h⟩)
    hlimits hinv mode
  constructor
  · exact Prog.exists_runs (E := setting (Healthy C) (Consistent C)) performs_load
      (exists_healthy_step hnow hexpires) hload hinv
  · intro r t hr
    obtain ⟨hQ, -⟩ := hr.safe (E := setting (Healthy C) (Consistent C)) hload hinv
    cases r with
    | error e => exact absurd trivial hQ
    | ok mgr => exact ⟨mgr, rfl, hQ.1.settings, hQ.1.published⟩

/-- Settings with another limit than the default. -/
def stricter : ProtectionSettings :=
  { ProtectionSettings.default with watchStrictRequestsPerMinute := 60 }

/-- A process of a fresh installation that publishes `watch`, and is then given
    stricter settings. -/
def watchThenApply : ProtectionStart where
  statePolicyVersion := 0
  stateMode := .normal
  limits := ⟨1, 1⟩
  limits_positive := StaticLimits.positive_one
  requests :=
    [.writeForState { GuardState.normal "" with currentMode := .watch },
      .apply "a" ProtectionSettings.default.plainText
        (ProtectionSettings.default.plainText ++ stricter.plainText) stricter .watch]

open ProtectionChoice in
/-- The process crashes after both have succeeded. -/
theorem load_recovers_applied : ∃ s, Reached .plain Recoverable s ∧ 2 ∈ s.returned ∧
    ∃ mgr t, Prog.Runs machine (Healthy .plain) (load .plain 2 .watch ⟨1, 1⟩)
      s.crash (.ok mgr) t ∧ t.Published mgr.current := by
  obtain ⟨s, hs, hR⟩ := exists_reached .plain Recoverable watchThenApply
    (firstStart ++ succeeding ++ succeeding) (R := fun s => 2 ∈ s.returned) (by decide)
  have hmem : 2 ∈ s.returned := by simpa using hR
  obtain ⟨⟨r, t, hruns⟩, hall⟩ :=
    load_recovers hs (.inr hmem) .watch StaticLimits.positive_one 0 (by decide) (by decide)
  obtain ⟨mgr, rfl, -, hpublished⟩ := hall r t hruns
  exact ⟨s, hs, hmem, mgr, t, hruns, hpublished⟩

open ProtectionChoice in
/-- The policy of the stricter settings is visible although its write fails,
    and the metadata is written back: the start after a crash refuses the files. -/
theorem load_refused : ∃ s, Reached .plain (fun _ _ _ => True) s ∧ 1 ∈ s.returned ∧
    ∃ t, Prog.Runs machine (Healthy .plain) (load .plain 1 .watch ⟨1, 1⟩)
      s.crash (.error .policySettingsMismatch) t := by
  obtain ⟨s, hs, hR⟩ := exists_reached .plain (fun _ _ _ => True) watchThenApply
    (firstStart ++ succeeding ++ failingVisibly)
    (R := fun s => 1 ∈ s.returned ∧ ((Prog.run (machine.restrict (Healthy .plain))
      [.read none, .read none] (load .plain 1 .watch ⟨1, 1⟩) s.crash).any
        fun r => r.1 = .error .policySettingsMismatch) = true) (by decide)
  obtain ⟨hmem, hrun⟩ := of_decide_eq_true hR
  obtain ⟨r, t, hruns, hr⟩ := Prog.exists_runs_of_run
    (fun (r : PolicyResult ProtectionManager) _ => r = .error .policySettingsMismatch)
    hrun
  exact ⟨s, hs, hmem, t, of_decide_eq_true hr ▸ hruns⟩

end ProtectionWorld

end VpsGuard
