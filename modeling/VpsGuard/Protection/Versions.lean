import Mathlib.Data.List.Pairwise
import VpsGuard.Edge.PolicyRuntime
import VpsGuard.Protection.Files

/-!
# One policy to a version

The edge replaces its policy only by one of a later version. What it is told
by the file therefore reaches it if the versions in the file go up: then a
version stands for one policy, and the edge that looks at the file after every
change has the policy of the file.

The versions go up in every run whose operations go on from a version that is
not behind that of the file (`Current`, `version_unique`). They need not: when
a write of the policy fails although it is visible, the memory of the manager
stays behind the file, and the next operation writes another policy of the
same version, which the edge does not load (`version_reused`).
-/

namespace VpsGuard

open Effect ProtectionCodec

namespace ProtectionWorld

/-- Operations go on from a version that is not behind that of the file. -/
def Current : ProtectionCondition
  | .lockWriter call, _, s => ∀ mgr ∈ s.memory, s.fileVersion ≤ call.base mgr
  | _, _, _ => True

instance (o : ProtectionOp) (x : ProtectionChoice) (s : ProtectionWorld) :
    Decidable (Current o x s) :=
  match o with
  | .lockWriter _ => inferInstanceAs (Decidable (∀ _ ∈ _, _))
  | .unlockWriter _ | .nowUtc _ | .readPolicy | .writePolicy _ | .readMetadata
  | .writeMetadata _ | .rewriteMetadata _ => .isTrue trivial

/-- The policies in the file were of later and later versions. -/
structure Ascending (s : ProtectionWorld) : Prop where
  file : s.policy = s.visible.head?
  ascending : s.visible.Pairwise fun p q => q.policyVersion < p.policyVersion
  pos : ∀ p ∈ s.visible, 0 < p.policyVersion

variable {C : ProtectionCodec} {s t : ProtectionWorld}

theorem Ascending.le_fileVersion (h : Ascending s) {p : PolicySnapshot} (hp : p ∈ s.visible) :
    p.policyVersion ≤ s.fileVersion := by
  have hfile := h.file
  have hasc := h.ascending
  cases hv : s.visible with
  | nil => rw [hv] at hp; cases hp
  | cons q l =>
    rw [hv] at hp hfile hasc
    rw [fileVersion, hfile]
    rcases List.mem_cons.1 hp with rfl | hp
    · exact Nat.le_refl _
    · exact Nat.le_of_lt ((List.pairwise_cons.1 hasc).1 p hp)

theorem Ascending.writePolicy (h : Ascending s) {p : PolicySnapshot}
    (hp : s.fileVersion < p.policyVersion) (fault : Option WriteFault) :
    Ascending (s.writePolicy p fault) := by
  by_cases hv : fault.all (·.visible) = true
  · refine ⟨?_, ?_, ?_⟩ <;> simp only [ProtectionWorld.writePolicy, hv, if_true]
    · cases fault with
      | none => rfl
      | some fault => simp_all [AtomicStore.written]
    · exact List.pairwise_cons.2
        ⟨fun q hq => Nat.lt_of_le_of_lt (h.le_fileVersion hq) hp, h.ascending⟩
    · intro q hq
      rcases List.mem_cons.1 hq with rfl | hq
      · exact Nat.lt_of_le_of_lt (Nat.zero_le _) hp
      · exact h.pos q hq
  · cases fault with
    | none => exact absurd rfl hv
    | some fault =>
      have hv' : fault.visible = false := by simpa using hv
      rw [show s.writePolicy p (some fault) = s by
        simp [ProtectionWorld.writePolicy, AtomicStore.written, hv']]
      exact h

theorem Ascending.congr (h : Ascending s) (hpolicy : t.policy = s.policy)
    (hvisible : t.visible = s.visible) : Ascending t :=
  ⟨by rw [hpolicy, hvisible, h.file], hvisible ▸ h.ascending, hvisible ▸ h.pos⟩

variable {mode : GuardMode}

theorem Ascending.safe_publish {mgr : ProtectionManager} {next : CurrentProtection}
    {rules : List ClientRule} (hlt : s.fileVersion < next.policyVersion) :
    (mgr.publish C mode next rules).Safe (setting Current Ascending) .alone (fun _ _ => True) s := by
  refine .call_alone fun hs x now t _ hx => ?_
  obtain ⟨-, rfl⟩ := of_exec_nowUtc hx
  refine ⟨hs, ?_⟩
  split
  · exact .ret_trivial
  next policy hpolicy =>
  have hversion : next.policyVersion = (withClientRules C policy rules).policyVersion :=
    (generatedPolicy_of_buildPolicyAt hpolicy).policyVersion.symm
  refine .call_alone fun hs x r u _ hx => ?_
  obtain ⟨fault, -, rfl, rfl⟩ := of_exec_writeMetadata hx
  refine ⟨hs.congr rfl rfl, ?_⟩
  split
  · exact .ret_trivial
  refine .call_alone fun hs x r u _ hx => ?_
  obtain ⟨fault', -, rfl, rfl⟩ := of_exec_writePolicy hx
  refine ⟨hs.writePolicy (hversion ▸ hlt) fault', ?_⟩
  split
  · refine .call_alone fun hs x r u _ hx => ?_
    obtain ⟨fault'', -, rfl, rfl⟩ := of_exec_rewriteMetadata hx
    exact ⟨hs.congr rfl rfl, .ret_trivial⟩
  · exact (safe_readBack C).weaken fun _ _ _ _ => trivial

variable {current : CurrentProtection} {limits : StaticLimits}

theorem Ascending.safe_writeRecoveredPolicy (hlt : s.fileVersion < current.policyVersion) :
    (ProtectionManager.writeRecoveredPolicy C mode current limits).Safe
      (setting Current Ascending) .alone (fun _ _ => True) s := by
  refine .call_alone fun hs x now t _ hx => ?_
  obtain ⟨-, rfl⟩ := of_exec_nowUtc hx
  refine ⟨hs, ?_⟩
  split
  · exact .ret_trivial
  next policy hpolicy =>
  have hversion : current.policyVersion = policy.policyVersion :=
    (generatedPolicy_of_buildPolicyAt hpolicy).policyVersion.symm
  refine .call_alone fun hs x r u _ hx => ?_
  obtain ⟨fault, -, rfl, rfl⟩ := of_exec_writePolicy hx
  refine ⟨hs.writePolicy (hversion ▸ hlt) fault, ?_⟩
  split
  · exact .ret_trivial
  refine .call_alone fun hs x r u _ hx => ?_
  obtain ⟨rfl, -⟩ := of_exec_readPolicy hx
  refine ⟨hs, ?_⟩
  split
  · exact .ret_trivial
  · exact .ret_trivial
  refine .call_alone fun hs x now v _ hx => ?_
  obtain ⟨-, rfl⟩ := of_exec_nowUtc hx
  refine ⟨hs, ?_⟩
  split
  · exact .ret_trivial
  · split <;> exact .ret_trivial

open ProtectionManager in
theorem Ascending.safe_recoverPolicy {metadata : PersistedProtection}
    (hlt : s.fileVersion < metadata.policyVersion) :
    (recoverPolicy C mode metadata limits).Safe (setting Current Ascending) .alone
      (fun _ _ => True) s := by
  refine (Ascending.safe_writeRecoveredPolicy hlt).bind fun r t _ _ => ?_
  cases r <;> exact .ret_trivial

open ProtectionManager in
theorem Ascending.safe_writeRecoveredMetadata :
    (writeRecoveredMetadata C current).Safe (setting Current Ascending) .alone
      (fun _ _ => True) s := by
  refine .call_alone fun hs x r t _ hx => ?_
  obtain ⟨fault, -, rfl, rfl⟩ := of_exec_writeMetadata hx
  refine ⟨hs.congr rfl rfl, ?_⟩
  split <;> exact .ret_trivial

open ProtectionManager in
theorem Ascending.safe_recoverFiles {v : ℕ} :
    (recoverFiles C s.policy s.metadata v mode limits).Safe (setting Current Ascending) .alone
      (fun _ _ => True) s := by
  unfold recoverFiles
  cases hp : s.policy with
  | none =>
    have hfile : s.fileVersion = 0 := by rw [fileVersion, hp]; rfl
    cases hm : s.metadata with
    | none =>
      dsimp only
      split
      · exact .ret_trivial
      · exact Ascending.safe_writeRecoveredMetadata
    | some metadata =>
      dsimp only
      split
      · next hpos => exact Ascending.safe_recoverPolicy (hfile ▸ hpos)
      · exact .ret_trivial
  | some policy =>
    have hfile : s.fileVersion = policy.policyVersion := by rw [fileVersion, hp]; rfl
    cases hm : s.metadata with
    | none =>
      dsimp only
      split
      · exact .ret_trivial
      · exact Ascending.safe_writeRecoveredMetadata
    | some metadata =>
      dsimp only
      split
      · split
        · exact .ret_trivial
        · exact Ascending.safe_writeRecoveredMetadata
      split
      · next hlt => exact Ascending.safe_recoverPolicy (hfile ▸ hlt)
      · split <;> exact .ret_trivial

theorem sustains_ascending : Sustains C Current Ascending fun _ _ _ => True where
  fresh := ⟨rfl, .nil, fun _ h => nomatch h⟩
  crash h := h.congr rfl rfl
  load v mode _ _ _ := by
    refine (safe_load (Q := fun _ _ => True) (fun _ _ _ _ => trivial) (fun _ _ _ _ _ => trivial)
      (fun _ _ _ _ _ => trivial) ?_).weaken fun _ _ _ _ _ _ => trivial
    refine Ascending.safe_recoverFiles.bind fun r t _ _ => ?_
    cases r with
    | error e => exact .ret_trivial
    | ok current => dsimp only; split <;> exact .ret_trivial
  lock h _ _ _ _ := ⟨h.congr rfl rfl, trivial⟩
  publish mode rules _ hmgr _ hallow _ :=
    (Ascending.safe_publish (Nat.lt_succ_of_le (hallow _ hmgr))).weaken fun _ _ _ _ => trivial
  unlock h _ := ⟨h.congr rfl rfl, trivial⟩
  respond h _ _ _ := ⟨h.congr rfl rfl, trivial⟩

/-- In every run whose operations go on from a version that is not behind the
    file, a version stands for one policy, and an edge that looks at the file
    after every change has the policy of the file, if it passes the check. -/
theorem version_unique (hs : Reached C Current s) :
    (∀ p ∈ s.visible, ∀ q ∈ s.visible, p.policyVersion = q.policyVersion → p = q) ∧
    ∀ looks p now, ((looks ++ [(p, now)]).map Prod.fst) = s.visible.reverse →
      p.validateAt C.toCodec now = .ok () → s.policy = some p ∧
        (PolicyRuntime.follow C.toCodec (looks ++ [(p, now)])).current = some p := by
  have h : Ascending s := sustains_ascending.reached hs
  constructor
  · intro p hp q hq heq
    by_contra hne
    have hdistinct : s.visible.Pairwise fun p q => p.policyVersion ≠ q.policyVersion :=
      h.ascending.imp fun h => Nat.ne_of_gt h
    have : Std.Symm fun p q : PolicySnapshot => p.policyVersion ≠ q.policyVersion :=
      ⟨fun _ _ h => h.symm⟩
    exact hdistinct.forall hp hq hne heq
  · intro looks p now hlooks hvalid
    have hvisible : s.visible = p :: (looks.map Prod.fst).reverse := by
      rw [← List.reverse_reverse s.visible, ← hlooks]
      simp
    obtain ⟨hlt, -⟩ := List.pairwise_cons.1 (hvisible ▸ h.ascending)
    refine ⟨by rw [h.file, hvisible]; rfl, PolicyRuntime.current_follow ?_ ?_ hvalid⟩
    · exact h.pos p (by simp [hvisible])
    · exact fun look hlook => hlt look.1 (by simpa using ⟨look.2, hlook⟩)

/-- A process of a fresh installation that publishes `normal`, then `watch`. -/
def normalThenWatch : ProtectionStart where
  statePolicyVersion := 0
  stateMode := .normal
  limits := ⟨1, 1⟩
  limits_positive := StaticLimits.positive_one
  requests :=
    [.writeForState (.normal ""), .writeForState { GuardState.normal "" with currentMode := .watch }]

open ProtectionChoice in
/-- Both succeed, and the edge has the second one. -/
theorem version_unique_twice : ∃ s, Reached .plain Current s ∧ ∃ p q, s.visible = [q, p] ∧
    s.policy = some q ∧
    (PolicyRuntime.follow plain.toCodec [(p, 0), (q, 0)]).current = some q := by
  obtain ⟨s, hs, hR⟩ := exists_reached .plain Current normalThenWatch
    (firstStart ++ succeeding ++ succeeding)
    (R := fun s => match s.visible with
      | [q, _] => q.validateAt plain.toCodec 0 = .ok ()
      | _ => false) (by decide)
  split at hR
  · next q p hvisible =>
    have hvalid : q.validateAt plain.toCodec 0 = .ok () := by simpa using hR
    exact ⟨s, hs, p, q, hvisible, (version_unique hs).2 [(p, 0)] q 0 (by rw [hvisible]; rfl) hvalid⟩
  · cases hR

open ProtectionChoice in
/-- The first one fails although it is visible: the second one is of the same
    version, and does not reach the edge. -/
theorem version_reused : ∃ s, Reached .plain (fun _ _ _ => True) s ∧ ∃ p q,
    s.visible = [q, p] ∧ p.policyVersion = q.policyVersion ∧ p.mode ≠ q.mode ∧
    s.policy = some q ∧ q.validateAt plain.toCodec 0 = .ok () ∧
    (PolicyRuntime.follow plain.toCodec [(p, 0), (q, 0)]).current = some p := by
  obtain ⟨s, hs, hR⟩ := exists_reached .plain (fun _ _ _ => True) normalThenWatch
    (firstStart ++ failingVisibly ++ succeeding)
    (R := fun s => match s.visible with
      | [q, p] => p.policyVersion = q.policyVersion ∧ p.mode ≠ q.mode ∧ s.policy = some q ∧
        q.validateAt plain.toCodec 0 = .ok () ∧
        (PolicyRuntime.follow plain.toCodec [(p, 0), (q, 0)]).current = some p
      | _ => false) (by decide)
  refine ⟨s, hs, ?_⟩
  split at hR
  · next q p hvisible => exact ⟨p, q, hvisible, by simpa using hR⟩
  · cases hR

end ProtectionWorld

end VpsGuard
