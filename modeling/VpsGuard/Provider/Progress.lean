import VpsGuard.Provider.History

/-!
# The end of a transaction

A provider that fails in the middle of a transaction leaves it in some stage, with an error. Once
the provider helps (`Helps`), the transaction comes to its end from there: every step forward
lowers the number of those left (`stepsLeft`), but for the ones that wait for the drain to be over
(`transaction_finishes`).
-/

namespace VpsGuard.ProviderTransaction

open Effect

/-- Every call is answered as hoped for. -/
structure Helps (limit : ℕ) (f : (o : BackendOp) → o.Ans) : Prop where
  snapshot recordName : ∃ snapshot, f (.snapshot recordName) = .ok snapshot ∧
    snapshotMaxDnsTtlSeconds snapshot ≤ limit
  requestProxyEnable recordName : f (.requestProxyEnable recordName) = .ok ()
  verifyProxyEnabled recordName : f (.verifyProxyEnabled recordName) = .ok true
  requestOriginLock : f .requestOriginLock = .ok ()
  verifyOriginLock : f .verifyOriginLock = .ok true
  restore snapshot : f (.restore snapshot) = .ok ()

def stepsLeft : ProviderStage → ℕ
  | .pending => 6
  | .snapshotted => 5
  | .proxyRequested => 4
  | .proxyVerified => 3
  | .proxyDrain => 2
  | .originLockRequested => 1
  | .complete | .restoreRequested | .restored => 0

/-- The transaction is not being restored. -/
def Forward (stage : ProviderStage) : Prop := stage ≠ .restoreRequested ∧ stage ≠ .restored

theorem Forward.eq_complete {stage : ProviderStage} (h : Forward stage)
    (hleft : stepsLeft stage = 0) : stage = .complete := by
  cases stage <;> simp_all [Forward, stepsLeft]

variable {f : (o : BackendOp) → o.Ans} {limit : ℕ} {c : Config}

/-- A step forward leaves one step less, but for one that comes before the deadline of the drain. -/
theorem Helps.stepsLeft_enable (hf : Helps limit f) (hc : Consistent c)
    (hforward : Forward c.txn.stage) (now : ℕ) :
    let c' := c.enable f limit now
    Forward c'.txn.stage ∧
    (2 < stepsLeft c.txn.stage → stepsLeft c'.txn.stage + 1 = stepsLeft c.txn.stage) ∧
    (stepsLeft c.txn.stage ≤ 2 →
      c'.txn.proxyDrainDeadlineUnixSeconds = c.txn.proxyDrainDeadlineUnixSeconds ∧
      stepsLeft c'.txn.stage ≤ 2 ∧
      ((∀ deadline ∈ c.txn.proxyDrainDeadlineUnixSeconds, deadline ≤ now) →
        stepsLeft c'.txn.stage = stepsLeft c.txn.stage - 1)) := by
  obtain ⟨history, key, record, stage, recorded, lastError, attempts, deadline⟩ := c
  obtain ⟨hnone, htaken, -, -, -⟩ := hc
  cases stage with
  | pending =>
    obtain ⟨snapshot, hsnapshot, hle⟩ := hf.snapshot record
    have hlt : ¬ snapshotMaxDnsTtlSeconds snapshot > limit := Nat.not_lt.2 hle
    simp [Config.enable, enableStepAt, enableStage, Prog.answer, hsnapshot, hlt, stepsLeft, Forward]
  | snapshotted =>
    simp [Config.enable, enableStepAt, enableStage, Prog.answer, hf.requestProxyEnable, stepsLeft,
      Forward]
  | proxyRequested =>
    simp [Config.enable, enableStepAt, enableStage, Prog.answer, hf.verifyProxyEnabled, stepsLeft,
      Forward]
  | proxyVerified =>
    cases recorded with
    | none => exact absurd (hnone.1 rfl) nofun
    | some snapshot =>
      simp [Config.enable, enableStepAt, enableStage, Prog.answer, stepsLeft, Forward]
  | proxyDrain =>
    cases recorded with
    | none => exact absurd (hnone.1 rfl) nofun
    | some snapshot =>
      obtain ⟨_, -, -, -, hdraining⟩ := htaken snapshot rfl
      obtain ⟨t, -, rfl⟩ := hdraining rfl
      -- Before the deadline, the step waits.
      by_cases hearly : now < saturatingAdd 64 t (snapshotMaxDnsTtlSeconds snapshot)
      · simp [Config.enable, enableStepAt, enableStage, Prog.answer, stepsLeft, Forward, hearly]
      · simp [Config.enable, enableStepAt, enableStage, Prog.answer, stepsLeft, Forward, hearly,
          hf.requestOriginLock]
  | originLockRequested =>
    simp [Config.enable, enableStepAt, enableStage, Prog.answer, hf.verifyOriginLock, stepsLeft,
      Forward]
  | complete => simp [Config.enable, enableStepAt, Prog.answer, stepsLeft, Forward]
  | restoreRequested => exact absurd rfl hforward.1
  | restored => exact absurd rfl hforward.2

theorem Helps.stepsLeft_early (hf : Helps limit f) (hc : Consistent c)
    (hforward : Forward c.txn.stage) (times : List ℕ) :
    let c' := times.foldl (Config.enable f limit) c
    Forward c'.txn.stage ∧
      stepsLeft c'.txn.stage ≤ max 2 (stepsLeft c.txn.stage - times.length) := by
  induction times generalizing c with
  | nil => exact ⟨hforward, Nat.le_max_right _ _⟩
  | cons now times ih =>
    obtain ⟨hnext, hmany, hfew⟩ := hf.stepsLeft_enable hc hforward now
    obtain ⟨hend, hle⟩ := ih (hc.steps (steps_enable f limit c [now])) hnext
    refine ⟨hend, hle.trans ?_⟩
    rw [List.length_cons]
    simp only [List.foldl_cons, List.foldl_nil] at hfew ⊢
    omega

theorem Helps.stepsLeft_late (hf : Helps limit f) (hc : Consistent c)
    (hforward : Forward c.txn.stage) {times : List ℕ}
    (hdue : ∀ deadline ∈ c.txn.proxyDrainDeadlineUnixSeconds, ∀ now ∈ times, deadline ≤ now)
    (hfew : stepsLeft c.txn.stage ≤ 2) :
    let c' := times.foldl (Config.enable f limit) c
    Forward c'.txn.stage ∧
      stepsLeft c'.txn.stage = stepsLeft c.txn.stage - times.length := by
  induction times generalizing c with
  | nil => exact ⟨hforward, rfl⟩
  | cons now times ih =>
    obtain ⟨hnext, -, hstep⟩ := hf.stepsLeft_enable hc hforward now
    obtain ⟨hdeadline, hle, hleft⟩ := hstep hfew
    obtain ⟨hend, heq⟩ := ih (hc.steps (steps_enable f limit c [now])) hnext
      (fun deadline hd t ht => hdue deadline (hdeadline ▸ hd) t (List.mem_cons_of_mem _ ht)) hle
    refine ⟨hend, heq.trans ?_⟩
    rw [List.length_cons, List.foldl_cons, List.foldl_nil,
      hleft fun deadline hd => hdue deadline hd now List.mem_cons_self]
    omega

/-- Whatever steps and answers a transaction has behind it, a provider that helps lets it come to
    its end: unless it is being restored, four steps forward lead to the drain, and two more after
    its deadline complete it; and once there is a snapshot, two steps back restore it. -/
theorem transaction_finishes {txn : ProviderTransaction} (hstage : txn.stage = .pending)
    (hsnap : txn.snapshot = none) (hsteps : Steps ⟨[], txn⟩ c) (hf : Helps limit f) :
    (Forward c.txn.stage → ∀ early late : List ℕ,
      4 ≤ early.length → 2 ≤ late.length →
      (∀ deadline ∈ (early.foldl (Config.enable f limit) c).txn.proxyDrainDeadlineUnixSeconds,
        ∀ now ∈ late, deadline ≤ now) →
      ((early ++ late).foldl (Config.enable f limit) c).txn.stage = .complete) ∧
    (c.txn.stage ≠ .pending →
      ((c.txn.restoreStep.answer f).2.2.restoreStep.answer f).2.2.stage = .restored) := by
  have hc := (Consistent.start hstage hsnap).steps hsteps
  constructor
  · intro hforward early late hearly hlate hdue
    obtain ⟨hdrain, hfew⟩ := hf.stepsLeft_early hc hforward early
    have hleft : stepsLeft c.txn.stage ≤ 6 := by cases c.txn.stage <;> simp [stepsLeft]
    obtain ⟨hend, hzero⟩ := hf.stepsLeft_late (hc.steps (steps_enable f limit c early)) hdrain hdue
      (by omega)
    rw [List.foldl_append]
    exact hend.eq_complete (by omega)
  · intro hstarted
    obtain ⟨history, key, record, stage, recorded, lastError, attempts, deadline⟩ := c
    cases recorded with
    | none => exact absurd (hc.snapshot.1 rfl) hstarted
    | some snapshot => cases stage <;> simp_all [restoreStep, Prog.answer, hf.restore]

theorem helps_obliging : Helps 300 obliging :=
  ⟨fun _ => ⟨_, rfl, Nat.le_refl 300⟩, fun _ => rfl, fun _ => rfl, rfl, rfl, fun _ => rfl⟩

theorem transaction_finishes_started :
    (([100, 110, 120, 130] ++ [500, 510]).foldl (Config.enable obliging 300)
      (Config.enable (fun o => match o with
        | .snapshot _ => .error .unavailable
        | o => obliging o) 300 ⟨[], started⟩ 90)).txn.stage = .complete :=
  (transaction_finishes rfl rfl (steps_enable _ 300 ⟨[], started⟩ [90]) helps_obliging).1
    ⟨by decide, by decide⟩ [100, 110, 120, 130] [500, 510] (by decide) (by decide) (by decide)

end VpsGuard.ProviderTransaction
