import VpsGuard.Provider.Transaction
import Mathlib.Data.List.Infix
import Mathlib.Logic.Relation

/-!
# The history of a transaction

What the calls of the provider made for one transaction have behind them. The
steps forward and back come in any order, at any times — the clock may go
back —, each with its own limit, and the provider answers anything. A
`Config` is a transaction with its *history*: the steps taken and the calls
made, with their answers, the latest first.

What a stage says about the history is the invariant `Consistent`: the stages
between the snapshot and a restoration have the snapshot behind them, with no
step back since; from `proxyVerified` on, the proxy was seen; and in
`proxyDrain`, the deadline is that of the step that started the drain. The
calls are then justified by the stages they are made in (`Justified`).
-/

namespace VpsGuard

open List

namespace ProviderTransaction

open Effect

/-- What happens to a transaction. -/
inductive Event
  /-- A step forward, from the given stage, at the given time, with the given limit. -/
  | enableStep (stage : ProviderStage) (now limit : ℕ)
  | restoreStep
  | call (c : BackendCall)

/-- A transaction with its history, the latest event first. -/
structure Config where
  history : List Event
  txn : ProviderTransaction

inductive Step : Config → Config → Prop
  | enableStep {c : Config} {now limit : ℕ} {calls : List BackendCall}
      {result : Except ProviderError ProviderStage} {txn : ProviderTransaction} :
      (c.txn.enableStepAt now limit).Traces calls (result, txn) →
      Step c ⟨(calls.map .call).reverse ++ .enableStep c.txn.stage now limit :: c.history, txn⟩
  | restoreStep {c : Config} {calls : List BackendCall}
      {result : Except ProviderError ProviderStage} {txn : ProviderTransaction} :
      c.txn.restoreStep.Traces calls (result, txn) →
      Step c ⟨(calls.map .call).reverse ++ .restoreStep :: c.history, txn⟩

abbrev Steps : Config → Config → Prop := Relation.ReflTransGen Step

/-! ## What lies behind a call -/

/-- The records are forgotten after so many seconds, `300` of them for a time to live of `1`, and
    where there are no records. -/
def LivesWithin (snapshot : ProviderSnapshot) (seconds : ℕ) : Prop :=
  (snapshot.records = [] → 300 ≤ seconds) ∧ ∀ record ∈ snapshot.records,
    record.ttlSeconds ≤ seconds ∧ (record.ttlSeconds = 1 → 300 ≤ seconds)

theorem livesWithin_iff {snapshot : ProviderSnapshot} {seconds : ℕ} :
    LivesWithin snapshot seconds ↔ snapshotMaxDnsTtlSeconds snapshot ≤ seconds := by
  have hnormal (ttl : ℕ) : normalizeDnsTtlSeconds ttl ≤ seconds ↔
      ttl ≤ seconds ∧ (ttl = 1 → 300 ≤ seconds) := by
    unfold normalizeDnsTtlSeconds
    split <;> omega
  unfold LivesWithin snapshotMaxDnsTtlSeconds
  cases hmax : (snapshot.records.map fun record => normalizeDnsTtlSeconds record.ttlSeconds).max? with
  | none =>
    have hnil : snapshot.records = [] := by simpa using hmax
    simp [hnil, defaultDnsTtlSeconds]
  | some longest =>
    have hne : snapshot.records ≠ [] := by rintro hnil; simp [hnil] at hmax
    rw [Option.getD_some, max?_le_iff hmax]
    simp [hne, hnormal]

/-- The snapshot was taken, within the limit given, and the events `since` followed. -/
def Taken (past : List Event) (snapshot : ProviderSnapshot) (since : List Event) : Prop :=
  ∃ recordName now limit rest,
    past = since ++ .call ⟨.snapshot recordName, .ok snapshot⟩ ::
      .enableStep .pending now limit :: rest ∧
    LivesWithin snapshot limit

def Verified (since : List Event) : Prop :=
  ∃ recordName, .call ⟨.verifyProxyEnabled recordName, .ok true⟩ ∈ since

/-- The proxy was seen, and then a step started the drain, at time `t`. -/
def Draining (since : List Event) (t : ℕ) : Prop :=
  ∃ later limit earlier, since = later ++ .enableStep .proxyVerified t limit :: earlier ∧
    Verified earlier

/-- The past of a lock of the origin: since the snapshot and with no step back,
    the proxy was seen and then a step started the drain, at a time `t` after
    which the records were forgotten by the step that asks for the lock. -/
def Drained (past : List Event) (snapshot : ProviderSnapshot) : Prop :=
  ∃ now limit since t, Taken past snapshot (.enableStep .proxyDrain now limit :: since) ∧
    .restoreStep ∉ since ∧ Draining since t ∧
    (t ≤ now ∧ LivesWithin snapshot (now - t) ∨ 2 ^ 64 - 1 ≤ now)

variable {past since : List Event} {snapshot : ProviderSnapshot} {t : ℕ}

theorem Taken.append (h : Taken past snapshot since) (l : List Event) :
    Taken (l ++ past) snapshot (l ++ since) := by
  obtain ⟨recordName, now, limit, rest, rfl, hlimit⟩ := h
  exact ⟨recordName, now, limit, rest, by simp, hlimit⟩

theorem Verified.append (h : Verified since) (l : List Event) : Verified (l ++ since) := by
  obtain ⟨recordName, hmem⟩ := h
  exact ⟨recordName, mem_append_right l hmem⟩

theorem Draining.append (h : Draining since t) (l : List Event) : Draining (l ++ since) t := by
  obtain ⟨later, limit, earlier, rfl, hv⟩ := h
  exact ⟨l ++ later, limit, earlier, by simp, hv⟩

/-- What justifies a call, in terms of its past and of the snapshot of the transaction. -/
def Justified (field : Option ProviderSnapshot) : BackendOp → List Event → Prop
  | .requestProxyEnable _, past => ∃ snapshot since, field = some snapshot ∧
      Taken past snapshot since
  | .requestOriginLock, past => ∃ snapshot, field = some snapshot ∧ Drained past snapshot
  | .restore snapshot, past => field = some snapshot ∧ ∃ since, Taken past snapshot since
  | .snapshot _, _ | .verifyProxyEnabled _, _ | .verifyOriginLock, _ => True

theorem Justified.mono {field field' : Option ProviderSnapshot} {o : BackendOp}
    (h : Justified field o past) (hf : field = none ∨ field' = field) :
    Justified field' o past := by
  rcases hf with rfl | rfl
  · cases o <;> simp_all [Justified]
  · exact h

/-! ## The invariant -/

/-- The history of a transaction agrees with its stage. -/
structure Consistent (c : Config) : Prop where
  /-- There is a snapshot from `snapshotted` on. -/
  snapshot : c.txn.snapshot = none ↔ c.txn.stage = .pending
  /-- The snapshot is behind the transaction, and so is what its stage asks for. -/
  taken : ∀ snapshot, c.txn.snapshot = some snapshot → ∃ since,
    Taken c.history snapshot since ∧
    (c.txn.stage ≠ .restoreRequested → c.txn.stage ≠ .restored → .restoreStep ∉ since) ∧
    (c.txn.stage = .proxyVerified → Verified since) ∧
    (c.txn.stage = .proxyDrain → ∃ t, Draining since t ∧ c.txn.proxyDrainDeadlineUnixSeconds =
      some (saturatingAdd 64 t (snapshotMaxDnsTtlSeconds snapshot)))
  justified : ∀ o a past, .call ⟨o, a⟩ :: past <:+ c.history → Justified c.txn.snapshot o past
  /-- After a restoration, there are only restorations. -/
  restoring : ∀ o a past, .call ⟨o, a⟩ :: past <:+ c.history →
    ∀ s b, .call ⟨.restore s, b⟩ ∈ past → ∃ s', o = .restore s'
  /-- Restorations are made at the end. -/
  ending : ∀ s b, .call ⟨.restore s, b⟩ ∈ c.history →
    c.txn.stage = .restoreRequested ∨ c.txn.stage = .restored

/-- The calls of a step, of which there is one at most, are the latest ones:
    what holds of the calls before it, and of its own ones, holds of all. -/
theorem forall_calls_append {P : BackendOp → List Event → Prop} {h : List Event}
    {calls : List BackendCall} {e : Event} (hh : ∀ o a past, .call ⟨o, a⟩ :: past <:+ h → P o past)
    (he : ∀ c, e ≠ .call c) (hlen : calls.length ≤ 1) (hcalls : ∀ c ∈ calls, P c.1 (e :: h)) :
    ∀ o a past, .call ⟨o, a⟩ :: past <:+ (calls.map .call).reverse ++ e :: h → P o past := by
  intro o a past hsuffix
  have hold : .call ⟨o, a⟩ :: past <:+ e :: h → P o past := by
    intro hs
    rcases suffix_cons_iff.1 hs with heq | hs'
    · exact absurd (List.cons.inj heq).1.symm (he _)
    · exact hh o a past hs'
  match calls, hlen with
  | [], _ => exact hold hsuffix
  | [c], _ =>
    rcases suffix_cons_iff.1 hsuffix with heq | hs'
    · obtain ⟨hc, rfl⟩ := List.cons.inj heq
      cases hc
      exact hcalls _ mem_cons_self
    · exact hold hs'

namespace Consistent

variable {c : Config} {now limit : ℕ} {o : BackendOp}
  {txn : ProviderTransaction} {calls : List BackendCall}
  {result : Except ProviderError ProviderStage} {c' : Config}

theorem start (hstage : txn.stage = .pending) (hsnap : txn.snapshot = none) :
    Consistent ⟨[], txn⟩ where
  snapshot := by simp [hstage, hsnap]
  taken := by simp [hsnap]
  justified := by simp
  restoring := by simp
  ending := by simp

section

variable (hc : Consistent c)

include hc

theorem no_restore (hreq : c.txn.stage ≠ .restoreRequested)
    (hres : c.txn.stage ≠ .restored) {s : ProviderSnapshot} {b : Except ProviderError Unit} :
    .call ⟨.restore s, b⟩ ∉ c.history := fun hmem => (hc.ending s b hmem).elim hreq hres

theorem justified_of_asks (ho : c.txn.Asks now o) :
    Justified c.txn.snapshot o (.enableStep c.txn.stage now limit :: c.history) := by
  have hsome : c.txn.stage ≠ .pending → ∃ snapshot, c.txn.snapshot = some snapshot :=
    fun h => Option.ne_none_iff_exists'.1 fun hn => h (hc.snapshot.1 hn)
  cases o with
  | snapshot | verifyProxyEnabled | verifyOriginLock => trivial
  | restore => exact ho.elim
  | requestProxyEnable recordName =>
    obtain ⟨snapshot, hsnap⟩ := hsome (by rw [ho.1]; nofun)
    obtain ⟨since, htaken, -⟩ := hc.taken snapshot hsnap
    exact ⟨snapshot, _, hsnap, htaken.append [_]⟩
  | requestOriginLock =>
    obtain ⟨hstage, deadline, hdeadline, hle⟩ := ho
    obtain ⟨snapshot, hsnap⟩ := hsome (by rw [hstage]; nofun)
    obtain ⟨since, htaken, hno, -, hdrain⟩ := hc.taken snapshot hsnap
    obtain ⟨t, hdraining, ht⟩ := hdrain hstage
    refine ⟨snapshot, hsnap, now, limit, since, t, ?_, hno (by simp [hstage]) (by simp [hstage]),
      hdraining, ?_⟩
    · rw [hstage]
      exact htaken.append [_]
    · rw [hdeadline, Option.some.injEq] at ht
      rw [ht, saturatingAdd] at hle
      rw [livesWithin_iff]
      omega

variable {snapshot : ProviderSnapshot}

theorem taken_append {l : List Event} (hl : .restoreStep ∉ l)
    (hsnap : c.txn.snapshot = some snapshot) :
    ∃ since, Taken (l ++ c.history) snapshot (l ++ since) ∧
      (c.txn.stage ≠ .restoreRequested → c.txn.stage ≠ .restored → .restoreStep ∉ l ++ since) ∧
      (c.txn.stage = .proxyVerified → Verified since) ∧
      (c.txn.stage = .proxyDrain → ∃ t, Draining (l ++ since) t ∧
        c.txn.proxyDrainDeadlineUnixSeconds =
          some (saturatingAdd 64 t (snapshotMaxDnsTtlSeconds snapshot))) := by
  obtain ⟨since, htaken, hno, hver, hdrain⟩ := hc.taken snapshot hsnap
  refine ⟨since, htaken.append l, fun hreq hres => ?_, hver, fun hstage => ?_⟩
  · simp [hl, hno hreq hres]
  · obtain ⟨t, hdraining, ht⟩ := hdrain hstage
    exact ⟨t, hdraining.append l, ht⟩

theorem taken_enable (hm : EnableMove c.txn now limit calls result txn)
    (snapshot : ProviderSnapshot) (hsnap : txn.snapshot = some snapshot) :
    ∃ since, Taken ((calls.map .call).reverse ++ .enableStep c.txn.stage now limit :: c.history)
        snapshot since ∧
      (txn.stage ≠ .restoreRequested → txn.stage ≠ .restored → .restoreStep ∉ since) ∧
      (txn.stage = .proxyVerified → Verified since) ∧
      (txn.stage = .proxyDrain → ∃ t, Draining since t ∧ txn.proxyDrainDeadlineUnixSeconds =
        some (saturatingAdd 64 t (snapshotMaxDnsTtlSeconds snapshot))) := by
  have hkept := fun hsnap : c.txn.snapshot = some snapshot => hc.taken_append
    (l := (calls.map .call).reverse ++ [.enableStep c.txn.stage now limit]) (by simp) hsnap
  cases hm with
  | idle | refused =>
    obtain ⟨since, htaken, hno, hver, hdrain⟩ := hkept hsnap
    exact ⟨_, htaken, hno, fun h => (hver h).append _, hdrain⟩
  | snapshotted snapshot' _ _ hstage hle =>
    -- The snapshot is the one just taken.
    cases hsnap
    refine ⟨[], ⟨_, now, limit, c.history, by rw [hstage]; rfl, livesWithin_iff.2 hle⟩, by simp,
      nofun, nofun⟩
  | proxyRequested _ _ hstage | complete _ _ hstage =>
    obtain ⟨since, htaken, hno, -⟩ := hkept hsnap
    exact ⟨_, htaken, fun _ _ => hno (by simp [hstage]) (by simp [hstage]), nofun, nofun⟩
  | proxyVerified _ _ hstage =>
    obtain ⟨since, htaken, hno, -⟩ := hkept hsnap
    exact ⟨_, htaken, fun _ _ => hno (by simp [hstage]) (by simp [hstage]),
      fun _ => ⟨_, mem_cons_self⟩, nofun⟩
  | proxyDrain snapshot' _ _ hstage hsnap' =>
    obtain ⟨since, htaken, hno, hver, -⟩ := hkept hsnap
    obtain rfl : snapshot' = snapshot := Option.some.inj (hsnap'.symm.trans hsnap)
    refine ⟨_, htaken, fun _ _ => hno (by simp [hstage]) (by simp [hstage]), nofun,
      fun _ => ⟨now, ⟨[], limit, since, by rw [hstage]; rfl, hver hstage⟩, rfl⟩⟩
  | originLockRequested _ _ hasks =>
    obtain ⟨since, htaken, hno, -⟩ := hkept hsnap
    exact ⟨_, htaken, fun _ _ => hno hasks.not_restoring.1 hasks.not_restoring.2, nofun, nofun⟩

theorem enable (hm : EnableMove c.txn now limit calls result txn) :
    Consistent ⟨(calls.map .call).reverse ++ .enableStep c.txn.stage now limit :: c.history, txn⟩ where
  snapshot := by
    have := hc.snapshot
    cases hm <;> simp_all [Asks]
  taken := hc.taken_enable hm
  justified := by
    have hfield : c.txn.snapshot = none ∨ txn.snapshot = c.txn.snapshot :=
      hm.snapshot_eq.imp_left hc.snapshot.2
    exact forall_calls_append (fun o a past h => (hc.justified o a past h).mono hfield) (by simp)
      hm.length_le fun call hcall => (hc.justified_of_asks (hm.asks hcall)).mono hfield
  restoring := by
    refine forall_calls_append hc.restoring (by simp) hm.length_le fun call hcall s b hmem => ?_
    obtain ⟨hreq, hres⟩ := (hm.asks hcall).not_restoring
    exact absurd (by simpa using hmem) (hc.no_restore hreq hres)
  ending s b hmem := by
    rcases mem_append.1 hmem with hmem | hmem
    · -- A step forward does not ask for a restoration.
      simp only [mem_reverse, mem_map, Event.call.injEq] at hmem
      obtain ⟨call, hcall, rfl⟩ := hmem
      exact (hm.asks hcall).elim
    · have hstage := hc.ending s b (by simpa using hmem)
      exact hstage.imp (hm.stage_eq hstage).trans (hm.stage_eq hstage).trans

theorem restore (hm : RestoreMove c.txn calls result txn) :
    Consistent ⟨(calls.map .call).reverse ++ .restoreStep :: c.history, txn⟩ where
  snapshot := by
    have := hc.snapshot
    cases hm <;> simp_all
  taken snapshot hsnap := by
    -- There is a snapshot, so the step leads to the end, of which less is asked.
    have hsnap' : c.txn.snapshot = some snapshot := hm.snapshot_eq ▸ hsnap
    have hend := hm.ending (fun h => by simp [hc.snapshot.2 h] at hsnap') (by simp [hsnap'])
    obtain ⟨since, htaken, -⟩ := hc.taken snapshot hsnap'
    refine ⟨_, (htaken.append [.restoreStep]).append (calls.map .call).reverse, ?_, ?_, ?_⟩ <;>
      rcases hend with hend | hend <;> simp [hend]
  justified := by
    have hfield := hm.snapshot_eq
    refine forall_calls_append (fun o a past h => (hc.justified o a past h).mono (.inr hfield))
      nofun hm.length_le fun call hcall => ?_
    obtain ⟨snapshot, hop, -, hsnap⟩ := hm.asks hcall
    obtain ⟨since, htaken, -⟩ := hc.taken snapshot hsnap
    rw [hop, hfield]
    exact ⟨hsnap, _, htaken.append [_]⟩
  restoring := by
    refine forall_calls_append hc.restoring nofun hm.length_le fun call hcall s b _ => ?_
    obtain ⟨snapshot, hop, -⟩ := hm.asks hcall
    exact ⟨snapshot, hop⟩
  ending s b hmem := by
    have hend : c.txn.stage = .restoreRequested ∨ c.txn.stage = .restored := by
      rcases mem_append.1 hmem with hmem | hmem
      · simp only [mem_reverse, mem_map, Event.call.injEq] at hmem
        obtain ⟨call, hcall, rfl⟩ := hmem
        obtain ⟨_, -, hstage, -⟩ := hm.asks hcall
        exact .inl hstage
      · exact hc.ending s b (by simpa using hmem)
    have hpending : c.txn.stage ≠ .pending := by rcases hend with h | h <;> simp [h]
    exact hm.ending hpending fun h => hpending (hc.snapshot.1 h)

theorem step (h : Step c c') : Consistent c' := by
  cases h with
  | enableStep h => exact hc.enable (enableStepAt_single.traces h)
  | restoreStep h => exact hc.restore (restoreStep_single.traces h)

theorem steps (h : Steps c c') : Consistent c' := by
  induction h with
  | refl => exact hc
  | tail _ h ih => exact ih.step h

theorem snapshot_steps (h : Steps c c')
    (hsnap : c.txn.snapshot = some snapshot) : c'.txn.snapshot = some snapshot := by
  induction h with
  | refl => exact hsnap
  | @tail b c' hcb h ih =>
    have hb := hc.steps hcb
    have hpending : b.txn.stage ≠ .pending := fun hp => by simp [hb.snapshot.2 hp] at ih
    cases h with
    | enableStep h =>
      exact ((enableStepAt_single.traces h).snapshot_eq.resolve_left hpending).trans ih
    | restoreStep h => exact (restoreStep_single.traces h).snapshot_eq.trans ih

end

end Consistent

/-- **The discipline of the calls.** After any steps of a transaction that has
    just started, with whatever times, limits and answers:

    * the origin was locked only after the proxy was seen, and then a step
      started the drain, since the snapshot and with no step back; and the
      drain was over by the time of the step that asked for the lock;
    * the proxy was requested only after a snapshot within the limit given to
      the step that took it;
    * the snapshot of the transaction stays what it is, in all the steps to come;
    * a restoration is one of that snapshot, and every later call is one, too. -/
theorem calls_disciplined (txn : ProviderTransaction) (hstage : txn.stage = .pending)
    (hsnap : txn.snapshot = none) (c : Config) (hc : Steps ⟨[], txn⟩ c) :
    (∀ answer past, .call ⟨.requestOriginLock, answer⟩ :: past <:+ c.history →
      ∃ snapshot, c.txn.snapshot = some snapshot ∧ Drained past snapshot) ∧
    (∀ recordName answer past,
      .call ⟨.requestProxyEnable recordName, answer⟩ :: past <:+ c.history →
      ∃ snapshot since, c.txn.snapshot = some snapshot ∧ Taken past snapshot since) ∧
    (∀ c', Steps c c' → ∀ snapshot, c.txn.snapshot = some snapshot →
      c'.txn.snapshot = some snapshot) ∧
    ∀ snapshot answer past, .call ⟨.restore snapshot, answer⟩ :: past <:+ c.history →
      (c.txn.snapshot = some snapshot ∧ ∃ since, Taken past snapshot since) ∧
      ∀ o a past', .call ⟨o, a⟩ :: past' <:+ c.history →
        .call ⟨.restore snapshot, answer⟩ :: past <:+ past' → o = .restore snapshot := by
  have hcons := (Consistent.start hstage hsnap).steps hc
  refine ⟨fun answer past h => hcons.justified _ _ past h,
    fun recordName answer past h => hcons.justified _ _ past h,
    fun c' h snapshot => hcons.snapshot_steps h, fun snapshot answer past h => ?_⟩
  have hfield : c.txn.snapshot = some snapshot := (hcons.justified _ _ past h).1
  refine ⟨hcons.justified _ _ past h, fun o a past' h' hpast => ?_⟩
  obtain ⟨s', rfl⟩ := hcons.restoring o a past' h' snapshot answer (hpast.subset mem_cons_self)
  have hfield' : c.txn.snapshot = some s' := (hcons.justified _ _ past' h').1
  rw [Option.some.inj (hfield'.symm.trans hfield)]

/-- The steps forward at the given times, when every call is answered by `f`. -/
def Config.enable (f : (o : BackendOp) → o.Ans) (limit : ℕ) (c : Config) (now : ℕ) : Config :=
  let (calls, _, txn) := (c.txn.enableStepAt now limit).answer f
  ⟨(calls.map .call).reverse ++ .enableStep c.txn.stage now limit :: c.history, txn⟩

theorem steps_enable (f : (o : BackendOp) → o.Ans) (limit : ℕ) (c : Config) (times : List ℕ) :
    Steps c (times.foldl (Config.enable f limit) c) := by
  induction times generalizing c with
  | nil => exact .refl
  | cons now times ih => exact .head (.enableStep (Prog.traces_answer f _)) (ih _)

def started : ProviderTransaction where
  idempotencyKey := "op"
  recordName := "www"
  stage := .pending
  snapshot := none
  lastError := none
  attempts := 0
  proxyDrainDeadlineUnixSeconds := none

/-- A lock of the origin, at time `400`, after a drain started at time `100`. -/
theorem calls_disciplined_lock : ∃ c past, Steps ⟨[], started⟩ c ∧
      .call ⟨.requestOriginLock, .ok ()⟩ :: past = c.history ∧
      ∃ snapshot, c.txn.snapshot = some snapshot ∧ Drained past snapshot := by
  have hsteps := steps_enable obliging 300 ⟨[], started⟩ [10, 20, 30, 100, 200, 400]
  exact ⟨_, _, hsteps, rfl, (calls_disciplined started rfl rfl _ hsteps).1 (.ok ()) _ suffix_rfl⟩

end ProviderTransaction

end VpsGuard
