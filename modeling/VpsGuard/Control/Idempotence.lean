import VpsGuard.Control.DetectionLoop

/-!
# Requests with the same identifier

A request to hold or to release the guard state, or for a command to the
provider, is to be carried out once, however often it is sent: a request looks
whether its identifier is that of a completed operation (`onceOnly`), and an
operation is remembered when it is done. Between the two it reads and writes the
guard state, or waits for the provider, and nothing keeps another request of the
same identifier from looking in the meantime.

* `hold_repeated`: two holds of the same identifier both find it free. The first
  one is done, the guard state is released, and then the second one holds it
  again; both are answered as applied.
* `actions_idempotent`: this is all that can go wrong. If an identifier that was
  found free is looked up again only once its operation is remembered
  (`serially`), then among the requests that give it all but one are answered
  from what is remembered, and have no effect.
-/

namespace VpsGuard

open Effect

/-- The operations that change something for others than the one who performs them. -/
def ControlOp.IsEffect : ControlOp → Prop
  | .provider _ | .protection _ | .writeStore _ _ | .writeState _ _ | .rememberAction _
  | .acquireLease _ _ | .releaseLease _ _ | .lockPolicyOperation _ | .unlockPolicyOperation _ => True
  | .readState _ | .tryProvider | .currentTimestamp | .instantNow _ | .newUuid
  | .takeDetectionInput | .authorize | .completedAction _ | .protectionVersion | .startResume
  | .intervalTick | .tickDone => False

/-- The answers to a request whose identifier is that of a completed operation. -/
def ControlResult.IsReplay (result : ControlResult) : Prop :=
  (∃ mode operationId, result = .ok (.action false mode operationId)) ∨
    result = .error "IDEMPOTENCY_KEY_CONFLICT"

theorem isReplay_replayed {action : String} {completed : CompletedAction} :
    (replayed action completed).IsReplay := by
  unfold replayed
  split
  · exact .inr rfl
  · exact .inl ⟨_, _, rfl⟩

namespace App

/-- A request looked its identifier up, and found no completed operation. -/
def foundFree (key : String) : Pool.Move Control → Bool
  | ⟨_, .completedAction operationId, none⟩ => operationId = key
  | _ => false

/-- The requests are authorized, and an identifier that was found free is looked
    up again only when its operation is among the remembered ones. -/
def serially (h : List (Pool.Move Control)) : ControlOp → ControlChoice → App → Prop
  | .authorize, .refusal code, _ => code = none
  | .completedAction key, _, s =>
    h.any (foundFree key) = true → s.completedActions.any (·.operationId = key) = true
  | _, _, _ => True

instance (h : List (Pool.Move Control)) (o : ControlOp) (x : ControlChoice) (s : App) :
    Decidable (serially h o x s) := by
  unfold serially
  split <;> infer_instance

/-! ## A request that does not find its identifier free -/

/-- What a request performs before it is carried out. -/
def Looks (key : String) : ControlOp → Prop
  | .authorize | .startResume => True
  | .completedAction operationId => operationId = key
  | _ => False

/-- The request is authorized, and its identifier is not free. -/
def Known (key : String) : (o : ControlOp) → o.Ans → Prop
  | .authorize, refusal => refusal = none
  | .completedAction operationId, completed => operationId = key → completed ≠ none
  | _, _ => True

theorem Looks.not_isEffect {key : String} {o : ControlOp} (h : Looks key o) : ¬o.IsEffect := by
  cases o <;> simp_all [Looks, ControlOp.IsEffect]

variable {C : ProtectionCodec} {key : String}

theorem meets_onceOnly {action : String} {body : String → Acting} :
    (onceOnly action (some key) body).Meets (Looks key) (Known key) ControlResult.IsReplay := by
  refine ⟨trivial, fun refusal hrefusal => ?_⟩
  obtain rfl : refusal = none := hrefusal
  refine ⟨rfl, fun completed hcompleted => ?_⟩
  cases completed with
  | none => exact absurd rfl (hcompleted rfl)
  | some completed => exact isReplay_replayed

theorem meets_run {request : ControlRequest} (hrequest : request.IsModeRequest)
    (hkey : request.operationId = some key) (i : ℕ) :
    (request.run C i).Meets (Looks key) (Known key) ControlResult.IsReplay := by
  cases request with
  | hold operationId =>
    obtain rfl : operationId = some key := hkey
    exact meets_onceOnly
  | resume operationId =>
    obtain rfl : operationId = some key := hkey
    exact ⟨trivial, fun _ _ => meets_onceOnly⟩
  | emergencyProxy operationId =>
    obtain rfl : operationId = some key := hkey
    exact meets_onceOnly
  | providerRestore operationId =>
    obtain rfl : operationId = some key := hkey
    exact meets_onceOnly
  | protection | client => exact hrequest.elim

/-! ## All requests -/

variable {p q : Pool Control App ControlResult} {h : List (Pool.Move Control)}
  {x : ControlChoice} {s t : App}

theorem of_exec_completedAction {a : Option CompletedAction}
    (hx : exec (.completedAction key) x s = some (a, t)) :
    ∃ stored, x = .completed stored ∧ t = s ∧ a =
      (s.completedActions.find? (·.operationId = key)).or stored := by
  cases x with
  | completed stored => cases hx; exact ⟨stored, rfl, rfl, rfl⟩
  | _ => cases hx

theorem not_remembered (hx : exec (.completedAction key) x s = some (none, t)) :
    s.completedActions.any (·.operationId = key) = false := by
  obtain ⟨stored, -, -, ha⟩ := of_exec_completedAction hx
  rw [eq_comm, Option.or_eq_none_iff, List.find?_eq_none] at ha
  rw [List.any_eq_false]
  exact ha.1

theorem exists_first (hpq : Pool.Traced machine serially p h q) (key : String) :
    ∃ first : Option ℕ, ∀ m ∈ h, foundFree key m = true → first = some m.task := by
  induction hpq with
  | refl => exact ⟨none, by simp⟩
  | @step h q i o k x a t _ _ hC hx ih =>
    obtain ⟨first, hfirst⟩ := ih
    by_cases hfree : foundFree key ⟨i, o, a⟩ = true
    · -- It was not remembered, and so had not been found free before.
      have hbefore : h.any (foundFree key) = false := by
        unfold foundFree at hfree
        split at hfree
        · next o' hmove =>
          obtain rfl : o' = key := of_decide_eq_true hfree
          cases hmove
          rw [← Bool.not_eq_true]
          intro hany
          exact Bool.false_ne_true ((not_remembered hx).symm.trans (hC hany))
        · cases hfree
      refine ⟨some i, fun m hm hm' => ?_⟩
      rcases List.mem_append.1 hm with hm | hm
      · exact absurd hm' (List.any_eq_false.1 hbefore m hm)
      · rw [List.mem_singleton.1 hm]
    · refine ⟨first, fun m hm hm' => ?_⟩
      rcases List.mem_append.1 hm with hm | hm
      · exact hfirst m hm hm'
      · rw [List.mem_singleton.1 hm] at hm'
        exact absurd hm' hfree

theorem refusal_eq_none (hpq : Pool.Traced machine serially p h q) :
    ∀ m ∈ h, ∀ i refusal, m = ⟨i, .authorize, refusal⟩ → refusal = none := by
  induction hpq with
  | refl => simp
  | @step h q j o k x a t _ _ hC hx ih =>
    intro m hm i refusal hmove
    rcases List.mem_append.1 hm with hm | hm
    · exact ih m hm i refusal hmove
    · rw [List.mem_singleton.1 hm] at hmove
      cases hmove
      cases x with
      | refusal code => cases hx; exact hC
      | _ => cases hx

/-- **Idempotence.** Among the requests that give the same identifier, beside
    whatever other tasks, all but one have no effect, and are answered from what
    is remembered. -/
theorem actions_idempotent (C : ProtectionCodec) (p : Pool Control App ControlResult)
    (h : List (Pool.Move Control)) (q : Pool Control App ControlResult)
    (hpq : Pool.Traced machine serially p h q) (key : String) :
    ∃ first : Option ℕ, ∀ i (request : ControlRequest), p.tasks[i]? = some (request.run C i) →
      request.IsModeRequest → request.operationId = some key → first ≠ some i →
      (∀ m ∈ h, m.task = i → ¬m.op.IsEffect) ∧
        ∀ result, q.tasks[i]? = some (.ret result) → result.IsReplay := by
  obtain ⟨first, hfirst⟩ := exists_first hpq key
  refine ⟨first, fun i request htask hrequest hkey hne => ?_⟩
  have hknown : ∀ m ∈ h, m.task = i → Known key m.op m.ans := by
    rintro ⟨j, o, a⟩ hm rfl
    cases o with
    | authorize => exact refusal_eq_none hpq _ hm _ _ rfl
    | completedAction operationId =>
      -- Had it found the identifier free, it would be the first.
      rintro rfl rfl
      exact hne (hfirst _ hm (decide_eq_true rfl))
    | _ => trivial
  obtain ⟨hlooks, rest, hrest, hmeets⟩ := hpq.meets htask (meets_run hrequest hkey i) hknown
  refine ⟨fun m hm hmi => (hlooks m hm hmi).not_isEffect, fun result hresult => ?_⟩
  cases hresult.symm.trans hrest
  exact hmeets

/-- The requests, each one a task. -/
def requestPool (C : ProtectionCodec) (s : App) (requests : List ControlRequest) :
    Pool Control App ControlResult where
  state := s
  tasks := requests.mapIdx fun i request => request.run C i

/-- The request has written a state, and said that it applied something. -/
def appliedBy (i : ℕ) (h : List (Pool.Move Control)) (q : Pool Control App ControlResult) : Bool :=
  h.any (fun m => m.task = i && m.op matches .writeState _ _) &&
    (q.tasks[i]?.bind Prog.value?) matches some (.ok (.action true _ _))

theorem exists_isEffect_of_appliedBy {i : ℕ} (h' : appliedBy i h q = true) :
    ∃ m ∈ h, m.task = i ∧ m.op.IsEffect := by
  obtain ⟨m, hm, htask⟩ := List.any_eq_true.1 (Bool.and_eq_true_iff.1 h').1
  obtain ⟨htask, hop⟩ := Bool.and_eq_true_iff.1 htask
  refine ⟨m, hm, of_decide_eq_true htask, ?_⟩
  split at hop
  · next hwrite => rw [hwrite]; trivial
  · cases hop

open ControlChoice in
/-- A hold is sent twice, the second time after it was done. -/
theorem actions_idempotent_again :
    ∃ (h : List (Pool.Move Control)) (q : Pool Control App ControlResult),
      Pool.Traced machine serially (requestPool .plain (started (.normal "t0") .complete)
        [.hold (some "a"), .hold (some "a")]) h q ∧
      appliedBy 0 h q = true ∧ (∀ m ∈ h, m.task = 1 → ¬m.op.IsEffect) ∧
      ∃ result, q.tasks[1]? = some (.ret result) ∧ result.IsReplay := by
  obtain ⟨h, q, hpq, hdone⟩ := Pool.exists_traced_of_trace machine serially
    (requestPool .plain (started (.normal "t0") .complete) [.hold (some "a"), .hold (some "a")])
    (holds 0 ++ (holds 1).take 2)
    (P := fun r => appliedBy 0 r.1 r.2 && (r.2.tasks[1]?.bind Prog.value?).isSome) (by decide)
  obtain ⟨happlied, hreturned⟩ := Bool.and_eq_true_iff.1 hdone
  obtain ⟨result, hresult⟩ := Option.isSome_iff_exists.1 hreturned
  obtain ⟨prog, hprog, hresult⟩ := Option.bind_eq_some_iff.1 hresult
  rw [Prog.eq_ret_of_value? hresult] at hprog
  obtain ⟨first, hfirst⟩ := actions_idempotent .plain _ h q hpq "a"
  have hne : first ≠ some 1 := by
    -- Then the other one would have had no effect.
    rintro rfl
    obtain ⟨m, hm, htask, heffect⟩ := exists_isEffect_of_appliedBy happlied
    exact (hfirst 0 (.hold (some "a")) rfl trivial rfl (by simp)).1 m hm htask heffect
  obtain ⟨hnone, hreplay⟩ := hfirst 1 (.hold (some "a")) rfl trivial rfl hne
  exact ⟨h, q, hpq, happlied, hnone, result, hprog, hreplay result hprog⟩

open ControlChoice in
/-- A hold is sent twice, the second time before the first is done, and the
    guard state is released in between. Nothing fails and both are applied. -/
theorem hold_repeated : ∃ (h : List (Pool.Move Control)) (q : Pool Control App ControlResult),
      Pool.Traced machine (fun _ => smooth .plain)
        (requestPool .plain (started (.normal "t0") .complete)
          [.hold (some "a"), .hold (some "a"), .resume (some "b")]) h q ∧
      q.state.completedActions.any (·.operationId = "a") = true ∧
      appliedBy 0 h q = true ∧ appliedBy 1 h q = true := by
  obtain ⟨h, q, hpq, hdone⟩ := Pool.exists_traced_of_trace machine (fun _ => smooth .plain)
    (requestPool .plain (started (.normal "t0") .complete)
      [.hold (some "a"), .hold (some "a"), .resume (some "b")])
    ((holds 0).take 2 ++ (holds 1).take 2 ++ (holds 0).drop 2 ++ (2, .proceed) :: holds 2 ++
      (holds 1).drop 2)
    (P := fun r => r.2.state.completedActions.any (·.operationId = "a") &&
      (appliedBy 0 r.1 r.2 && appliedBy 1 r.1 r.2)) (by decide)
  obtain ⟨hremembered, happlied⟩ := Bool.and_eq_true_iff.1 hdone
  obtain ⟨happlied₀, happlied₁⟩ := Bool.and_eq_true_iff.1 happlied
  exact ⟨h, q, hpq, hremembered, happlied₀, happlied₁⟩

end App

end VpsGuard
