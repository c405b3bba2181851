import VpsGuard.Effect.Machine

/-!
# Interleavings

A *pool* is a list of programs, the tasks, on a state they share. At each step
some task performs its next operation, on the state as the others left it
(`Pool.step`); which task comes next, and with which choice of the
surroundings, is not determined. A task that has not started is one that has
not performed its first operation, so the tasks of a pool are all those that
ever run.

* `Pool.Reaches`: the pools reached by the interleavings all of whose steps
  are among the ones considered;
* `Pool.Reaches.safe`: if every task is safe, and what each task guarantees is
  something the others rely on, then the tasks stay safe and the invariant
  holds in every pool reached;
* `Pool.run`: the interleaving of a given schedule, for computing;
* `Pool.Traced`: the interleavings with the history of what the tasks
  performed, on which the steps considered may depend.
-/

namespace Effect

universe u

variable {S : Sig.{u}} {σ ι : Type*} {α : Type u}

/-- Tasks running side by side on a shared state. -/
structure Pool (S : Sig.{u}) (σ : Type*) (α : Type u) where
  /-- The shared state. -/
  state : σ
  /-- What is left of every task. -/
  tasks : List (Prog S α)

namespace Pool

/-- The task `i` performs its next operation, with the choice `x`. -/
def step (M : Machine S σ ι) (p : Pool S σ α) (i : ℕ) (x : ι) : Option (Pool S σ α) :=
  match p.tasks[i]? with
  | some (.call o k) => (M.exec o x p.state).map fun r => ⟨r.2, p.tasks.set i (k r.1)⟩
  | _ => none

/-- The pool after a schedule: in turn, the tasks named, with their choices. -/
def run (M : Machine S σ ι) : List (ℕ × ι) → Pool S σ α → Option (Pool S σ α)
  | [], p => some p
  | (i, x) :: l, p => (p.step M i x).bind (run M l)

/-- The pools reached from `p` by the steps considered. -/
inductive Reaches (M : Machine S σ ι) (allow : S.Op → ι → σ → Prop) (p : Pool S σ α) :
    Pool S σ α → Prop
  | refl : Reaches M allow p p
  | step {q : Pool S σ α} {i : ℕ} {o : S.Op} {k : S.Ans o → Prog S α} {x : ι} {a : S.Ans o} {t : σ} :
      Reaches M allow p q → q.tasks[i]? = some (.call o k) → allow o x q.state →
      M.exec o x q.state = some (a, t) → Reaches M allow p ⟨t, q.tasks.set i (k a)⟩

variable {M : Machine S σ ι} {p q r : Pool S σ α}

theorem step_eq_some_iff {i : ℕ} {x : ι} : p.step M i x = some q ↔
    ∃ o k a t, p.tasks[i]? = some (.call o k) ∧ M.exec o x p.state = some (a, t) ∧
      q = ⟨t, p.tasks.set i (k a)⟩ := by
  unfold step
  split
  · next o k h =>
    rw [Option.map_eq_some_iff]
    constructor
    · rintro ⟨⟨a, t⟩, hx, rfl⟩
      exact ⟨o, k, a, t, h, hx, rfl⟩
    · rintro ⟨o', k', a, t, h', hx, rfl⟩
      cases h.symm.trans h'
      exact ⟨(a, t), hx, rfl⟩
  · next hne =>
    constructor
    · intro h
      cases h
    · rintro ⟨o, k, a, t, h, _, _⟩
      exact (hne o k h).elim

section Run

variable {allow : S.Op → ι → σ → Prop} [∀ o x s, Decidable (allow o x s)]

/-- What a schedule of allowed steps leads to is reached. -/
theorem Reaches.run {l : List (ℕ × ι)} (h : Reaches M allow p q)
    (hl : Pool.run (M.restrict allow) l q = some r) : Reaches M allow p r := by
  induction l generalizing q with
  | nil => exact Option.some.inj hl ▸ h
  | cons ix l ih =>
    obtain ⟨i, x⟩ := ix
    rw [Pool.run, Option.bind_eq_some_iff] at hl
    obtain ⟨q', hq', hl⟩ := hl
    obtain ⟨o, k, a, t, htask, hx, rfl⟩ := step_eq_some_iff.1 hq'
    obtain ⟨hC, hx⟩ := Machine.restrict_eq_some_iff.1 hx
    exact ih (h.step htask hC hx) hl

/-- A schedule of allowed steps after which `P` holds gives a pool reached where it does. -/
theorem exists_reaches_of_run (M : Machine S σ ι) (allow : S.Op → ι → σ → Prop)
    [∀ o x s, Decidable (allow o x s)] (p : Pool S σ α) (l : List (ℕ × ι)) {P : Pool S σ α → Bool}
    (h : (Pool.run (M.restrict allow) l p).any P = true) :
    ∃ q, Reaches M allow p q ∧ P q = true := by
  cases hq : Pool.run (M.restrict allow) l p with
  | none => rw [hq] at h; cases h
  | some q => exact ⟨q, Reaches.refl.run hq, by rwa [hq] at h⟩

end Run

/-! ## Invariants -/

/-- The invariant holds, and every task is safe. -/
structure Safe (E : Setting S σ ι) (w : ℕ → Sharing σ) (Q : ℕ → α → σ → Prop)
    (p : Pool S σ α) : Prop where
  inv : E.inv p.state
  task : ∀ {i} {prog : Prog S α}, p.tasks[i]? = some prog → prog.Safe E (w i) (Q i) p.state

variable {E : Setting S σ ι} {Q : ℕ → α → σ → Prop}

/-- A step of one task keeps all tasks safe, if the others rely on no more
    than it guarantees. -/
theorem Safe.step {w : ℕ → Sharing σ}
    (hw : ∀ i j s t, i ≠ j → E.inv s → E.inv t → (w i).guar s t → (w j).rely s t)
    {i : ℕ} {o : S.Op} {k : S.Ans o → Prog S α} {x : ι} {a : S.Ans o} {t : σ} (hp : p.Safe E w Q)
    (htask : p.tasks[i]? = some (.call o k)) (hC : E.allow o x p.state)
    (hx : E.exec o x p.state = some (a, t)) :
    (⟨t, p.tasks.set i (k a)⟩ : Pool S σ α).Safe E w Q := by
  obtain ⟨hg, ht, hk⟩ := (hp.task htask).step ((w i).rely_refl _) hp.inv hC hx
  refine ⟨ht, fun {j prog} hj => ?_⟩
  obtain rfl | hij := eq_or_ne i j
  · -- The task that moved goes on as its safety says.
    have hlt : i < p.tasks.length := (List.getElem?_eq_some_iff.1 htask).1
    rw [List.getElem?_set_self hlt] at hj
    exact Option.some.inj hj ▸ hk
  · -- The others are as before, and the move is one they rely on.
    rw [List.getElem?_set_ne hij] at hj
    exact (hp.task hj).rely (hw i j _ _ hij hp.inv ht hg)

theorem Reaches.safe {w : ℕ → Sharing σ}
    (hw : ∀ i j s t, i ≠ j → E.inv s → E.inv t → (w i).guar s t → (w j).rely s t)
    (h : Reaches E.toMachine E.allow p q) (hp : p.Safe E w Q) : q.Safe E w Q := by
  induction h with
  | refl => exact hp
  | step _ htask hC hx ih => exact ih.step hw htask hC hx

/-- Where every task keeps the invariant whatever the others do, it holds. -/
theorem Reaches.inv (h : Reaches E.toMachine E.allow p q) (hp : E.inv p.state)
    (htasks : ∀ prog ∈ p.tasks, prog.Safe E .any (fun _ _ => True) p.state) : E.inv q.state :=
  (h.safe (w := fun _ => .any) (Q := fun _ _ _ => True) (fun _ _ _ _ _ _ _ _ => trivial)
    ⟨hp, fun hi => htasks _ (List.mem_of_getElem? hi)⟩).inv

/-- A task alone keeps the invariant wherever it is stopped. -/
theorem Reaches.inv_single {Q : α → σ → Prop} {prog : Prog S α} {s : σ}
    (h : Reaches E.toMachine E.allow ⟨s, [prog]⟩ q) (hs : E.inv s) (hprog : prog.Safe E .alone Q s) :
    E.inv q.state := by
  suffices h : E.inv q.state ∧ ∃ rest : Prog S α, q.tasks = [rest] ∧ rest.Safe E .alone Q q.state from
    h.1
  induction h with
  | refl => exact ⟨hs, prog, rfl, hprog⟩
  | @step q i o k x a t _ htask hC hx ih =>
    obtain ⟨hinv, rest, hrest, hsafe⟩ := ih
    rw [hrest, List.getElem?_singleton] at htask
    split at htask
    · next hi =>
      cases htask
      obtain ⟨-, ht, hk⟩ := hsafe.step rfl hinv hC hx
      exact ⟨ht, k a, by rw [hrest, hi]; rfl, hk⟩
    · cases htask

/-! ## Histories -/

/-- An operation that a task performed, and its answer. -/
structure Move (S : Sig.{u}) where
  task : ℕ
  op : S.Op
  ans : S.Ans op

/-- The pools reached from `p` after the moves of a history, the latest last.
    Whether a step is considered may depend on the moves before it. -/
inductive Traced (M : Machine S σ ι) (allow : List (Move S) → S.Op → ι → σ → Prop)
    (p : Pool S σ α) : List (Move S) → Pool S σ α → Prop
  | refl : Traced M allow p [] p
  | step {h : List (Move S)} {q : Pool S σ α} {i : ℕ} {o : S.Op} {k : S.Ans o → Prog S α} {x : ι}
      {a : S.Ans o} {t : σ} : Traced M allow p h q → q.tasks[i]? = some (.call o k) →
      allow h o x q.state → M.exec o x q.state = some (a, t) →
      Traced M allow p (h ++ [⟨i, o, a⟩]) ⟨t, q.tasks.set i (k a)⟩

section Traced

variable {allow : List (Move S) → S.Op → ι → σ → Prop} {h : List (Move S)}

/-- A task whose answers are as it assumes performed the operations it may,
    and goes on so. -/
theorem Traced.meets {A : S.Op → Prop} {B : (o : S.Op) → S.Ans o → Prop} {Y : α → Prop} {i : ℕ}
    {prog : Prog S α} (hpq : Traced M allow p h q) (hi : p.tasks[i]? = some prog)
    (hprog : prog.Meets A B Y) (hB : ∀ m ∈ h, m.task = i → B m.op m.ans) :
    (∀ m ∈ h, m.task = i → A m.op) ∧ ∃ rest, q.tasks[i]? = some rest ∧ rest.Meets A B Y := by
  induction hpq with
  | refl => exact ⟨by simp, prog, hi, hprog⟩
  | @step h q j o k x a t _ htask _ _ ih =>
    obtain ⟨hA, rest, hrest, hmeets⟩ := ih fun m hm => hB m (List.mem_append_left _ hm)
    obtain rfl | hij := eq_or_ne j i
    · -- The task itself: its next operation is the head of what is left of it.
      cases htask.symm.trans hrest
      obtain ⟨ho, hk⟩ := Prog.meets_call.1 hmeets
      refine ⟨fun m hm hmi => ?_, k a, ?_, hk a (hB ⟨j, o, a⟩ (by simp) rfl)⟩
      · rcases List.mem_append.1 hm with hm | hm
        · exact hA m hm hmi
        · rw [List.mem_singleton.1 hm]
          exact ho
      · exact List.getElem?_set_self (List.getElem?_eq_some_iff.1 htask).1
    · refine ⟨fun m hm hmi => ?_, rest, by rw [List.getElem?_set_ne hij]; exact hrest, hmeets⟩
      rcases List.mem_append.1 hm with hm | hm
      · exact hA m hm hmi
      · rw [List.mem_singleton.1 hm] at hmi
        exact absurd hmi hij

/-- The pool after a schedule, with its history. -/
def trace (M : Machine S σ ι) (allow : List (Move S) → S.Op → ι → σ → Prop)
    [∀ h o x s, Decidable (allow h o x s)] :
    List (ℕ × ι) → List (Move S) → Pool S σ α → Option (List (Move S) × Pool S σ α)
  | [], h, p => some (h, p)
  | (i, x) :: l, h, p =>
    match p.tasks[i]? with
    | some (.call o k) =>
      if allow h o x p.state then
        (M.exec o x p.state).bind fun r =>
          trace M allow l (h ++ [⟨i, o, r.1⟩]) ⟨r.2, p.tasks.set i (k r.1)⟩
      else none
    | _ => none

theorem Traced.trace [∀ h o x s, Decidable (allow h o x s)] {l : List (ℕ × ι)}
    {r : List (Move S) × Pool S σ α} (hpq : Traced M allow p h q)
    (hl : Pool.trace M allow l h q = some r) : Traced M allow p r.1 r.2 := by
  induction l generalizing h q with
  | nil => cases hl; exact hpq
  | cons ix l ih =>
    obtain ⟨i, x⟩ := ix
    rw [Pool.trace] at hl
    split at hl
    · next o k htask =>
      split at hl
      · next hC =>
        obtain ⟨⟨a, t⟩, hx, hl⟩ := Option.bind_eq_some_iff.1 hl
        exact ih (hpq.step htask hC hx) hl
      · cases hl
    · cases hl

/-- A schedule after which `P` holds gives a history after which it does. -/
theorem exists_traced_of_trace (M : Machine S σ ι)
    (allow : List (Move S) → S.Op → ι → σ → Prop) [∀ h o x s, Decidable (allow h o x s)]
    (p : Pool S σ α) (l : List (ℕ × ι)) {P : List (Move S) × Pool S σ α → Bool}
    (hl : (Pool.trace M allow l [] p).any P = true) :
    ∃ h q, Traced M allow p h q ∧ P (h, q) = true := by
  cases hr : Pool.trace M allow l [] p with
  | none => rw [hr] at hl; cases hl
  | some r => exact ⟨r.1, r.2, Traced.refl.trace hr, by rwa [hr] at hl⟩

end Traced

end Pool

end Effect
