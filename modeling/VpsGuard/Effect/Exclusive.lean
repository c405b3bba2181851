import VpsGuard.Effect.Pool

/-!
# Critical sections

Programs that do everything they do with a lock: the first operation takes it,
the last one gives it back, and there is none outside. The machine
(`Machine.locked`) gives the lock to one program at a time.

However such programs are interleaved, they do what they do when they run one
after the other, each of them alone, in the order in which they get the lock:
`Pool.Reaches.serial` finds, for every pool reached, the programs that have
returned in the order of a serial execution (`Pool.Serial`), and the one that
has the lock somewhere in a run of its own.
-/

namespace Effect

open List

universe u

variable {S : Sig.{u}} {σ ι : Type*} {α : Type u}

/-- The operations that take a lock, and those that give it back. -/
structure Locking (S : Sig.{u}) where
  acquires : S.Op → Bool
  releases : S.Op → Bool

/-- A state with a lock. -/
structure Locked (σ : Type*) where
  taken : Bool
  state : σ

/-- The machine with a lock: it is not given while it is taken. -/
def Machine.locked (L : Locking S) (M : Machine S σ ι) : Machine S (Locked σ) ι where
  exec o x s :=
    if L.acquires o && s.taken then none
    else (M.exec o x s.state).map fun r =>
      (r.1, ⟨L.acquires o || s.taken && !L.releases o, r.2⟩)

theorem Machine.locked_eq_some_iff {L : Locking S} {M : Machine S σ ι} {o : S.Op} {x : ι}
    {s t : Locked σ} {a : S.Ans o} : (M.locked L).exec o x s = some (a, t) ↔
      (L.acquires o = true → s.taken = false) ∧ M.exec o x s.state = some (a, t.state) ∧
        t.taken = (L.acquires o || s.taken && !L.releases o) := by
  obtain ⟨taken, t⟩ := t
  simp only [locked]
  split
  · next h => simp_all
  · next h =>
    simp only [Option.map_eq_some_iff, Prod.mk.injEq, Locked.mk.injEq]
    constructor
    · rintro ⟨⟨b, u⟩, hx, rfl, rfl, rfl⟩
      exact ⟨by simpa using h, hx, rfl⟩
    · rintro ⟨-, hx, rfl⟩
      exact ⟨(a, t), hx, rfl, rfl, rfl⟩

namespace Prog

variable (L : Locking S) (M : Machine S σ ι) (allow : S.Op → ι → σ → Prop)

/-- The program has the lock, and returns once it has given it back. -/
def Inside : Prog S α → Prop
  | ret _ => False
  | call o k => L.acquires o = false ∧ (L.releases o = true → ∀ a, ∃ b, k a = ret b) ∧
      (L.releases o = false → ∀ a, Inside (k a))

/-- The program does everything with the lock. -/
def Guarded : Prog S α → Prop
  | ret _ => True
  | call o k => L.acquires o = true ∧ ∀ a, (k a).Inside L

/-- Run alone from `s` by the allowed steps, `p` gets to `q` in the state `t`. -/
inductive Steps (p : Prog S α) (s : σ) : Prog S α → σ → Prop
  | refl : Steps p s p s
  | step {o : S.Op} {k : S.Ans o → Prog S α} {x : ι} {a : S.Ans o} {t u : σ} :
      Steps p s (.call o k) t → allow o x t → M.exec o x t = some (a, u) → Steps p s (k a) u

variable {L M allow} {p q : Prog S α} {s t u : σ}

theorem Steps.runs {a : α} (h : Steps M allow p s q t) (hq : Runs M allow q t a u) :
    Runs M allow p s a u := by
  induction h with
  | refl => exact hq
  | step _ hC hx ih => exact ih (.call hC hx hq)

/-- A program that has the lock has kept whatever the operations but the
    release keep. -/
theorem Steps.lasting {P : σ → Prop}
    (hP : ∀ o x s a t, L.acquires o = true ∨ L.releases o = false → M.exec o x s = some (a, t) →
      P s → P t)
    (hp : p.Guarded L) (h : Steps M allow p s q t) (hq : q.Inside L) (hs : P s) : P t := by
  have hor : (q = p ∧ P t) ∨ (q.Inside L ∧ P t) ∨ ∃ b, q = ret b := by
    clear hq
    induction h with
    | refl => exact .inl ⟨rfl, hs⟩
    | @step o k x a t u _ hC hx ih =>
      rcases ih with ⟨rfl, ht⟩ | ⟨hin, ht⟩ | ⟨b, hb⟩
      · exact .inr (.inl ⟨hp.2 a, hP o x t a u (.inl hp.1) hx ht⟩)
      · cases hrel : L.releases o with
        | true => exact .inr (.inr (hin.2.1 hrel a))
        | false => exact .inr (.inl ⟨hin.2.2 hrel a, hP o x t a u (.inr hrel) hx ht⟩)
      · cases hb
  rcases hor with ⟨rfl, ht⟩ | ⟨-, ht⟩ | ⟨b, rfl⟩
  · exact ht
  · exact ht
  · exact hq.elim

/-- A program followed by the release of the lock. -/
theorem inside_bind_release {β : Type u} {A : S.Op → Prop} {p : Prog S α} {o : α → S.Op}
    {f : (a : α) → S.Ans (o a) → β} (hp : p.Performs A)
    (hA : ∀ o, A o → L.acquires o = false ∧ L.releases o = false)
    (ho : ∀ a, L.acquires (o a) = false ∧ L.releases (o a) = true) :
    (p >>= fun a => call (o a) fun x => ret (f a x)).Inside L := by
  induction p with
  | ret a =>
    refine ⟨(ho a).1, fun _ x => ⟨f a x, rfl⟩, fun h => ?_⟩
    rw [(ho a).2] at h
    cases h
  | call o' k ih =>
    obtain ⟨hacq, hrel⟩ := hA o' hp.1
    refine ⟨hacq, fun h => ?_, fun _ a => ih a (hp.2 a)⟩
    rw [hrel] at h
    cases h

end Prog

namespace Pool

section

variable (M : Machine S σ ι) (allow : S.Op → ι → σ → Prop)

/-- The tasks of the list run alone, one after the other, and return its values. -/
inductive Serial (tasks : List (Prog S α)) (s : σ) : List (ℕ × α) → σ → Prop
  | nil : Serial tasks s [] s
  | snoc {l : List (ℕ × α)} {t u : σ} {i : ℕ} {p : Prog S α} {a : α} : Serial tasks s l t →
      tasks[i]? = some p → i ∉ l.map Prod.fst → Prog.Runs M allow p t a u →
      Serial tasks s (l ++ [(i, a)]) u

/-- The task has returned the value it has in the list, or has not done anything. -/
def Accounted (tasks tasks' : List (Prog S α)) (l : List (ℕ × α)) (i : ℕ) : Prop :=
  (∀ a, (i, a) ∈ l → tasks'[i]? = some (.ret a)) ∧
    (i ∉ l.map Prod.fst → tasks'[i]? = tasks[i]?)

/-- The tasks in the list have returned; the one that has the lock, if there is
    one, got from the state `t` to where it is; the others have not done anything. -/
inductive Settled (L : Locking S) (tasks : List (Prog S α)) (l : List (ℕ × α)) (t : σ)
    (q : Pool S (Locked σ) α) : Prop
  | free : q.state = ⟨false, t⟩ → (∀ i, Accounted tasks q.tasks l i) → Settled L tasks l t q
  | taken {i : ℕ} {p rest : Prog S α} {u : σ} : q.state = ⟨true, u⟩ → tasks[i]? = some p →
      i ∉ l.map Prod.fst → q.tasks[i]? = some rest → rest.Inside L →
      Prog.Steps M allow p t rest u → (∀ j, j ≠ i → Accounted tasks q.tasks l j) →
      Settled L tasks l t q

end

variable {M : Machine S σ ι} {allow : S.Op → ι → σ → Prop} {L : Locking S}
  {tasks tasks' : List (Prog S α)} {l : List (ℕ × α)} {i j : ℕ}

/-- A task that is accounted for and goes on has not done anything yet. -/
theorem Accounted.of_call {o : S.Op} {k : S.Ans o → Prog S α} (h : Accounted tasks tasks' l i)
    (hi : tasks'[i]? = some (.call o k)) :
    tasks[i]? = some (.call o k) ∧ i ∉ l.map Prod.fst := by
  have hnot : i ∉ l.map Prod.fst := by
    intro hmem
    obtain ⟨⟨_, a⟩, ha, rfl⟩ := mem_map.1 hmem
    cases hi.symm.trans (h.1 a ha)
  exact ⟨(h.2 hnot).symm.trans hi, hnot⟩

theorem Accounted.set_ne {p : Prog S α} (h : Accounted tasks tasks' l j) (hij : i ≠ j) :
    Accounted tasks (tasks'.set i p) l j := by
  rw [Accounted, getElem?_set_ne hij]
  exact h

variable {a : α} {q : Pool S (Locked σ) α} {t : σ}

theorem Accounted.append_ne (h : Accounted tasks tasks' l j) (hij : i ≠ j) :
    Accounted tasks tasks' (l ++ [(i, a)]) j := by
  refine ⟨fun b hb => h.1 b ?_, fun hnot => h.2 fun hmem => hnot ?_⟩
  · rcases mem_append.1 hb with hb | hb
    · exact hb
    · cases mem_singleton.1 hb
      exact absurd rfl hij
  · rw [map_append]
    exact mem_append_left _ hmem

/-- One step: the lock is taken, the task that has it goes on, or gives it back
    and returns. Nobody else moves. -/
theorem Settled.step {o : S.Op} {k : S.Ans o → Prog S α} {x : ι} {a : S.Ans o} {s : σ}
    {v : Locked σ} (htasks : ∀ p ∈ tasks, p.Guarded L) (hl : Serial M allow tasks s l t)
    (hq : Settled M allow L tasks l t q) (htask : q.tasks[j]? = some (.call o k))
    (hC : allow o x q.state.state) (hx : (M.locked L).exec o x q.state = some (a, v)) :
    ∃ l' t', Serial M allow tasks s l' t' ∧
      Settled M allow L tasks l' t' ⟨v, q.tasks.set j (k a)⟩ := by
  obtain ⟨hfree, hexec, htaken⟩ := Machine.locked_eq_some_iff.1 hx
  have hset : (q.tasks.set j (k a))[j]? = some (k a) :=
    List.getElem?_set_self (List.getElem?_eq_some_iff.1 htask).1
  cases hq with
  | free hstate hall =>
    -- The task starts, and takes the lock.
    obtain ⟨hp, hnot⟩ := (hall j).of_call htask
    obtain ⟨hacq, hinside⟩ := htasks _ (mem_of_getElem? hp)
    rw [hstate] at hC hexec
    refine ⟨l, t, hl, .taken (i := j) (u := v.state) ?_ hp hnot hset (hinside a)
      (.step .refl hC hexec) fun i hi => (hall i).set_ne (Ne.symm hi)⟩
    rw [hacq] at htaken
    exact congrArg (Locked.mk · v.state) htaken
  | @taken i p rest u hstate hp hnot hrest hinside hsteps hall =>
    rw [hstate] at hC hexec htaken hfree
    obtain rfl | hij := eq_or_ne j i
    · cases hrest.symm.trans htask
      obtain ⟨hacq, hrel, hgoes⟩ := hinside
      have hsteps' : Prog.Steps M allow p t (k a) v.state := hsteps.step hC hexec
      cases hreleases : L.releases o with
      | true =>
        -- The task gives the lock back, and has returned.
        obtain ⟨b, hb⟩ := hrel hreleases a
        rw [hb] at hsteps' hset
        refine ⟨l ++ [(j, b)], v.state, hl.snoc hp hnot (hsteps'.runs (.ret b _)), .free ?_ ?_⟩
        · rw [hacq, hreleases] at htaken
          exact congrArg (Locked.mk · v.state) htaken
        · intro i
          obtain rfl | hji := eq_or_ne j i
          · refine ⟨fun c hc => ?_, fun hnot' => absurd (by simp) hnot'⟩
            rcases mem_append.1 hc with hc | hc
            · exact absurd (mem_map_of_mem hc) hnot
            · cases mem_singleton.1 hc
              rw [hb]
              exact hset
          · exact ((hall i (Ne.symm hji)).set_ne hji).append_ne hji
      | false =>
        refine ⟨l, t, hl, .taken (i := j) (u := v.state) ?_ hp hnot hset
          (hgoes hreleases a) hsteps' fun i hi => (hall i hi).set_ne (Ne.symm hi)⟩
        rw [hacq, hreleases] at htaken
        exact congrArg (Locked.mk · v.state) htaken
    · -- Another one would have to take the lock, which is taken.
      obtain ⟨hp', -⟩ := (hall j hij).of_call htask
      obtain ⟨hacq, -⟩ := htasks _ (mem_of_getElem? hp')
      cases hfree hacq

/-- **Critical sections.** However programs that do everything with a lock are
    interleaved, they do what they do one after the other. -/
theorem Reaches.serial {s : σ} (htasks : ∀ p ∈ tasks, p.Guarded L)
    (h : Reaches (M.locked L) (fun o x s => allow o x s.state) ⟨⟨false, s⟩, tasks⟩ q) :
    ∃ l t, Serial M allow tasks s l t ∧ Settled M allow L tasks l t q := by
  induction h with
  | refl => exact ⟨[], s, .nil, .free rfl fun i => ⟨by simp, fun _ => rfl⟩⟩
  | step _ htask hC hx ih =>
    obtain ⟨l, t, hl, hq⟩ := ih
    exact hq.step htasks hl htask hC hx

/-- A task in the list has returned. -/
theorem Settled.returned (h : Settled M allow L tasks l t q) (ha : (i, a) ∈ l) :
    q.tasks[i]? = some (.ret a) := by
  cases h with
  | free _ hall => exact (hall i).1 a ha
  | taken _ _ hnot _ _ _ hall =>
    refine (hall i ?_).1 a ha
    rintro rfl
    exact hnot (mem_map_of_mem ha)

/-- A task that has returned is in the list, or had nothing to do. -/
theorem Settled.mem_or (h : Settled M allow L tasks l t q) (ha : q.tasks[i]? = some (.ret a)) :
    (i, a) ∈ l ∨ tasks[i]? = some (.ret a) := by
  have haccounted : Accounted tasks q.tasks l i := by
    cases h with
    | free _ hall => exact hall i
    | @taken j _ _ _ _ _ _ hrest hinside _ hall =>
      refine hall i ?_
      rintro rfl
      cases hrest.symm.trans ha
      exact hinside.elim
  by_cases hmem : i ∈ l.map Prod.fst
  · obtain ⟨⟨_, b⟩, hb, rfl⟩ := mem_map.1 hmem
    cases ha.symm.trans (haccounted.1 b hb)
    exact .inl hb
  · exact .inr ((haccounted.2 hmem).symm.trans ha)

end Pool

end Effect
