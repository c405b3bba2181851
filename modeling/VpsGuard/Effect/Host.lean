import VpsGuard.Effect.Pool

/-!
# Calls to a process that may crash

A process serves calls side by side. Every call is made in some *lifetime* of
the process; when the process crashes, what is left of the calls of this
lifetime is never performed, the state becomes what of it survives, and the
next lifetime begins. A call that has not performed its first operation may as
well not have been made yet, so the calls are all those that are ever made.

The operations know which call performs them, and what has been performed is
on record (`Recorded`), so that what is said of the system may refer to who did
what.

* `Host.Reaches`: what is reached from some calls by the steps considered and
  by crashes;
* `Host.Reaches.safe`: if every call is safe from wherever it may start, and
  what it guarantees is something the others rely on, then the invariant holds
  and what the calls returned is as proved of them (`Host.Contract`);
* `Host.Reaches.lasting`: what every step keeps is kept from any moment to any
  later one;
* `Host.Reaches.finish`: a call that can return alone does so;
* `Host.run`: what a given schedule leads to, for computing.
-/

namespace Effect

universe u

variable {S : Sig.{u}} {σ ι : Type*} {α : Type u}

/-- A process that serves calls: how it performs an operation of the call with
    a given number, and what a crash leaves of its state. -/
structure Host (S : Sig.{u}) (σ ι : Type*) where
  exec : ℕ → (o : S.Op) → ι → σ → Option (S.Ans o × σ)
  crash : σ → σ

/-- A state, and what has been performed so far, the latest last. -/
structure Recorded (S : Sig.{u}) (σ : Type*) where
  state : σ
  history : List (Pool.Move S)

namespace Recorded

variable {A : (o : S.Op) → S.Ans o → Prop} {i j : ℕ} {s t : Recorded S σ}

/-- The call has performed an operation, with an answer, as `A` says. -/
def Did (A : (o : S.Op) → S.Ans o → Prop) (i : ℕ) (s : Recorded S σ) : Prop :=
  ∃ move ∈ s.history, move.task = i ∧ A move.op move.ans

theorem Did.mono (h : s.history <+: t.history) (hs : s.Did A i) : t.Did A i := by
  obtain ⟨move, hmem, hmove⟩ := hs
  exact ⟨move, h.subset hmem, hmove⟩

theorem did_append {o : S.Op} {a : S.Ans o} (h : t.history = s.history ++ [⟨i, o, a⟩]) :
    t.Did A j ↔ s.Did A j ∨ (j = i ∧ A o a) := by
  constructor
  · rintro ⟨move, hmem, rfl, hmove⟩
    rw [h] at hmem
    rcases List.mem_append.1 hmem with hmem | hmem
    · exact .inl ⟨move, hmem, rfl, hmove⟩
    · rw [List.mem_singleton.1 hmem] at hmove ⊢
      exact .inr ⟨rfl, hmove⟩
  · rintro (hs | ⟨rfl, hA⟩)
    · exact hs.mono ⟨_, h.symm⟩
    · exact ⟨⟨j, o, a⟩, by rw [h]; simp, rfl, hA⟩

theorem not_did_nil {u : σ} : ¬ (⟨u, []⟩ : Recorded S σ).Did A i := by
  rintro ⟨move, hmove, -⟩
  exact absurd hmove List.not_mem_nil

/-- The call has not performed anything. -/
def Idle (i : ℕ) (s : Recorded S σ) : Prop := ∀ move ∈ s.history, move.task ≠ i

theorem Idle.not_did (h : s.Idle i) : ¬ s.Did A i := by
  rintro ⟨move, hmem, hi, -⟩
  exact h move hmem hi

theorem idle_nil {u : σ} (i : ℕ) : (⟨u, []⟩ : Recorded S σ).Idle i :=
  fun _ h => absurd h List.not_mem_nil

theorem Idle.append {o : S.Op} {a : S.Ans o} (h : s.Idle j)
    (ht : t.history = s.history ++ [⟨i, o, a⟩]) (hij : i ≠ j) : t.Idle j := by
  intro move hmem
  rw [ht] at hmem
  rcases List.mem_append.1 hmem with hmem | hmem
  · exact h move hmem
  · rw [List.mem_singleton.1 hmem]
    exact hij

end Recorded

/-- The call with the number, of calls made in some lifetimes. -/
def callOf {κ : Type*} (calls : List (ℕ × κ)) (i : ℕ) : Option κ := calls[i]?.map Prod.snd

/-- Calls to a process: the lifetime it is in, and every call with the lifetime in
    which it is made and with what is left of it. -/
structure Calls (S : Sig.{u}) (σ : Type*) (α : Type u) where
  now : Recorded S σ
  life : ℕ
  tasks : List (ℕ × Prog S α)

/-- The call has returned the value. -/
def Calls.Returned (q : Calls S σ α) (i : ℕ) (a : α) : Prop := ∃ n, q.tasks[i]? = some (n, .ret a)

/-- The value that the call has returned, if it has. -/
def Calls.value? (q : Calls S σ α) (i : ℕ) : Option α := q.tasks[i]?.bind fun task => task.2.value?

theorem Calls.returned_of_value? {q : Calls S σ α} {i : ℕ} {a : α} (h : q.value? i = some a) :
    q.Returned i a := by
  obtain ⟨⟨n, prog⟩, hi, hvalue⟩ := Option.bind_eq_some_iff.1 h
  exact ⟨n, Prog.eq_ret_of_value? hvalue ▸ hi⟩

namespace Host

/-- The machine as the call with the number `i` sees it. -/
def machine (H : Host S σ ι) (i : ℕ) : Machine S (Recorded S σ) ι where
  exec o x s := (H.exec i o x s.state).map fun r => (r.1, ⟨r.2, s.history ++ [⟨i, o, r.1⟩]⟩)

variable {i : ℕ} {o : S.Op} {x : ι} {t : Recorded S σ} {a : S.Ans o}

theorem machine_eq_some_iff {H : Host S σ ι} {s : Recorded S σ} :
    (H.machine i).exec o x s = some (a, t) ↔
      H.exec i o x s.state = some (a, t.state) ∧ t.history = s.history ++ [⟨i, o, a⟩] := by
  obtain ⟨t, history⟩ := t
  simp only [machine, Option.map_eq_some_iff, Prod.mk.injEq, Recorded.mk.injEq]
  constructor
  · rintro ⟨⟨b, u⟩, hx, rfl, rfl, rfl⟩
    exact ⟨hx, rfl⟩
  · rintro ⟨hx, rfl⟩
    exact ⟨(a, t), hx, rfl, rfl, rfl⟩

theorem machine_exec {H : Host S σ ι} {s : Recorded S σ} {u : σ}
    (h : H.exec i o x s.state = some (a, u)) :
    (H.machine i).exec o x s = some (a, ⟨u, s.history ++ [⟨i, o, a⟩]⟩) :=
  machine_eq_some_iff.2 ⟨h, rfl⟩

/-- What a crash leaves. -/
def crashed (H : Host S σ ι) (s : Recorded S σ) : Recorded S σ := ⟨H.crash s.state, s.history⟩

/-- What is reached from `p` by the steps considered and by crashes. -/
inductive Reaches (H : Host S σ ι) (allow : ℕ → S.Op → ι → Recorded S σ → Prop)
    (p : Calls S σ α) : Calls S σ α → Prop
  | refl : Reaches H allow p p
  | step {q : Calls S σ α} {i : ℕ} {o : S.Op} {k : S.Ans o → Prog S α} {x : ι} {a : S.Ans o}
      {t : Recorded S σ} : Reaches H allow p q → q.tasks[i]? = some (q.life, .call o k) →
      allow i o x q.now → (H.machine i).exec o x q.now = some (a, t) →
      Reaches H allow p ⟨t, q.life, q.tasks.set i (q.life, k a)⟩
  | crash {q : Calls S σ α} : Reaches H allow p q →
      Reaches H allow p ⟨H.crashed q.now, q.life + 1, q.tasks⟩

/-- What the calls keep: an invariant, what each has from the others, and what holds
    once it has returned. The last is kept by the others and by crashes. -/
structure Contract (H : Host S σ ι) (allow : ℕ → S.Op → ι → Recorded S σ → Prop) (α : Type u) where
  inv : Recorded S σ → Prop
  sharing : ℕ → Sharing (Recorded S σ)
  post : ℕ → α → Recorded S σ → Prop
  compatible : ∀ i j s t, i ≠ j → inv s → inv t → (sharing i).guar s t → (sharing j).rely s t
  post_rely : ∀ i a s t, inv s → inv t → (sharing i).rely s t → post i a s → post i a t
  inv_crash : ∀ s, inv s → inv (H.crashed s)
  post_crash : ∀ i a s, inv s → post i a s → post i a (H.crashed s)

variable {H : Host S σ ι} {allow : ℕ → S.Op → ι → Recorded S σ → Prop} {p q r : Calls S σ α}

/-! ## Invariants -/

/-- What the call with the number `i` runs in. -/
def Contract.setting (P : Contract H allow α) (i : ℕ) : Setting S (Recorded S σ) ι where
  toMachine := H.machine i
  allow := allow i
  inv := P.inv

/-- The program is safe as the call with the number `i`. -/
abbrev Contract.Safe (P : Contract H allow α) (i : ℕ) (prog : Prog S α) (s : Recorded S σ) : Prop :=
  prog.Safe (P.setting i) (P.sharing i) (P.post i) s

/-- The invariant holds; the calls of this lifetime are safe, those of later ones
    are wherever they may start, and what has been returned is as it should be. -/
structure Kept (P : Contract H allow α) (q : Calls S σ α) : Prop where
  inv : P.inv q.now
  running : ∀ {i prog}, q.tasks[i]? = some (q.life, prog) → P.Safe i prog q.now
  waiting : ∀ {i n prog}, q.tasks[i]? = some (n, prog) → q.life < n →
    q.now.Idle i ∧ ∀ s, P.inv s → s.Idle i → P.Safe i prog s
  post : ∀ {i a}, q.Returned i a → P.post i a q.now

variable {P : Contract H allow α}

/-- Calls that are safe wherever they may start. -/
theorem Kept.start (hinv : P.inv p.now) (hidle : ∀ i, p.now.Idle i)
    (htasks : ∀ i n prog, p.tasks[i]? = some (n, prog) → ∀ s, P.inv s → s.Idle i →
      P.Safe i prog s) : Kept P p where
  inv := hinv
  running hi := htasks _ _ _ hi _ hinv (hidle _)
  waiting hi _ := ⟨hidle _, htasks _ _ _ hi⟩
  post := fun ⟨_, hi⟩ => (htasks _ _ _ hi _ hinv (hidle _)).value hinv

theorem Kept.step {k : S.Ans o → Prog S α} (hq : Kept P q)
    (htask : q.tasks[i]? = some (q.life, .call o k)) (hC : allow i o x q.now)
    (hx : (H.machine i).exec o x q.now = some (a, t)) :
    (P.sharing i).guar q.now t ∧ Kept P ⟨t, q.life, q.tasks.set i (q.life, k a)⟩ := by
  obtain ⟨hg, ht, hk⟩ := (hq.running htask).step ((P.sharing i).rely_refl _) hq.inv hC hx
  have hlt : i < q.tasks.length := (List.getElem?_eq_some_iff.1 htask).1
  have hset : (q.tasks.set i (q.life, k a))[i]? = some (q.life, k a) := List.getElem?_set_self hlt
  refine ⟨hg, ht, fun {j prog} hj => ?_, fun {j n prog} hj hlife => ?_, fun {j b} => ?_⟩
  · obtain rfl | hij := eq_or_ne i j
    · cases hset.symm.trans hj
      exact hk
    · rw [List.getElem?_set_ne hij] at hj
      exact (hq.running hj).rely (P.compatible i j _ _ hij hq.inv ht hg)
  · obtain rfl | hij := eq_or_ne i j
    · cases hset.symm.trans hj
      exact absurd hlife (Nat.lt_irrefl _)
    · rw [List.getElem?_set_ne hij] at hj
      obtain ⟨hidle, hsafe⟩ := hq.waiting hj hlife
      exact ⟨hidle.append (machine_eq_some_iff.1 hx).2 hij, hsafe⟩
  · rintro ⟨n, hj⟩
    obtain rfl | hij := eq_or_ne i j
    · have heq : (q.life, k a) = (n, .ret b) := Option.some.inj (hset.symm.trans hj)
      have hret : k a = .ret b := congrArg Prod.snd heq
      rw [hret] at hk
      exact hk.value ht
    · rw [List.getElem?_set_ne hij] at hj
      exact P.post_rely j b _ _ hq.inv ht (P.compatible i j _ _ hij hq.inv ht hg) (hq.post ⟨n, hj⟩)

theorem Kept.crash (hq : Kept P q) : Kept P ⟨H.crashed q.now, q.life + 1, q.tasks⟩ where
  inv := P.inv_crash _ hq.inv
  running hi := by
    obtain ⟨hidle, hsafe⟩ := hq.waiting hi (Nat.lt_succ_self _)
    exact hsafe _ (P.inv_crash _ hq.inv) hidle
  waiting hi hlife := hq.waiting hi (Nat.lt_of_succ_lt hlife)
  post hi := P.post_crash _ _ _ hq.inv (hq.post hi)

theorem Reaches.safe (hpq : Reaches H allow p q) (hp : Kept P p) : Kept P q := by
  induction hpq with
  | refl => exact hp
  | step _ htask hC hx ih => exact (ih.step htask hC hx).2
  | crash _ ih => exact ih.crash

/-- What every step and every crash keeps is kept from one moment to a later one. -/
theorem Reaches.lasting {L : Recorded S σ → Recorded S σ → Prop} (hpq : Reaches H allow p q)
    (hp : Kept P p) (hrefl : ∀ s, L s s) (htrans : ∀ s t u, L s t → L t u → L s u)
    (hguar : ∀ i s t, P.inv s → P.inv t → (P.sharing i).guar s t → L s t)
    (hcrash : ∀ s, P.inv s → L s (H.crashed s)) : L p.now q.now := by
  induction hpq with
  | refl => exact hrefl _
  | step hpq htask hC hx ih =>
    have hq := hpq.safe hp
    obtain ⟨hg, ht⟩ := hq.step htask hC hx
    exact htrans _ _ _ ih (hguar _ _ _ hq.inv ht.inv hg)
  | crash hpq ih => exact htrans _ _ _ ih (hcrash _ (hpq.safe hp).inv)

/-! ## Calls that return -/

/-- A call that can return alone does so, the others waiting. -/
theorem Reaches.finish {prog : Prog S α} {a : α} (hpq : Reaches H allow p q)
    (hi : q.tasks[i]? = some (q.life, prog))
    (hr : Prog.Runs (H.machine i) (allow i) prog q.now a t) :
    Reaches H allow p ⟨t, q.life, q.tasks.set i (q.life, .ret a)⟩ := by
  obtain ⟨now, life, tasks⟩ := q
  change Prog.Runs _ _ prog now a t at hr
  induction hr generalizing tasks with
  | ret a s =>
    obtain ⟨hlt, heq⟩ := List.getElem?_eq_some_iff.1 hi
    have hset : tasks.set i (life, .ret a) = tasks := by rw [← heq, List.set_getElem_self]
    simpa only [hset] using hpq
  | @call o k x y s u t a hC hx _ ih =>
    have hlt : i < tasks.length := (List.getElem?_eq_some_iff.1 hi).1
    have hset : (tasks.set i (life, k y))[i]? = some (life, k y) := List.getElem?_set_self hlt
    simpa only [List.set_set] using ih _ (hpq.step hi hC hx) hset

/-! ## Schedules -/

/-- What a schedule leads to: in turn, the calls named, and crashes. The choices
    are those that `pick` makes. -/
def run (H : Host S σ ι) (allow : ℕ → S.Op → ι → Recorded S σ → Prop)
    [∀ i o x s, Decidable (allow i o x s)] (pick : ℕ → S.Op → Recorded S σ → ι) :
    List (Option ℕ) → Calls S σ α → Option (Calls S σ α)
  | [], q => some q
  | none :: l, q => run H allow pick l ⟨H.crashed q.now, q.life + 1, q.tasks⟩
  | some i :: l, q =>
    match q.tasks[i]? with
    | some (n, .call o k) =>
      if n = q.life ∧ allow i o (pick i o q.now) q.now then
        ((H.machine i).exec o (pick i o q.now) q.now).bind fun r =>
          run H allow pick l ⟨r.2, q.life, q.tasks.set i (q.life, k r.1)⟩
      else none
    | _ => none

section Run

variable [∀ i o x s, Decidable (allow i o x s)] {pick : ℕ → S.Op → Recorded S σ → ι}

theorem Reaches.run {l : List (Option ℕ)} (hpq : Reaches H allow p q)
    (hl : Host.run H allow pick l q = some r) : Reaches H allow p r := by
  induction l generalizing q with
  | nil => exact Option.some.inj hl ▸ hpq
  | cons e l ih =>
    cases e with
    | none => exact ih hpq.crash hl
    | some i =>
      rw [Host.run] at hl
      split at hl
      · next n o k htask =>
        split at hl
        · next h =>
          obtain ⟨rfl, hC⟩ := h
          obtain ⟨⟨a, t⟩, hx, hl⟩ := Option.bind_eq_some_iff.1 hl
          exact ih (hpq.step htask hC hx) hl
        · cases hl
      · cases hl

/-- A schedule after which `R` holds leads to where it does. -/
theorem exists_reaches_of_run (H : Host S σ ι) (allow : ℕ → S.Op → ι → Recorded S σ → Prop)
    [∀ i o x s, Decidable (allow i o x s)] (p : Calls S σ α) (pick : ℕ → S.Op → Recorded S σ → ι)
    (l : List (Option ℕ)) {R : Calls S σ α → Bool} (h : (run H allow pick l p).any R = true) :
    ∃ q, Reaches H allow p q ∧ R q = true := by
  cases hq : run H allow pick l p with
  | none => rw [hq] at h; cases h
  | some q => exact ⟨q, Reaches.refl.run hq, by rwa [hq] at h⟩

end Run

end Host

end Effect
