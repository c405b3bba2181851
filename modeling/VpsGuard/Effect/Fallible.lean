import VpsGuard.Effect.Machine

/-!
# Programs that may fail

A program that returns a value or an error: an error ends it, and is what it
returns (`Fallible`). Sequences are those of `ExceptT`, so that the steps of
such programs are written one after the other, and each goes on with the value
of the one before.

The rules for what they keep: `Safe.attempt` for sequences, and `Safe.request` for
an operation whose answer says whether it failed.
-/

namespace Effect

universe u

variable {S : Sig.{u}} {σ ι : Type*} {ε α β : Type u}

/-- A program that returns a value or fails with an error. -/
abbrev Fallible (S : Sig.{u}) (ε α : Type u) := ExceptT ε (Prog S) α

namespace Fallible

/-- Perform the operation; its answer is read as a value or an error. -/
def request (o : S.Op) (f : S.Ans o → Except ε α) : Fallible S ε α :=
  ExceptT.mk (.call o fun a => .ret (f a))

/-- A value, or an error in its place. -/
def ofOption (e : ε) (a : Option α) : Fallible S ε α :=
  ExceptT.mk (.ret (a.elim (.error e) .ok))

/-- Go on only if the condition holds. -/
def ensure (P : Prop) [Decidable P] (e : ε) : Fallible S ε PUnit.{u + 1} :=
  ExceptT.mk (.ret (if P then .ok ⟨⟩ else .error e))

variable {e : ε}

@[simp] theorem ofOption_some_bind {a : α} {k : α → Fallible S ε β} :
    (ofOption e (some a) >>= k : Fallible S ε β) = k a := rfl

theorem ensure_bind {P : Prop} [Decidable P] {k : PUnit.{u + 1} → Fallible S ε β} (h : P) :
    (ensure P e >>= k : Fallible S ε β) = k ⟨⟩ := by
  rw [ensure, if_pos h]
  rfl

/-- What holds of the value, and what holds of the error. -/
def Result (Z : α → Prop) (W : ε → Prop) : Except ε α → Prop
  | .ok a => Z a
  | .error e => W e

section Meets

variable {A : S.Op → Prop} {B : (o : S.Op) → S.Ans o → Prop} {Y : Except ε β → Prop}
  {f : α → Fallible S ε β} {x : Fallible S ε α}

theorem meets_bind {Z : α → Prop} (hx : x.run.Meets A B (Result Z fun e => Y (.error e)))
    (hf : ∀ a, Z a → (f a).run.Meets A B Y) : (x >>= f).run.Meets A B Y := by
  rw [ExceptT.run_bind]
  refine hx.bind fun r hr => ?_
  cases r with
  | ok a => exact hf a hr
  | error e => exact hr

/-- A part of which nothing but its operations is known. -/
theorem meets_performs_bind (hx : x.run.Performs A) (herror : ∀ e, Y (.error e))
    (hf : ∀ a, (f a).run.Meets A B Y) : (x >>= f).run.Meets A B Y := by
  refine meets_bind (Z := fun _ => True) ?_ fun a _ => hf a
  refine (hx.meets (Prog.yields_true _)).weaken fun r _ => ?_
  cases r with
  | ok a => trivial
  | error e => exact herror e

theorem meets_request {o : S.Op} {f : S.Ans o → Except ε β} (ho : A o)
    (hf : ∀ a, B o a → Y (f a)) : (request o f).run.Meets A B Y := ⟨ho, hf⟩

theorem meets_ensure {P : Prop} [Decidable P] {e : ε} {Y : Except ε PUnit.{u + 1} → Prop}
    (herror : ¬ P → Y (.error e)) (hok : P → Y (.ok ⟨⟩)) :
    (ensure P e : Fallible S ε PUnit.{u + 1}).run.Meets A B Y := by
  by_cases h : P
  · rw [ensure, if_pos h]
    exact hok h
  · rw [ensure, if_neg h]
    exact herror h

end Meets

variable {f : α → Fallible S ε β} {A : S.Op → Prop} {x : Fallible S ε α}

theorem performs_bind (hx : x.run.Performs A) (hf : ∀ a, (f a).run.Performs A) :
    (x >>= f).run.Performs A := by
  rw [ExceptT.run_bind]
  refine hx.bind fun r => ?_
  cases r with
  | ok a => exact hf a
  | error e => trivial

theorem performs_request {o : S.Op} {f : S.Ans o → Except ε α} (ho : A o) :
    (request o f).run.Performs A := ⟨ho, fun _ => trivial⟩

/-- What is returned in the end. -/
theorem yields_bind {Y : Except ε β → Prop} (herror : ∀ e, Y (.error e))
    (hf : ∀ a, (f a).run.Yields Y) : (x >>= f).run.Yields Y := by
  rw [ExceptT.run_bind]
  refine (Prog.yields_true _).bind fun r _ => ?_
  cases r with
  | ok a => exact hf a
  | error e => exact herror e

section Runs

variable {M : Machine S σ ι} {allow : S.Op → ι → σ → Prop} {s t : σ} {W : Except ε β → σ → Prop}

/-- A part that returns a value, and what follows it. -/
theorem exists_runs_bind {x : Fallible S ε α} {Z : α → Prop} {P : σ → Prop}
    (hx : ∃ r t, Prog.Runs M allow x.run s r t ∧ Result Z (fun _ => False) r ∧ P t)
    (hf : ∀ a t, Z a → P t → ∃ r u, Prog.Runs M allow (f a).run t r u ∧ W r u) :
    ∃ r u, Prog.Runs M allow (x >>= f).run s r u ∧ W r u := by
  obtain ⟨r, t, hr, hZ, ht⟩ := hx
  cases r with
  | error e => exact hZ.elim
  | ok a =>
    obtain ⟨b, u, hu, hW⟩ := hf a t hZ ht
    exact ⟨b, u, hr.bind hu, hW⟩

variable {o : S.Op}

/-- An operation, and what follows it. -/
theorem exists_runs_request {f : S.Ans o → Except ε α} {k : α → Fallible S ε β} {x : ι}
    {a : S.Ans o} {b : α} (hC : allow o x s) (hx : M.exec o x s = some (a, t)) (hb : f a = .ok b)
    (hk : ∃ r u, Prog.Runs M allow (k b).run t r u ∧ W r u) :
    ∃ r u, Prog.Runs M allow (request o f >>= k).run s r u ∧ W r u :=
  exists_runs_bind (Z := (· = b)) (P := (· = t))
    ⟨.ok b, t, .call hC hx (hb ▸ .ret _ _), rfl, rfl⟩ fun _ _ ha ht => ha ▸ ht ▸ hk

/-- An operation in the end. -/
theorem exists_runs_request_last {f : S.Ans o → Except ε β} {x : ι} {a : S.Ans o} (hC : allow o x s)
    (hx : M.exec o x s = some (a, t)) (hW : W (f a) t) :
    ∃ r u, Prog.Runs M allow (request o f).run s r u ∧ W r u :=
  ⟨f a, t, .call hC hx (.ret _ _), hW⟩

end Runs

end Fallible

namespace Prog

variable {E : Setting S σ ι} {w : Sharing σ} {s : σ} {Q : Except ε β → σ → Prop}

/-- What holds after a value, and what holds after an error. -/
def Outcome (R : α → σ → Prop) (X : ε → σ → Prop) : Except ε α → σ → Prop
  | .ok a => R a
  | .error e => X e

variable {R : α → σ → Prop} {x : Fallible S ε α} {f : α → Fallible S ε β}

/-- A sequence: an error is passed on. -/
theorem Safe.attempt (hx : x.run.Safe E w (Outcome R fun e => Q (.error e)) s)
    (hf : ∀ a t, E.inv t → (∀ u, w.rely t u → E.inv u → R a u) → (f a).run.Safe E w Q t) :
    (x >>= f).run.Safe E w Q s := by
  rw [ExceptT.run_bind]
  refine hx.bind_rely fun r t ht hr => ?_
  cases r with
  | ok a => exact hf a t ht hr
  | error e => exact Safe.ret hr

theorem Safe.attempt_alone (hx : x.run.Safe E .alone (Outcome R fun e => Q (.error e)) s)
    (hf : ∀ a t, E.inv t → R a t → (f a).run.Safe E .alone Q t) : (x >>= f).run.Safe E .alone Q s :=
  Safe.attempt hx fun a t ht h => hf a t ht (h t rfl ht)

/-- A sequence, where an error leads to what is asked for. -/
theorem Safe.attempt_or {X : ε → σ → Prop} (hx : x.run.Safe E .alone (Outcome R X) s)
    (herror : ∀ e t, X e t → Q (.error e) t)
    (hf : ∀ a t, E.inv t → R a t → (f a).run.Safe E .alone Q t) :
    (x >>= f).run.Safe E .alone Q s := by
  refine Safe.attempt_alone (hx.weaken fun r t _ hr => ?_) hf
  cases r with
  | ok a => exact hr
  | error e => exact herror e t hr

/-- A part that keeps `P`, and what follows it, given what its value is. -/
theorem Safe.attempt_keeping {P : σ → Prop} {Y : Except ε α → Prop}
    (hx : x.run.Safe E w (fun r t => Y r ∧ P t) s) (herror : ∀ e t, P t → Q (.error e) t)
    (hf : ∀ a t, Y (.ok a) → P t → (f a).run.Safe E w Q t) : (x >>= f).run.Safe E w Q s := by
  refine Safe.attempt (R := fun a t => Y (.ok a) ∧ P t) (hx.weaken fun r t _ h => ?_)
    fun a t ht h => ?_
  · cases r with
    | ok a => exact h
    | error e => exact herror e t h.2
  · obtain ⟨hY, hP⟩ := h t (w.rely_refl t) ht
    exact hf a t hY hP

variable {k : α → Fallible S ε β} {o : S.Op}

/-- An operation, and what follows it. -/
theorem Safe.request {f : S.Ans o → Except ε α}
    (h : ∀ t, w.rely s t → E.inv t → ∀ x a u, E.allow o x t → E.exec o x t = some (a, u) →
      w.guar t u ∧ E.inv u ∧ (∀ b, f a = .ok b → (k b).run.Safe E w Q u) ∧
        ∀ e, f a = .error e → ∀ v, w.rely u v → E.inv v → Q (.error e) v) :
    (Fallible.request o f >>= k).run.Safe E w Q s := by
  rw [ExceptT.run_bind]
  refine Safe.call fun t hst ht x a u hC hx => ?_
  obtain ⟨hg, hu, hok, herror⟩ := h t hst ht x a u hC hx
  refine ⟨hg, hu, ?_⟩
  change ((Prog.ret (f a) : Prog S (Except ε α)) >>= _).Safe E w Q u
  rw [ret_bind]
  cases hr : f a with
  | ok b => exact hok b hr
  | error e => exact Safe.ret (herror e hr)

/-- An operation in the end. -/
theorem Safe.request_last {f : S.Ans o → Except ε β}
    (h : ∀ t, w.rely s t → E.inv t → ∀ x a u, E.allow o x t → E.exec o x t = some (a, u) →
      w.guar t u ∧ E.inv u ∧ ∀ v, w.rely u v → E.inv v → Q (f a) v) :
    (Fallible.request o f : Fallible S ε β).run.Safe E w Q s := by
  refine Safe.call fun t hst ht x a u hC hx => ?_
  obtain ⟨hg, hu, hQ⟩ := h t hst ht x a u hC hx
  exact ⟨hg, hu, Safe.ret hQ⟩

variable {e : ε}

/-- A condition, and what follows it. -/
theorem Safe.ensure {P : Prop} [Decidable P] {k : PUnit.{u + 1} → Fallible S ε β}
    (herror : ∀ t, w.rely s t → E.inv t → Q (.error e) t)
    (h : P → (k ⟨⟩).run.Safe E w Q s) : (Fallible.ensure P e >>= k).run.Safe E w Q s := by
  by_cases hP : P
  · rw [Fallible.ensure, if_pos hP]
    exact h hP
  · rw [Fallible.ensure, if_neg hP]
    exact Safe.ret herror

theorem Safe.ofOption {a : Option α} (herror : ∀ t, w.rely s t → E.inv t → Q (.error e) t)
    (h : ∀ b, a = some b → (k b).run.Safe E w Q s) :
    (Fallible.ofOption e a >>= k).run.Safe E w Q s := by
  cases a with
  | none => exact Safe.ret herror
  | some b => exact h b rfl

/-- What becomes of the value makes no difference to what is kept. -/
theorem Safe.map {γ δ : Type u} {f : γ → δ} {p : Prog S γ} {Q : δ → σ → Prop}
    (hp : p.Safe E w (fun a => Q (f a)) s) : (f <$> p).Safe E w Q s :=
  hp.bind_rely fun _ _ _ h => Safe.ret h

end Prog

end Effect
