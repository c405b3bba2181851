import Mathlib.Tactic.Common

/-!
# Programs over a signature of operations

A program asks its surroundings for *operations* — reading a shared cell,
writing a file, calling a service, looking at the clock — and goes on with
their answers. A `Sig` lists the operations with the type each one answers
in, and a `Prog` is the tree of the operations a program performs: a returned
value, or an operation followed by a program for every answer.

The tree says nothing about what the operations do: that is up to a machine
(`Effect.Machine`), and the same program may be run by several. Whatever the
machine, two things can already be said of a program:

* which values it may return, and which operations it performs, whatever it is
  answered (`Prog.Yields`, `Prog.Performs`), or given something about the
  answers (`Prog.Meets`);
* which sequences of operations and answers it goes through (`Prog.Traces`),
  and that it performs at most one operation (`Prog.Single`).

A program over one signature is also one over a larger signature
(`Prog.lift`), and operations may themselves be performed by programs
(`Prog.handle`). A loop is a program of a bounded number of turns (`Prog.loop`);
the bound is not felt if the turns lead down in some measure (`loop_succ`).
-/

namespace Effect

universe u

/-- A signature: the operations, and the type of the answers to each. -/
structure Sig where
  /-- The operations. -/
  Op : Type u
  /-- The answers to an operation. -/
  Ans : Op → Type u

/-- The operations of `S` among those of `T`, with the same answers. -/
structure Sig.Hom (S T : Sig.{u}) where
  op : S.Op → T.Op
  ans : ∀ o, T.Ans (op o) → S.Ans o

/-- A program over the operations of `S`, returning an `α`. -/
inductive Prog (S : Sig.{u}) (α : Type u) : Type u
  | ret (a : α)
  | call (o : S.Op) (k : S.Ans o → Prog S α)

namespace Prog

variable {S T : Sig.{u}} {α β γ : Type u}

/-- Run `p`, then `f` on what it returns. -/
def bind : Prog S α → (α → Prog S β) → Prog S β
  | ret a, f => f a
  | call o k, f => call o fun a => (k a).bind f

instance : Monad (Prog S) where
  pure := ret
  bind := bind

/-- The program performing the single operation `o`. -/
def perform (o : S.Op) : Prog S (S.Ans o) := call o ret

@[simp] theorem pure_eq (a : α) : (pure a : Prog S α) = ret a := rfl

@[simp] theorem ret_bind (a : α) (f : α → Prog S β) : ret a >>= f = f a := rfl

@[simp] theorem call_bind (o : S.Op) (k : S.Ans o → Prog S α) (f : α → Prog S β) :
    call o k >>= f = call o fun a => k a >>= f := rfl

theorem bind_assoc (p : Prog S α) (f : α → Prog S β) (g : β → Prog S γ) :
    p >>= f >>= g = p >>= fun a => f a >>= g := by
  induction p with
  | ret a => rfl
  | call o k ih => simp only [call_bind, ih]

/-! ## Values returned -/

/-- The value, if there is no error, satisfies `P`. -/
def OnOk {ε α : Type*} (P : α → Prop) : Except ε α → Prop
  | .ok a => P a
  | .error _ => True

/-- Every value the program may return satisfies `Q`, whatever the answers. -/
def Yields (Q : α → Prop) : Prog S α → Prop
  | ret a => Q a
  | call _ k => ∀ a, Yields Q (k a)

variable {Q : α → Prop} {a : α} {o : S.Op} {k : S.Ans o → Prog S α} {p : Prog S α}
  {f : α → Prog S β} {A : S.Op → Prop} {l : List ((o : S.Op) × S.Ans o)}

@[simp] theorem yields_call : (call o k).Yields Q ↔ ∀ a, (k a).Yields Q := Iff.rfl

theorem Yields.bind {Q : β → Prop} {R : α → Prop} (hp : p.Yields R)
    (hf : ∀ a, R a → (f a).Yields Q) : (p >>= f).Yields Q := by
  induction p with
  | ret a => exact hf a hp
  | call o k ih => exact fun a => ih a (hp a)

/-- What follows a program matters only for the values it may return. -/
theorem Yields.bind_congr {g g' : α → Prog S β} (hp : p.Yields Q) (h : ∀ a, Q a → g a = g' a) :
    p >>= g = p >>= g' := by
  induction p with
  | ret a => exact h a hp
  | call o k ih => exact congrArg (call o) (funext fun x => ih x (hp x))

theorem yields_true (p : Prog S α) : p.Yields fun _ => True := by
  induction p with
  | ret a => trivial
  | call o k ih => exact ih

/-- The value of a program that has returned. -/
def value? : Prog S α → Option α
  | ret a => some a
  | call _ _ => none

theorem eq_ret_of_value? (h : p.value? = some a) : p = ret a := by
  cases p with
  | ret b => exact congrArg ret (Option.some.inj h)
  | call o k => cases h

/-! ## Operations performed -/

/-- The operations that the program performs, whatever the answers, are among the `A`. -/
def Performs (A : S.Op → Prop) : Prog S α → Prop
  | ret _ => True
  | call o k => A o ∧ ∀ a, Performs A (k a)

theorem performs_call : (call o k).Performs A ↔ A o ∧ ∀ a, (k a).Performs A := Iff.rfl

theorem performs_true (p : Prog S α) : p.Performs fun _ => True := by
  induction p with
  | ret a => trivial
  | call o k ih => exact ⟨trivial, ih⟩

theorem Performs.bind (hp : p.Performs A) (hf : ∀ a, (f a).Performs A) : (p >>= f).Performs A := by
  induction p with
  | ret a => exact hf a
  | call o k ih => exact ⟨hp.1, fun a => ih a (hp.2 a)⟩

theorem Performs.mono {A' : S.Op → Prop} (hp : p.Performs A) (hA : ∀ o, A o → A' o) :
    p.Performs A' := by
  induction p with
  | ret a => trivial
  | call o k ih => exact ⟨hA o hp.1, fun a => ih a (hp.2 a)⟩

/-- Assuming that the answers are among the `B`, the operations that the program
    performs are among the `A`, and the value it returns among the `Y`. -/
def Meets (A : S.Op → Prop) (B : (o : S.Op) → S.Ans o → Prop) (Y : α → Prop) : Prog S α → Prop
  | ret a => Y a
  | call o k => A o ∧ ∀ a, B o a → Meets A B Y (k a)

section Meets

variable {A : S.Op → Prop} {B : (o : S.Op) → S.Ans o → Prop} {p : Prog S α} {Y : α → Prop}

theorem meets_call : (call o k).Meets A B Y ↔ A o ∧ ∀ a, B o a → (k a).Meets A B Y := Iff.rfl

variable {Z : α → Prop}

theorem Meets.bind {Y : β → Prop} (hp : p.Meets A B Z)
    (hf : ∀ a, Z a → (f a).Meets A B Y) : (p >>= f).Meets A B Y := by
  induction p with
  | ret a => exact hf a hp
  | call o k ih => exact ⟨hp.1, fun a ha => ih a (hp.2 a ha)⟩

theorem Meets.weaken (hp : p.Meets A B Z) (hY : ∀ a, Z a → Y a) : p.Meets A B Y := by
  induction p with
  | ret a => exact hY a hp
  | call o k ih => exact ⟨hp.1, fun a ha => ih a (hp.2 a ha)⟩

/-- Nothing needs to be assumed of the answers. -/
theorem Performs.meets (hA : p.Performs A) (hY : p.Yields Y) : p.Meets A B Y := by
  induction p with
  | ret a => exact hY
  | call o k ih => exact ⟨hA.1, fun a _ => ih a (hA.2 a) (hY a)⟩

end Meets

/-! ## Traces -/

/-- `p` returns `a` after the operations and answers of the list. -/
inductive Traces : Prog S α → List ((o : S.Op) × S.Ans o) → α → Prop
  | ret (a : α) : Traces (ret a) [] a
  | call {o : S.Op} {k : S.Ans o → Prog S α} {x : S.Ans o} {l a} :
      Traces (k x) l a → Traces (call o k) (⟨o, x⟩ :: l) a

theorem traces_ret_iff {b : α} : Traces (ret a : Prog S α) l b ↔ l = [] ∧ b = a := by
  constructor
  · rintro ⟨⟩
    exact ⟨rfl, rfl⟩
  · rintro ⟨rfl, rfl⟩
    exact .ret b

theorem traces_call_iff {b : α} :
    Traces (call o k) l b ↔ ∃ x l', l = ⟨o, x⟩ :: l' ∧ Traces (k x) l' b := by
  constructor
  · rintro (_ | h)
    exact ⟨_, _, rfl, h⟩
  · rintro ⟨x, l', rfl, h⟩
    exact .call h

/-- The operations of a trace are those that the program performs. -/
theorem Traces.performs (h : Traces p l a) (hp : p.Performs A) : ∀ c ∈ l, A c.1 := by
  induction h with
  | ret a => exact fun _ hc => absurd hc List.not_mem_nil
  | call _ ih =>
    rintro c (_ | ⟨_, hc⟩)
    · exact hp.1
    · exact ih (hp.2 _) c hc

theorem Traces.exists_append {b : β} (h : Traces (p >>= f) l b) :
    ∃ l₁ l₂ a, l = l₁ ++ l₂ ∧ Traces p l₁ a ∧ Traces (f a) l₂ b := by
  induction p generalizing l with
  | ret a => exact ⟨[], l, a, rfl, .ret a, h⟩
  | call o k ih =>
    obtain ⟨x, l', rfl, h'⟩ := traces_call_iff.1 h
    obtain ⟨l₁, l₂, a, rfl, hp, hf⟩ := ih x h'
    exact ⟨⟨o, x⟩ :: l₁, l₂, a, rfl, .call hp, hf⟩

/-- What the program performs and returns, when every operation is answered by `f`. -/
def answer (f : (o : S.Op) → S.Ans o) : Prog S α → List ((o : S.Op) × S.Ans o) × α
  | ret a => ([], a)
  | call o k => (⟨o, f o⟩ :: ((k (f o)).answer f).1, ((k (f o)).answer f).2)

theorem traces_answer (f : (o : S.Op) → S.Ans o) (p : Prog S α) :
    Traces p (p.answer f).1 (p.answer f).2 := by
  induction p with
  | ret a => exact .ret a
  | call o k ih => exact .call (ih (f o))

theorem traces_of_answer_eq {f : (o : S.Op) → S.Ans o} (h : (p.answer f).2 = a) :
    Traces p (p.answer f).1 a := h ▸ traces_answer f p

/-! ## Single operations -/

/-- The program performs one operation, among the `A`, or none, and then
    returns a value that is related by `R` to what it performed. -/
def Single (A : S.Op → Prop) (R : List ((o : S.Op) × S.Ans o) → α → Prop) : Prog S α → Prop
  | ret a => R [] a
  | call o k => A o ∧ ∀ x, ∃ a, k x = ret a ∧ R [⟨o, x⟩] a

variable {R : List ((o : S.Op) × S.Ans o) → α → Prop}

theorem Single.traces (hp : p.Single A R) (h : Traces p l a) : R l a := by
  cases p with
  | ret b =>
    obtain ⟨rfl, rfl⟩ := traces_ret_iff.1 h
    exact hp
  | call o k =>
    obtain ⟨x, l', rfl, h'⟩ := traces_call_iff.1 h
    obtain ⟨b, hk, hR⟩ := hp.2 x
    rw [hk] at h'
    obtain ⟨rfl, rfl⟩ := traces_ret_iff.1 h'
    exact hR

/-! ## Larger signatures -/

/-- The program over a larger signature. -/
def lift (f : Sig.Hom S T) : Prog S α → Prog T α
  | ret a => ret a
  | call o k => call (f.op o) fun a => (k (f.ans o a)).lift f

theorem Yields.lift (hp : p.Yields Q) (f : Sig.Hom S T) : (p.lift f).Yields Q := by
  induction p with
  | ret a => exact hp
  | call o k ih => exact fun a => ih (f.ans o a) (hp (f.ans o a))

/-- Over a larger signature, the operations performed are those of the smaller one. -/
theorem performs_lift {A : T.Op → Prop} (f : Sig.Hom S T) (hA : ∀ o, A (f.op o)) (p : Prog S α) :
    (p.lift f).Performs A := by
  induction p with
  | ret a => trivial
  | call o k ih => exact ⟨hA o, fun a => ih (f.ans o a)⟩

theorem Meets.lift {B : (o : S.Op) → S.Ans o → Prop} {Y : α → Prop} {D : T.Op → Prop}
    {E : (o : T.Op) → T.Ans o → Prop} (hp : p.Meets A B Y) (f : Sig.Hom S T)
    (hA : ∀ o, A o → D (f.op o)) (hB : ∀ o a, E (f.op o) a → B o (f.ans o a)) :
    (p.lift f).Meets D E Y := by
  induction p with
  | ret a => exact hp
  | call o k ih => exact ⟨hA o hp.1, fun a ha => ih (f.ans o a) (hp.2 _ (hB o a ha))⟩

theorem Single.yields_bind {f : Sig.Hom S T}
    {g : α → Prog T β} {Q : β → Prop} (hp : p.Single A R) (h : ∀ l a, R l a → (g a).Yields Q) :
    (p.lift f >>= g).Yields Q := by
  cases p with
  | ret a => exact h [] a hp
  | call o k =>
    intro y
    obtain ⟨a, ha, hR⟩ := hp.2 (f.ans o y)
    change ((k (f.ans o y)).lift f >>= g).Yields Q
    rw [ha]
    exact h _ a hR

/-! ## Operations implemented by programs -/

/-- Every operation is performed by a program over other operations. -/
def handle (h : (o : S.Op) → Prog T (S.Ans o)) : Prog S α → Prog T α
  | ret a => ret a
  | call o k => h o >>= fun a => (k a).handle h

@[simp] theorem handle_call (h : (o : S.Op) → Prog T (S.Ans o)) (o : S.Op)
    (k : S.Ans o → Prog S α) : (call o k).handle h = h o >>= fun a => (k a).handle h := rfl

theorem handle_bind (h : (o : S.Op) → Prog T (S.Ans o)) (p : Prog S α) (f : α → Prog S β) :
    (p >>= f).handle h = p.handle h >>= fun a => (f a).handle h := by
  induction p with
  | ret a => rfl
  | call o k ih => simp only [call_bind, handle_call, ih, bind_assoc]

/-! ## Loops -/

/-- The turns of a loop, at most `n`: a turn ends the loop with a value, or
    leads to another turn. When there are no turns left, `last` is returned. -/
def loop (body : β → Prog S (α ⊕ β)) (last : β → α) : ℕ → β → Prog S α
  | 0, b => ret (last b)
  | n + 1, b => body b >>= Sum.elim ret (loop body last n)

/-- A loop whose turns lead down in the measure `m` returns by itself: with
    enough turns, another one makes no difference. -/
theorem loop_succ {body : β → Prog S (α ⊕ β)} {last : β → α} {m : β → ℕ}
    (hm : ∀ b, (body b).Yields (Sum.elim (fun _ => True) fun b' => m b' < m b))
    {n : ℕ} {b : β} (hn : m b < n) : loop body last (n + 1) b = loop body last n b := by
  induction n generalizing b with
  | zero => exact absurd hn (Nat.not_lt_zero _)
  | succ n ih =>
    refine Yields.bind_congr (hm b) fun r hr => ?_
    cases r with
    | inl a => rfl
    | inr b' => exact ih (Nat.lt_of_lt_of_le hr (Nat.le_of_lt_succ hn))

end Prog

end Effect
