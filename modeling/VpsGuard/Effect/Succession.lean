import VpsGuard.Effect.Machine

/-!
# Programs one after another

A value is handed on by programs that run one after another: each starts from
the value that the last one returned, and nobody else changes the state. Which
program comes next is not determined.

* `Succession`: the moments of such runs, before, between and after the
  operations of the programs;
* `Succession.safe`: what holds between the programs and what holds at every
  moment, from what each of the programs keeps;
* `Succession.run`: the moment after given choices, for computing.
-/

namespace Effect

universe u

variable {S : Sig.{u}} {σ ι : Type*} {α : Type u}

/-- The moments of programs that run one after another from the value `a₀`: the
    value with which the present program started, the state, and what is left of
    the program. -/
inductive Succession (M : Machine S σ ι) (allow : S.Op → ι → σ → Prop)
    (next : α → Prog S α → Prop) (a₀ : α) (s₀ : σ) : α → σ → Prog S α → Prop
  | start : Succession M allow next a₀ s₀ a₀ s₀ (.ret a₀)
  | step {a : α} {o : S.Op} {k : S.Ans o → Prog S α} {x : ι} {y : S.Ans o} {s t : σ} :
      Succession M allow next a₀ s₀ a s (.call o k) → allow o x s → M.exec o x s = some (y, t) →
      Succession M allow next a₀ s₀ a t (k y)
  | next {a b : α} {s : σ} {p : Prog S α} : Succession M allow next a₀ s₀ a s (.ret b) → next b p →
      Succession M allow next a₀ s₀ b s p

namespace Succession

variable {M : Machine S σ ι} {allow : S.Op → ι → σ → Prop} {next : α → Prog S α → Prop}
  {a₀ a : α} {s₀ s : σ} {p : Prog S α}

/-- If every program, from a value and a state as in `J`, keeps `inv` of the value
    and returns as in `J`, then `inv` holds at every moment. -/
theorem safe {inv J : α → σ → Prop} (hJ : ∀ a s, J a s → inv a s)
    (hnext : ∀ a s p, J a s → next a p → p.Safe ⟨M, allow, inv a⟩ .alone J s)
    (h₀ : J a₀ s₀) (h : Succession M allow next a₀ s₀ a s p) :
    inv a s ∧ p.Safe ⟨M, allow, inv a⟩ .alone J s := by
  induction h with
  | start => exact ⟨hJ _ _ h₀, .ret_alone fun _ => h₀⟩
  | step _ hC hx ih =>
    obtain ⟨_, ht, hk⟩ := ih.2.step rfl ih.1 hC hx
    exact ⟨ht, hk⟩
  | next _ hp ih =>
    have hreturned := ih.2.value ih.1
    exact ⟨hJ _ _ hreturned, hnext _ _ _ hreturned hp⟩

/-- The moment after given choices: a program that comes next, or a choice for an
    operation. -/
def run {β : Type*} (M : Machine S σ ι) (prog : β → α → Prog S α) :
    List (β ⊕ ι) → α → σ → Prog S α → Option (α × σ × Prog S α)
  | [], a, s, p => some (a, s, p)
  | .inl b :: l, _, s, .ret a => run M prog l a s (prog b a)
  | .inr x :: l, a, s, .call o k => (M.exec o x s).bind fun r => run M prog l a r.2 (k r.1)
  | _, _, _, _ => none

theorem of_run {β : Type*} {prog : β → α → Prog S α} [∀ o x s, Decidable (allow o x s)]
    {l : List (β ⊕ ι)} {r : α × σ × Prog S α}
    (h : Succession M allow (fun a p => ∃ b, p = prog b a) a₀ s₀ a s p)
    (hl : run (M.restrict allow) prog l a s p = some r) :
    Succession M allow (fun a p => ∃ b, p = prog b a) a₀ s₀ r.1 r.2.1 r.2.2 := by
  induction l generalizing a s p with
  | nil => exact Option.some.inj hl ▸ h
  | cons e l ih =>
    cases e with
    | inl b =>
      cases p with
      | ret c => exact ih (h.next ⟨b, rfl⟩) hl
      | call o k => cases hl
    | inr x =>
      cases p with
      | ret c => cases hl
      | call o k =>
        rw [run, Option.bind_eq_some_iff] at hl
        obtain ⟨⟨y, t⟩, hx, hl⟩ := hl
        obtain ⟨hC, hx⟩ := Machine.restrict_eq_some_iff.1 hx
        exact ih (h.step hC hx) hl

/-- Choices after which `R` holds give a moment where it does. -/
theorem exists_of_run {β : Type*} {prog : β → α → Prog S α} [∀ o x s, Decidable (allow o x s)]
    {l : List (β ⊕ ι)} (R : α → σ → Bool)
    (h : (run (M.restrict allow) prog l a₀ s₀ (.ret a₀)).any (fun r => R r.1 r.2.1) = true) :
    ∃ a s p, Succession M allow (fun a p => ∃ b, p = prog b a) a₀ s₀ a s p ∧ R a s = true := by
  cases hr : run (M.restrict allow) prog l a₀ s₀ (.ret a₀) with
  | none => rw [hr] at h; cases h
  | some r => exact ⟨r.1, r.2.1, r.2.2, start.of_run hr, by rwa [hr] at h⟩

end Succession

end Effect
