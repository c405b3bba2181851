import VpsGuard.Effect.Machine

/-!
# Crashes and restarts

A process runs a program, and may crash before any of its operations: what is
left of the program is lost, the state becomes what of it survives (the files
and the outside world, not the memory), and the process starts again with a
program of its choice. A *lifetime* is what happens between two starts.

* `Restarts`: the states and programs reached over any number of lifetimes;
* `Restarts.safe`: if every start is safe, the invariant holds in every state
  reached, before, between and after the crashes;
* `Restarts.run`: the states of a given history, for computing.
-/

namespace Effect

universe u

variable {S : Sig.{u}} {σ ι β : Type*} {α : Type u}

/-- A process that may crash: how it starts, and what a crash leaves. -/
structure Process (S : Sig.{u}) (σ β : Type*) (α : Type u) where
  /-- The program a start runs. -/
  boot : β → Prog S α
  /-- What a crash leaves of the state. -/
  crash : σ → σ

/-- The states reached by the process `P` from `s₀` over any number of
    lifetimes, with what is left of the program, by the starts and the steps
    considered. -/
inductive Restarts (M : Machine S σ ι) (P : Process S σ β α) (start : β → σ → Prop)
    (allow : S.Op → ι → σ → Prop) (s₀ : σ) : σ → Prog S α → Prop
  | boot {b : β} : start b s₀ → Restarts M P start allow s₀ s₀ (P.boot b)
  | step {o : S.Op} {k : S.Ans o → Prog S α} {x : ι} {a : S.Ans o} {s t : σ} :
      Restarts M P start allow s₀ s (.call o k) → allow o x s → M.exec o x s = some (a, t) →
      Restarts M P start allow s₀ t (k a)
  | crash {b : β} {s : σ} {p : Prog S α} : Restarts M P start allow s₀ s p →
      start b (P.crash s) → Restarts M P start allow s₀ (P.crash s) (P.boot b)

namespace Restarts

variable {M : Machine S σ ι} {P : Process S σ β α} {start : β → σ → Prop}
  {allow : S.Op → ι → σ → Prop} {s₀ s : σ} {p : Prog S α}

/-- The state and the program after a history of steps and of crashes. -/
def run (M : Machine S σ ι) (P : Process S σ β α) : List (β ⊕ ι) → σ → Prog S α → Option (σ × Prog S α)
  | [], s, p => some (s, p)
  | .inl b :: l, s, _ => run M P l (P.crash s) (P.boot b)
  | .inr x :: l, s, .call o k => (M.exec o x s).bind fun r => run M P l r.2 (k r.1)
  | .inr _ :: _, _, .ret _ => none

section Run

variable [∀ o x s, Decidable (allow o x s)]

/-- What a history of allowed steps leads to is reached. -/
theorem of_run {l : List (β ⊕ ι)} {r : σ × Prog S α}
    (h : Restarts M P (fun _ _ => True) allow s₀ s p)
    (hl : run (M.restrict allow) P l s p = some r) :
    Restarts M P (fun _ _ => True) allow s₀ r.1 r.2 := by
  induction l generalizing s p with
  | nil => exact Option.some.inj hl ▸ h
  | cons e l ih =>
    cases e with
    | inl b => exact ih (h.crash trivial) hl
    | inr x =>
      cases p with
      | ret a => exact nomatch hl
      | call o k =>
        rw [run, Option.bind_eq_some_iff] at hl
        obtain ⟨⟨a, t⟩, hx, hl⟩ := hl
        obtain ⟨hC, hx⟩ := Machine.restrict_eq_some_iff.1 hx
        exact ih (h.step hC hx) hl

/-- A history of allowed steps after which `R` holds gives a state reached where it does. -/
theorem exists_of_run (M : Machine S σ ι) (P : Process S σ β α) (allow : S.Op → ι → σ → Prop)
    [∀ o x s, Decidable (allow o x s)] (s₀ : σ) (b : β) (l : List (β ⊕ ι)) {R : σ → Bool}
    (h : (run (M.restrict allow) P l s₀ (P.boot b)).any (fun r => R r.1) = true) :
    ∃ s p, Restarts M P (fun _ _ => True) allow s₀ s p ∧ R s = true := by
  cases hr : run (M.restrict allow) P l s₀ (P.boot b) with
  | none => rw [hr] at h; cases h
  | some r => exact ⟨r.1, r.2, of_run (.boot trivial) hr, by rwa [hr] at h⟩

end Run

/-- A lifetime that ends. -/
theorem of_runs {a : α} {t : σ} (h : Restarts M P start allow s₀ s p)
    (hp : Prog.Runs M allow p s a t) : Restarts M P start allow s₀ t (.ret a) := by
  induction hp with
  | ret a s => exact h
  | call hC hx _ ih => exact ih (h.step hC hx)

/-- Where every start is safe, the invariant holds in every state reached. A
    start finds the state `fresh`: as it was at first, or as a crash left it. -/
theorem safe {E : Setting S σ ι} {Q : α → σ → Prop} (fresh : σ → Prop)
    (h : Restarts E.toMachine P start E.allow s₀ s p) (h₀ : E.inv s₀ ∧ fresh s₀)
    (hcrash : ∀ s, E.inv s → E.inv (P.crash s) ∧ fresh (P.crash s))
    (hboot : ∀ b s, E.inv s → fresh s → start b s → (P.boot b).Safe E .alone Q s) :
    E.inv s ∧ p.Safe E .alone Q s := by
  induction h with
  | boot hb => exact ⟨h₀.1, hboot _ _ h₀.1 h₀.2 hb⟩
  | step _ hC hx ih =>
    obtain ⟨_, ht, hk⟩ := ih.2.step rfl ih.1 hC hx
    exact ⟨ht, hk⟩
  | crash _ hb ih =>
    obtain ⟨hinv, hfresh⟩ := hcrash _ ih.1
    exact ⟨hinv, hboot _ _ hinv hfresh hb⟩

end Restarts

end Effect
