import VpsGuard.Effect.Prog

/-!
# Machines, and what programs keep

A *machine* answers the operations of a signature: in a state and with a
choice of the surroundings (which failure, which reading of the clock, …), an
operation is answered and the state changes, or the operation is not possible
there (a lock is taken, the choice is of the wrong kind).

A program seldom runs alone. `Prog.Safe` says that, run from a state, it keeps
what it is asked to keep at *every* step, even when others change the state
between its steps, as long as they *rely*-respect it: every step goes from a
state of the invariant to one of the invariant and is *guaranteed* to the
others. A `Setting` is what the programs of a system have in common: the
machine, the steps that are considered, and the invariant; a `Sharing` is what
one program has from the others and gives to them.

A program running alone, the state being left as it is between its steps, is
the case of `Sharing.alone`; its invariant then holds wherever it is stopped.

The rules: `Safe.call` and `Safe.ret` for the two constructors, `Safe.bind`
for sequences, `Safe.weaken` for consequences, `Safe.lift` for programs over a
smaller signature run by a machine on a part of the state.
-/

namespace Effect

universe u v

variable {S T : Sig.{u}} {σ τ ι κ : Type*} {α β : Type u}

/-- A machine for the operations of `S`, on states `σ` and with choices `ι`. -/
structure Machine (S : Sig.{u}) (σ ι : Type*) where
  /-- The answer to an operation, and the state after it, if it is possible. -/
  exec : (o : S.Op) → ι → σ → Option (S.Ans o × σ)

/-- The machine that makes the allowed steps only. -/
def Machine.restrict (M : Machine S σ ι) (allow : S.Op → ι → σ → Prop)
    [∀ o x s, Decidable (allow o x s)] : Machine S σ ι where
  exec o x s := if allow o x s then M.exec o x s else none

theorem Machine.restrict_eq_some_iff {M : Machine S σ ι} {allow : S.Op → ι → σ → Prop}
    [∀ o x s, Decidable (allow o x s)] {o : S.Op} {x : ι} {s : σ} {r : S.Ans o × σ} :
    (M.restrict allow).exec o x s = some r ↔ allow o x s ∧ M.exec o x s = some r := by
  simp [restrict]

/-- What the programs of a system have in common. -/
structure Setting (S : Sig.{u}) (σ ι : Type*) extends Machine S σ ι where
  /-- The steps considered: an operation, the choice made for it, and the state before. -/
  allow : S.Op → ι → σ → Prop
  /-- The invariant. -/
  inv : σ → Prop

/-- What a program has from the others, and what it gives to them. -/
structure Sharing (σ : Type*) where
  /-- What the others may do between two steps. -/
  rely : σ → σ → Prop
  /-- What a step of the program does, as seen by the others. -/
  guar : σ → σ → Prop
  rely_refl : ∀ s, rely s s
  rely_trans : ∀ {s t u}, rely s t → rely t u → rely s u

/-- Nobody else changes the state. -/
def Sharing.alone : Sharing σ where
  rely := Eq
  guar _ _ := True
  rely_refl _ := rfl
  rely_trans := Eq.trans

/-- The others only keep the invariant. -/
def Sharing.any : Sharing σ where
  rely _ _ := True
  guar _ _ := True
  rely_refl _ := trivial
  rely_trans _ _ := trivial

/-- What the others leave in place. -/
def Sharing.Keeps (w : Sharing σ) (P : σ → Prop) : Prop := ∀ s t, P s → w.rely s t → P t

theorem Sharing.keeps_true {w : Sharing σ} : w.Keeps fun _ => True := fun _ _ _ _ => trivial

theorem Sharing.Keeps.and {w : Sharing σ} {P R : σ → Prop} (hP : w.Keeps P) (hR : w.Keeps R) :
    w.Keeps fun s => P s ∧ R s := fun s t hs hst => ⟨hP s t hs.1 hst, hR s t hs.2 hst⟩

/-- Operations that concern nobody: they keep the invariant, are guaranteed to
    the others, and do to the program itself no more than the others may. -/
def Setting.Aside (E : Setting S σ ι) (w : Sharing σ) (A : S.Op → Prop) : Prop :=
  ∀ o x s a t, A o → E.inv s → E.allow o x s → E.exec o x s = some (a, t) →
    w.rely s t ∧ w.guar s t ∧ E.inv t

/-- The setting in which only those steps are considered that keep the invariant and
    the guarantee. -/
def Setting.trusted (E : Setting S σ ι) (w : Sharing σ) : Setting S σ ι where
  toMachine := E.toMachine
  allow o x s := E.allow o x s ∧ ∀ a t, E.exec o x s = some (a, t) → w.guar s t ∧ E.inv t
  inv := E.inv

namespace Prog

variable (E : Setting S σ ι) (w : Sharing σ)

/-- Run from `s`, the program keeps the invariant and its guarantee at every
    step, and what it returns satisfies `Q`. -/
def Safe (Q : α → σ → Prop) : Prog S α → σ → Prop
  | ret a, s => ∀ t, w.rely s t → E.inv t → Q a t
  | call o k, s => ∀ t, w.rely s t → E.inv t → ∀ x a u, E.allow o x t →
      E.exec o x t = some (a, u) → w.guar t u ∧ E.inv u ∧ Safe Q (k a) u

variable {E w} {Q R : α → σ → Prop} {p : Prog S α} {s t : σ}
  {a : α} {o : S.Op} {k : S.Ans o → Prog S α} {f : α → Prog S β} {A : S.Op → Prop}
  {P : σ → Prop} {Y : α → Prop} {M : Machine S σ ι} {allow : S.Op → ι → σ → Prop}

theorem Safe.ret (h : ∀ t, w.rely s t → E.inv t → Q a t) : (ret a : Prog S α).Safe E w Q s := h

theorem Safe.ret_trivial : (Prog.ret a : Prog S α).Safe E w (fun _ _ => True) s :=
  .ret fun _ _ _ => trivial

theorem Safe.call
    (h : ∀ t, w.rely s t → E.inv t → ∀ x a u, E.allow o x t → E.exec o x t = some (a, u) →
      w.guar t u ∧ E.inv u ∧ (k a).Safe E w Q u) :
    (call o k).Safe E w Q s := h

/-- A step of a safe program. -/
theorem Safe.step {x : ι} {a : S.Ans o} {u : σ} (h : (Prog.call o k).Safe E w Q s)
    (hst : w.rely s t) (ht : E.inv t) (hC : E.allow o x t) (hx : E.exec o x t = some (a, u)) :
    w.guar t u ∧ E.inv u ∧ (k a).Safe E w Q u :=
  h t hst ht x a u hC hx

/-- What a safe program returns. -/
theorem Safe.value (h : (Prog.ret a : Prog S α).Safe E w Q s) (hs : E.inv s) : Q a s :=
  h s (w.rely_refl s) hs

/-- The others may move while the program waits. -/
theorem Safe.rely (h : p.Safe E w Q s) (hst : w.rely s t) : p.Safe E w Q t := by
  cases p with
  | ret a => exact fun u hu => h u (w.rely_trans hst hu)
  | call o k => exact fun u hu => h u (w.rely_trans hst hu)

/-- A program is safe where it is safe once the others have moved. -/
theorem Safe.of_rely (h : ∀ t, w.rely s t → E.inv t → p.Safe E w Q t) : p.Safe E w Q s := by
  cases p with
  | ret a => exact fun t hst ht => h t hst ht t (w.rely_refl t) ht
  | call o k => exact fun t hst ht => h t hst ht t (w.rely_refl t) ht

theorem Safe.weaken (hQ : ∀ a t, E.inv t → Q a t → R a t) (h : p.Safe E w Q s) :
    p.Safe E w R s := by
  induction p generalizing s with
  | ret a => exact fun t hst ht => hQ a t ht (h t hst ht)
  | call o k ih =>
    intro t hst ht x a u hC hx
    obtain ⟨hg, hu, hk⟩ := h t hst ht x a u hC hx
    exact ⟨hg, hu, ih a hk⟩

/-- A program in sequence with others: what it returns still satisfies what is
    proved of it when the others have moved. -/
theorem Safe.bind_rely {Q : β → σ → Prop} (hp : p.Safe E w R s)
    (hf : ∀ a t, E.inv t → (∀ u, w.rely t u → E.inv u → R a u) → (f a).Safe E w Q t) :
    (p >>= f).Safe E w Q s := by
  induction p generalizing s with
  | ret a =>
    exact Safe.of_rely fun t hst ht => hf a t ht fun u hu => hp u (w.rely_trans hst hu)
  | call o k ih =>
    intro t hst ht x a u hC hx
    obtain ⟨hg, hu, hk⟩ := hp t hst ht x a u hC hx
    exact ⟨hg, hu, ih a hk⟩

theorem Safe.bind {Q : β → σ → Prop} (hp : p.Safe E w R s)
    (hf : ∀ a t, E.inv t → R a t → (f a).Safe E w Q t) : (p >>= f).Safe E w Q s :=
  hp.bind_rely fun a t ht h => hf a t ht (h t (w.rely_refl t) ht)

variable {B : (o : S.Op) → S.Ans o → Prop}

/-- A program is safe from `P` where the operations that it performs lead from
    the invariant to the invariant, are guaranteed to the others, keep `P` and
    are answered as it assumes, and the others keep `P`. -/
theorem Safe.of_meets (hp : p.Meets A B Y) (hP : ∀ s t, P s → w.rely s t → E.inv t → P t)
    (hq : ∀ o x s a t, A o → P s → E.inv s → E.allow o x s → E.exec o x s = some (a, t) →
      w.guar s t ∧ E.inv t ∧ P t ∧ B o a)
    (hs : P s) : p.Safe E w (fun a t => Y a ∧ P t) s := by
  induction p generalizing s with
  | ret a => exact fun t hst ht => ⟨hp, hP s t hs hst ht⟩
  | call o k ih =>
    intro t hst ht x a u hC hx
    obtain ⟨hg, hu, hPu, hB⟩ := hq o x t a u hp.1 (hP s t hs hst ht) ht hC hx
    exact ⟨hg, hu, ih a (hp.2 a hB) hPu⟩

/-- Programs of operations that concern nobody keep what the others keep. -/
theorem Safe.of_aside (hA : E.Aside w A) (hP : w.Keeps P) (hp : p.Meets A (fun _ _ => True) Y)
    (hs : P s) : p.Safe E w (fun a t => Y a ∧ P t) s := by
  refine Safe.of_meets hp (fun s t h hst _ => hP s t h hst) ?_ hs
  intro o x s a t ho h hinv hC hx
  obtain ⟨hr, hg, ht⟩ := hA o x s a t ho hinv hC hx
  exact ⟨hg, ht, hP s t h hr, trivial⟩

/-- An operation that concerns nobody, given how it is answered. -/
theorem Safe.call_aside (hA : E.Aside w A) (ho : A o) (hP : w.Keeps P) (hs : P s)
    (hk : ∀ x a t u, P t → E.allow o x t → E.exec o x t = some (a, u) → P u → (k a).Safe E w Q u) :
    (Prog.call o k).Safe E w Q s := by
  refine Safe.call fun t hst ht x a u hC hx => ?_
  obtain ⟨hr, hg, hu⟩ := hA o x t a u ho ht hC hx
  have hPt := hP s t hs hst
  exact ⟨hg, hu, hk x a t u hPt hC hx (hP t u hPt hr)⟩

/-- A program over a smaller signature, safe for a machine on a part of the
    state (seen through `view`), is safe on the whole: a step of the whole is
    a step of the part, and a step of the part keeps what the whole asks for.
    `P` is what the program keeps of the rest of the state. -/
theorem Safe.lift {F : Setting T τ κ} {v : Sharing τ} {f : Sig.Hom S T} (view : τ → σ)
    (P : τ → Prop) {s : τ}
    (hrely : ∀ s t, P s → v.rely s t → F.inv t → w.rely (view s) (view t) ∧ P t)
    (hinv : ∀ s, P s → F.inv s → E.inv (view s))
    (hstep : ∀ o x s a t, P s → F.inv s → F.allow (f.op o) x s →
      F.exec (f.op o) x s = some (a, t) →
      ∃ y, E.allow o y (view s) ∧ E.exec o y (view s) = some (f.ans o a, view t) ∧
        (w.guar (view s) (view t) → E.inv (view t) → v.guar s t ∧ F.inv t ∧ P t))
    (hp : p.Safe E w Q (view s)) (hs : P s) :
    (p.lift f).Safe F v (fun a t => Q a (view t) ∧ P t) s := by
  induction p generalizing s with
  | ret a =>
    intro t hst ht
    obtain ⟨hr, hPt⟩ := hrely s t hs hst ht
    exact ⟨hp (view t) hr (hinv t hPt ht), hPt⟩
  | call o k ih =>
    intro t hst ht x a u hC hx
    obtain ⟨hr, hPt⟩ := hrely s t hs hst ht
    obtain ⟨y, hCy, hxy, hback⟩ := hstep o x t a u hPt ht hC hx
    obtain ⟨hg, hu, hk⟩ := hp (view t) hr (hinv t hPt ht) y (f.ans o a) (view u) hCy hxy
    obtain ⟨hg', hu', hPu⟩ := hback hg hu
    exact ⟨hg', hu', ih (f.ans o a) hk hPu⟩

/-- A program that performs at most one operation, over a larger signature
    and followed by `g`: the operation, if there is one, is to be safe, and
    `g` then on what is returned. -/
theorem Safe.single_bind {A : T.Op → Prop} {R : List ((o : T.Op) × T.Ans o) → α → Prop}
    {q : Prog T α} {f : Sig.Hom T S} {Q : β → σ → Prop} {g : α → Prog S β} (hq : q.Single A R)
    (hret : ∀ a, R [] a → (g a).Safe E w Q s)
    (hcall : ∀ o t x y u a, w.rely s t → E.inv t → A o → E.allow (f.op o) x t →
      E.exec (f.op o) x t = some (y, u) → R [⟨o, f.ans o y⟩] a →
      w.guar t u ∧ E.inv u ∧ (g a).Safe E w Q u) :
    (q.lift f >>= g).Safe E w Q s := by
  cases q with
  | ret a => exact hret a hq
  | call o k =>
    intro t hst ht x y u hC hx
    obtain ⟨a, ha, hR⟩ := hq.2 (f.ans o y)
    change _ ∧ _ ∧ ((k (f.ans o y)).lift f >>= g).Safe E w Q u
    rw [ha]
    exact hcall o t x y u a hst ht hq.1 hC hx hR

/-- A program that performs at most one operation, which is itself performed by a
    program. -/
theorem Safe.single_handle {A : T.Op → Prop} {R : List ((o : T.Op) × T.Ans o) → α → Prop}
    {q : Prog T α} {h : (o : T.Op) → Prog S (T.Ans o)} (hq : q.Single A R)
    (hret : ∀ a t, w.rely s t → E.inv t → R [] a → Q a t)
    (hcall : ∀ o, A o → (h o).Safe E w (fun y t => ∀ a, R [⟨o, y⟩] a → Q a t) s) :
    (q.handle h).Safe E w Q s := by
  cases q with
  | ret a => exact fun t hst ht => hret a t hst ht hq
  | call o k =>
    refine (hcall o hq.1).bind_rely fun y t _ hy => ?_
    obtain ⟨a, ha, hR⟩ := hq.2 y
    rw [ha]
    exact fun u hu hinv => hy u hu hinv a hR

theorem Safe.and (hQ : p.Safe E w Q s) (hR : p.Safe E w R s) :
    p.Safe E w (fun a t => Q a t ∧ R a t) s := by
  induction p generalizing s with
  | ret a => exact fun t hst ht => ⟨hQ t hst ht, hR t hst ht⟩
  | call o k ih =>
    intro t hst ht x a u hC hx
    obtain ⟨hg, hu, hk⟩ := hQ t hst ht x a u hC hx
    exact ⟨hg, hu, ih a hk (hR t hst ht x a u hC hx).2.2⟩

/-- What a program returns may be proved with its steps trusted, if it is safe. -/
theorem Safe.and_trusted (hQ : p.Safe E w Q s) (hR : p.Safe (E.trusted w) w R s) :
    p.Safe E w (fun a t => Q a t ∧ R a t) s := by
  induction p generalizing s with
  | ret a => exact fun t hst ht => ⟨hQ t hst ht, hR t hst ht⟩
  | call o k ih =>
    intro t hst ht x a u hC hx
    have hstep := fun a u hx => hQ t hst ht x a u hC hx
    obtain ⟨hg, hu, hk⟩ := hstep a u hx
    have htrusted : (E.trusted w).allow o x t :=
      ⟨hC, fun a u hx => ⟨(hstep a u hx).1, (hstep a u hx).2.1⟩⟩
    exact ⟨hg, hu, ih a hk (hR t hst ht x a u htrusted hx).2.2⟩

/-- Whatever a program does, it keeps what its steps and the others keep. -/
theorem Safe.trusted_keeps (hrely : w.Keeps P) (hguar : ∀ s t, P s → w.guar s t → P t) (hs : P s) :
    p.Safe (E.trusted w) w (fun _ t => P t) s := by
  induction p generalizing s with
  | ret a => exact fun t hst _ => hrely s t hs hst
  | call o k ih =>
    intro t hst ht x a u hC hx
    obtain ⟨hg, hu⟩ := hC.2 a u hx
    exact ⟨hg, hu, ih a (hguar t u (hrely s t hs hst) hg)⟩

theorem Safe.and_yields (hp : p.Safe E w Q s) (hY : p.Yields Y) :
    p.Safe E w (fun a t => Q a t ∧ Y a) s := by
  induction p generalizing s with
  | ret a => exact fun t hst ht => ⟨hp t hst ht, hY⟩
  | call o k ih =>
    intro t hst ht x a u hC hx
    obtain ⟨hg, hu, hk⟩ := hp t hst ht x a u hC hx
    exact ⟨hg, hu, ih a hk (hY a)⟩

/-- A loop whose turns lead down in the measure `m`: what a turn keeps, the
    loop keeps, and it returns what a turn returns. -/
theorem Safe.loop {body : β → Prog S (α ⊕ β)} {last : β → α} {m : β → ℕ} {P : β → σ → Prop}
    (hm : ∀ b, (body b).Yields (Sum.elim (fun _ => True) fun b' => m b' < m b))
    (hbody : ∀ b s, P b s → (body b).Safe E w (fun r t => Sum.elim (Q · t) (P · t) r) s)
    {n : ℕ} {b : β} (hn : m b < n) (hs : P b s) : (loop body last n b).Safe E w Q s := by
  induction n generalizing b s with
  | zero => exact absurd hn (Nat.not_lt_zero _)
  | succ n ih =>
    refine ((hbody b s hs).and_yields (hm b)).bind_rely fun r t ht hr => ?_
    cases r with
    | inl a => exact fun u hu hinv => (hr u hu hinv).1
    | inr b' =>
      obtain ⟨hP, hlt⟩ := hr t (w.rely_refl t) ht
      exact ih (Nat.lt_of_lt_of_le hlt (Nat.le_of_lt_succ hn)) hP

/-! ## Complete runs of a program alone -/

/-- Run alone from `s` by the allowed steps, the program returns `a` in the state `t`. -/
inductive Runs (M : Machine S σ ι) (allow : S.Op → ι → σ → Prop) : Prog S α → σ → α → σ → Prop
  | ret (a : α) (s : σ) : Runs M allow (.ret a) s a s
  | call {o : S.Op} {k : S.Ans o → Prog S α} {x y s u t a} : allow o x s →
      M.exec o x s = some (y, u) → Runs M allow (k y) u a t → Runs M allow (.call o k) s a t

theorem Runs.bind {b : β} {r : σ} (h : Runs M allow p s a t) (hf : Runs M allow (f a) t b r) :
    Runs M allow (p >>= f) s b r := by
  induction h with
  | ret a s => exact hf
  | call hC hx _ ih => exact .call hC hx (ih hf)

/-- A program of operations that are possible from `P`, keep it and are answered as the
    program assumes, returns. -/
theorem exists_runs_of_meets (hp : p.Meets A B Y)
    (hq : ∀ o s, A o → P s → ∃ x a t, allow o x s ∧ M.exec o x s = some (a, t) ∧ P t ∧ B o a)
    (hs : P s) : ∃ a t, Runs M allow p s a t ∧ Y a ∧ P t := by
  induction p generalizing s with
  | ret a => exact ⟨a, s, .ret a s, hp, hs⟩
  | call o k ih =>
    obtain ⟨x, y, u, hC, hx, hu, hB⟩ := hq o s hp.1 hs
    obtain ⟨a, t, h, hY, ht⟩ := ih y (hp.2 y hB) hu
    exact ⟨a, t, .call hC hx h, hY, ht⟩

/-- What a program run alone returns satisfies what is proved of it. -/
theorem Runs.safe (h : Runs E.toMachine E.allow p s a t) (hp : p.Safe E .alone Q s) (hs : E.inv s) :
    Q a t ∧ E.inv t := by
  induction h with
  | ret a s => exact ⟨hp s rfl hs, hs⟩
  | call hC hx _ ih =>
    obtain ⟨_, hu, hk⟩ := hp _ rfl hs _ _ _ hC hx
    exact ih hk hu

/-- Where all its operations are possible by allowed steps, a program returns. -/
theorem exists_runs (hA : p.Performs A)
    (hE : ∀ o s, A o → E.inv s → ∃ x a t, E.allow o x s ∧ E.exec o x s = some (a, t))
    (hp : p.Safe E .alone Q s) (hs : E.inv s) : ∃ a t, Runs E.toMachine E.allow p s a t := by
  induction p generalizing s with
  | ret a => exact ⟨a, s, .ret a s⟩
  | call o k ih =>
    obtain ⟨x, y, u, hC, hx⟩ := hE o s hA.1 hs
    obtain ⟨_, hu, hk⟩ := hp s rfl hs x y u hC hx
    obtain ⟨a, t, h⟩ := ih y (hA.2 y) hk hu
    exact ⟨a, t, .call hC hx h⟩

/-- The value and the state that a program run alone returns, with the given choices. -/
def run (M : Machine S σ ι) : List ι → Prog S α → σ → Option (α × σ)
  | [], .ret a, s => some (a, s)
  | x :: l, .call o k, s => (M.exec o x s).bind fun r => run M l (k r.1) r.2
  | _, _, _ => none

theorem runs_of_run [∀ o x s, Decidable (allow o x s)] {l : List ι} {r : α × σ}
    (h : run (M.restrict allow) l p s = some r) : Runs M allow p s r.1 r.2 := by
  induction l generalizing p s with
  | nil =>
    cases p with
    | ret a => cases h; exact .ret a s
    | call o k => cases h
  | cons x l ih =>
    cases p with
    | ret a => cases h
    | call o k =>
      obtain ⟨⟨y, u⟩, hx, hl⟩ := Option.bind_eq_some_iff.1 h
      obtain ⟨hC, hx⟩ := Machine.restrict_eq_some_iff.1 hx
      exact .call hC hx (ih hl)

/-- Choices with which the program returns as `R` says give such a run. -/
theorem exists_runs_of_run [∀ o x s, Decidable (allow o x s)] {l : List ι} (R : α → σ → Bool)
    (h : (run (M.restrict allow) l p s).any (fun r => R r.1 r.2) = true) :
    ∃ a t, Runs M allow p s a t ∧ R a t = true := by
  cases hr : run (M.restrict allow) l p s with
  | none => rw [hr] at h; cases h
  | some r => exact ⟨r.1, r.2, runs_of_run hr, by rwa [hr] at h⟩

/-! ## Programs alone -/

theorem Safe.ret_alone (h : E.inv s → Q a s) : (Prog.ret a : Prog S α).Safe E .alone Q s := by
  rintro _ rfl hs
  exact h hs

theorem Safe.of_inv (h : E.inv s → p.Safe E .alone Q s) : p.Safe E .alone Q s := by
  refine Safe.of_rely ?_
  rintro _ rfl hs
  exact h hs

theorem Safe.call_alone (h : E.inv s → ∀ x a t, E.allow o x s → E.exec o x s = some (a, t) →
      E.inv t ∧ (k a).Safe E .alone Q t) : (Prog.call o k).Safe E .alone Q s := by
  rintro _ rfl hs x a t hC hx
  exact ⟨trivial, h hs x a t hC hx⟩

end Prog

attribute [irreducible] Prog.Safe

end Effect
