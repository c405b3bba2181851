import Mathlib.Data.List.Induction
import Mathlib.Data.List.Nodup
import Mathlib.Data.List.TakeWhile
import Mathlib.Logic.Function.Basic

/-!
# Budgets in layers

Budgets are named by the values of a type, and a *ledger* says how much of each
is spent. A request is a list of *charges*, budgets with a limit: it spends one
from each of them, in turn, and is refused by the first that has reached its
limit, while what it spent until there stays spent (`spend`).

After any requests, what is spent of a budget is the number of those that paid
it (`ledger_eq_countP`), which is at most the largest limit it was charged with
(`ledger_le`). Requests do not notice others that only pay from budgets with
enough room left: they are answered as if those had not been there
(`history_filter`).
-/

namespace Budget

open List

variable {K ι κ : Type*}

/-- The budgets of some charges. -/
def budgets (charges : List (K × ℕ)) : List K := charges.map Prod.fst

theorem mem_budgets {charges : List (K × ℕ)} {k : K} {limit : ℕ} (h : (k, limit) ∈ charges) :
    k ∈ budgets charges :=
  mem_map.2 ⟨(k, limit), h, rfl⟩

variable [DecidableEq K]

/-- Spends one from each budget that is charged, up to the first that has
    reached its limit: the budget that refuses, if any, and the ledger after it. -/
def spend (ledger : K → ℕ) : List (K × ℕ) → Option K × (K → ℕ)
  | [] => (none, ledger)
  | (k, limit) :: charges =>
    if limit ≤ ledger k then (some k, ledger)
    else spend (Function.update ledger k (ledger k + 1)) charges

/-- The budgets that are paid by a request that is refused by the given one. -/
def paid (charges : List (K × ℕ)) (refusal : Option K) : List K :=
  (budgets charges).takeWhile (some · ≠ refusal)

section Spend

variable {ledger ledger' : K → ℕ} {charges : List (K × ℕ)} {refusal : Option K} {k : K}

theorem mem_budgets_of_mem_paid (h : k ∈ paid charges refusal) : k ∈ budgets charges :=
  (takeWhile_sublist _).subset h

@[simp] theorem paid_none : paid charges none = budgets charges := by
  exact takeWhile_eq_self_iff.2 fun _ _ => by simp

theorem paid_cons {limit : ℕ} (h : some k ≠ refusal) :
    paid ((k, limit) :: charges) refusal = k :: paid charges refusal := by
  simp [paid, budgets, h]

/-- A request is refused by the first of its budgets that has reached its limit. -/
theorem refusal_eq (h : (budgets charges).Nodup) : (spend ledger charges).1 =
    (charges.find? fun c => c.2 ≤ ledger c.1).map Prod.fst := by
  induction charges generalizing ledger with
  | nil => rfl
  | cons c charges ih =>
    obtain ⟨k, limit⟩ := c
    obtain ⟨hk, hcharges⟩ := nodup_cons.1 h
    by_cases hlimit : limit ≤ ledger k
    · simp [spend, hlimit]
    · rw [spend, if_neg hlimit, ih hcharges, find?_cons_of_neg (by simpa using hlimit),
        ← head?_filter, ← head?_filter]
      -- What is spent here is not looked at again.
      congr 2
      refine filter_congr fun c hc => ?_
      have hne : c.1 ≠ k := fun heq => hk (heq ▸ mem_budgets hc)
      rw [Function.update_of_ne hne]

theorem mem_budgets_of_refusal (hcharges : (budgets charges).Nodup)
    (h : (spend ledger charges).1 = some k) : k ∈ budgets charges := by
  rw [refusal_eq hcharges] at h
  obtain ⟨c, hc, rfl⟩ := Option.map_eq_some_iff.1 h
  exact mem_budgets (mem_of_find?_eq_some hc)

/-- Every budget that is paid is spent by one, and no other. -/
theorem spend_apply (h : (budgets charges).Nodup) (k : K) : (spend ledger charges).2 k =
    ledger k + if k ∈ paid charges (spend ledger charges).1 then 1 else 0 := by
  induction charges generalizing ledger with
  | nil => rfl
  | cons c charges ih =>
    obtain ⟨k', limit⟩ := c
    obtain ⟨hk', hcharges⟩ := nodup_cons.1 h
    by_cases hlimit : limit ≤ ledger k'
    · simp [spend, hlimit, paid, budgets]
    · rw [spend, if_neg hlimit]
      have hself : Function.update ledger k' (ledger k' + 1) k' = ledger k' + 1 :=
        Function.update_self ..
      have hother : k ≠ k' → Function.update ledger k' (ledger k' + 1) k = ledger k := fun hne =>
        Function.update_of_ne hne ..
      generalize Function.update ledger k' (ledger k' + 1) = ledger' at hself hother ⊢
      have hne : some k' ≠ (spend ledger' charges).1 := fun heq =>
        hk' (mem_budgets_of_refusal hcharges heq.symm)
      rw [ih hcharges, paid_cons hne]
      rcases eq_or_ne k k' with rfl | hkk'
      · have hk : k ∉ paid charges (spend ledger' charges).1 := fun hmem =>
          hk' (mem_budgets_of_mem_paid hmem)
        simp [hk, hself]
      · simp [hkk', hother hkk']

theorem spend_apply_le {limit : ℕ} (hledger : ledger k ≤ limit)
    (hcharges : ∀ l, (k, l) ∈ charges → l ≤ limit) : (spend ledger charges).2 k ≤ limit := by
  induction charges generalizing ledger with
  | nil => exact hledger
  | cons c charges ih =>
    obtain ⟨k', l⟩ := c
    by_cases hl : l ≤ ledger k'
    · simpa [spend, hl] using hledger
    · rw [spend, if_neg hl]
      refine ih ?_ fun l' hl' => hcharges l' (mem_cons_of_mem _ hl')
      rcases eq_or_ne k k' with rfl | hne
      · rw [Function.update_self]
        exact Nat.le_trans (Nat.not_le.1 hl) (hcharges l mem_cons_self)
      · rwa [Function.update_of_ne hne]

end Spend

/-! ## Any number of requests -/

variable (charges : ι → List (K × ℕ))

/-- The requests with their answers, and the ledger, after one more request. -/
def answer (r : List (ι × Option K) × (K → ℕ)) (i : ι) : List (ι × Option K) × (K → ℕ) :=
  (r.1 ++ [(i, (spend r.2 (charges i)).1)], (spend r.2 (charges i)).2)

/-- The requests with their answers, and the ledger, after some requests. -/
def run (requests : List ι) : List (ι × Option K) × (K → ℕ) :=
  requests.foldl (answer charges) ([], fun _ => 0)

/-- The requests with their answers. -/
def history (requests : List ι) : List (ι × Option K) := (run charges requests).1

/-- The ledger after some requests. -/
def ledger (requests : List ι) : K → ℕ := (run charges requests).2

variable {charges} {requests : List ι} {i : ι} {k : K}

theorem history_append_singleton : history charges (requests ++ [i]) =
    history charges requests ++ [(i, (spend (ledger charges requests) (charges i)).1)] := by
  simp [history, ledger, run, answer]

theorem ledger_append_singleton : ledger charges (requests ++ [i]) =
    (spend (ledger charges requests) (charges i)).2 := by
  simp [ledger, run, answer]

theorem map_fst_history : (history charges requests).map Prod.fst = requests := by
  induction requests using List.reverseRecOn with
  | nil => rfl
  | append_singleton requests i ih => simp [history_append_singleton, ih]

theorem mem_of_mem_history {e : ι × Option K} (h : e ∈ history charges requests) :
    e.1 ∈ requests := by
  have hmem : e.1 ∈ (history charges requests).map Prod.fst := mem_map_of_mem h
  rwa [map_fst_history] at hmem

/-- Only the charges of the requests matter. -/
theorem run_map (f : κ → ι) (requests : List κ) : history charges (requests.map f) =
      (history (charges ∘ f) requests).map (fun e => (f e.1, e.2)) ∧
    ledger charges (requests.map f) = ledger (charges ∘ f) requests := by
  induction requests using List.reverseRecOn with
  | nil => exact ⟨rfl, rfl⟩
  | append_singleton requests i ih =>
    simp only [map_append, map_cons, map_nil, history_append_singleton,
      ledger_append_singleton, ih.1, ih.2, Function.comp_apply, and_self]

theorem run_congr {charges' : ι → List (K × ℕ)} (h : ∀ i ∈ requests, charges i = charges' i) :
    history charges requests = history charges' requests ∧
      ledger charges requests = ledger charges' requests := by
  induction requests using List.reverseRecOn with
  | nil => exact ⟨rfl, rfl⟩
  | append_singleton requests i ih =>
    obtain ⟨hhistory, hledger⟩ := ih fun j hj => h j (by simp [hj])
    rw [history_append_singleton, history_append_singleton, ledger_append_singleton,
      ledger_append_singleton, hhistory, hledger, h i (by simp)]
    exact ⟨rfl, rfl⟩

/-- A request is refused by one of its budgets. -/
theorem mem_budgets_of_mem_history (h : ∀ i ∈ requests, (budgets (charges i)).Nodup)
    (hmem : (i, some k) ∈ history charges requests) : k ∈ budgets (charges i) := by
  induction requests using List.reverseRecOn with
  | nil => cases hmem
  | append_singleton requests j ih =>
    rw [history_append_singleton, mem_append, mem_singleton] at hmem
    rcases hmem with hmem | heq
    · exact ih (fun i hi => h i (by simp [hi])) hmem
    · obtain ⟨rfl, heq⟩ := Prod.mk.inj heq
      exact mem_budgets_of_refusal (h i (by simp)) heq.symm

/-- What is spent of a budget is the number of the requests that paid it. -/
theorem ledger_eq_countP (h : ∀ i ∈ requests, (budgets (charges i)).Nodup) (k : K) :
    ledger charges requests k =
      (history charges requests).countP fun e => k ∈ paid (charges e.1) e.2 := by
  induction requests using List.reverseRecOn with
  | nil => rfl
  | append_singleton requests i ih =>
    rw [ledger_append_singleton, spend_apply (h i (by simp)), history_append_singleton,
      countP_append, countP_singleton, ih fun j hj => h j (by simp [hj])]
    simp

theorem ledger_le {limit : ℕ} (h : ∀ i ∈ requests, ∀ l, (k, l) ∈ charges i → l ≤ limit) :
    ledger charges requests k ≤ limit := by
  induction requests using List.reverseRecOn with
  | nil => exact Nat.zero_le _
  | append_singleton requests i ih =>
    rw [ledger_append_singleton]
    exact spend_apply_le (ih fun j hj => h j (by simp [hj])) (h i (by simp))

/-- No more is spent of a budget than it is charged. -/
theorem ledger_le_countP (h : ∀ i ∈ requests, (budgets (charges i)).Nodup) (k : K) :
    ledger charges requests k ≤ requests.countP fun i => k ∈ budgets (charges i) := by
  rw [ledger_eq_countP h]
  calc (history charges requests).countP (fun e => k ∈ paid (charges e.1) e.2)
      ≤ (history charges requests).countP (fun e => k ∈ budgets (charges e.1)) :=
        countP_mono_left fun e _ he => by
          simpa using mem_budgets_of_mem_paid (of_decide_eq_true he)
    _ = ((history charges requests).map Prod.fst).countP fun i => k ∈ budgets (charges i) := by
        rw [countP_map]
        rfl
    _ = _ := by rw [map_fst_history]

/-! ## Requests that do not notice others -/

/-- The requests that are kept have room in the budgets that are *shared*, even
    if every request before them pays, and the others pay from no other budgets. -/
structure Apart (charges : ι → List (K × ℕ)) (kept : ι → Bool) (shared : K → Prop)
    (requests : List ι) : Prop where
  nodup : ∀ i ∈ requests, (budgets (charges i)).Nodup
  room : ∀ earlier i later, requests = earlier ++ i :: later → kept i = true →
    ∀ c ∈ charges i, shared c.1 → (earlier.countP fun j => c.1 ∈ budgets (charges j)) < c.2
  others : ∀ e ∈ history charges requests, kept e.1 = false →
    ∀ k ∈ paid (charges e.1) e.2, shared k

variable {kept : ι → Bool} {shared : K → Prop}

theorem Apart.of_append_singleton (h : Apart charges kept shared (requests ++ [i])) :
    Apart charges kept shared requests where
  nodup j hj := h.nodup j (by simp [hj])
  room earlier j later heq := h.room earlier j (later ++ [i]) (by simp [heq])
  others e he := h.others e (by rw [history_append_singleton]; exact mem_append_left _ he)

/-- Two ledgers that agree on the budgets that are not shared, with room in
    those that are, refuse in the same way. -/
theorem refusal_congr {l l' : K → ℕ} {cs : List (K × ℕ)} (hcs : (budgets cs).Nodup)
    (hroom : ∀ c ∈ cs, shared c.1 → l c.1 < c.2 ∧ l' c.1 < c.2)
    (heq : ∀ k, ¬shared k → l k = l' k) : (spend l cs).1 = (spend l' cs).1 := by
  rw [refusal_eq hcs, refusal_eq hcs, ← head?_filter, ← head?_filter]
  congr 2
  refine filter_congr fun c hc => ?_
  by_cases hshared : shared c.1
  · obtain ⟨hl, hl'⟩ := hroom c hc hshared
    simp [Nat.not_le.2 hl, Nat.not_le.2 hl']
  · rw [heq _ hshared]

/-- The requests that are kept are answered as if the others had not been there. -/
theorem history_filter (h : Apart charges kept shared requests) :
    (history charges requests).filter (fun e => kept e.1) =
      history charges (requests.filter kept) ∧
    ∀ k, ¬shared k → ledger charges requests k = ledger charges (requests.filter kept) k := by
  induction requests using List.reverseRecOn with
  | nil => exact ⟨rfl, fun _ _ => rfl⟩
  | append_singleton requests i ih =>
    obtain ⟨hhistory, hledger⟩ := ih h.of_append_singleton
    have hi := h.nodup i (by simp)
    rw [history_append_singleton, ledger_append_singleton, filter_append, filter_append, hhistory]
    cases hkept : kept i with
    | true =>
      -- Both ledgers have room in what is shared: they count earlier requests only.
      have hroom : ∀ c ∈ charges i, shared c.1 → ledger charges requests c.1 < c.2 ∧
          ledger charges (requests.filter kept) c.1 < c.2 := by
        intro c hc hshared
        have hlt := h.room requests i [] rfl hkept c hc hshared
        have hle := ledger_le_countP h.of_append_singleton.nodup c.1
        have hle' : ledger charges (requests.filter kept) c.1 ≤
            (requests.filter kept).countP fun j => c.1 ∈ budgets (charges j) :=
          ledger_le_countP (fun j hj =>
            h.of_append_singleton.nodup j (mem_of_mem_filter hj)) c.1
        have hsub : ((requests.filter kept).countP fun j => c.1 ∈ budgets (charges j)) ≤
            requests.countP fun j => c.1 ∈ budgets (charges j) :=
          filter_sublist.countP_le
        exact ⟨Nat.lt_of_le_of_lt hle hlt, Nat.lt_of_le_of_lt (Nat.le_trans hle' hsub) hlt⟩
      have hrefusal := refusal_congr hi hroom hledger
      rw [filter_cons_of_pos hkept, filter_cons_of_pos (by simpa using hkept),
        filter_nil, filter_nil, history_append_singleton, ledger_append_singleton,
        ← hrefusal]
      refine ⟨rfl, fun k hk => ?_⟩
      rw [spend_apply hi, spend_apply hi, ← hrefusal, hledger k hk]
    | false =>
      rw [filter_cons_of_neg (by simp [hkept]), filter_cons_of_neg (by simp [hkept]),
        filter_nil, filter_nil, append_nil, append_nil]
      refine ⟨rfl, fun k hk => ?_⟩
      -- It pays from what is shared only.
      have hpaid : k ∉ paid (charges i) (spend (ledger charges requests) (charges i)).1 :=
        fun hmem => hk (h.others (i, _) (by rw [history_append_singleton]; simp) hkept k hmem)
      rw [spend_apply hi, if_neg hpaid, Nat.add_zero, hledger k hk]

end Budget
