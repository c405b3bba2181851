import Mathlib.Algebra.Group.Nat.Defs
import Mathlib.Data.List.Infix
import Mathlib.Data.List.Induction

/-!
# Attempts and codes of a login

Two guards of the login, each behind a lock, so that its calls come one after another.

* `LoginRateLimiter` has the times of the attempts that it has allowed, and forgets the
  first ones when they are a minute old. It is an exact sliding window
  (`LoginRateLimiter.allowAt_exact`).
* `BootstrapStore` has the digest of one code at a time. The code is good for one login,
  until it expires or another one is issued (`BootstrapStore.consumeAt_iff`).

Times and durations are in nanoseconds. A keyed digest takes a key of any length, so it does
not fail.
-/

namespace VpsGuard

open List

/-! ## Attempts -/

/-- How many attempts to log in there may be in a minute, and when there were some. -/
structure LoginRateLimiter where
  limit : ℕ
  attempts : List ℕ

namespace LoginRateLimiter

/-- A minute, in nanoseconds. -/
def window : ℕ := 60 * 10 ^ 9

def new (limit : UInt32) : LoginRateLimiter := ⟨limit.toNat, []⟩

/-- Ask for an attempt. An attempt that is refused is not counted. -/
def allowAt (limiter : LoginRateLimiter) (now : ℕ) : Bool × LoginRateLimiter :=
  let attempts := limiter.attempts.dropWhile fun attempt => window ≤ now - attempt
  if limiter.limit ≤ attempts.length then (false, { limiter with attempts })
  else (true, { limiter with attempts := attempts ++ [now] })

/-- Ask once, and keep the time if the attempt is allowed. -/
def call (s : LoginRateLimiter × List ℕ) (now : ℕ) : LoginRateLimiter × List ℕ :=
  ((s.1.allowAt now).2, if (s.1.allowAt now).1 then s.2 ++ [now] else s.2)

/-- The limiter after calls at some times, and the times at which an attempt was allowed. -/
def calls (limit : UInt32) (times : List ℕ) : LoginRateLimiter × List ℕ :=
  times.foldl call (new limit, [])

/-- The attempts are those of the last minute, and no minute has too many. -/
structure Exact (limit last : ℕ) (s : LoginRateLimiter × List ℕ) : Prop where
  limit_eq : s.1.limit = limit
  attempts_eq : s.1.attempts = s.2.filter (last < · + window)
  ordered : s.2.Pairwise (· ≤ ·)
  le_last : ∀ a ∈ s.2, a ≤ last
  countP_le : ∀ P : ℕ → Bool, (∀ a b, P a → P b → b < a + window) → s.2.countP P ≤ limit

variable {limit last now : ℕ} {s : LoginRateLimiter × List ℕ}

theorem dropWhile_eq_filter {times : List ℕ} (h : times.Pairwise (· ≤ ·)) :
    times.dropWhile (window ≤ now - ·) = times.filter (now < · + window) := by
  induction times with
  | nil => rfl
  | cons t times ih =>
    have hpos : 0 < window := by decide
    rw [pairwise_cons] at h
    by_cases hold : now < t + window
    · rw [dropWhile_cons_of_neg (by rw [decide_eq_true_eq]; omega), eq_comm, filter_eq_self]
      refine forall_mem_cons.2 ⟨decide_eq_true hold, fun a ha => decide_eq_true ?_⟩
      have hle := h.1 a ha
      omega
    · rw [dropWhile_cons_of_pos (by rw [decide_eq_true_eq]; omega),
        filter_cons_of_neg (by simpa using hold), ih h.2]

theorem Exact.allowAt_eq (h : Exact limit last s) (hnow : last ≤ now) :
    s.1.allowAt now = if limit ≤ s.2.countP (now < · + window) then
      (false, ⟨limit, s.2.filter (now < · + window)⟩)
    else (true, ⟨limit, (s.2 ++ [now]).filter (now < · + window)⟩) := by
  have hdrop : s.1.attempts.dropWhile (window ≤ now - ·) = s.2.filter (now < · + window) := by
    rw [h.attempts_eq, dropWhile_eq_filter (h.ordered.filter _), filter_filter]
    refine filter_congr fun a _ => ?_
    rw [Bool.and_eq_left_iff_imp, decide_eq_true_eq, decide_eq_true_eq]
    omega
  have hself : [now].filter (now < · + window) = [now] := by simp [window]
  rw [allowAt, hdrop, h.limit_eq, countP_eq_length_filter, filter_append, hself]

theorem Exact.call (h : Exact limit last s) (hnow : last ≤ now) :
    Exact limit now (LoginRateLimiter.call s now) := by
  have hle : ∀ a ∈ s.2, a ≤ now := fun a ha => (h.le_last a ha).trans hnow
  rw [LoginRateLimiter.call, h.allowAt_eq hnow]
  split
  · exact ⟨rfl, rfl, h.ordered, hle, h.countP_le⟩
  · next hfree =>
    refine ⟨rfl, rfl, pairwise_append.2 ⟨h.ordered, pairwise_singleton _ _, ?_⟩, ?_, fun P hP => ?_⟩
    · simpa using hle
    · simpa [or_imp, forall_and] using hle
    · -- With the new attempt, those before it are recent.
      rw [if_pos rfl, countP_append, countP_singleton]
      split
      · next hnew =>
        have hrecent := countP_mono_left (l := s.2) fun a _ ha => decide_eq_true (hP a now ha hnew)
        omega
      · exact h.countP_le P hP

theorem exact_calls {limit : UInt32} {times : List ℕ} (h : (times ++ [now]).Pairwise (· ≤ ·)) :
    ∃ last ≤ now, Exact limit.toNat last (calls limit times) := by
  induction times using List.reverseRecOn generalizing now with
  | nil => exact ⟨0, Nat.zero_le _, rfl, rfl, .nil, by simp [calls], by simp [calls]⟩
  | append_singleton times t ih =>
    obtain ⟨hordered, -, hle⟩ := pairwise_append.1 h
    obtain ⟨last, hlast, hexact⟩ := ih hordered
    rw [calls, foldl_append]
    exact ⟨t, hle t (by simp) now mem_cons_self, hexact.call hlast⟩

/-- A call is allowed if and only if fewer than the limit were allowed in the minute
    before. So no minute has more than the limit, and the queue has not. -/
theorem allowAt_exact (limit : UInt32) (times : List ℕ) (now : ℕ)
    (h : (times ++ [now]).Pairwise (· ≤ ·)) :
    (((calls limit times).1.allowAt now).1 = true ↔
      (calls limit times).2.countP (now < · + window) < limit.toNat) ∧
    (∀ start, (calls limit times).2.countP (fun t => start ≤ t ∧ t < start + window) ≤ limit.toNat ∧
      (calls limit times).2.countP (fun t => start < t ∧ t ≤ start + window) ≤ limit.toNat) ∧
    (calls limit times).1.attempts.length ≤ limit.toNat := by
  obtain ⟨last, hlast, hexact⟩ : ∃ last ≤ now, Exact limit.toNat last (calls limit times) :=
    exact_calls h
  refine ⟨?_, fun start => ⟨hexact.countP_le _ ?_, hexact.countP_le _ ?_⟩, ?_⟩
  · rw [hexact.allowAt_eq hlast]
    split <;> simp <;> omega
  · simp only [decide_eq_true_eq]
    omega
  · simp only [decide_eq_true_eq]
    omega
  · have hcount := hexact.countP_le (fun t => last < t + window ∧ t ≤ last) (by simp; omega)
    rw [hexact.attempts_eq, ← countP_eq_length_filter]
    refine (countP_congr fun a ha => ?_).trans_le hcount
    simp [hexact.le_last a ha]

theorem allowAt_exact_once : ((calls 1 [0]).1.allowAt (5 * 10 ^ 9)).1 = false ∧
    (calls 1 [0]).1.attempts.length ≤ 1 :=
  ⟨rfl, (allowAt_exact 1 [0] (5 * 10 ^ 9) (by decide)).2.2⟩

end LoginRateLimiter

/-! ## Codes -/

/-- The code to log in with. Only its digest is kept. -/
structure LoginCredential (δ : Type) where
  digest : δ
  expiresAt : ℕ

/-- A code, as it is shown to who asked for it. -/
structure IssuedLoginCode where
  code : List Char
  expiresInSeconds : ℕ

/-- At most one code is valid at a time. -/
structure BootstrapStore (δ : Type) where
  credential : Option (LoginCredential δ)

/-- A call on the store, with its time. -/
inductive BootstrapCall
  | issue (code : Option (List Char)) (ttl now : ℕ)
  | consume (candidate : List Char) (now : ℕ)

/-- What is on record of the calls. -/
inductive BootstrapEvent
  | issued (code : List Char) (expiresAt : ℕ)
  | consumed (candidate : List Char) (result : Bool)

def BootstrapCall.now : BootstrapCall → ℕ
  | issue _ _ now | consume _ now => now

namespace BootstrapStore

variable {δ : Type} [DecidableEq δ] (keyedDigest : List Char → δ)

/-- Issue a code, in the place of an earlier one. There may be none for want of randomness. -/
def issue (store : BootstrapStore δ) (code : Option (List Char)) (ttl now : ℕ) :
    Option IssuedLoginCode × BootstrapStore δ :=
  match code with
  | none => (none, store)
  | some code => (some ⟨code, ttl / 10 ^ 9⟩, ⟨some ⟨keyedDigest code, now + ttl⟩⟩)

/-- A code is valid once, and until it expires. -/
def consumeAt (store : BootstrapStore δ) (candidate : List Char) (now : ℕ) :
    Bool × BootstrapStore δ :=
  match store.credential with
  | none => (false, store)
  | some credential =>
    if credential.expiresAt ≤ now then (false, ⟨none⟩)
    else if keyedDigest candidate = credential.digest then (true, ⟨none⟩)
    else (false, store)

/-- A call, and what goes on record. -/
def call (s : BootstrapStore δ × List BootstrapEvent) :
    BootstrapCall → BootstrapStore δ × List BootstrapEvent
  | .issue code ttl now => ((s.1.issue keyedDigest code ttl now).2,
      code.elim s.2 fun code => .issued code (now + ttl) :: s.2)
  | .consume candidate now => ((s.1.consumeAt keyedDigest candidate now).2,
      .consumed candidate (s.1.consumeAt keyedDigest candidate now).1 :: s.2)

/-- The store after some calls, and the record of them, the latest first. -/
def calls (l : List BootstrapCall) : BootstrapStore δ × List BootstrapEvent :=
  l.foldl (call keyedDigest) (⟨none⟩, [])

/-- The code is the one issued last, has not expired, and has not been used since. -/
def Good : List BootstrapEvent → List Char → ℕ → Prop
  | [], _, _ => False
  | .issued code expiresAt :: _, candidate, now => code = candidate ∧ now < expiresAt
  | .consumed code result :: log, candidate, now =>
    Good log candidate now ∧ ¬ (code = candidate ∧ result = true)

variable {keyedDigest} {store : BootstrapStore δ} {candidate other : List Char} {now : ℕ}

theorem consumeAt_eq_true : (store.consumeAt keyedDigest candidate now).1 = true ↔ ∃ credential,
      store.credential = some credential ∧ now < credential.expiresAt ∧
        keyedDigest candidate = credential.digest := by
  obtain ⟨_ | credential⟩ := store
  · simp [consumeAt]
  · simp only [consumeAt, Option.some_inj, exists_eq_left']
    split_ifs with hold hsame
    · simp [hold.not_gt]
    · simp [hsame, not_le.1 hold]
    · simp [hsame]

theorem consumeAt_consumeAt (hinj : Function.Injective keyedDigest) {before : ℕ}
    (hbefore : before ≤ now) :
    ((store.consumeAt keyedDigest other before).2.consumeAt keyedDigest candidate now).1 = true ↔
      (store.consumeAt keyedDigest candidate now).1 = true ∧
        ¬ (other = candidate ∧ (store.consumeAt keyedDigest other before).1 = true) := by
  obtain ⟨_ | credential⟩ := store
  · simp [consumeAt]
  · by_cases hold : credential.expiresAt ≤ before
    · simp [consumeAt, hold, hold.trans hbefore]
    · by_cases hsame : keyedDigest other = credential.digest
      · have hother : keyedDigest candidate = credential.digest ↔ other = candidate := by
          rw [← hsame, hinj.eq_iff, eq_comm]
        rw [consumeAt_eq_true, consumeAt_eq_true]
        simp [consumeAt, hold, hsame, hother]
      · simp [consumeAt, hold, hsame]

theorem consumeAt_calls (hinj : Function.Injective keyedDigest) {l : List BootstrapCall}
    (h : ∀ call ∈ l, call.now ≤ now) :
    ((calls keyedDigest l).1.consumeAt keyedDigest candidate now).1 = true ↔
      Good (calls keyedDigest l).2 candidate now := by
  induction l using List.reverseRecOn with
  | nil => simp [calls, consumeAt, Good]
  | append_singleton l last ih =>
    rw [forall_mem_append, forall_mem_singleton] at h
    rw [calls, foldl_append, foldl_cons, foldl_nil, ← calls]
    match last with
    | .issue none ttl t => exact ih h.1
    | .issue (some code) ttl t =>
      rw [consumeAt_eq_true]
      simp [call, Good, issue, hinj.eq_iff, eq_comm, and_comm]
    | .consume other t =>
      rw [call, Good, ← ih h.1]
      exact consumeAt_consumeAt hinj h.2

/-- A code is accepted if and only if it is good, however many others have been tried. -/
theorem consumeAt_iff (hinj : Function.Injective keyedDigest) (l : List BootstrapCall)
    (candidate : List Char) (now : ℕ) (h : ∀ call ∈ l, call.now ≤ now) :
    (((calls keyedDigest l).1.consumeAt keyedDigest candidate now).1 = true ↔
      Good (calls keyedDigest l).2 candidate now) ∧
    ∀ wrong : List (List Char × ℕ), (∀ w ∈ wrong, w.1 ≠ candidate ∧ w.2 ≤ now) →
      ((calls keyedDigest (l ++ wrong.map fun w => .consume w.1 w.2)).1.consumeAt keyedDigest
        candidate now).1 = ((calls keyedDigest l).1.consumeAt keyedDigest candidate now).1 := by
  refine ⟨consumeAt_calls hinj h, fun wrong hwrong => ?_⟩
  induction wrong using List.reverseRecOn with
  | nil => simp
  | append_singleton wrong w ih =>
    rw [forall_mem_append, forall_mem_singleton] at hwrong
    rw [← ih hwrong.1, map_append, ← append_assoc, calls, foldl_append, ← calls, Bool.eq_iff_iff]
    refine (consumeAt_consumeAt hinj hwrong.2.2).trans (and_iff_left fun hsame => ?_)
    exact hwrong.2.1 hsame.1

theorem consumeAt_iff_once : ((calls id [.issue (some "a".toList) 9 0, .consume "b".toList 1,
      .consume "a".toList 2]).1.consumeAt id "a".toList 3).1 = false ∧
    Good (calls id [.issue (some "a".toList) 9 0, .consume "b".toList 1]).2 "a".toList 2 :=
  ⟨by decide, (consumeAt_iff Function.injective_id
    [.issue (some "a".toList) 9 0, .consume "b".toList 1] "a".toList 2 (by decide)).1.1 (by decide)⟩

end BootstrapStore

end VpsGuard
