import VpsGuard.Effect.Exclusive
import VpsGuard.Protection.Abstract
import VpsGuard.Protection.Publication

/-!
# The manager does one thing at a time

Requests to the protection manager may be served at the same time. Each of them
does everything with the lock of the writer, so together they do what they do
one after the other (`Effect.Exclusive`); and one request, alone, does what it is
meant to do (`ProtectionWorld.safe_serve`): where nothing fails, it is a step
`AbstractProtection.perform`, seen through `ProtectionManager.abstract`, and the
policy file has the policy that is published.

So every interleaving is a sequence of such steps (`linearizable`).
-/

namespace VpsGuard

open Effect List AbstractProtection

/-- The memory of the manager, as it is meant. -/
def ProtectionManager.abstract (mgr : ProtectionManager) : AbstractProtection where
  settings := mgr.current.settings
  clientRules := mgr.clientRules
  version := mgr.current.policyVersion
  completed := mgr.completed

/-- A memory that can be worked with, and does not remember too much. -/
structure ProtectionManager.Regular (mgr : ProtectionManager) : Prop extends mgr.Working where
  completed : mgr.completed.length ≤ completedOperationCapacity

/-- What the manager does for a request, with what it answers. -/
def ProtectionRequest.serve (C : ProtectionCodec) :
    ProtectionRequest → Prog Protection ProtectionResult
  | apply operationId expectedFingerprint planHash settings mode => do
    let r ← ProtectionManager.apply C operationId expectedFingerprint planHash settings mode
    return r.map .applied
  | writeForState state => do
    let r ← ProtectionManager.writeForState C state
    return r.map .written
  | blockClient clientIp ttlSeconds mode => do
    let r ← ProtectionManager.blockClient C clientIp ttlSeconds mode
    return r.map .rules
  | unblockClient clientIp mode => do
    let r ← ProtectionManager.unblockClient C clientIp mode
    return r.map .rules

namespace ProtectionManager

variable {C : ProtectionCodec} {mgr : ProtectionManager}

theorem changes_eq_nil_iff {before after : ProtectionSettings} :
    changes before after = [] ↔ after = before := by
  obtain ⟨b₁, b₂, b₃, b₄, b₅⟩ := before
  obtain ⟨a₁, a₂, a₃, a₄, a₅⟩ := after
  simp only [changes, ProtectionSettings.fields, zip_cons_cons, zip_nil_right,
    filterMap_eq_nil_iff, forall_mem_cons, ite_eq_right_iff, reduceCtorEq, imp_false,
    not_not, ProtectionSettings.mk.injEq]
  constructor
  · rintro ⟨rfl, rfl, rfl, rfl, rfl, -⟩
    exact ⟨rfl, rfl, rfl, rfl, rfl⟩
  · rintro ⟨rfl, rfl, rfl, rfl, rfl⟩
    exact ⟨rfl, rfl, rfl, rfl, rfl, by simp⟩

theorem nextVersion_eq (n : ℕ) : nextVersion n =
    if 2 ^ 64 ≤ n + 1 then .error .versionExhausted else .ok (n + 1) := by
  by_cases h : n + 1 < 2 ^ 64
  · rw [nextVersion_of_lt h, if_neg (Nat.not_le.2 h)]
  · rw [nextVersion, checkedAdd, if_neg h, if_pos (Nat.not_lt.1 h)]

theorem planFrom_eq (current : CurrentProtection) (settings : ProtectionSettings) :
    planFrom C current settings =
      if 2 ^ 64 ≤ current.policyVersion + 1 then .error .versionExhausted
      else .ok
        { settings
          currentFingerprint := (snapshotOf C current).fingerprint
          planHash := C.sha256Hex ((snapshotOf C current).fingerprint ++ C.settingsJson settings)
          currentPolicyVersion := current.policyVersion
          nextPolicyVersion := current.policyVersion + 1
          changes := changes current.settings settings } := by
  rw [planFrom, nextVersion_eq]
  split <;> rfl

theorem rtake_append_singleton {α : Type} {l : List α} {x : α} {n : ℕ} (hn : 0 < n)
    (h : l.length ≤ n) : (l ++ [x]).rtake n = (if l.length = n then l.drop 1 else l) ++ [x] := by
  rw [List.rtake, length_append, length_singleton]
  split
  · next hfull => rw [hfull, Nat.add_sub_cancel_left, drop_append_of_le_length (by omega)]
  · next hroom => rw [Nat.sub_eq_zero_of_le (by omega), drop_zero]

variable {operationId planHash : String} {snapshot : ProtectionSnapshot}
  (h : mgr.completed.length ≤ completedOperationCapacity)

include h

theorem completed_remember : (mgr.remember operationId planHash snapshot).completed =
      latest (mgr.completed ++ [⟨operationId, planHash, snapshot⟩]) := by
  unfold latest
  exact (rtake_append_singleton (by decide) h).symm

theorem abstract_remember : (mgr.remember operationId planHash snapshot).abstract =
      mgr.abstract.remember ⟨operationId, planHash, snapshot⟩ :=
  AbstractProtection.ext rfl rfl rfl (completed_remember h)

theorem length_completed_remember :
    (mgr.remember operationId planHash snapshot).completed.length ≤ completedOperationCapacity := by
  rw [completed_remember h]
  unfold latest List.rtake
  rw [length_drop]
  exact Nat.sub_le_of_le_add (by omega)

end ProtectionManager

/-! ## One request -/

namespace ProtectionWorld

variable {C : ProtectionCodec} {strict : Prop} {R : ℕ → Prop} {mgr : ProtectionManager}
  {s : ProtectionWorld} {allow : ProtectionCondition}
  {α : Type} {answer : α → ProtectionAnswer}

/-- The request does what it is meant to do, with a clock of `R` for the rules
    of clients; or something failed, and the memory is as it was. -/
inductive Refines (C : ProtectionCodec) (strict : Prop) (R : ℕ → Prop) (request : ProtectionRequest)
    (mgr : ProtectionManager) (s : ProtectionWorld) (result : ProtectionResult)
    (t : ProtectionWorld) : Prop
  | performed (ruleNow now : ℕ) {mgr' : ProtectionManager} {out : ProtectionOutcome} :
      R ruleNow → mgr.abstract.perform C mgr.limits request ruleNow now = out →
      out.result = result → t.memory = some mgr' → mgr'.abstract = out.state →
      mgr'.limits = mgr.limits → mgr'.Regular → t.policy = out.published.or s.policy →
      Refines C strict R request mgr s result t
  | failed {e : ProtectionPolicyError} : ¬strict → result = .error e → t.memory = some mgr →
      Refines C strict R request mgr s result t

variable {request : ProtectionRequest} {e : ProtectionPolicyError}

theorem Refines.refused (hR : ∃ now, R now) (hmgr : s.memory = some mgr) (hregular : mgr.Regular)
    (hout : ∀ ruleNow now,
      mgr.abstract.perform C mgr.limits request ruleNow now = mgr.abstract.refuse e) :
    Refines C strict R request mgr s (.error e) s := by
  obtain ⟨now, hnow⟩ := hR
  exact .performed now now hnow (hout now now) rfl hmgr rfl rfl hregular rfl

/-- What an operation leads to with the writer, before it is given back. -/
inductive Done (strict : Prop) (R : ℕ → Prop) (mgr : ProtectionManager) (s : ProtectionWorld)
    (out : ℕ → ℕ → ProtectionOutcome) (answer : α → ProtectionAnswer) :
    PolicyResult α × ProtectionManager → ProtectionWorld → Prop
  | performed (ruleNow now : ℕ) {result : PolicyResult α} {mgr' : ProtectionManager}
      {t : ProtectionWorld} : R ruleNow → (out ruleNow now).result = result.map answer →
      mgr'.abstract = (out ruleNow now).state → mgr'.limits = mgr.limits → mgr'.Regular →
      t.policy = (out ruleNow now).published.or s.policy →
      Done strict R mgr s out answer (result, mgr') t
  | failed {e : ProtectionPolicyError} {t : ProtectionWorld} : ¬strict →
      Done strict R mgr s out answer (.error e, mgr) t

variable {out : ℕ → ℕ → ProtectionOutcome} {t : ProtectionWorld}

theorem Done.refused (ruleNow now : ℕ)
    (hR : R ruleNow) (hmgr : mgr.Regular) (hout : out ruleNow now = mgr.abstract.refuse e)
    (ht : t.policy = s.policy) : Done strict R mgr s out answer (.error e, mgr) t :=
  .performed ruleNow now hR (by rw [hout]; rfl) (by rw [hout]; rfl) rfl hmgr
    (by rw [hout]; exact ht)

theorem safe_publish_bind {ruleNow : ℕ} {mode : GuardMode} {next : CurrentProtection}
    {rules : List ClientRule} {mgr' : ProtectionManager} {a : α}
    {k : PolicyResult Unit → Prog Protection (PolicyResult α × ProtectionManager)}
    (hallow : strict → ∀ o x s, allow o x s → Healthy C o x s) (hR : R ruleNow)
    (herr : ∀ e, k (.error e) = .ret (.error e, mgr)) (hok : k (.ok ()) = .ret (.ok a, mgr'))
    (hmgr : mgr.Regular) (hmgr' : mgr'.Regular) (hlimits : mgr'.limits = mgr.limits)
    (hnext : mgr'.current = next) (hrules : mgr'.clientRules = rules)
    (hversion : next.policyVersion < 2 ^ 64) (hout : ∀ now, out ruleNow now = mgr.abstract.publish C
      mgr.limits mgr'.abstract mode now (answer a)) :
    (mgr.publish C mode next rules >>= k).Safe (setting allow fun _ => True) .alone
      (Done strict R mgr s out answer) t := by
  refine (safe_publish hallow (fun _ _ _ _ => trivial) (hnext ▸ hmgr'.settings) hmgr.limits).bind
    fun r u _ hr => ?_
  rcases hr.2 with ⟨now, p, hp, rfl, hfile⟩ | ⟨hstrict, e, rfl⟩
  · rw [hok]
    have hpublished : out ruleNow now =
        ⟨.ok (answer a), mgr'.abstract, some (withClientRules C p rules)⟩ := by
      have hp' : mgr'.abstract.policy C mgr.limits mode now = .ok (withClientRules C p rules) := by
        subst hnext hrules
        rw [AbstractProtection.policy]
        exact congrArg (Except.map _) hp
      have hroom : ¬2 ^ 64 ≤ mgr'.abstract.version := by
        subst hnext
        exact Nat.not_le.2 hversion
      rw [hout, publish, if_neg hroom, hp']
    refine .ret_alone fun _ => .performed ruleNow now hR ?_ ?_ hlimits hmgr' ?_
    all_goals rw [hpublished]
    · rfl
    · exact hfile
  · rw [herr]
    exact .ret_alone fun _ => .failed hstrict

/-- An operation with the writer does what it is meant to do, if it does so
    before the writer is given back. -/
theorem safe_withWriter {call : ProtectionCall} {body : ProtectionManager →
      Prog Protection (PolicyResult α × ProtectionManager)}
    (hmgr : s.memory = some mgr)
    (hbody : (body mgr).Safe (setting allow fun _ => True) .alone
      (Done strict R mgr s (mgr.abstract.perform C mgr.limits request) answer) (s.lock call mgr)) :
    (ProtectionManager.withWriter call body >>= fun r => .ret (r.map answer)).Safe
      (setting allow fun _ => True) .alone (Refines C strict R request mgr s) s := by
  rw [ProtectionManager.withWriter, Prog.call_bind]
  refine .call_alone fun _ x mgr' t _ hx => ?_
  obtain ⟨hmgr', rfl⟩ := of_exec_lockWriter hx
  obtain rfl : mgr' = mgr := Option.some.inj (hmgr'.symm.trans hmgr)
  refine ⟨trivial, ?_⟩
  rw [Prog.bind_assoc]
  refine hbody.bind fun r t _ hr => ?_
  refine .call_alone fun _ x _ u _ hx => ?_
  rw [of_exec_unlockWriter hx]
  refine ⟨trivial, .ret_alone fun _ => ?_⟩
  cases hr with
  | performed ruleNow now hR hresult hstate hlimits hregular hpolicy =>
    exact .performed ruleNow now hR rfl hresult rfl hstate hlimits hregular hpolicy
  | failed hstrict => exact .failed hstrict rfl rfl

section Requests

variable (hallow : strict → ∀ o x s, allow o x s → Healthy C o x s)
  (hclock : ∀ now s, allow (.nowUtc .clientRule) (.time now) s → R now) (hR : ∃ now, R now)
  (hmgr : s.memory = some mgr) (hregular : mgr.Regular) {mode : GuardMode}

include hallow hregular in
open ProtectionManager in
theorem safe_writeClientRules {ruleNow : ℕ} {rules : List ClientRule} {t : ProtectionWorld}
    (hnow : R ruleNow) (ht : t.policy = s.policy)
    (hout : ∀ now, out ruleNow now = mgr.abstract.setRules C mgr.limits rules mode now) :
    (mgr.writeClientRules C mode rules).Safe (setting allow fun _ => True) .alone
      (Done strict R mgr s out .rules) t := by
  rw [writeClientRules, nextVersion_eq]
  by_cases hroom : 2 ^ 64 ≤ mgr.current.policyVersion + 1
  · rw [if_pos hroom]
    refine .ret_alone fun _ => .refused ruleNow 0 hnow hregular ?_ ht
    rw [hout]
    exact if_pos hroom
  · rw [if_neg hroom]
    refine safe_publish_bind hallow hnow (fun _ => rfl) rfl hregular ?_ rfl rfl rfl
      (Nat.not_le.1 hroom) hout
    exact ⟨⟨hregular.settings, hregular.limits⟩, hregular.completed⟩

variable {clientIp : IpAddr}

include hallow hclock hR hmgr hregular in
open ProtectionManager in
theorem safe_serve_blockClient {ttlSeconds : ℕ} :
    ((ProtectionRequest.blockClient clientIp ttlSeconds mode).serve C).Safe
      (setting allow fun _ => True) .alone
      (Refines C strict R (.blockClient clientIp ttlSeconds mode) mgr s) s := by
  rw [ProtectionRequest.serve, blockClient]
  by_cases httl : temporaryBlockMinSeconds ≤ ttlSeconds ∧ ttlSeconds ≤ temporaryBlockMaxSeconds
  · rw [if_neg (not_not.2 httl)]
    refine safe_withWriter hmgr (.call_alone fun _ x now t hC hx => ?_)
    obtain ⟨rfl, rfl⟩ := of_exec_nowUtc hx
    have hnow : R now := hclock now _ hC
    refine ⟨trivial, ?_⟩
    split
    · next hformat =>
      refine .ret_alone fun _ => .refused now 0 hnow hregular ?_ rfl
      rw [perform, if_neg (not_not.2 httl), hformat]
    · next expiresAt hformat =>
      refine safe_writeClientRules hallow hregular hnow rfl fun now' => ?_
      rw [perform, if_neg (not_not.2 httl), hformat]
      rfl
  · rw [if_pos httl]
    exact .ret_alone fun _ => .refused hR hmgr hregular fun _ _ => if_pos httl

include hallow hclock hmgr hregular in
open ProtectionManager in
theorem safe_serve_unblockClient :
    ((ProtectionRequest.unblockClient clientIp mode).serve C).Safe (setting allow fun _ => True)
      .alone (Refines C strict R (.unblockClient clientIp mode) mgr s) s := by
  refine safe_withWriter hmgr (.call_alone fun _ x now t hC hx => ?_)
  obtain ⟨rfl, rfl⟩ := of_exec_nowUtc hx
  exact ⟨trivial, safe_writeClientRules hallow hregular (hclock now _ hC) rfl fun _ => rfl⟩

include hallow hR hmgr hregular in
open ProtectionManager in
theorem safe_serve_writeForState {state : GuardState} :
    ((ProtectionRequest.writeForState state).serve C).Safe (setting allow fun _ => True) .alone
      (Refines C strict R (.writeForState state) mgr s) s := by
  obtain ⟨now₀, hnow₀⟩ := hR
  refine safe_withWriter hmgr ?_
  rw [nextVersion_eq]
  by_cases hroom : 2 ^ 64 ≤ max mgr.current.policyVersion state.policyVersion + 1
  · rw [if_pos hroom]
    exact .ret_alone fun _ => .refused now₀ now₀ hnow₀ hregular (if_pos hroom) rfl
  · rw [if_neg hroom]
    refine safe_publish_bind hallow hnow₀ (fun _ => rfl) rfl hregular ?_ rfl rfl rfl
      (Nat.not_le.1 hroom) fun _ => rfl
    exact ⟨⟨hregular.settings, hregular.limits⟩, hregular.completed⟩

include hallow hR hmgr hregular in
open ProtectionManager in
theorem safe_serve_apply {id fingerprint planHash : String} {settings : ProtectionSettings} :
    ((ProtectionRequest.apply id fingerprint planHash settings mode).serve C).Safe
      (setting allow fun _ => True) .alone
      (Refines C strict R (.apply id fingerprint planHash settings mode) mgr s) s := by
  rw [ProtectionRequest.serve, apply]
  cases hvalid : settings.validate with
  | error e =>
    refine .ret_alone fun _ => .refused hR hmgr hregular fun ruleNow now => ?_
    rw [perform, hvalid]
  | ok _ =>
    obtain ⟨now₀, hnow₀⟩ := hR
    refine safe_withWriter hmgr ?_
    have hout : ∀ ruleNow now, mgr.abstract.perform C mgr.limits
        (.apply id fingerprint planHash settings mode) ruleNow now =
          mgr.abstract.applySettings C mgr.limits id fingerprint planHash settings mode now := by
      intro ruleNow now
      rw [perform, hvalid]
    have hrecall : mgr.abstract.recalled id = mgr.completed.find? (·.operationId = id) := rfl
    cases hfind : mgr.completed.find? (·.operationId = id) with
    | some completed =>
      -- Answered from what is remembered; nothing is written.
      rw [hfind] at hrecall
      dsimp only
      split
      · next hne =>
        refine .ret_alone fun _ => .refused now₀ now₀ hnow₀ hregular ?_ rfl
        rw [hout, applySettings, hrecall]
        exact if_pos hne
      · next heq =>
        refine .ret_alone fun _ => .performed now₀ now₀ hnow₀ ?_ ?_ rfl hregular ?_
        all_goals rw [hout, applySettings, hrecall]
        all_goals simp only [if_neg heq]
        all_goals rfl
    | none =>
      rw [hfind] at hrecall
      dsimp only
      rw [planFrom_eq]
      by_cases hroom : 2 ^ 64 ≤ mgr.current.policyVersion + 1
      · rw [if_pos hroom]
        refine .ret_alone fun _ => .refused now₀ now₀ hnow₀ hregular ?_ rfl
        rw [hout, applySettings, hrecall]
        exact if_pos hroom
      · rw [if_neg hroom]
        have hout' : ∀ ruleNow now, mgr.abstract.perform C mgr.limits
            (.apply id fingerprint planHash settings mode) ruleNow now =
              mgr.abstract.applyNew C mgr.limits id fingerprint planHash settings mode now := by
          intro ruleNow now
          rw [hout, applySettings, hrecall]
          exact if_neg hroom
        -- The checks of the plan, in the order of the code.
        dsimp only
        split
        · next hstale =>
          exact .ret_alone fun _ => .refused now₀ now₀ hnow₀ hregular
            ((hout' now₀ now₀).trans (if_pos hstale)) rfl
        next hfresh =>
        split
        · next hmismatch =>
          exact .ret_alone fun _ => .refused now₀ now₀ hnow₀ hregular
            ((hout' now₀ now₀).trans ((if_neg hfresh).trans (if_pos hmismatch))) rfl
        next hmatch =>
        split
        · next hsame =>
          have hout'' := (hout' now₀ now₀).trans ((if_neg hfresh).trans ((if_neg hmatch).trans
            (if_pos (changes_eq_nil_iff.1 hsame))))
          refine .ret_alone fun _ => .performed now₀ now₀ hnow₀ ?_ ?_ rfl
            ⟨⟨hregular.settings, hregular.limits⟩, length_completed_remember hregular.completed⟩ ?_
          all_goals rw [hout'']
          · rfl
          · exact abstract_remember hregular.completed
          · rfl
        · next hchanges =>
          refine safe_publish_bind hallow hnow₀ (fun _ => rfl) rfl hregular
            ⟨⟨hvalid, hregular.limits⟩, length_completed_remember hregular.completed⟩ rfl rfl rfl
            (Nat.not_le.1 hroom) fun now => ?_
          have hlength : ({ mgr with current := ⟨settings, mgr.current.policyVersion + 1⟩ } :
              ProtectionManager).completed.length ≤ completedOperationCapacity := hregular.completed
          rw [abstract_remember hlength]
          exact (hout' now₀ now).trans ((if_neg hfresh).trans ((if_neg hmatch).trans
            (if_neg fun h => hchanges (changes_eq_nil_iff.2 h))))

include hallow hclock hR hmgr hregular in
/-- A request, alone, does what it is meant to do. -/
theorem safe_serve (request : ProtectionRequest) :
    (request.serve C).Safe (setting allow fun _ => True) .alone
      (Refines C strict R request mgr s) s := by
  cases request with
  | apply id fingerprint planHash settings mode =>
    exact safe_serve_apply hallow hR hmgr hregular
  | writeForState state => exact safe_serve_writeForState hallow hR hmgr hregular
  | blockClient clientIp ttlSeconds mode =>
    exact safe_serve_blockClient hallow hclock hR hmgr hregular
  | unblockClient clientIp mode => exact safe_serve_unblockClient hallow hclock hmgr hregular

end Requests

end ProtectionWorld

/-! ## Critical sections -/

namespace ProtectionManager

def writer : Locking Protection where
  acquires
    | .lockWriter _ => true
    | _ => false
  releases
    | .unlockWriter _ => true
    | _ => false

/-- What an operation performs between taking the writer and giving it back. -/
def Between (o : ProtectionOp) : Prop := writer.acquires o = false ∧ writer.releases o = false

variable {C : ProtectionCodec} {α : Type} {version : α → ℕ} {mode : GuardMode}
  {call : ProtectionCall} {mgr : ProtectionManager}

theorem Publishing.between {limits : StaticLimits} {next : CurrentProtection} {o : ProtectionOp}
    (h : Publishing C mode limits next o) : Between o := by
  cases o with
  | lockWriter call => exact h.elim
  | unlockWriter mgr => exact h.elim
  | _ => exact ⟨rfl, rfl⟩

theorem Operation.performs
    {body : Prog Protection (PolicyResult α × ProtectionManager)}
    (h : Operation C version mode call mgr body) : body.Performs Between := by
  induction h with
  | done => trivial
  | clock _ ih => exact ⟨⟨rfl, rfl⟩, ih⟩
  | publish herr hok _ _ _ _ =>
    refine (performs_publish.mono fun _ => Publishing.between).bind fun r => ?_
    cases r with
    | error e =>
      obtain ⟨e', he⟩ := herr e
      rw [he]
      trivial
    | ok _ =>
      rw [hok]
      trivial

theorem Served.guarded {p : Prog Protection (PolicyResult α)}
    {answer : α → ProtectionAnswer} (h : Served C version mode p) :
    (p >>= fun r => .ret (r.map answer)).Guarded writer := by
  cases h with
  | refused e => trivial
  | served _ hbody =>
    refine ⟨rfl, fun mgr => ?_⟩
    have hinside := Prog.inside_bind_release (L := writer) (o := fun r => .unlockWriter r.2)
      (f := fun r _ => r.1.map answer) (hbody mgr).performs (fun _ h => h) fun _ => ⟨rfl, rfl⟩
    change Prog.Inside writer (_ >>= _ >>= _)
    rw [Prog.bind_assoc]
    exact hinside

end ProtectionManager

theorem ProtectionRequest.guarded_serve (C : ProtectionCodec) (request : ProtectionRequest) :
    (request.serve C).Guarded ProtectionManager.writer := by
  cases request with
  | apply => exact ProtectionManager.served_apply.guarded
  | writeForState => exact ProtectionManager.served_writeForState.guarded
  | blockClient => exact ProtectionManager.served_blockClient.guarded
  | unblockClient => exact ProtectionManager.served_unblockClient.guarded

/-! ## All requests -/

/-- Some of the requests are performed, one after the other, with the results of
    the list. They start in the state `a` and with the policy `file`. -/
inductive AbstractProtection.Sequential (C : ProtectionCodec) (limits : StaticLimits)
    (requests : List ProtectionRequest) (a : AbstractProtection) (file : Option PolicySnapshot) :
    List (ℕ × ProtectionResult) → AbstractProtection → Option PolicySnapshot → Prop
  | nil : Sequential C limits requests a file [] a file
  | snoc {l : List (ℕ × ProtectionResult)} {b : AbstractProtection} {file' : Option PolicySnapshot}
      {i : ℕ} {request : ProtectionRequest} {out : ProtectionOutcome} (ruleNow now : ℕ) :
      Sequential C limits requests a file l b file' → requests[i]? = some request →
      i ∉ l.map Prod.fst → b.perform C limits request ruleNow now = out →
      Sequential C limits requests a file (l ++ [(i, out.result)]) out.state
        (out.published.or file')

namespace ProtectionWorld

variable {C : ProtectionCodec} {s t : ProtectionWorld} {mgr : ProtectionManager}

theorem sequential_of_serial {requests : List ProtectionRequest} {l : List (ℕ × ProtectionResult)}
    (hmgr : s.memory = some mgr) (hregular : mgr.Regular)
    (h : Pool.Serial machine (Healthy C) (requests.map (·.serve C)) s l t) :
    ∃ mgr', t.memory = some mgr' ∧ mgr'.Regular ∧ mgr'.limits = mgr.limits ∧
      AbstractProtection.Sequential C mgr.limits requests mgr.abstract s.policy l mgr'.abstract
        t.policy := by
  induction h with
  | nil => exact ⟨mgr, hmgr, hregular, rfl, .nil⟩
  | @snoc l t u i p result _ hp hnot hruns ih =>
    obtain ⟨mgr₁, hmgr₁, hregular₁, hlimits₁, hseq⟩ := ih
    rw [getElem?_map, Option.map_eq_some_iff] at hp
    obtain ⟨request, hrequest, rfl⟩ := hp
    have hsafe := safe_serve (C := C) (R := fun _ => True) (fun (_ : True) _ _ _ h => h)
      (fun _ _ _ => trivial) ⟨0, trivial⟩ hmgr₁ hregular₁ request
    obtain ⟨hrefines, -⟩ :=
      Prog.Runs.safe (E := setting (Healthy C) fun _ => True) hruns hsafe trivial
    cases hrefines with
    | @performed ruleNow now mgr₂ out _ hout hresult hmgr₂ hstate hlimits hregular₂ hpolicy =>
      refine ⟨mgr₂, hmgr₂, hregular₂, hlimits.trans hlimits₁, ?_⟩
      rw [hlimits₁] at hout
      rw [← hresult, hstate, hpolicy]
      exact hseq.snoc ruleNow now hrequest hnot hout
    | failed h => exact absurd trivial h

theorem perform_of_serve_eq_ret {request : ProtectionRequest} {result : ProtectionResult}
    (h : request.serve C = .ret result) (limits : StaticLimits) (a : AbstractProtection)
    (ruleNow now : ℕ) : a.perform C limits request ruleNow now = ⟨result, a, none⟩ := by
  cases request with
  | apply id fingerprint planHash settings mode =>
    rw [ProtectionRequest.serve, ProtectionManager.apply] at h
    rw [perform]
    cases hvalid : settings.validate with
    | error e =>
      rw [hvalid] at h
      cases h
      rfl
    | ok _ =>
      rw [hvalid] at h
      cases h
  | writeForState state => cases h
  | blockClient clientIp ttlSeconds mode =>
    rw [ProtectionRequest.serve, ProtectionManager.blockClient] at h
    rw [perform]
    split at h
    · next httl =>
      cases h
      exact if_pos httl
    · cases h
  | unblockClient clientIp mode => cases h

theorem memory_of_exec {o : ProtectionOp} {x : ProtectionChoice} {a : o.Ans}
    (ho : ProtectionManager.writer.acquires o = true ∨ ProtectionManager.writer.releases o = false)
    (hx : exec o x s = some (a, t)) : t.memory = s.memory := by
  refine (exec_frame hx).1.resolve_right ?_
  rintro ⟨mgr, rfl, -⟩
  rcases ho with ho | ho <;> cases ho

def requestPool (C : ProtectionCodec) (s : ProtectionWorld) (requests : List ProtectionRequest) :
    Pool Protection (Locked ProtectionWorld) ProtectionResult where
  state := ⟨false, s⟩
  tasks := requests.map (·.serve C)

/-- The requests that have returned were performed one after the other, with the
    results of the list: this led to the state `a` and the policy `file`. -/
structure Linearizes (C : ProtectionCodec) (requests : List ProtectionRequest) (s : ProtectionWorld)
    (mgr : ProtectionManager) (q : Pool Protection (Locked ProtectionWorld) ProtectionResult)
    (l : List (ℕ × ProtectionResult)) (a : AbstractProtection) (file : Option PolicySnapshot) :
    Prop where
  sequential : AbstractProtection.Sequential C mgr.limits requests mgr.abstract s.policy l a file
  memory : ∃ mgr', q.state.state.memory = some mgr' ∧ mgr'.abstract = a
  /-- While nobody has the writer. -/
  policy : q.state.taken = false → q.state.state.policy = file
  returned : ∀ i result, (i, result) ∈ l → q.tasks[i]? = some (.ret result)
  /-- Some requests are refused in every state, and may be put anywhere. -/
  results : ∀ i result, q.tasks[i]? = some (.ret result) → (i, result) ∈ l ∨
    ∃ request, requests[i]? = some request ∧ ∀ (b : AbstractProtection) (ruleNow now : ℕ),
      b.perform C mgr.limits request ruleNow now = ⟨result, b, none⟩

/-- **Linearizability.** However requests to the manager are interleaved, where
    nothing fails they are performed one after the other, each of them orderly. -/
theorem linearizable (C : ProtectionCodec) (requests : List ProtectionRequest) (s : ProtectionWorld)
    (mgr : ProtectionManager) (hmgr : s.memory = some mgr) (hregular : mgr.Regular)
    (q : Pool Protection (Locked ProtectionWorld) ProtectionResult)
    (hq : Pool.Reaches (machine.locked ProtectionManager.writer)
      (fun o x s => Healthy C o x s.state) (requestPool C s requests) q) :
    (∃ l a file, Linearizes C requests s mgr q l a file) ∧ ∀ (a : AbstractProtection)
      (request : ProtectionRequest) (ruleNow now : ℕ), a.Orderly C mgr.limits request ruleNow now
      (a.perform C mgr.limits request ruleNow now) := by
  refine ⟨?_, orderly_perform C mgr.limits⟩
  have hguarded : ∀ p ∈ requests.map (·.serve C), p.Guarded ProtectionManager.writer := by
    intro p hp
    obtain ⟨request, -, rfl⟩ := mem_map.1 hp
    exact request.guarded_serve C
  obtain ⟨l, t, hserial, hsettled⟩ := hq.serial hguarded
  obtain ⟨mgr', hmgr', -, -, hseq⟩ := sequential_of_serial hmgr hregular hserial
  refine ⟨l, mgr'.abstract, t.policy, hseq, ⟨mgr', ?_, rfl⟩, ?_, fun _ _ => hsettled.returned,
    fun i result hresult => ?_⟩
  · cases hsettled with
    | free hstate _ => rw [hstate]; exact hmgr'
    | taken hstate hp _ _ hinside hsteps _ =>
      -- The memory is given back with the writer, and not before.
      rw [hstate]
      exact hsteps.lasting (P := fun s => s.memory = some mgr')
        (fun _ _ _ _ _ ho hx hs => (memory_of_exec ho hx).trans hs)
        (hguarded _ (mem_of_getElem? hp)) hinside hmgr'
  · intro hfree
    cases hsettled with
    | free hstate _ => rw [hstate]
    | taken hstate => rw [hstate] at hfree; cases hfree
  · rcases hsettled.mem_or hresult with hmem | hret
    · exact .inl hmem
    · rw [getElem?_map, Option.map_eq_some_iff] at hret
      obtain ⟨request, hrequest, hserve⟩ := hret
      exact .inr ⟨request, hrequest, perform_of_serve_eq_ret hserve mgr.limits⟩

/-- The memory of a manager to compute with, as it is after the first start. -/
def firstMemory : ProtectionManager :=
  { limits := ⟨1, 1⟩, clientRules := [], current := ⟨.default, 0⟩, completed := [] }

/-- The client is unblocked before the policy of the state is written, which
    was asked for first. -/
theorem linearizable_two : ∃ q : Pool Protection (Locked ProtectionWorld) ProtectionResult,
      Pool.Reaches (machine.locked ProtectionManager.writer)
        (fun o x s => Healthy .plain o x s.state)
        (requestPool .plain { fresh with memory := some firstMemory }
          [.writeForState (.normal "t0"), .unblockClient (.v4 0) .watch]) q ∧
      q.state.taken = false ∧ ∃ l a file,
        Linearizes .plain [.writeForState (.normal "t0"), .unblockClient (.v4 0) .watch]
          { fresh with memory := some firstMemory } firstMemory q l a file ∧ a.version = 2 := by
  obtain ⟨q, hq, hdone⟩ := Pool.exists_reaches_of_run (machine.locked ProtectionManager.writer)
    (fun o x s => Healthy .plain o x s.state)
    (requestPool .plain { fresh with memory := some firstMemory }
      [.writeForState (.normal "t0"), .unblockClient (.v4 0) .watch])
    ([.proceed, .time 0, .time 0, .write none, .write none, .read none, .read none, .time 0,
        .proceed].map (1, ·) ++
      [.proceed, .time 0, .write none, .write none, .read none, .read none, .time 0,
        .proceed].map (0, ·))
    (P := fun q => !q.state.taken &&
      q.state.state.memory.any (·.current.policyVersion = 2)) (by decide)
  obtain ⟨hfree, hversion⟩ := Bool.and_eq_true_iff.1 hdone
  have hregular : firstMemory.Regular := ⟨⟨ProtectionSettings.valid_default, by decide⟩, by decide⟩
  obtain ⟨⟨l, a, file, h⟩, -⟩ := linearizable .plain _ _ firstMemory rfl hregular q hq
  refine ⟨q, hq, by simpa using hfree, l, a, file, h, ?_⟩
  obtain ⟨mgr', hmgr', rfl⟩ := h.memory
  rw [hmgr'] at hversion
  exact of_decide_eq_true hversion

end ProtectionWorld

end VpsGuard
