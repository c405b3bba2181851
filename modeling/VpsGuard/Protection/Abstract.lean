import Mathlib.Data.List.DropRight
import VpsGuard.Protection.Files

/-!
# What the manager is for

The protection manager as it is meant: settings, rules for clients, a version,
and the operations that were applied last (`AbstractProtection`). A request is
done at once (`perform`): it is refused, or answered, or leads to a new state
that is published, as the policy of that state for a mode. There are no files, no
lock and no failures; the clock is read once for the rules of clients and once
for the policy.

What can be relied on is gathered in `Orderly`, and holds of every request in
every state (`orderly_perform`). That the manager does just this, whatever is
served at the same time, is the subject of `Protection.Linearization`.
-/

namespace VpsGuard

open List

/-- What is answered if the operation succeeds. -/
inductive ProtectionAnswer
  | applied (outcome : ProtectionManager.ApplyOutcome)
  | written (state : GuardState)
  | rules (snapshot : ProtectionSnapshot)

abbrev ProtectionResult := PolicyResult ProtectionAnswer

namespace ProtectionRequest

def mode : ProtectionRequest → GuardMode
  | apply _ _ _ _ mode | blockClient _ _ mode | unblockClient _ mode => mode
  | writeForState state => state.currentMode

def client : ProtectionRequest → Option IpAddr
  | blockClient clientIp _ _ | unblockClient clientIp _ => some clientIp
  | apply _ _ _ _ _ | writeForState _ => none

end ProtectionRequest

/-- The state of the manager, as it is meant. -/
@[ext]
structure AbstractProtection where
  settings : ProtectionSettings
  clientRules : List ClientRule
  version : ℕ
  /-- The operations applied last, the oldest first. -/
  completed : List CompletedOperation

/-- The answer, what the protection is then, and the policy if one is published. -/
structure ProtectionOutcome where
  result : ProtectionResult
  state : AbstractProtection
  published : Option PolicySnapshot

namespace AbstractProtection

variable (C : ProtectionCodec) (limits : StaticLimits) (a : AbstractProtection)

/-- What is shown of the state. -/
def snapshot : ProtectionSnapshot := snapshotOf C ⟨a.settings, a.version⟩

def planHash (settings : ProtectionSettings) : String :=
  C.sha256Hex ((a.snapshot C).fingerprint ++ C.settingsJson settings)

/-- The operation that was applied under an identifier. -/
def recalled (operationId : String) : Option CompletedOperation :=
  a.completed.find? (·.operationId = operationId)

/-- The operations that are remembered: the last ones. -/
@[irreducible] def latest (completed : List CompletedOperation) : List CompletedOperation :=
  completed.rtake completedOperationCapacity

def remember (operation : CompletedOperation) : AbstractProtection :=
  { a with completed := latest (a.completed ++ [operation]) }

variable {operation : CompletedOperation} {id fingerprint planHash : String}
  {settings : ProtectionSettings}

@[simp] theorem remember_settings : (a.remember operation).settings = a.settings := rfl

@[simp] theorem remember_clientRules : (a.remember operation).clientRules = a.clientRules := rfl

@[simp] theorem remember_version : (a.remember operation).version = a.version := rfl

def otherRules (clientIp : IpAddr) (now : ℕ) : List ClientRule :=
  (activeClientRules C a.clientRules now).filter (·.clientIp ≠ clientIp)

def policy (mode : GuardMode) (now : ℕ) : PolicyResult PolicySnapshot :=
  (buildPolicyAt C mode a.version limits a.settings now).map (withClientRules C · a.clientRules)

def refuse (e : ProtectionPolicyError) : ProtectionOutcome := ⟨.error e, a, none⟩

/-- Publish what comes next, or leave all as it is. -/
def publish (next : AbstractProtection) (mode : GuardMode) (now : ℕ) (answer : ProtectionAnswer) :
    ProtectionOutcome :=
  if 2 ^ 64 ≤ next.version then a.refuse .versionExhausted
  else
    match next.policy C limits mode now with
    | .error e => a.refuse e
    | .ok policy => ⟨.ok answer, next, some policy⟩

/-- New settings, of an operation that is not remembered. -/
def applyNew (operationId expectedFingerprint planHash : String) (settings : ProtectionSettings)
    (mode : GuardMode) (now : ℕ) : ProtectionOutcome :=
  if (a.snapshot C).fingerprint ≠ expectedFingerprint then a.refuse .stalePlan
  else if a.planHash C settings ≠ planHash then a.refuse .planHashMismatch
  else if settings = a.settings then
    ⟨.ok (.applied ⟨false, a.snapshot C⟩), a.remember ⟨operationId, planHash, a.snapshot C⟩, none⟩
  else
    let next := { a with settings, version := a.version + 1 }
    a.publish C limits (next.remember ⟨operationId, planHash, next.snapshot C⟩) mode now
      (.applied ⟨true, next.snapshot C⟩)

def applySettings (operationId expectedFingerprint planHash : String)
    (settings : ProtectionSettings) (mode : GuardMode) (now : ℕ) : ProtectionOutcome :=
  match a.recalled operationId with
  | some completed =>
    if completed.planHash ≠ planHash then a.refuse .idempotencyConflict
    else ⟨.ok (.applied ⟨false, completed.snapshot⟩), a, none⟩
  | none =>
    if 2 ^ 64 ≤ a.version + 1 then a.refuse .versionExhausted
    else a.applyNew C limits operationId expectedFingerprint planHash settings mode now

/-- Publish other rules for the clients. -/
def setRules (rules : List ClientRule) (mode : GuardMode) (now : ℕ) : ProtectionOutcome :=
  let next := { a with clientRules := rules, version := a.version + 1 }
  a.publish C limits next mode now (.rules (next.snapshot C))

/-- What a request does. The clock shows `ruleNow` for the rules of clients, and
    `now` for the policy. -/
def perform (request : ProtectionRequest) (ruleNow now : ℕ) : ProtectionOutcome :=
  match request with
  | .apply operationId expectedFingerprint planHash settings mode =>
    match settings.validate with
    | .error e => a.refuse (.invalidSettings e)
    | .ok () => a.applySettings C limits operationId expectedFingerprint planHash settings mode now
  | .writeForState state =>
    let next := { a with version := max a.version state.policyVersion + 1 }
    a.publish C limits next state.currentMode now
      (.written { state with policyVersion := next.version })
  | .blockClient clientIp ttlSeconds mode =>
    if ¬(ProtectionManager.temporaryBlockMinSeconds ≤ ttlSeconds ∧
        ttlSeconds ≤ ProtectionManager.temporaryBlockMaxSeconds) then
      a.refuse (.invalidTemporaryBlockTtl ttlSeconds)
    else
      match C.formatRfc3339 (ruleNow + ttlSeconds) with
      | none => a.refuse .time
      | some expiresAt => a.setRules C limits (a.otherRules C clientIp ruleNow ++
          [{ clientIp, action := .deny, expiresAt, reasonCodes := [.automationPattern] }]) mode now
  | .unblockClient clientIp mode => a.setRules C limits (a.otherRules C clientIp ruleNow) mode now

variable {mode : GuardMode}

variable {C limits a} in
theorem exists_of_policy {now : ℕ} {p : PolicySnapshot}
    (h : a.policy C limits mode now = .ok p) : p.clientRules = a.clientRules ∧
      GeneratedPolicy C mode a.version limits a.settings now p := by
  unfold policy at h
  cases hbuild : buildPolicyAt C mode a.version limits a.settings now with
  | error e => rw [hbuild] at h; cases h
  | ok p' =>
    rw [hbuild] at h
    cases h
    exact ⟨rfl, (generatedPolicy_of_buildPolicyAt hbuild).withClientRules a.clientRules⟩

/-! ## What can be relied on -/

/-- What can be relied on when a request is performed. -/
structure Orderly (request : ProtectionRequest) (ruleNow now : ℕ) (out : ProtectionOutcome) :
    Prop where
  /-- What is published is sealed, and has the rules, the version and the settings of the new
      state, for the mode of the request. -/
  sealed : ∀ p, out.published = some p → p.clientRules = out.state.clientRules ∧
    GeneratedPolicy C request.mode out.state.version limits out.state.settings now p
  /-- Versions increase with every policy. -/
  increases : out.published ≠ none → a.version < out.state.version
  /-- Without a policy nothing changes but what is remembered. -/
  unpublished : out.published = none → out.state.settings = a.settings ∧
    out.state.clientRules = a.clientRules ∧ out.state.version = a.version
  /-- A request that is refused changes nothing. -/
  refused : ∀ e, out.result = .error e → out.state = a ∧ out.published = none
  /-- Settings are changed by requests for these settings, which are answered as applied. -/
  settings : (∃ id fingerprint planHash snapshot,
      request = .apply id fingerprint planHash out.state.settings request.mode ∧
        out.result = .ok (.applied ⟨true, snapshot⟩)) ∨
    out.state.settings = a.settings ∧ ∀ snapshot, out.result ≠ .ok (.applied ⟨true, snapshot⟩)
  /-- Requests for others leave the rule of a client in place, until it has expired. -/
  rules_kept : ∀ rule ∈ a.clientRules, request.client ≠ some rule.clientIp →
    (C.parseRfc3339 rule.expiresAt).any (· > ruleNow) = true → rule ∈ out.state.clientRules
  /-- Requests for others give a client no rule. -/
  rules_from : ∀ rule ∈ out.state.clientRules, request.client ≠ some rule.clientIp →
    rule ∈ a.clientRules
  /-- No client gets two rules. -/
  single : (a.clientRules.map (·.clientIp)).Nodup → (out.state.clientRules.map (·.clientIp)).Nodup
  /-- A client that is blocked has the rule for it, and no other. -/
  blocked : ∀ clientIp ttlSeconds mode answer, request = .blockClient clientIp ttlSeconds mode →
    out.result = .ok answer → ∃ expiresAt, C.formatRfc3339 (ruleNow + ttlSeconds) = some expiresAt ∧
      out.state.clientRules.filter (·.clientIp = clientIp) =
        [⟨clientIp, .deny, expiresAt, [.automationPattern]⟩]
  /-- A client that is unblocked has no rule. -/
  unblocked : ∀ clientIp mode answer, request = .unblockClient clientIp mode →
    out.result = .ok answer → out.state.clientRules.filter (·.clientIp = clientIp) = []
  /-- An operation that is remembered is answered as it was, and not applied again. -/
  replayed : ∀ id fingerprint planHash settings mode completed,
    request = .apply id fingerprint planHash settings mode → settings.Valid →
    a.recalled id = some completed → completed.planHash = planHash →
    out = ⟨.ok (.applied ⟨false, completed.snapshot⟩), a, none⟩

variable {C limits a}
variable {request : ProtectionRequest} {ruleNow now : ℕ}

/-- The request is for an operation that is remembered. -/
def Replays (a : AbstractProtection) (request : ProtectionRequest) : Prop :=
  ∃ id fingerprint planHash settings mode completed,
    request = .apply id fingerprint planHash settings mode ∧ settings.Valid ∧
      a.recalled id = some completed ∧ completed.planHash = planHash

theorem orderly_refuse {e : ProtectionPolicyError} (h : ¬a.Replays request) :
    a.Orderly C limits request ruleNow now (a.refuse e) where
  sealed _ h := nomatch h
  increases h := absurd rfl h
  unpublished _ := ⟨rfl, rfl, rfl⟩
  refused _ _ := ⟨rfl, rfl⟩
  settings := .inr ⟨rfl, fun _ h => nomatch h⟩
  rules_kept _ hrule _ _ := hrule
  rules_from _ hrule _ := hrule
  single h := h
  blocked _ _ _ _ _ h := nomatch h
  unblocked _ _ _ _ h := nomatch h
  replayed id fingerprint planHash settings mode completed hrequest hvalid hrecall hhash :=
    absurd ⟨id, fingerprint, planHash, settings, mode, completed, hrequest, hvalid, hrecall,
      hhash⟩ h

variable {next : AbstractProtection} {answer : ProtectionAnswer}

theorem orderly_publish (hreplays : ¬a.Replays request)
    (hok : ∀ p, next.policy C limits request.mode now = .ok p →
      a.Orderly C limits request ruleNow now ⟨.ok answer, next, some p⟩) :
    a.Orderly C limits request ruleNow now (a.publish C limits next request.mode now answer) := by
  unfold publish
  split
  · exact orderly_refuse hreplays
  · split
    · exact orderly_refuse hreplays
    · next p hp => exact hok p hp

theorem orderly_publish_rules (hreplays : ¬a.Replays request) (hclient : request.client = none)
    (hversion : a.version < next.version) (hrules : next.clientRules = a.clientRules)
    (hsettings : (∃ id fingerprint planHash snapshot,
        request = .apply id fingerprint planHash next.settings request.mode ∧
          answer = .applied ⟨true, snapshot⟩) ∨
      next.settings = a.settings ∧ ∀ snapshot, answer ≠ .applied ⟨true, snapshot⟩) :
    a.Orderly C limits request ruleNow now (a.publish C limits next request.mode now answer) := by
  refine orderly_publish hreplays fun p hp => ?_
  exact
    { sealed := fun p' hp' => by cases hp'; exact exists_of_policy hp
      increases := fun _ => hversion
      unpublished := fun h => nomatch h
      refused := fun _ h => nomatch h
      settings := by simpa only [ne_eq, Except.ok.injEq] using hsettings
      rules_kept := fun _ hrule _ _ => hrules ▸ hrule
      rules_from := fun _ hrule _ => hrules ▸ hrule
      single := fun h => hrules ▸ h
      blocked := fun _ _ _ _ hrequest => by rw [hrequest] at hclient; cases hclient
      unblocked := fun _ _ _ hrequest => by rw [hrequest] at hclient; cases hclient
      replayed := fun id fingerprint planHash settings mode completed hrequest hvalid hrecall
          hhash =>
        absurd ⟨id, fingerprint, planHash, settings, mode, completed, hrequest, hvalid, hrecall,
          hhash⟩ hreplays }

theorem not_replays_of_client {clientIp : IpAddr} (h : request.client = some clientIp) :
    ¬a.Replays request := by
  rintro ⟨_, _, _, _, _, _, rfl, -⟩
  cases h

theorem orderly_setRules {clientIp : IpAddr} {new : List ClientRule}
    (hclient : request.client = some clientIp) (hnew : ∀ rule ∈ new, rule.clientIp = clientIp)
    (hsingle : (new.map (·.clientIp)).Nodup)
    (hblock : ∀ clientIp ttlSeconds mode, request = .blockClient clientIp ttlSeconds mode →
      ∃ expiresAt, C.formatRfc3339 (ruleNow + ttlSeconds) = some expiresAt ∧
        new = [⟨clientIp, .deny, expiresAt, [.automationPattern]⟩])
    (hunblock : ∀ clientIp mode, request = .unblockClient clientIp mode → new = []) :
    a.Orderly C limits request ruleNow now
      (a.setRules C limits (a.otherRules C clientIp ruleNow ++ new) request.mode now) := by
  have hfilter : (a.otherRules C clientIp ruleNow ++ new).filter (·.clientIp = clientIp) = new := by
    have hother : (a.otherRules C clientIp ruleNow).filter (·.clientIp = clientIp) = [] := by
      simp [otherRules, filter_filter]
    rw [filter_append, hother, nil_append]
    exact filter_eq_self.2 fun rule hrule => decide_eq_true (hnew rule hrule)
  refine orderly_publish (not_replays_of_client hclient) fun p hp => ?_
  exact
    { sealed := fun p' hp' => by cases hp'; exact exists_of_policy hp
      increases := fun _ => Nat.lt_succ_self _
      unpublished := fun h => nomatch h
      refused := fun _ h => nomatch h
      settings := .inr ⟨rfl, fun _ h => nomatch h⟩
      rules_kept := fun rule hrule hother hactive => by
        refine mem_append_left _ (mem_filter.2 ⟨mem_filter.2 ⟨hrule, hactive⟩, ?_⟩)
        exact decide_eq_true fun heq => hother (heq ▸ hclient)
      rules_from := fun rule hrule hother => by
        rcases mem_append.1 hrule with hrule | hrule
        · exact (mem_filter.1 (mem_filter.1 hrule).1).1
        · exact absurd (hnew rule hrule ▸ hclient) hother
      single := fun hone => by
        have hsub : (a.otherRules C clientIp ruleNow).Sublist a.clientRules :=
          filter_sublist.trans filter_sublist
        rw [map_append, nodup_append]
        refine ⟨(hsub.map _).nodup hone, hsingle, fun ip hip ip' hip' => ?_⟩
        obtain ⟨rule, hrule, rfl⟩ := mem_map.1 hip
        obtain ⟨rule', hrule', rfl⟩ := mem_map.1 hip'
        rw [hnew rule' hrule']
        exact of_decide_eq_true (mem_filter.1 hrule).2
      blocked := fun ip ttlSeconds mode _ hrequest _ => by
        obtain rfl : ip = clientIp := Option.some.inj ((hrequest ▸ rfl : some ip = _).trans hclient)
        obtain ⟨expiresAt, hformat, hone⟩ := hblock ip ttlSeconds mode hrequest
        exact ⟨expiresAt, hformat, hfilter.trans hone⟩
      unblocked := fun ip mode _ hrequest _ => by
        obtain rfl : ip = clientIp := Option.some.inj ((hrequest ▸ rfl : some ip = _).trans hclient)
        exact hfilter.trans (hunblock ip mode hrequest)
      replayed := fun id fingerprint planHash settings mode completed hrequest _ _ _ => by
        rw [hrequest] at hclient
        cases hclient }

theorem orderly_answered {snapshot : ProtectionSnapshot}
    {state : AbstractProtection} (hsettings : state.settings = a.settings)
    (hrules : state.clientRules = a.clientRules) (hversion : state.version = a.version)
    (hrecall : ∀ completed, a.recalled id = some completed → snapshot = completed.snapshot ∧ state =
      a) :
    a.Orderly C limits (.apply id fingerprint planHash settings mode) ruleNow now
      ⟨.ok (.applied ⟨false, snapshot⟩), state, none⟩ where
  sealed _ h := nomatch h
  increases h := absurd rfl h
  unpublished _ := ⟨hsettings, hrules, hversion⟩
  refused _ h := nomatch h
  settings := .inr ⟨hsettings, fun _ h => nomatch h⟩
  rules_kept _ hrule _ _ := hrules ▸ hrule
  rules_from _ hrule _ := hrules ▸ hrule
  single h := hrules ▸ h
  blocked _ _ _ _ h := nomatch h
  unblocked _ _ _ h := nomatch h
  replayed _ _ _ _ _ completed hrequest _ hcompleted _ := by
    cases hrequest
    obtain ⟨rfl, rfl⟩ := hrecall completed hcompleted
    rfl

theorem orderly_applyNew (hrecall : a.recalled id = none)
    (hreplays : ¬a.Replays (.apply id fingerprint planHash settings mode)) :
    a.Orderly C limits (.apply id fingerprint planHash settings mode) ruleNow now
      (a.applyNew C limits id fingerprint planHash settings mode now) := by
  unfold applyNew
  split
  · exact orderly_refuse hreplays
  split
  · exact orderly_refuse hreplays
  split
  · exact orderly_answered (remember_settings a) (remember_clientRules a) (remember_version a)
      fun completed hrecall' => nomatch hrecall.symm.trans hrecall'
  · exact orderly_publish_rules hreplays rfl (Nat.lt_succ_self a.version) rfl
      (.inl ⟨id, fingerprint, planHash, _, rfl, rfl⟩)

theorem orderly_applySettings :
    a.Orderly C limits (.apply id fingerprint planHash settings mode) ruleNow now
      (a.applySettings C limits id fingerprint planHash settings mode now) := by
  unfold applySettings
  split
  · next completed hrecall =>
    split
    · next hne =>
      refine orderly_refuse ?_
      rintro ⟨_, _, _, _, _, completed', hrequest, -, hrecall', hhash⟩
      cases hrequest
      exact hne (Option.some.inj (hrecall'.symm.trans hrecall) ▸ hhash)
    · refine orderly_answered rfl rfl rfl fun completed' hrecall' => ?_
      cases hrecall.symm.trans hrecall'
      exact ⟨rfl, rfl⟩
  · next hrecall =>
    have hreplays : ¬a.Replays (.apply id fingerprint planHash settings mode) := by
      rintro ⟨_, _, _, _, _, _, hrequest, -, hrecall', -⟩
      cases hrequest
      exact nomatch hrecall.symm.trans hrecall'
    split
    · exact orderly_refuse hreplays
    · exact orderly_applyNew hrecall hreplays

theorem orderly_writeForState {state : GuardState} :
    a.Orderly C limits (.writeForState state) ruleNow now
      (a.perform C limits (.writeForState state) ruleNow now) := by
  have hreplays : ¬a.Replays (.writeForState state) := by
    rintro ⟨_, _, _, _, _, _, hrequest, -⟩
    cases hrequest
  exact orderly_publish_rules hreplays rfl (Nat.lt_succ_of_le (Nat.le_max_left _ _)) rfl
    (.inr ⟨rfl, by simp⟩)

theorem orderly_perform (C : ProtectionCodec) (limits : StaticLimits) (a : AbstractProtection)
    (request : ProtectionRequest) (ruleNow now : ℕ) :
    a.Orderly C limits request ruleNow now (a.perform C limits request ruleNow now) := by
  cases request with
  | apply id fingerprint planHash settings mode =>
    simp only [perform]
    split
    · next e he =>
      refine orderly_refuse ?_
      rintro ⟨_, _, _, _, _, _, hrequest, hvalid, -⟩
      cases hrequest
      exact nomatch hvalid.symm.trans he
    · exact orderly_applySettings
  | writeForState state => exact orderly_writeForState
  | blockClient clientIp ttlSeconds mode =>
    simp only [perform]
    split
    · exact orderly_refuse (not_replays_of_client rfl)
    · split
      · exact orderly_refuse (not_replays_of_client rfl)
      · next expiresAt hformat =>
        refine orderly_setRules rfl (by simp) (by simp) ?_ (fun _ _ h => nomatch h)
        rintro _ _ _ hrequest
        cases hrequest
        exact ⟨expiresAt, hformat, rfl⟩
  | unblockClient clientIp mode =>
    have h : a.Orderly C limits (.unblockClient clientIp mode) ruleNow now
        (a.setRules C limits (a.otherRules C clientIp ruleNow ++ []) mode now) :=
      orderly_setRules rfl (by simp) (by simp) (fun _ _ _ h => nomatch h) (fun _ _ _ => rfl)
    rw [append_nil] at h
    exact h

end AbstractProtection

end VpsGuard
