import VpsGuard.Protection.Manager
import VpsGuard.Effect.Restart

/-!
# The files of the manager, over crashes

A process loads the manager and serves requests to it. Every write of the two
files may fail, with or without effect, every read may fail, the clock shows
anything, and the process may crash before any of these operations. Then the
memory is lost, and the next process loads the manager from the files.

The *world* (`ProtectionWorld`) is what such processes run in. It also notes
what the files went through: the policies that were visible, the versions that
were returned to those who asked, and the settings before and after the
operation in progress.

What is to hold in every state of every such history is proved once for all
operations (`Sustains.reached`): it remains to say what a policy that is written
and a start do.
-/

namespace VpsGuard

open Effect AtomicStore

/-- The files, the process, and what is noted of them. -/
structure ProtectionWorld where
  policy : Option PolicySnapshot
  metadata : Option PersistedProtection
  /-- The memory of the manager, in a process that has loaded it. -/
  memory : Option ProtectionManager
  /-- The policies that were visible in the file, the latest first. -/
  visible : List PolicySnapshot
  /-- The versions returned by operations that succeeded. -/
  returned : List ℕ
  /-- The settings before the last operation. -/
  before : ProtectionSettings
  /-- The settings after the last operation, if it succeeds. -/
  after : ProtectionSettings

/-- What the surroundings choose when the manager asks. -/
inductive ProtectionChoice
  | proceed
  | time (now : ℕ)
  | read (fault : Option ReadFault)
  | write (fault : Option WriteFault)
  deriving DecidableEq

/-- Which of them are allowed. -/
abbrev ProtectionCondition := ProtectionOp → ProtectionChoice → ProtectionWorld → Prop

namespace ProtectionWorld

/-- Nothing is installed yet. -/
def fresh : ProtectionWorld where
  policy := none
  metadata := none
  memory := none
  visible := []
  returned := []
  before := .default
  after := .default

variable (s : ProtectionWorld)

def fileVersion : ℕ := s.policy.elim 0 (·.policyVersion)

/-- What the metadata says, the default if it is missing. -/
def stored : CurrentProtection := s.metadata.elim ⟨.default, 0⟩ (·.current)

/-- An operation has the writer. -/
def lock (call : ProtectionCall) (mgr : ProtectionManager) : ProtectionWorld :=
  { s with before := mgr.current.settings, after := call.settings mgr }

/-- The manager is given back. -/
def unlock (mgr : ProtectionManager) : ProtectionWorld :=
  { s with memory := some mgr }

def writePolicy (policy : PolicySnapshot) (fault : Option WriteFault) : ProtectionWorld :=
  { s with
    policy := written policy s.policy fault
    visible := if fault.all (·.visible) then policy :: s.visible else s.visible }

def writeMetadata (metadata : PersistedProtection) (fault : Option WriteFault) : ProtectionWorld :=
  { s with metadata := written metadata s.metadata fault }

def respond (version : ℕ) : ProtectionWorld :=
  { s with returned := version :: s.returned }

/-- A crash leaves the files. -/
def crash : ProtectionWorld := { s with memory := none }

/-- The world answers the manager. -/
def exec : (o : ProtectionOp) → ProtectionChoice → ProtectionWorld →
    Option (o.Ans × ProtectionWorld)
  | .lockWriter call, .proceed, s => s.memory.map fun mgr => (mgr, s.lock call mgr)
  | .unlockWriter mgr, .proceed, s => some ((), s.unlock mgr)
  | .nowUtc _, .time now, s => some (now, s)
  | .readPolicy, .read fault, s => some (readExisting s.policy fault, s)
  | .writePolicy policy, .write fault, s =>
    some (writeResult fault, s.writePolicy policy fault)
  | .readMetadata, .read fault, s => some (readExisting s.metadata fault, s)
  | .writeMetadata metadata, .write fault, s =>
    some (writeResult fault, s.writeMetadata metadata fault)
  | .rewriteMetadata metadata, .write fault, s =>
    some (writeResult fault, s.writeMetadata metadata fault)
  | _, _, _ => none

def machine : Machine Protection ProtectionWorld ProtectionChoice where
  exec := exec

variable (C : ProtectionCodec) in
/-- Nothing fails: the files are read and written, the times are times of a
    calendar, and the policy has not expired when it is read back. -/
def Healthy : ProtectionCondition
  | .nowUtc .generate, .time now, _ =>
    (C.formatRfc3339 now).isSome ∧ (C.formatRfc3339 (now + policyTtl)).isSome
  | .nowUtc .readBack, .time now, s => ∀ p ∈ s.policy, ∀ expires ∈ C.parseRfc3339 p.expiresAt,
    now < expires
  | .readPolicy, x, _ | .readMetadata, x, _ => x = .read none
  | .writePolicy _, x, _ | .writeMetadata _, x, _ | .rewriteMetadata _, x, _ => x = .write none
  | _, _, _ => True

instance (C : ProtectionCodec) (o : ProtectionOp) (x : ProtectionChoice) (s : ProtectionWorld) :
    Decidable (Healthy C o x s) := by
  unfold Healthy
  split <;> infer_instance

/-! ## What the operations do, one by one -/

variable {s t : ProtectionWorld} {x : ProtectionChoice} {mgr : ProtectionManager}

theorem of_exec_lockWriter {call : ProtectionCall}
    (h : exec (.lockWriter call) x s = some (mgr, t)) :
    s.memory = some mgr ∧ t = s.lock call mgr := by
  cases x with
  | proceed =>
    obtain ⟨mgr', hmgr, h⟩ := Option.map_eq_some_iff.1 h
    cases h
    exact ⟨hmgr, rfl⟩
  | _ => cases h

theorem of_exec_unlockWriter {u : Unit} (h : exec (.unlockWriter mgr) x s = some (u, t)) :
    t = s.unlock mgr := by
  cases x with
  | proceed => cases h; rfl
  | _ => cases h

theorem of_exec_nowUtc {use : ClockUse} {now : ℕ} (h : exec (.nowUtc use) x s = some (now, t)) :
    x = .time now ∧ t = s := by
  cases x with
  | time now => cases h; exact ⟨rfl, rfl⟩
  | _ => cases h

theorem of_exec_readPolicy {r : Except StoreError (Option PolicySnapshot)}
    (h : exec .readPolicy x s = some (r, t)) :
    t = s ∧ ∃ fault, x = .read fault ∧ r = readExisting s.policy fault := by
  cases x with
  | read fault => cases h; exact ⟨rfl, fault, rfl, rfl⟩
  | _ => cases h

variable {r : Except StoreError Unit}

theorem of_exec_writePolicy {policy : PolicySnapshot}
    (h : exec (.writePolicy policy) x s = some (r, t)) :
    ∃ fault, x = .write fault ∧ r = writeResult fault ∧ t = s.writePolicy policy fault := by
  cases x with
  | write fault => cases h; exact ⟨fault, rfl, rfl, rfl⟩
  | _ => cases h

theorem of_exec_readMetadata {r : Except StoreError (Option PersistedProtection)}
    (h : exec .readMetadata x s = some (r, t)) :
    t = s ∧ ∃ fault, x = .read fault ∧ r = readExisting s.metadata fault := by
  cases x with
  | read fault => cases h; exact ⟨rfl, fault, rfl, rfl⟩
  | _ => cases h

variable {metadata : PersistedProtection}

theorem of_exec_writeMetadata (h : exec (.writeMetadata metadata) x s = some (r, t)) :
    ∃ fault, x = .write fault ∧ r = writeResult fault ∧
      t = s.writeMetadata metadata fault := by
  cases x with
  | write fault => cases h; exact ⟨fault, rfl, rfl, rfl⟩
  | _ => cases h

theorem of_exec_rewriteMetadata (h : exec (.rewriteMetadata metadata) x s = some (r, t)) :
    ∃ fault, x = .write fault ∧ r = writeResult fault ∧
      t = s.writeMetadata metadata fault := by
  cases x with
  | write fault => cases h; exact ⟨fault, rfl, rfl, rfl⟩
  | _ => cases h

/-- The memory stays as it is unless it is given back, and the policy file unless
    it is written. -/
theorem exec_frame {o : ProtectionOp} {a : o.Ans} (h : exec o x s = some (a, t)) :
    (t.memory = s.memory ∨ ∃ mgr, o = .unlockWriter mgr ∧ t.memory = some mgr) ∧
      (t.policy = s.policy ∨ ∃ policy, o = .writePolicy policy ∧ t.policy = some policy) := by
  cases o with
  | lockWriter call =>
    obtain ⟨-, rfl⟩ := of_exec_lockWriter h
    exact ⟨.inl rfl, .inl rfl⟩
  | unlockWriter mgr =>
    obtain rfl := of_exec_unlockWriter h
    exact ⟨.inr ⟨mgr, rfl, rfl⟩, .inl rfl⟩
  | writePolicy policy =>
    obtain ⟨fault, -, -, rfl⟩ := of_exec_writePolicy h
    refine ⟨.inl rfl, ?_⟩
    rcases written_eq_or policy s.policy fault with hfile | ⟨hfile, -⟩
    · exact .inr ⟨policy, rfl, hfile⟩
    · exact .inl hfile
  | _ =>
    cases x <;> cases h
    exact ⟨.inl rfl, .inl rfl⟩

end ProtectionWorld

/-! ## The process -/

/-- What the manager is asked for. -/
inductive ProtectionRequest
  | apply (operationId expectedFingerprint planHash : String) (settings : ProtectionSettings)
      (mode : GuardMode)
  | writeForState (state : GuardState)
  | blockClient (clientIp : IpAddr) (ttlSeconds : ℕ) (mode : GuardMode)
  | unblockClient (clientIp : IpAddr) (mode : GuardMode)

/-- What a lifetime starts with. -/
structure ProtectionStart where
  statePolicyVersion : ℕ
  stateMode : GuardMode
  limits : StaticLimits
  limits_positive : limits.Positive
  requests : List ProtectionRequest

inductive ProtectionHostOp
  | manager (o : ProtectionOp)
  /-- An operation that succeeded returns. -/
  | respond (version : ℕ)

/-- The answers to the process. -/
abbrev ProtectionHostOp.Ans : ProtectionHostOp → Type
  | manager o => o.Ans
  | respond _ => Unit

/-- The surroundings of the process. -/
abbrev ProtectionHost : Sig := ⟨ProtectionHostOp, ProtectionHostOp.Ans⟩

def ProtectionHost.ofManager : Sig.Hom Protection ProtectionHost where
  op := .manager
  ans _ a := a

/-- The world answers the process. -/
def ProtectionWorld.hostExec : (o : ProtectionHostOp) → ProtectionChoice → ProtectionWorld →
    Option (o.Ans × ProtectionWorld)
  | .manager o, x, s => s.exec o x
  | .respond version, _, s => some ((), s.respond version)

variable (C : ProtectionCodec)

/-- What the manager does for a request, and the version it returns if it succeeds. -/
def ProtectionRequest.run : ProtectionRequest → Prog Protection (Option ℕ)
  | apply operationId expectedFingerprint planHash settings mode => do
    let r ← ProtectionManager.apply C operationId expectedFingerprint planHash settings mode
    return r.toOption.map (·.snapshot.policyVersion)
  | writeForState state => do
    let r ← ProtectionManager.writeForState C state
    return r.toOption.map (·.policyVersion)
  | blockClient clientIp ttlSeconds mode => do
    let r ← ProtectionManager.blockClient C clientIp ttlSeconds mode
    return r.toOption.map (·.policyVersion)
  | unblockClient clientIp mode => do
    let r ← ProtectionManager.unblockClient C clientIp mode
    return r.toOption.map (·.policyVersion)

def serveProtection : List ProtectionRequest → Prog ProtectionHost Unit
  | [] => return ()
  | request :: requests => do
    match ← (request.run C).lift ProtectionHost.ofManager with
    | none => serveProtection requests
    | some version => .call (.respond version) fun _ => serveProtection requests

/-- A lifetime: the protection is loaded, and then serves requests. -/
def ProtectionStart.lifetime (start : ProtectionStart) : Prog ProtectionHost Unit := do
  match ← (ProtectionManager.load C start.statePolicyVersion start.stateMode start.limits).lift
    ProtectionHost.ofManager with
  | .error _ => return ()
  | .ok mgr => .call (.manager (.unlockWriter mgr)) fun _ => serveProtection C start.requests

def protectionProcess : Process ProtectionHost ProtectionWorld ProtectionStart Unit where
  boot := ProtectionStart.lifetime C
  crash := ProtectionWorld.crash

namespace ProtectionWorld

def hostMachine : Machine ProtectionHost ProtectionWorld ProtectionChoice where
  exec := hostExec

/-- The steps of the process, given those of the manager. -/
def hostAllow (allow : ProtectionCondition) :
    ProtectionHostOp → ProtectionChoice → ProtectionWorld → Prop
  | .manager o, x, s => allow o x s
  | .respond _, _, _ => True

instance (allow : ProtectionCondition)
    [∀ o x s, Decidable (allow o x s)] (o : ProtectionHostOp) (x : ProtectionChoice)
    (s : ProtectionWorld) : Decidable (hostAllow allow o x s) :=
  match o with
  | .manager o => inferInstanceAs (Decidable (allow o x s))
  | .respond _ => inferInstanceAs (Decidable True)

/-- The states reached from a fresh installation, over any number of lifetimes. -/
def Reached (allow : ProtectionCondition)
    (s : ProtectionWorld) : Prop :=
  ∃ p, Restarts hostMachine (protectionProcess C) (fun _ _ => True) (hostAllow allow) fresh s p

/-! ## What holds in all of them -/

section

variable (allow : ProtectionCondition)
  (inv : ProtectionWorld → Prop)

/-- What holds while the manager runs. -/
def setting : Setting Protection ProtectionWorld ProtectionChoice where
  exec := exec
  allow := allow
  inv := inv

/-- What holds while the process runs. -/
def hostSetting : Setting ProtectionHost ProtectionWorld ProtectionChoice where
  exec := hostExec
  allow := hostAllow allow
  inv := inv

variable {s : ProtectionWorld}

variable {allow inv} in
theorem safe_readBack {policy : PolicySnapshot} {expected : CurrentProtection} :
    (ProtectionManager.readBack C policy expected).Safe (setting allow inv) .alone
      (fun _ t => t = s) s := by
  refine .call_alone fun hs x r t _ hx => ?_
  obtain ⟨rfl, fault, -, rfl⟩ := of_exec_readPolicy hx
  refine ⟨hs, ?_⟩
  split
  · exact .ret_alone fun _ => rfl
  · exact .ret_alone fun _ => rfl
  · refine .call_alone fun hs x r u _ hx => ?_
    obtain ⟨rfl, fault, -, rfl⟩ := of_exec_readMetadata hx
    refine ⟨hs, ?_⟩
    split
    · exact .ret_alone fun _ => rfl
    · exact .ret_alone fun _ => rfl
    · refine .call_alone fun hs x now v _ hx => ?_
      obtain ⟨-, rfl⟩ := of_exec_nowUtc hx
      exact ⟨hs, .ret_alone fun _ => rfl⟩

/-- A start that led to an error, or to a manager of what satisfies `Q`. -/
def LoadedAs (Q : PolicyResult CurrentProtection → ProtectionWorld → Prop)
    (limits : StaticLimits) (t : ProtectionWorld) :
    PolicyResult ProtectionManager → Prop
  | .error e => Q (.error e) t
  | .ok mgr => Q (.ok mgr.current) t ∧ mgr.limits = limits

open ProtectionManager in
variable {C} {allow inv} in
theorem safe_load {Q : PolicyResult CurrentProtection → ProtectionWorld → Prop} {v : ℕ}
    {mode : GuardMode} {limits : StaticLimits} (hread : ∀ fault e, fault ≠ none → allow .readPolicy
      (.read fault) s ∨ allow .readMetadata (.read fault) s → Q (.error e) s)
    (hpolicy : ∀ p ∈ s.policy, inv s → p.validateAt C.toCodec 0 ≠ .ok () → ∀ e, Q (.error e) s)
    (hmetadata : ∀ m ∈ s.metadata, inv s → m.validate C ≠ .ok () → ∀ e, Q (.error e) s)
    (hrecover : (recoverCurrent C s.policy s.metadata v mode limits).Safe (setting allow inv) .alone
      Q s) :
    (load C v mode limits).Safe (setting allow inv) .alone (fun r t => LoadedAs Q limits t r)
      s := by
  refine .call_alone fun hs x r t hallow hx => ?_
  obtain ⟨rfl, fault, rfl, rfl⟩ := of_exec_readPolicy hx
  refine ⟨hs, ?_⟩
  split
  · next e he =>
    exact .ret_alone fun _ => hread fault _ (by rintro rfl; simp at he) (.inl hallow)
  next policy hp =>
  obtain rfl := eq_of_readExisting hp
  split
  · next e he =>
    cases hfile : t.policy with
    | none => rw [hfile] at he; cases he
    | some p =>
      rw [hfile] at he
      exact .ret_alone fun _ => hpolicy p hfile hs (fun h => nomatch h.symm.trans he) _
  refine .call_alone fun hs x r u hallow hx => ?_
  obtain ⟨rfl, fault', rfl, rfl⟩ := of_exec_readMetadata hx
  refine ⟨hs, ?_⟩
  split
  · next e he =>
    exact .ret_alone fun _ => hread fault' _ (by rintro rfl; simp at he) (.inr hallow)
  next metadata hm =>
  obtain rfl := eq_of_readExisting hm
  split
  · next e he =>
    cases hfile : u.metadata with
    | none => rw [hfile] at he; cases he
    | some m =>
      rw [hfile] at he
      exact .ret_alone fun _ => hmetadata m hfile hs (fun h => nomatch h.symm.trans he) _
  refine hrecover.bind fun r t _ hr => ?_
  cases r with
  | error e => exact .ret_alone fun _ => hr
  | ok current => exact .ret_alone fun _ => ⟨hr, rfl⟩

/-- What has to be known to keep the invariant `inv`, with `Idle` for the
    memory between two operations. -/
structure Sustains (Idle : CurrentProtection → StaticLimits → ProtectionWorld → Prop) : Prop where
  fresh : inv fresh
  crash {s : ProtectionWorld} : inv s → inv s.crash
  /-- A start that succeeds. -/
  load {s : ProtectionWorld} {limits : StaticLimits} (v : ℕ) (mode : GuardMode) : inv s →
    s.memory = none → limits.Positive →
    (ProtectionManager.load C v mode limits).Safe (setting allow inv) .alone
      (fun r t => ∀ mgr, r = .ok mgr → Idle mgr.current mgr.limits t) s
  /-- An operation, before it has written anything. -/
  lock {s : ProtectionWorld} {mgr : ProtectionManager} {call : ProtectionCall}
    {x : ProtectionChoice} : inv s → s.memory = some mgr → Idle mgr.current mgr.limits s →
    allow (.lockWriter call) x s → (∀ settings, call = .apply settings → settings.Valid) →
    inv (s.lock call mgr) ∧ Idle mgr.current mgr.limits (s.lock call mgr)
  /-- The writes of an operation. -/
  publish {s : ProtectionWorld} {mgr : ProtectionManager} {call : ProtectionCall}
    {x : ProtectionChoice} (mode : GuardMode) (rules : List ClientRule) : inv s →
    s.memory = some mgr → Idle mgr.current mgr.limits s → allow (.lockWriter call) x s →
    (∀ settings, call = .apply settings → settings.Valid) →
    (mgr.publish C mode (call.next mgr) rules).Safe (setting allow inv) .alone
      (fun r t => Idle (if r = .ok () then call.next mgr else mgr.current) mgr.limits t)
      (s.lock call mgr)
  unlock {s : ProtectionWorld} {mgr : ProtectionManager} : inv s → Idle mgr.current mgr.limits s →
    inv (s.unlock mgr) ∧ Idle mgr.current mgr.limits (s.unlock mgr)
  respond {s : ProtectionWorld} {current : CurrentProtection} {limits : StaticLimits} {v : ℕ} :
    inv s → s.memory.isSome → Idle current limits s → v ≤ current.policyVersion →
    inv (s.respond v) ∧ Idle current limits (s.respond v)

end

section

variable {C} {allow : ProtectionCondition}
  {inv : ProtectionWorld → Prop}
  {Idle : CurrentProtection → StaticLimits → ProtectionWorld → Prop}

/-- The manager between two operations. -/
def Resting (Idle : CurrentProtection → StaticLimits → ProtectionWorld → Prop)
    (s : ProtectionWorld) : Prop :=
  ∃ mgr, s.memory = some mgr ∧ mgr.Ordered ∧ Idle mgr.current mgr.limits s

variable {mode : GuardMode} {s : ProtectionWorld} (h : Sustains C allow inv Idle)

include h

open ProtectionManager in
theorem Sustains.operation {α : Type} {version : α → ℕ}
    {call : ProtectionCall} {mgr : ProtectionManager}
    {body : Prog Protection (PolicyResult α × ProtectionManager)}
    (hbody : Operation C version mode call mgr body) {x : ProtectionChoice} (hs : inv s)
    (hmgr : s.memory = some mgr) (hord : mgr.Ordered) (hidle : Idle mgr.current mgr.limits s)
    (hallow : allow (.lockWriter call) x s)
    (hvalid : ∀ settings, call = .apply settings → settings.Valid) :
    body.Safe (setting allow inv) .alone (fun r t => Idle r.2.current r.2.limits t ∧ r.2.Ordered ∧
      ∀ a, r.1 = .ok a → version a ≤ r.2.current.policyVersion) (s.lock call mgr) := by
  induction hbody with
  | done hcurrent hlimits hout =>
    refine .ret_alone fun _ => ?_
    obtain ⟨hord', hver⟩ := hout hord
    rw [hcurrent, hlimits]
    exact ⟨(h.lock hs hmgr hidle hallow hvalid).2, hord', hver⟩
  | clock _ ih =>
    refine .call_alone fun hinv y now t _ hy => ?_
    obtain ⟨-, rfl⟩ := of_exec_nowUtc hy
    exact ⟨hinv, ih now⟩
  | publish herr hok hcurrent hlimits hord' hver =>
    refine (h.publish _ _ hs hmgr hidle hallow hvalid).bind fun r t _ hr => ?_
    cases r with
    | error e =>
      obtain ⟨e', he⟩ := herr e
      rw [he]
      exact .ret_alone fun _ => ⟨hr, hord, fun _ h => nomatch h⟩
    | ok u =>
      rw [hok]
      refine .ret_alone fun _ => ⟨?_, hord' hord, fun a ha => ?_⟩
      · rw [hcurrent, hlimits]
        exact hr
      · cases ha
        exact Nat.le_of_eq (hver.trans (congrArg _ hcurrent.symm))

open ProtectionManager in
theorem Sustains.served {α : Type} {version : α → ℕ}
    {p : Prog Protection (PolicyResult α)} (hp : Served C version mode p)
    (hs : Resting Idle s) :
    p.Safe (setting allow inv) .alone (fun r t => Resting Idle t ∧
      ∀ v, r.toOption.map version = some v → ∃ mgr, t.memory = some mgr ∧
        v ≤ mgr.current.policyVersion) s := by
  obtain ⟨mgr, hmgr, hord, hidle⟩ := hs
  cases hp with
  | refused e => exact .ret_alone fun _ => ⟨⟨mgr, hmgr, hord, hidle⟩, fun _ h => nomatch h⟩
  | @served call body hvalid hbody =>
    refine .call_alone fun hinv x mgr' t hallow hx => ?_
    obtain ⟨hmgr', rfl⟩ := of_exec_lockWriter hx
    obtain rfl : mgr' = mgr := Option.some.inj (hmgr'.symm.trans hmgr)
    refine ⟨(h.lock hinv hmgr hidle hallow hvalid).1, ?_⟩
    refine (h.operation (hbody mgr') hinv hmgr hord hidle hallow hvalid).bind
      fun r t _ ⟨hidle', hord', hver⟩ => ?_
    refine .call_alone fun hinv' x _ u _ hx => ?_
    obtain rfl := of_exec_unlockWriter hx
    obtain ⟨hinv'', hidle''⟩ := h.unlock hinv' hidle'
    refine ⟨hinv'', .ret_alone fun _ => ⟨⟨r.2, rfl, hord', hidle''⟩, fun v hv => ⟨r.2, rfl, ?_⟩⟩⟩
    obtain ⟨a, ha, rfl⟩ := Option.map_eq_some_iff.1 hv
    refine hver a ?_
    cases hr : r.1 with
    | error e => rw [hr] at ha; cases ha
    | ok a' => rw [hr] at ha; cases ha; rfl

theorem Sustains.run (request : ProtectionRequest) (hs : Resting Idle s) :
    (request.run C).Safe (setting allow inv) .alone (fun r t => Resting Idle t ∧
      ∀ v, r = some v → ∃ mgr, t.memory = some mgr ∧ v ≤ mgr.current.policyVersion) s := by
  cases request with
  | apply operationId expectedFingerprint planHash settings mode =>
    exact (h.served ProtectionManager.served_apply hs).bind fun r t _ hr => .ret_alone fun _ => hr
  | writeForState state =>
    exact (h.served ProtectionManager.served_writeForState hs).bind
      fun r t _ hr => .ret_alone fun _ => hr
  | blockClient clientIp ttlSeconds mode =>
    exact (h.served ProtectionManager.served_blockClient hs).bind
      fun r t _ hr => .ret_alone fun _ => hr
  | unblockClient clientIp mode =>
    exact (h.served ProtectionManager.served_unblockClient hs).bind
      fun r t _ hr => .ret_alone fun _ => hr

omit h in
theorem safe_lift {α : Type} {p : Prog Protection α} {Q : α → ProtectionWorld → Prop}
    (hp : p.Safe (setting allow inv) .alone Q s) :
    (p.lift ProtectionHost.ofManager).Safe (hostSetting allow inv) .alone Q s := by
  refine (hp.lift (E := setting allow inv) (F := hostSetting allow inv) (v := .alone)
    (f := ProtectionHost.ofManager) id (fun _ => True) (fun _ _ _ h _ => ⟨h, trivial⟩)
    (fun _ _ h => h) ?_ trivial).weaken fun _ _ _ h => h.1
  intro o x s a t _ _ hC hx
  exact ⟨x, hC, hx, fun _ h => ⟨trivial, h, trivial⟩⟩

theorem Sustains.serve (requests : List ProtectionRequest) (hs : Resting Idle s) :
    (serveProtection C requests).Safe (hostSetting allow inv) .alone (fun _ _ => True) s := by
  induction requests generalizing s with
  | nil => exact .ret_trivial
  | cons request requests ih =>
    refine (safe_lift (h.run request hs)).bind fun r t _ ⟨ht, hver⟩ => ?_
    cases r with
    | none => exact ih ht
    | some version =>
      refine .call_alone fun hinv _ _ u _ hx => ?_
      cases hx
      obtain ⟨mgr, hmgr, hord, hidle⟩ := ht
      obtain ⟨mgr', hmgr', hle⟩ := hver version rfl
      obtain rfl : mgr' = mgr := Option.some.inj (hmgr'.symm.trans hmgr)
      obtain ⟨hinv', hidle'⟩ := h.respond hinv (by rw [hmgr]; rfl) hidle hle
      exact ⟨hinv', ih ⟨mgr', hmgr, hord, hidle'⟩⟩

omit h in
theorem yields_load {v : ℕ} {limits : StaticLimits} :
    (ProtectionManager.load C v mode limits).Yields fun r => ∀ mgr, r = .ok mgr → mgr.Ordered := by
  refine Prog.yields_call.2 fun policy => ?_
  cases policy with
  | error e => exact fun _ h => nomatch h
  | ok policy =>
    dsimp only
    split
    · exact fun _ h => nomatch h
    · refine Prog.yields_call.2 fun metadata => ?_
      cases metadata with
      | error e => exact fun _ h => nomatch h
      | ok metadata =>
        dsimp only
        split
        · exact fun _ h => nomatch h
        · refine (Prog.yields_true _).bind fun r _ => ?_
          cases r with
          | error e => exact fun _ h => nomatch h
          | ok current =>
            rintro _ ⟨⟩ c hc
            cases hc

theorem Sustains.lifetime (start : ProtectionStart) (hinv : inv s) (hs : s.memory = none) :
    (start.lifetime C).Safe (hostSetting allow inv) .alone (fun _ _ => True) s := by
  refine (safe_lift ((h.load start.statePolicyVersion start.stateMode hinv hs
    start.limits_positive).and_yields yields_load)).bind fun r t _ ⟨hidle, hord⟩ => ?_
  cases r with
  | error e => exact .ret_trivial
  | ok mgr =>
    refine .call_alone fun hinv x _ u _ hx => ?_
    obtain rfl := of_exec_unlockWriter hx
    obtain ⟨hinv', hidle'⟩ := h.unlock hinv (hidle mgr rfl)
    exact ⟨hinv', h.serve start.requests ⟨mgr, rfl, hord mgr rfl, hidle'⟩⟩

/-- What is sustained holds in every state reached. -/
theorem Sustains.reached (hs : Reached C allow s) : inv s := by
  obtain ⟨p, hp⟩ := hs
  exact (Restarts.safe (E := hostSetting allow inv) (·.memory = none) hp ⟨h.fresh, rfl⟩
    (fun s hs => ⟨h.crash hs, rfl⟩) fun start s hinv hs _ => h.lifetime start hinv hs).1

end

end ProtectionWorld

/-! ## Histories to compute -/

def IpAddr.plainText : IpAddr → String
  | .v4 address => "4:" ++ address.toNat.repr
  | .v6 address => "6:" ++ address.toNat.repr

def ProtectionSettings.plainText (settings : ProtectionSettings) : String :=
  ",".intercalate (settings.fields.map (·.2.repr))

def PolicySnapshot.plainText (p : PolicySnapshot) : String :=
  ",".intercalate ([p.policyVersion.repr, p.generatedAt, p.expiresAt, p.mode.ctorIdx.repr] ++
    p.routeRules.map (fun rule => rule.routeClass ++ rule.requestsPerMinute.repr) ++
    p.clientRules.map fun rule => rule.clientIp.plainText ++ rule.expiresAt)

/-- The times that are written. -/
def plainTimes : List ℕ := [0, 60, 100, 300, 600, 700, 900]

/-- A codec to compute with: everything is written out, and a text is its own hash. -/
def ProtectionCodec.plain : ProtectionCodec where
  sha256Hex text := text
  policyJson := PolicySnapshot.plainText
  settingsJson := ProtectionSettings.plainText
  metadataJson metadata := metadata.policyVersion.repr ++ "," ++ metadata.settings.plainText
  formatRfc3339 t := if t ∈ plainTimes then some t.repr else none
  parseRfc3339 text := plainTimes.find? (·.repr = text)
  parse_format := by
    intro t text h
    obtain ⟨ht, ⟨⟩⟩ := Option.ite_none_right_eq_some.1 h
    revert t
    decide

namespace ProtectionChoice

def firstStart : List (ProtectionStart ⊕ ProtectionChoice) :=
  [.inr (.read none), .inr (.read none), .inr (.write none), .inr .proceed]

def succeeding : List (ProtectionStart ⊕ ProtectionChoice) :=
  [.inr .proceed, .inr (.time 0), .inr (.write none), .inr (.write none), .inr (.read none),
    .inr (.read none), .inr (.time 0), .inr .proceed, .inr .proceed]

/-- An operation whose write of the policy fails although it is visible. -/
def failingVisibly : List (ProtectionStart ⊕ ProtectionChoice) :=
  [.inr .proceed, .inr (.time 0), .inr (.write none), .inr (.write (some .syncParent)),
    .inr (.write none), .inr .proceed]

end ProtectionChoice

namespace ProtectionWorld

theorem exists_reached (C : ProtectionCodec)
    (allow : ProtectionCondition)
    [∀ o x s, Decidable (allow o x s)] (start : ProtectionStart)
    (l : List (ProtectionStart ⊕ ProtectionChoice)) {R : ProtectionWorld → Bool}
    (h : (Restarts.run (hostMachine.restrict (hostAllow allow)) (protectionProcess C) l fresh
      (start.lifetime C)).any (fun r => R r.1) = true) :
    ∃ s, Reached C allow s ∧ R s = true := by
  obtain ⟨s, p, hs, hR⟩ := Restarts.exists_of_run hostMachine (protectionProcess C)
    (hostAllow allow) fresh start l h
  exact ⟨s, ⟨p, hs⟩, hR⟩

end ProtectionWorld

end VpsGuard
