import VpsGuard.Core.Detection
import VpsGuard.Effect.Prog

/-!
# Provider transactions

The transaction of `guard-provider` that puts a site behind its provider and
back. It goes through stages — the state of the provider is recorded, the
proxy is requested and verified, the old addresses drain from the caches of
name servers, and the origin is locked — one at a time, so that the caller can
store it after every step: `enableStepAt` takes a step forward, `restoreStep`
a step back to what was recorded.

A step asks the provider for at most one thing. It is a program over the
operations of the provider (`Backend`), which may answer anything.

What a step can do is said once, by `EnableMove` and `RestoreMove`: the calls
made, with their answers, and the transaction after. The later modules rest on
these only.
-/

namespace VpsGuard

open Effect

inductive DnsRecordType
  | a
  | aaaa
  | cname
  deriving DecidableEq

/-- A record, as it was before the activation. -/
structure ProviderRecordSnapshot where
  id : String
  name : String
  recordType : DnsRecordType
  proxied : Bool
  ttlSeconds : ℕ
  deriving DecidableEq

/-- The records before the activation. -/
structure ProviderSnapshot where
  recordName : String
  records : List ProviderRecordSnapshot
  originLocked : Bool
  deriving DecidableEq

/-- The stages of a transaction. -/
inductive ProviderStage
  /-- Before the start. -/
  | pending
  /-- The state of the provider is recorded. -/
  | snapshotted
  | proxyRequested
  /-- Traffic was seen to go through the proxy. -/
  | proxyVerified
  /-- Waiting for the addresses in the caches to expire. -/
  | proxyDrain
  /-- The lock of the origin was requested. -/
  | originLockRequested
  /-- The lock of the origin was verified. -/
  | complete
  | restoreRequested
  | restored
  deriving DecidableEq

/-- Why a step fails. -/
inductive ProviderError
  | recordNotAllowed (recordName : String)
  | secretFile (reason : String)
  | configuration (reason : String)
  | authenticationFailed
  | permissionDenied
  | rateLimited
  | unavailable
  | tokenInactive
  | recordMismatch (recordName : String)
  | partialRollbackFailed
  | proxyNotVerified
  | dnsTtlTooHigh (observedSeconds allowedSeconds : ℕ)
  | originLockNotVerified
  | backend (reason : String)
  | missingSnapshot
  deriving DecidableEq

def ProviderError.code : ProviderError → String
  | recordNotAllowed _ => "RECORD_NOT_ALLOWED"
  | secretFile _ => "SECRET_FILE_INVALID"
  | configuration _ => "CONFIGURATION_INVALID"
  | authenticationFailed => "AUTHENTICATION_FAILED"
  | permissionDenied => "PERMISSION_DENIED"
  | rateLimited => "RATE_LIMITED"
  | unavailable => "PROVIDER_UNAVAILABLE"
  | tokenInactive => "TOKEN_INACTIVE"
  | recordMismatch _ => "RECORD_MISMATCH"
  | partialRollbackFailed => "PARTIAL_ROLLBACK_FAILED"
  | proxyNotVerified => "PROXY_NOT_VERIFIED"
  | dnsTtlTooHigh _ _ => "DNS_TTL_TOO_HIGH"
  | originLockNotVerified => "ORIGIN_LOCK_NOT_VERIFIED"
  | backend _ => "PROVIDER_BACKEND_FAILED"
  | missingSnapshot => "MISSING_SNAPSHOT"

/-- A transaction: its stage, and what is needed to go back. -/
structure ProviderTransaction where
  idempotencyKey : String
  recordName : String
  stage : ProviderStage
  snapshot : Option ProviderSnapshot
  lastError : Option String
  attempts : ℕ
  proxyDrainDeadlineUnixSeconds : Option ℕ
  deriving DecidableEq

/-! ## The time to drain -/

/-- The time to live of a record without a usable one. -/
def defaultDnsTtlSeconds : ℕ := 300

/-- A time to live of `1` is one that the provider chooses. -/
def normalizeDnsTtlSeconds (ttlSeconds : ℕ) : ℕ := if ttlSeconds = 1 then 300 else ttlSeconds

/-- The longest time to live among the records. -/
def snapshotMaxDnsTtlSeconds (snapshot : ProviderSnapshot) : ℕ :=
  (snapshot.records.map fun record => normalizeDnsTtlSeconds record.ttlSeconds).max?.getD
    defaultDnsTtlSeconds

/-! ## The provider -/

/-- What the provider is asked for. -/
inductive BackendOp
  | snapshot (recordName : String)
  | requestProxyEnable (recordName : String)
  | verifyProxyEnabled (recordName : String)
  | requestOriginLock
  | verifyOriginLock
  | restore (snapshot : ProviderSnapshot)
  deriving DecidableEq

/-- The answers of the provider. -/
abbrev BackendOp.Ans : BackendOp → Type
  | snapshot _ => Except ProviderError ProviderSnapshot
  | requestProxyEnable _ => Except ProviderError Unit
  | verifyProxyEnabled _ => Except ProviderError Bool
  | requestOriginLock => Except ProviderError Unit
  | verifyOriginLock => Except ProviderError Bool
  | restore _ => Except ProviderError Unit

abbrev Backend : Sig := ⟨BackendOp, BackendOp.Ans⟩

/-- A provider that does what it is asked for. Its site has a time to live that
    it chooses itself. -/
def obliging : (o : BackendOp) → o.Ans
  | .snapshot recordName =>
    .ok { recordName, records := [⟨"id", recordName, .a, false, 1⟩], originLocked := false }
  | .requestProxyEnable _ => .ok ()
  | .verifyProxyEnabled _ => .ok true
  | .requestOriginLock => .ok ()
  | .verifyOriginLock => .ok true
  | .restore _ => .ok ()

abbrev BackendCall := (o : BackendOp) × o.Ans

namespace ProviderTransaction

/-- A new transaction, for a record that is allowed. -/
def new (idempotencyKey recordName : String) (allowedRecords : List String) :
    Except ProviderError ProviderTransaction :=
  if recordName ∈ allowedRecords then
    .ok
      { idempotencyKey, recordName
        stage := .pending
        snapshot := none
        lastError := none
        attempts := 0
        proxyDrainDeadlineUnixSeconds := none }
  else .error (.recordNotAllowed recordName)

/-- The step forward from a stage. -/
def enableStage (txn : ProviderTransaction) (nowUnixSeconds maxDnsTtlSeconds : ℕ) :
    Prog Backend (Except ProviderError ProviderStage × ProviderTransaction) :=
  match txn.stage with
  | .pending => .call (.snapshot txn.recordName) fun
    | .error e => .ret (.error e, txn)
    | .ok snapshot =>
      if snapshotMaxDnsTtlSeconds snapshot > maxDnsTtlSeconds then
        .ret (.error (.dnsTtlTooHigh (snapshotMaxDnsTtlSeconds snapshot) maxDnsTtlSeconds), txn)
      else .ret (.ok .snapshotted, { txn with snapshot := some snapshot, stage := .snapshotted })
  | .snapshotted => .call (.requestProxyEnable txn.recordName) fun
    | .error e => .ret (.error e, txn)
    | .ok () => .ret (.ok .proxyRequested, { txn with stage := .proxyRequested })
  | .proxyRequested => .call (.verifyProxyEnabled txn.recordName) fun
    | .error e => .ret (.error e, txn)
    | .ok false => .ret (.error .proxyNotVerified, txn)
    | .ok true => .ret (.ok .proxyVerified, { txn with stage := .proxyVerified })
  | .proxyVerified =>
    match txn.snapshot with
    | none => .ret (.error .missingSnapshot, txn)
    | some snapshot =>
      .ret (.ok .proxyDrain, { txn with
        proxyDrainDeadlineUnixSeconds :=
          some (saturatingAdd 64 nowUnixSeconds (snapshotMaxDnsTtlSeconds snapshot))
        stage := .proxyDrain })
  | .proxyDrain =>
    match txn.proxyDrainDeadlineUnixSeconds with
    | none => .ret (.error (.backend "PROXY_DRAIN_DEADLINE_MISSING"), txn)
    | some deadline =>
      if nowUnixSeconds < deadline then .ret (.ok .proxyDrain, txn)
      else .call .requestOriginLock fun
        | .error e => .ret (.error e, txn)
        | .ok () => .ret (.ok .originLockRequested, { txn with stage := .originLockRequested })
  | .originLockRequested => .call .verifyOriginLock fun
    | .error e => .ret (.error e, txn)
    | .ok false => .ret (.error .originLockNotVerified, txn)
    | .ok true => .ret (.ok .complete, { txn with stage := .complete })
  | .complete | .restoreRequested | .restored =>
    .ret (.error (.backend "INVALID_PROVIDER_ENABLE_STAGE"), txn)

/-- A step forward. What is complete stays so. -/
def enableStepAt (txn : ProviderTransaction) (nowUnixSeconds maxDnsTtlSeconds : ℕ) :
    Prog Backend (Except ProviderError ProviderStage × ProviderTransaction) :=
  if txn.stage = .complete then .ret (.ok txn.stage, txn)
  else if txn.stage = .restoreRequested ∨ txn.stage = .restored then
    .ret (.error (.backend "RESTORE_TRANSACTION_CANNOT_ENABLE"), txn)
  else do
    let txn := { txn with attempts := saturatingAdd 32 txn.attempts 1 }
    let (result, txn) ← txn.enableStage nowUnixSeconds maxDnsTtlSeconds
    match result with
    | .ok stage => return (.ok stage, { txn with lastError := none })
    | .error e => return (.error e, { txn with lastError := some e.code })

/-- A step back. The intent to restore is a step of its own, before the provider is asked. -/
def restoreStep (txn : ProviderTransaction) :
    Prog Backend (Except ProviderError ProviderStage × ProviderTransaction) :=
  match txn.stage with
  | .restored => .ret (.ok txn.stage, txn)
  | .restoreRequested =>
    let txn := { txn with attempts := saturatingAdd 32 txn.attempts 1 }
    match txn.snapshot with
    | none => .ret (.error .missingSnapshot, txn)
    | some snapshot => .call (.restore snapshot) fun
      | .error e => .ret (.error e, { txn with lastError := some e.code })
      | .ok () => .ret (.ok .restored, { txn with stage := .restored, lastError := none })
  | .pending => .ret (.error (.backend "PROVIDER_TRANSACTION_NOT_STARTED"), txn)
  | .snapshotted | .proxyRequested | .proxyVerified | .proxyDrain | .originLockRequested
  | .complete =>
    if txn.snapshot = none then .ret (.error .missingSnapshot, txn)
    else .ret (.ok .restoreRequested, { txn with stage := .restoreRequested, lastError := none })

/-! ## What a step can do -/

variable {txn : ProviderTransaction} {now limit : ℕ}

/-- What a step forward of the transaction may ask for, at the given time. -/
def Asks (txn : ProviderTransaction) (now : ℕ) : BackendOp → Prop
  | .snapshot recordName => txn.stage = .pending ∧ recordName = txn.recordName
  | .requestProxyEnable recordName => txn.stage = .snapshotted ∧ recordName = txn.recordName
  | .verifyProxyEnabled recordName => txn.stage = .proxyRequested ∧ recordName = txn.recordName
  | .requestOriginLock => txn.stage = .proxyDrain ∧
      ∃ deadline, txn.proxyDrainDeadlineUnixSeconds = some deadline ∧ deadline ≤ now
  | .verifyOriginLock => txn.stage = .originLockRequested
  | .restore _ => False

/-- A step forward: the calls, the result, and the transaction after. -/
inductive EnableMove (txn : ProviderTransaction) (now limit : ℕ) :
    List BackendCall → Except ProviderError ProviderStage → ProviderTransaction → Prop
  /-- Nothing is asked for, and the stage stays. -/
  | idle {result : Except ProviderError ProviderStage} (attempts : ℕ) (lastError : Option String) :
      (∀ stage, result = .ok stage →
        stage = txn.stage ∧ (stage = .complete ∨ stage = .proxyDrain)) →
      EnableMove txn now limit [] result { txn with attempts, lastError }
  /-- What the provider answers does not let the stage change. -/
  | refused {o : BackendOp} (answer : o.Ans) (e : ProviderError) (attempts : ℕ)
      (lastError : Option String) : txn.Asks now o →
      EnableMove txn now limit [⟨o, answer⟩] (.error e) { txn with attempts, lastError }
  | snapshotted (snapshot : ProviderSnapshot) (attempts : ℕ) (lastError : Option String) :
      txn.stage = .pending → snapshotMaxDnsTtlSeconds snapshot ≤ limit →
      EnableMove txn now limit [⟨.snapshot txn.recordName, .ok snapshot⟩] (.ok .snapshotted)
        { txn with snapshot := some snapshot, stage := .snapshotted, attempts, lastError }
  | proxyRequested (attempts : ℕ) (lastError : Option String) : txn.stage = .snapshotted →
      EnableMove txn now limit [⟨.requestProxyEnable txn.recordName, .ok ()⟩] (.ok .proxyRequested)
        { txn with stage := .proxyRequested, attempts, lastError }
  | proxyVerified (attempts : ℕ) (lastError : Option String) : txn.stage = .proxyRequested →
      EnableMove txn now limit [⟨.verifyProxyEnabled txn.recordName, .ok true⟩]
        (.ok .proxyVerified) { txn with stage := .proxyVerified, attempts, lastError }
  | proxyDrain (snapshot : ProviderSnapshot) (attempts : ℕ) (lastError : Option String) :
      txn.stage = .proxyVerified → txn.snapshot = some snapshot →
      EnableMove txn now limit [] (.ok .proxyDrain)
        { txn with
          proxyDrainDeadlineUnixSeconds :=
            some (saturatingAdd 64 now (snapshotMaxDnsTtlSeconds snapshot))
          stage := .proxyDrain, attempts, lastError }
  | originLockRequested (attempts : ℕ) (lastError : Option String) :
      txn.Asks now .requestOriginLock →
      EnableMove txn now limit [⟨.requestOriginLock, .ok ()⟩] (.ok .originLockRequested)
        { txn with stage := .originLockRequested, attempts, lastError }
  | complete (attempts : ℕ) (lastError : Option String) : txn.stage = .originLockRequested →
      EnableMove txn now limit [⟨.verifyOriginLock, .ok true⟩] (.ok .complete)
        { txn with stage := .complete, attempts, lastError }

/-- A step back: the calls, the result, and the transaction after. -/
inductive RestoreMove (txn : ProviderTransaction) :
    List BackendCall → Except ProviderError ProviderStage → ProviderTransaction → Prop
  /-- Nothing is asked for, and the stage stays. -/
  | idle {result : Except ProviderError ProviderStage} (attempts : ℕ) :
      (txn.stage = .pending ∨ txn.stage = .restoreRequested ∨ txn.stage = .restored ∨
        txn.snapshot = none) →
      (∀ stage, result = .ok stage → stage = .restored ∧ txn.stage = .restored) →
      RestoreMove txn [] result { txn with attempts }
  /-- The intent to restore. -/
  | requested : txn.stage ≠ .pending → txn.stage ≠ .restoreRequested → txn.stage ≠ .restored →
      txn.snapshot ≠ none →
      RestoreMove txn [] (.ok .restoreRequested)
        { txn with stage := .restoreRequested, lastError := none }
  | refused (snapshot : ProviderSnapshot) (e : ProviderError) (attempts : ℕ) :
      txn.stage = .restoreRequested → txn.snapshot = some snapshot →
      RestoreMove txn [⟨.restore snapshot, .error e⟩] (.error e)
        { txn with attempts, lastError := some e.code }
  | restored (snapshot : ProviderSnapshot) (attempts : ℕ) :
      txn.stage = .restoreRequested → txn.snapshot = some snapshot →
      RestoreMove txn [⟨.restore snapshot, .ok ()⟩] (.ok .restored)
        { txn with attempts, stage := .restored, lastError := none }

theorem enableStepAt_single : (txn.enableStepAt now limit).Single (txn.Asks now)
    fun calls after => EnableMove txn now limit calls after.1 after.2 := by
  obtain ⟨key, record, stage, recorded, lastError, attempts, deadline⟩ := txn
  cases stage with
  | pending =>
    refine ⟨⟨rfl, rfl⟩, ?_⟩
    rintro (e | snapshot)
    · exact ⟨_, rfl, .refused _ e _ _ ⟨rfl, rfl⟩⟩
    · change ∃ after, (if snapshotMaxDnsTtlSeconds snapshot > limit then Prog.ret _
        else Prog.ret _) >>= _ = Prog.ret after ∧ _
      split
      · exact ⟨_, rfl, .refused _ _ _ _ ⟨rfl, rfl⟩⟩
      · next hle => exact ⟨_, rfl, .snapshotted snapshot _ _ rfl (Nat.not_lt.1 hle)⟩
  | snapshotted =>
    refine ⟨⟨rfl, rfl⟩, ?_⟩
    rintro (e | ⟨⟨⟩⟩)
    · exact ⟨_, rfl, .refused _ e _ _ ⟨rfl, rfl⟩⟩
    · exact ⟨_, rfl, .proxyRequested _ _ rfl⟩
  | proxyRequested =>
    refine ⟨⟨rfl, rfl⟩, ?_⟩
    rintro (e | _ | _)
    · exact ⟨_, rfl, .refused _ e _ _ ⟨rfl, rfl⟩⟩
    · exact ⟨_, rfl, .refused _ _ _ _ ⟨rfl, rfl⟩⟩
    · exact ⟨_, rfl, .proxyVerified _ _ rfl⟩
  | proxyVerified =>
    cases recorded with
    | none => exact .idle _ _ nofun
    | some snapshot => exact .proxyDrain snapshot _ _ rfl rfl
  | proxyDrain =>
    cases deadline with
    | none => exact .idle _ _ nofun
    | some deadline =>
      change Prog.Single _ _ ((if now < deadline then Prog.ret _ else Prog.call _ _) >>= _)
      split
      · exact .idle _ _ (by rintro stage ⟨⟩; simp)
      · next hlt =>
        have hdue := Nat.not_lt.1 hlt
        refine ⟨⟨rfl, deadline, rfl, hdue⟩, ?_⟩
        rintro (e | ⟨⟨⟩⟩)
        · exact ⟨_, rfl, .refused _ e _ _ ⟨rfl, deadline, rfl, hdue⟩⟩
        · exact ⟨_, rfl, .originLockRequested _ _ ⟨rfl, deadline, rfl, hdue⟩⟩
  | originLockRequested =>
    refine ⟨rfl, ?_⟩
    rintro (e | _ | _)
    · exact ⟨_, rfl, .refused _ e _ _ rfl⟩
    · exact ⟨_, rfl, .refused _ _ _ _ rfl⟩
    · exact ⟨_, rfl, .complete _ _ rfl⟩
  | complete => exact .idle _ _ (by rintro stage ⟨⟩; simp)
  | restoreRequested | restored => exact .idle _ _ nofun

theorem Asks.not_restoring {o : BackendOp} (h : txn.Asks now o) :
    txn.stage ≠ .restoreRequested ∧ txn.stage ≠ .restored := by
  cases o <;> simp_all [Asks]

namespace EnableMove

variable {calls : List BackendCall} {result : Except ProviderError ProviderStage}
  {txn' : ProviderTransaction}
  (h : EnableMove txn now limit calls result txn')

include h

theorem length_le : calls.length ≤ 1 := by
  cases h <;> simp

theorem asks {c : BackendCall} (hc : c ∈ calls) : txn.Asks now c.1 := by
  cases h with
  | idle | proxyDrain => exact absurd hc List.not_mem_nil
  | refused _ _ _ _ hasks | originLockRequested _ _ hasks =>
    rw [List.mem_singleton.1 hc]
    exact hasks
  | snapshotted _ _ _ hstage | proxyRequested _ _ hstage | proxyVerified _ _ hstage =>
    rw [List.mem_singleton.1 hc]
    exact ⟨hstage, rfl⟩
  | complete _ _ hstage =>
    rw [List.mem_singleton.1 hc]
    exact hstage

theorem stage_eq
    (hstage : txn.stage = .restoreRequested ∨ txn.stage = .restored) : txn'.stage = txn.stage := by
  cases h with
  | idle | refused => rfl
  | originLockRequested _ _ hasks =>
    exact (hstage.elim hasks.not_restoring.1 hasks.not_restoring.2).elim
  | snapshotted _ _ _ h | proxyDrain _ _ _ h | proxyRequested _ _ h | proxyVerified _ _ h
  | complete _ _ h => simp [h] at hstage

theorem snapshot_eq : txn.stage = .pending ∨ txn'.snapshot = txn.snapshot := by
  cases h with
  | snapshotted _ _ _ hstage => exact .inl hstage
  | _ => exact .inr rfl

end EnableMove

theorem restoreStep_single : txn.restoreStep.Single
    (fun o => ∃ snapshot, o = BackendOp.restore snapshot ∧ txn.stage = .restoreRequested ∧
      txn.snapshot = some snapshot)
    fun calls after => RestoreMove txn calls after.1 after.2 := by
  obtain ⟨key, record, stage, recorded, lastError, attempts, deadline⟩ := txn
  cases stage with
  | pending => exact .idle _ (by simp) nofun
  | restored => exact .idle _ (by simp) (by rintro stage ⟨⟩; simp)
  | restoreRequested =>
    cases recorded with
    | none => exact .idle _ (by simp) nofun
    | some snapshot =>
      refine ⟨⟨snapshot, rfl, rfl, rfl⟩, ?_⟩
      rintro (e | ⟨⟨⟩⟩)
      · exact ⟨_, rfl, .refused snapshot e _ rfl rfl⟩
      · exact ⟨_, rfl, .restored snapshot _ rfl rfl⟩
  | snapshotted | proxyRequested | proxyVerified | proxyDrain | originLockRequested | complete =>
    cases recorded with
    | none => exact .idle _ (by simp) nofun
    | some snapshot => exact .requested nofun nofun nofun nofun

namespace RestoreMove

variable {calls : List BackendCall} {result : Except ProviderError ProviderStage}
  {txn' : ProviderTransaction}
  (h : RestoreMove txn calls result txn')

include h

theorem length_le : calls.length ≤ 1 := by
  cases h <;> simp

theorem asks {c : BackendCall} (hc : c ∈ calls) :
    ∃ snapshot, c.1 = .restore snapshot ∧ txn.stage = .restoreRequested ∧
      txn.snapshot = some snapshot := by
  cases h with
  | idle | requested => exact absurd hc List.not_mem_nil
  | refused snapshot _ _ hstage hsnap | restored snapshot _ hstage hsnap =>
    rw [List.mem_singleton.1 hc]
    exact ⟨snapshot, rfl, hstage, hsnap⟩

theorem snapshot_eq : txn'.snapshot = txn.snapshot := by
  cases h <;> rfl

theorem ending (hpending : txn.stage ≠ .pending)
    (hsnap : txn.snapshot ≠ none) : txn'.stage = .restoreRequested ∨ txn'.stage = .restored := by
  cases h with
  | idle _ hstage => simpa [hpending, hsnap] using hstage
  | requested => exact .inl rfl
  | refused _ _ _ hstage => exact .inl hstage
  | restored => exact .inr rfl

end RestoreMove

end ProviderTransaction

end VpsGuard
