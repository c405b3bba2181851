import VpsGuard.Effect.Succession
import VpsGuard.Provider.Cloudflare

/-!
# The lock of the origin

Once the origin is locked, only requests through the proxy reach the site. A
record that is not proxied while the origin is locked makes the site unreachable.
A transaction locks the origin after it has seen that all records are proxied,
and when it restores a snapshot it removes the lock before it touches a record.

The steps of a transaction come in any order, each request may fail without or
after its effect, and nobody else changes the records and the origin.

* `CloudflareBackend.proxied_while_locked`: from a snapshot that found the origin
  unlocked on, all records of the snapshot are proxied whenever the origin is
  locked; and a restoration touches no record before the lock is removed, and then
  every record of the snapshot.
-/

namespace VpsGuard

open Effect

namespace CloudflareWorld

variable {w u : CloudflareWorld} {x : CloudflareChoice}

theorem exec_cases {o : CloudflareOp} {a : o.Ans} (h : exec o x w = some (a, u)) :
    u = w ∨ ∃ chosen, u = w.apply chosen o := by
  cases x with
  | done chosen viaProxy =>
    obtain ⟨b, _, heq⟩ := Option.map_eq_some_iff.1 h
    cases heq
    exact .inr ⟨chosen, rfl⟩
  | failed e effect =>
    cases h
    cases effect with
    | none => exact .inl rfl
    | some chosen => exact .inr ⟨chosen, rfl⟩

theorem of_exec_isLocked {a : Except ProviderError Bool} (h : exec .isLocked x w = some (a, u)) :
    u = w ∧ Prog.OnOk (· = w.locked) a := by
  refine ⟨(exec_cases h).elim (fun h => h) fun ⟨_, h⟩ => h, ?_⟩
  cases x <;> cases h
  · rfl
  · trivial

theorem of_exec_restoreOrigin {locked : Bool} {a : Except ProviderError Unit}
    (h : exec (.restoreOrigin locked) x w = some (a, u)) :
    (u = w ∨ u = { w with locked }) ∧ Prog.OnOk (fun _ => u.locked = locked) a := by
  refine ⟨(exec_cases h).imp_right fun ⟨_, h⟩ => h, ?_⟩
  cases x <;> cases h
  · rfl
  · trivial

def SparesOrigin : CloudflareOp → Prop
  | .getRecord _ | .patchRecord _ _ _ | .getSite _ | .isLocked => True
  | .lock | .restoreOrigin _ => False

theorem SparesOrigin.locked {o : CloudflareOp} {a : o.Ans} (ho : SparesOrigin o)
    (h : exec o x w = some (a, u)) : u.locked = w.locked := by
  rcases exec_cases h with rfl | ⟨chosen, rfl⟩
  · rfl
  · cases o with
    | lock | restoreOrigin => exact ho.elim
    | _ => rfl

end CloudflareWorld

namespace CloudflareBackend

open CloudflareWorld ProviderTransaction

variable {backend : CloudflareBackend} {w : CloudflareWorld} {recordName : String}
  {inv : CloudflareWorld → Prop} {α : Type}

/-- The requests considered are all. -/
def anyhow (_ : CloudflareOp) (_ : CloudflareChoice) (_ : CloudflareWorld) : Prop := True

/-! ## What the programs leave alone -/

theorem performs_setRecordState (target : CloudflareRecordConfig) (proxied : Bool) (ttl : Option ℕ) :
    (setRecordState target proxied ttl).Performs SparesOrigin := by
  refine ⟨trivial, fun a => ?_⟩
  cases a with
  | error e => trivial
  | ok record =>
    dsimp only
    split
    · trivial
    · split <;> trivial

variable {A : CloudflareOp → Prop} {snapshot : ProviderSnapshot}
  {l : List ((o : CloudflareOp) × o.Ans)}

theorem performs_readRecord (hA : ∀ id, A (.getRecord id)) (target : CloudflareRecordConfig) :
    (readRecord target).Performs A := by
  refine ⟨hA target.id, fun a => ?_⟩
  cases a with
  | error e => trivial
  | ok record =>
    dsimp only
    split <;> trivial

theorem performs_readTargets (hA : ∀ id, A (.getRecord id))
    (targets : List CloudflareRecordConfig) : (readTargets targets).Performs A := by
  induction targets with
  | nil => trivial
  | cons target targets ih =>
    refine (performs_readRecord hA target).bind fun r => ?_
    cases r with
    | error e => trivial
    | ok record =>
      refine ih.bind fun r => ?_
      cases r <;> trivial

theorem performs_readRecords (hA : ∀ id, A (.getRecord id)) :
    (backend.readRecords recordName).Performs A := by
  rw [readRecords]
  split
  · trivial
  · exact performs_readTargets hA _

theorem performs_switchBack (changed : List DnsRecord) :
    (backend.switchBack changed).Performs SparesOrigin := by
  induction changed with
  | nil => trivial
  | cons record changed ih =>
    rw [switchBack]
    split
    · trivial
    · refine (performs_setRecordState _ _ _).bind fun r => ?_
      cases r with
      | error e => trivial
      | ok _ => exact ih

theorem performs_switchRecords (proxied : Bool) (changed rest : List DnsRecord) :
    (backend.switchRecords proxied changed rest).Performs SparesOrigin := by
  induction rest generalizing changed with
  | nil => trivial
  | cons record rest ih =>
    rw [switchRecords]
    split
    · exact ih changed
    split
    · trivial
    · refine (performs_setRecordState _ _ _).bind fun r => ?_
      cases r with
      | ok _ => exact ih _
      | error e =>
        refine (performs_switchBack _).bind fun ok => ?_
        split <;> trivial

theorem performs_setRecordsProxied (proxied : Bool) :
    (backend.setRecordsProxied recordName proxied).Performs SparesOrigin := by
  refine (performs_readRecords fun _ => trivial).bind fun r => ?_
  cases r with
  | error e => trivial
  | ok current => exact performs_switchRecords proxied [] current

theorem performs_restoreRecords (firstError : Option ProviderError)
    (records : List ProviderRecordSnapshot) :
    (backend.restoreRecords firstError records).Performs SparesOrigin := by
  induction records generalizing firstError with
  | nil => trivial
  | cons previous rest ih =>
    rw [restoreRecords]
    split
    · exact ih _
    · refine (performs_setRecordState _ _ _).bind fun r => ?_
      cases r <;> exact ih _

theorem performs_verifyRestored (hA : ∀ id, A (.getRecord id)) (hlocked : A .isLocked)
    (snapshot : ProviderSnapshot) : (backend.verifyRestored snapshot).Performs A := by
  refine (performs_readRecords hA).bind fun r => ?_
  cases r with
  | error e => trivial
  | ok current =>
    refine ⟨hlocked, fun a => ?_⟩
    cases a with
    | error e => trivial
    | ok locked =>
      dsimp only
      split <;> trivial

theorem safe_of_performs {p : Prog Cloudflare α} (hp : p.Performs SparesOrigin)
    (hinv : ∀ t : CloudflareWorld, t.locked = w.locked → inv t) :
    p.Safe ⟨⟨exec⟩, anyhow, inv⟩ .alone (fun _ t => t.locked = w.locked) w := by
  refine (Prog.Safe.of_meets (hp.meets (Prog.yields_true p)) (B := fun _ _ => True)
    (P := fun t => t.locked = w.locked) ?_ ?_ rfl).weaken fun _ _ _ h => h.2
  · rintro s t h rfl _
    exact h
  · intro o x s a t ho hs _ _ hx
    have ht : t.locked = w.locked := (ho.locked hx).trans hs
    exact ⟨trivial, hinv t ht, ht, trivial⟩

/-! ## What holds in the stages -/

variable (backend recordName)

def AllProxied (w : CloudflareWorld) : Prop :=
  ∀ target ∈ backend.targets recordName, ∃ record, w.records target.id = some record ∧
    record.proxied = true

/-- The records of the snapshot are configured. -/
def Known (snapshot : ProviderSnapshot) : Prop :=
  ∀ previous ∈ snapshot.records, ∃ target ∈ backend.targets recordName, target.id = previous.id ∧
    eqIgnoreAsciiCase target.name previous.name ∧ target.recordType = previous.recordType

/-- What holds in a stage, after a snapshot that found the origin unlocked. -/
def Guarded (w : CloudflareWorld) : ProviderStage → Prop
  | .pending => True
  | .snapshotted | .proxyRequested => w.locked = false
  | .proxyVerified | .proxyDrain | .originLockRequested | .complete => AllProxied backend recordName w
  | .restoreRequested | .restored => w.locked = true → AllProxied backend recordName w

/-- What holds between the steps of a transaction. -/
structure Orderly (txn : ProviderTransaction) (w : CloudflareWorld) : Prop where
  pending : txn.stage = .pending → txn.snapshot = none
  known : ∀ snapshot, txn.snapshot = some snapshot → Known backend txn.recordName snapshot
  guarded : ∀ snapshot, txn.snapshot = some snapshot → snapshot.originLocked = false →
    Guarded backend txn.recordName w txn.stage

/-- What holds at every moment. -/
structure Protected (txn : ProviderTransaction) (w : CloudflareWorld) : Prop where
  known : ∀ snapshot, txn.snapshot = some snapshot → Known backend txn.recordName snapshot
  proxied : ∀ snapshot, txn.snapshot = some snapshot → snapshot.originLocked = false →
    w.locked = true → AllProxied backend txn.recordName w

variable {backend recordName} {txn : ProviderTransaction}

theorem Orderly.protected (h : Orderly backend txn w) : Protected backend txn w := by
  refine ⟨h.known, fun snapshot hsnapshot hunlocked hlocked => ?_⟩
  have hguarded := h.guarded snapshot hsnapshot hunlocked
  cases hstage : txn.stage with
  | pending =>
    rw [h.pending hstage] at hsnapshot
    cases hsnapshot
  | snapshotted | proxyRequested =>
    rw [hstage] at hguarded
    exact absurd (hguarded.symm.trans hlocked) Bool.false_ne_true
  | proxyVerified | proxyDrain | originLockRequested | complete =>
    rw [hstage] at hguarded
    exact hguarded
  | restoreRequested | restored =>
    rw [hstage] at hguarded
    exact hguarded hlocked

/-! ## Steps forward -/

theorem snapshot_safe : (backend.snapshot recordName).Safe ⟨⟨exec⟩, anyhow, inv⟩ .alone
    (fun r t => t = w ∧ Prog.OnOk (fun snapshot => snapshot.originLocked = w.locked ∧
      Known backend recordName snapshot) r) w := by
  refine (readRecords_safe recordName).bind ?_
  rintro r t - ⟨rfl, hr⟩
  cases r with
  | error e => exact .ret_alone fun _ => ⟨rfl, trivial⟩
  | ok records =>
    refine .call_alone fun hinv x a u _ hx => ?_
    obtain ⟨rfl, ha⟩ := of_exec_isLocked hx
    refine ⟨hinv, ?_⟩
    cases a with
    | error e => exact .ret_alone fun _ => ⟨rfl, trivial⟩
    | ok originLocked =>
      refine .ret_alone fun _ => ⟨rfl, ha, fun previous hprevious => ?_⟩
      obtain ⟨record, hrecord, rfl⟩ := List.mem_map.1 hprevious
      obtain ⟨target, htarget, -, hvalid⟩ := AreRecords.target hr record hrecord
      obtain ⟨hid, hname, htype⟩ := of_validateRecord hvalid
      refine ⟨target, htarget, hid.symm, ?_, htype.symm⟩
      rw [eqIgnoreAsciiCase_iff] at hname ⊢
      exact hname.symm

theorem verifyProxyEnabled_safe :
    (backend.verifyProxyEnabled recordName).Safe ⟨⟨exec⟩, anyhow, inv⟩ .alone
      (fun r t => t = w ∧ (r = .ok true → AllProxied backend recordName w)) w := by
  refine (readRecords_safe recordName).bind ?_
  rintro r t - ⟨rfl, hr⟩
  cases r with
  | error e =>
    refine .ret_alone fun _ => ⟨rfl, ?_⟩
    rintro ⟨⟩
  | ok records =>
    dsimp only
    split
    · next hall =>
      refine .call_alone fun hinv x a u _ hx => ?_
      obtain rfl : u = t := (exec_cases hx).elim (fun h => h) fun ⟨_, h⟩ => h
      refine ⟨hinv, .ret_alone fun _ => ⟨rfl, fun _ target htarget => ?_⟩⟩
      obtain ⟨record, hrecord, hread, -⟩ := AreRecords.read hr target htarget
      exact ⟨record, hread, List.all_eq_true.1 hall record hrecord⟩
    · refine .ret_alone fun _ => ⟨rfl, ?_⟩
      rintro ⟨⟩

theorem Orderly.advance {txn' : ProviderTransaction} {t : CloudflareWorld}
    (h : Orderly backend txn w) (hname : txn'.recordName = txn.recordName)
    (hsnapshot : txn'.snapshot = txn.snapshot)
    (hpending : txn'.stage = .pending → txn.stage = .pending)
    (hguarded : ∀ snapshot, txn.snapshot = some snapshot → snapshot.originLocked = false →
      Guarded backend txn.recordName t txn'.stage) : Orderly backend txn' t := by
  refine ⟨fun hstage => ?_, ?_, ?_⟩
  · rw [hsnapshot]
    exact h.pending (hpending hstage)
  · rw [hname, hsnapshot]
    exact h.known
  · rw [hname, hsnapshot]
    exact hguarded

section

variable (h : Orderly backend txn w)

include h

theorem Orderly.stay (attempts : ℕ) (lastError : Option String) :
    Orderly backend { txn with attempts, lastError } w :=
  h.advance rfl rfl (fun hstage => hstage) h.guarded

theorem Orderly.guarded_of_stage {stage : ProviderStage} (hstage : txn.stage = stage)
    (snapshot : ProviderSnapshot)
    (hsnapshot : txn.snapshot = some snapshot) (hunlocked : snapshot.originLocked = false) :
    Guarded backend txn.recordName w stage :=
  hstage ▸ h.guarded snapshot hsnapshot hunlocked

theorem requestOriginLock_safe (hstage : txn.stage = .proxyDrain) :
    (backend.perform .requestOriginLock).Safe ⟨⟨exec⟩, anyhow, Protected backend txn⟩ .alone
      (fun _ t => t.records = w.records) w := by
  refine .call_alone fun _ x a u _ hx => ?_
  have hrecords : u.records = w.records := by
    rcases exec_cases hx with rfl | ⟨chosen, rfl⟩ <;> rfl
  refine ⟨⟨h.known, fun snapshot hsnapshot hunlocked _ => ?_⟩, .ret_alone fun _ => hrecords⟩
  have hproxied : AllProxied backend txn.recordName w :=
    h.guarded_of_stage hstage snapshot hsnapshot hunlocked
  rw [AllProxied, hrecords]
  exact hproxied

theorem requestProxyEnable_safe (hstage : txn.stage = .snapshotted) :
    (backend.perform (.requestProxyEnable recordName)).Safe
      ⟨⟨exec⟩, anyhow, Protected backend txn⟩ .alone (fun _ t => t.locked = w.locked) w := by
  refine safe_of_performs (performs_setRecordsProxied true) fun t ht => ?_
  refine ⟨h.known, fun snapshot hsnapshot hunlocked hlocked => ?_⟩
  have hfree : w.locked = false := h.guarded_of_stage hstage snapshot hsnapshot hunlocked
  rw [ht, hfree] at hlocked
  cases hlocked

variable {now limit : ℕ}

theorem enableStepAt_safe : ((txn.enableStepAt now limit).handle backend.perform).Safe
      ⟨⟨exec⟩, anyhow, Protected backend txn⟩ .alone (fun r t => Orderly backend r.2 t) w := by
  refine .single_handle enableStepAt_single ?_ ?_
  · -- Nothing is asked for.
    rintro ⟨result, txn'⟩ t rfl _ hmove
    cases hmove with
    | idle attempts lastError => exact h.stay attempts lastError
    | proxyDrain _ _ _ hstage =>
      exact h.advance rfl rfl nofun fun snapshot hsnapshot hunlocked =>
        (h.guarded_of_stage hstage snapshot hsnapshot hunlocked :)
  · intro o hasks
    cases o with
    | snapshot recordName =>
      obtain ⟨hstage, rfl⟩ := hasks
      refine snapshot_safe.weaken ?_
      rintro answer t - ⟨rfl, hanswer⟩ ⟨result, txn'⟩ hmove
      cases hmove with
      | refused _ _ attempts lastError => exact h.stay attempts lastError
      | snapshotted snapshot =>
        refine ⟨nofun, ?_, ?_⟩
        · rintro _ ⟨⟩
          exact hanswer.2
        · rintro _ ⟨⟩ hunlocked
          exact hanswer.1.symm.trans hunlocked
    | requestProxyEnable recordName =>
      obtain ⟨hstage, rfl⟩ := hasks
      refine (requestProxyEnable_safe h hstage).weaken ?_
      rintro answer t - ht ⟨result, txn'⟩ hmove
      have hguarded : ∀ snapshot, txn.snapshot = some snapshot → snapshot.originLocked = false →
          t.locked = false := fun snapshot hsnapshot hunlocked =>
        ht.trans (h.guarded_of_stage hstage snapshot hsnapshot hunlocked)
      cases hmove with
      | refused =>
        exact h.advance rfl rfl id (by rwa [hstage])
      | proxyRequested => exact h.advance rfl rfl nofun hguarded
    | verifyProxyEnabled recordName =>
      obtain ⟨hstage, rfl⟩ := hasks
      refine verifyProxyEnabled_safe.weaken ?_
      rintro answer t - ⟨rfl, hanswer⟩ ⟨result, txn'⟩ hmove
      cases hmove with
      | refused _ _ attempts lastError => exact h.stay attempts lastError
      | proxyVerified => exact h.advance rfl rfl nofun fun _ _ _ => hanswer rfl
    | requestOriginLock =>
      have hstage := hasks.1
      refine (requestOriginLock_safe h hstage).weaken ?_
      rintro answer t - ht ⟨result, txn'⟩ hmove
      have hguarded : ∀ snapshot, txn.snapshot = some snapshot → snapshot.originLocked = false →
          AllProxied backend txn.recordName t := by
        intro snapshot hsnapshot hunlocked
        have hproxied := h.guarded_of_stage hstage snapshot hsnapshot hunlocked
        rw [AllProxied, ht]
        exact hproxied
      cases hmove with
      | refused =>
        exact h.advance rfl rfl id (by rwa [hstage])
      | originLockRequested => exact h.advance rfl rfl nofun hguarded
    | verifyOriginLock =>
      refine .call_alone fun hinv x a u _ hx => ?_
      obtain ⟨rfl, -⟩ := of_exec_isLocked hx
      refine ⟨hinv, .ret_alone fun _ => ?_⟩
      rintro ⟨result, txn'⟩ hmove
      cases hmove with
      | refused _ _ attempts lastError => exact h.stay attempts lastError
      | complete =>
        exact h.advance rfl rfl nofun fun snapshot hsnapshot hunlocked =>
          (h.guarded_of_stage hasks snapshot hsnapshot hunlocked :)
    | restore snapshot => exact hasks.elim

/-! ## Steps back -/

theorem restore_safe (hsnapshot : txn.snapshot = some snapshot) :
    (backend.perform (.restore snapshot)).Safe ⟨⟨exec⟩, anyhow, Protected backend txn⟩ .alone
      (fun _ t => snapshot.originLocked = false → t.locked = true →
        AllProxied backend txn.recordName t) w := by
  have hprotected : ∀ t, (snapshot.originLocked = false → t.locked = true →
      AllProxied backend txn.recordName t) → Protected backend txn t := by
    refine fun t ht => ⟨h.known, fun s hs => ?_⟩
    cases hsnapshot.symm.trans hs
    exact ht
  refine .call_alone fun _ x a u _ hx => ?_
  obtain ⟨hu, ha⟩ := of_exec_restoreOrigin hx
  have hproxied : snapshot.originLocked = false → u.locked = true →
      AllProxied backend txn.recordName u := by
    intro hunlocked hlocked
    rcases hu with rfl | rfl
    · exact h.protected.proxied snapshot hsnapshot hunlocked hlocked
    · exact absurd (hunlocked.symm.trans hlocked) Bool.false_ne_true
  refine ⟨hprotected u hproxied, ?_⟩
  cases a with
  | error e => exact .ret_alone fun _ => hproxied
  | ok _ =>
    -- From here on the origin is as it was in the snapshot.
    have hunlocked : ∀ t : CloudflareWorld, t.locked = u.locked → snapshot.originLocked = false →
        t.locked = true → AllProxied backend txn.recordName t := by
      intro t ht hsnap hlocked
      exact absurd (hsnap.symm.trans (ha.symm.trans (ht.symm.trans hlocked))) Bool.false_ne_true
    refine (safe_of_performs ?_ fun t ht => hprotected t (hunlocked t ht)).weaken
      fun _ t _ ht => hunlocked t ht
    refine (performs_restoreRecords none snapshot.records).bind fun r => ?_
    cases r with
    | some e => trivial
    | none => exact performs_verifyRestored (fun _ => trivial) trivial snapshot

theorem restoreStep_safe :
    (txn.restoreStep.handle backend.perform).Safe ⟨⟨exec⟩, anyhow, Protected backend txn⟩ .alone
      (fun r t => Orderly backend r.2 t) w := by
  refine .single_handle restoreStep_single ?_ ?_
  · rintro ⟨result, txn'⟩ t rfl _ hmove
    cases hmove with
    | idle attempts => exact h.stay attempts txn.lastError
    | requested =>
      exact h.advance rfl rfl nofun fun snapshot hsnapshot hunlocked hlocked =>
        h.protected.proxied snapshot hsnapshot hunlocked hlocked
  · rintro _ ⟨snapshot, rfl, hstage, hsnapshot⟩
    refine (restore_safe h hsnapshot).weaken ?_
    rintro answer t - ht ⟨result, txn'⟩ hmove
    have hguarded : ∀ s, txn.snapshot = some s → s.originLocked = false → t.locked = true →
        AllProxied backend txn.recordName t := by
      intro s hs
      cases hsnapshot.symm.trans hs
      exact ht
    cases hmove with
    | refused =>
      exact h.advance rfl rfl id (by rwa [hstage])
    | restored => exact h.advance rfl rfl nofun hguarded

end

/-! ## The order of a restoration -/

/-- The changes of records that were requested. -/
def patches (l : List ((o : CloudflareOp) × o.Ans)) : List (String × Bool × Option ℕ) :=
  l.filterMap fun
    | ⟨.patchRecord id proxied ttl, _⟩ => some (id, proxied, ttl)
    | _ => none

/-- First the origin is restored. If this succeeds then all records of the snapshot
    are, whatever becomes of them. -/
def RestoresInOrder (backend : CloudflareBackend) (snapshot : ProviderSnapshot) : Prop :=
  ∀ l result, Prog.Traces (backend.restore snapshot) l result →
    ∃ (answer : Except ProviderError Unit) (rest : List ((o : CloudflareOp) × o.Ans)),
      l = ⟨.restoreOrigin snapshot.originLocked, answer⟩ :: rest ∧
      (∀ e, answer = .error e → rest = []) ∧
      (answer = .ok () → patches rest = snapshot.records.map fun previous =>
        (previous.id, previous.proxied, some previous.ttlSeconds))

def SparesRecords : CloudflareOp → Prop
  | .patchRecord _ _ _ => False
  | _ => True

theorem patches_append (l l' : List ((o : CloudflareOp) × o.Ans)) :
    patches (l ++ l') = patches l ++ patches l' := List.filterMap_append

theorem patches_eq_nil (h : ∀ c ∈ l, SparesRecords c.1) : patches l = [] := by
  rw [patches, List.filterMap_eq_nil_iff]
  rintro ⟨o, a⟩ hc
  cases o with
  | patchRecord => exact (h _ hc).elim
  | _ => rfl

theorem patches_setRecordState {target : CloudflareRecordConfig} {proxied : Bool} {ttl : Option ℕ}
    {result : Except ProviderError Unit}
    (h : Prog.Traces (setRecordState target proxied ttl) l result) :
    patches l = [(target.id, proxied, ttl)] := by
  obtain ⟨answer, rest, rfl, hrest⟩ := Prog.traces_call_iff.1 h
  have hnil : rest = [] := by
    cases answer with
    | error e => exact (Prog.traces_ret_iff.1 hrest).1
    | ok record =>
      dsimp only at hrest
      split at hrest
      · exact (Prog.traces_ret_iff.1 hrest).1
      · split at hrest
        · exact (Prog.traces_ret_iff.1 hrest).1
        · exact (Prog.traces_ret_iff.1 hrest).1
  rw [hnil]
  rfl

theorem patches_restoreRecords {records : List ProviderRecordSnapshot}
    (hknown : ∀ previous ∈ records, ∃ target, backend.targetOfSnapshot previous = some target ∧
      target.id = previous.id)
    {firstError result : Option ProviderError}
    (h : Prog.Traces (backend.restoreRecords firstError records) l result) :
    patches l = records.map fun previous =>
      (previous.id, previous.proxied, some previous.ttlSeconds) := by
  induction records generalizing firstError l with
  | nil =>
    obtain ⟨rfl, -⟩ := Prog.traces_ret_iff.1 h
    rfl
  | cons previous rest ih =>
    obtain ⟨target, htarget, hid⟩ := hknown previous List.mem_cons_self
    have hrest := fun previous hprevious => hknown previous (List.mem_cons_of_mem _ hprevious)
    rw [restoreRecords, htarget] at h
    obtain ⟨l₁, l₂, r, rfl, hfirst, hnext⟩ := h.exists_append
    have hpatches : patches l₂ = rest.map fun previous =>
        (previous.id, previous.proxied, some previous.ttlSeconds) := by
      cases r with
      | ok _ => exact ih hrest hnext
      | error e => exact ih hrest hnext
    rw [patches_append, patches_setRecordState hfirst, hpatches, hid]
    rfl

theorem Known.exists_target (h : Known backend recordName snapshot)
    {previous : ProviderRecordSnapshot} (hprevious : previous ∈ snapshot.records) :
    ∃ target, backend.targetOfSnapshot previous = some target ∧ target.id = previous.id := by
  obtain ⟨target, htarget, hid, hname, htype⟩ := h previous hprevious
  obtain ⟨found, hfound⟩ : ∃ found, backend.targetOfSnapshot previous = some found := by
    rw [← Option.isSome_iff_exists, targetOfSnapshot, List.find?_isSome]
    exact ⟨target, (List.mem_filter.1 htarget).1, by simp [hid, hname, htype]⟩
  have hmatch := List.find?_some hfound
  simp only [Bool.and_eq_true, decide_eq_true_eq] at hmatch
  exact ⟨found, hfound, hmatch.1.1⟩

theorem restoresInOrder (h : Known backend recordName snapshot) :
    RestoresInOrder backend snapshot := by
  intro l result htraces
  obtain ⟨answer, rest, rfl, hrest⟩ := Prog.traces_call_iff.1 htraces
  refine ⟨answer, rest, rfl, ?_, ?_⟩
  · rintro e rfl
    exact (Prog.traces_ret_iff.1 hrest).1
  · rintro rfl
    obtain ⟨l₁, l₂, r, rfl, hrecords, hverify⟩ := Prog.Traces.exists_append hrest
    have hnone : patches l₂ = [] := by
      cases r with
      | some e =>
        rw [(Prog.traces_ret_iff.1 hverify).1]
        rfl
      | none =>
        exact patches_eq_nil (Prog.Traces.performs hverify
          (performs_verifyRestored (fun _ => trivial) trivial snapshot))
    rw [patches_append, hnone, List.append_nil]
    exact patches_restoreRecords (fun _ hprevious => h.exists_target hprevious) hrecords

/-! ## Transactions -/

inductive TransactionStep
  | enable (now limit : ℕ)
  | restore

/-- The transaction after a step. -/
def TransactionStep.prog (backend : CloudflareBackend) :
    TransactionStep → ProviderTransaction → Prog Cloudflare ProviderTransaction
  | .enable now limit, txn =>
    (txn.enableStepAt now limit).handle backend.perform >>= fun r => return r.2
  | .restore, txn => txn.restoreStep.handle backend.perform >>= fun r => return r.2

theorem prog_safe (h : Orderly backend txn w) (step : TransactionStep) :
    (step.prog backend txn).Safe ⟨⟨exec⟩, anyhow, Protected backend txn⟩ .alone
      (Orderly backend) w := by
  cases step with
  | enable now limit => exact (enableStepAt_safe h).bind fun _ _ _ h => .ret_alone fun _ => h
  | restore => exact (restoreStep_safe h).bind fun _ _ _ h => .ret_alone fun _ => h

/-- After a snapshot that found the origin unlocked, all records of the snapshot are
    proxied whenever the origin is locked, and they are restored once it is
    unlocked. -/
theorem proxied_while_locked {key : String} {allowed : List String} {txn₀ : ProviderTransaction}
    {w₀ : CloudflareWorld} {p : Prog Cloudflare ProviderTransaction} {snapshot : ProviderSnapshot}
    (hnew : ProviderTransaction.new key recordName allowed = .ok txn₀)
    (h : Succession ⟨exec⟩ anyhow (fun txn p => ∃ step : TransactionStep, p = step.prog backend txn)
      txn₀ w₀ txn w p)
    (hsnapshot : txn.snapshot = some snapshot) (hunlocked : snapshot.originLocked = false) :
    (w.locked = true → ∀ previous ∈ snapshot.records, ∃ record,
        w.records previous.id = some record ∧ record.proxied = true) ∧
      RestoresInOrder backend snapshot := by
  have hstart : Orderly backend txn₀ w₀ := by
    rw [ProviderTransaction.new] at hnew
    split at hnew
    · cases hnew
      exact ⟨fun _ => rfl, nofun, nofun⟩
    · cases hnew
  have hprotected : Protected backend txn w := by
    refine (Succession.safe (J := Orderly backend) (fun _ _ h => h.protected) ?_ hstart h).1
    rintro txn w _ h ⟨step, rfl⟩
    exact prog_safe h step
  have hknown := hprotected.known snapshot hsnapshot
  refine ⟨fun hlocked previous hprevious => ?_, restoresInOrder hknown⟩
  obtain ⟨target, htarget, hid, -⟩ := hknown previous hprevious
  rw [← hid]
  exact hprotected.proxied snapshot hsnapshot hunlocked hlocked target htarget

def siteTransaction : ProviderTransaction :=
  ⟨"key", "example.com", .pending, none, none, 0, none⟩

def siteSnapshot : ProviderSnapshot where
  recordName := "example.com"
  records := [⟨apexRecord.id, "example.com", .a, false, 120⟩,
    ⟨apexRecordV6.id, "example.com", .aaaa, false, 120⟩]
  originLocked := false

instance (o : CloudflareOp) (x : CloudflareChoice) (w : CloudflareWorld) : Decidable (anyhow o x w) :=
  .isTrue trivial

def succeeding (n : ℕ) : List (TransactionStep ⊕ CloudflareChoice) :=
  List.replicate n (.inr (.done 1 true))

/-- The steps of a transaction up to the lock, which is set though the request for it
    fails. -/
def lockingSteps : List (TransactionStep ⊕ CloudflareChoice) :=
  .inl (.enable 0 300) :: succeeding 3 ++ .inl (.enable 1 300) :: succeeding 4 ++
    .inl (.enable 2 300) :: succeeding 3 ++ [.inl (.enable 3 300), .inl (.enable 200 300),
      .inr (.failed (.backend "timeout") (some 0))]

/-- The site is locked, and its records are proxied. -/
theorem proxied_while_locked_site : ∃ txn w p,
    Succession ⟨exec⟩ anyhow (fun txn p => ∃ step : TransactionStep, p = step.prog site txn)
      siteTransaction dnsOnly txn w p ∧ w.locked = true ∧
    (w.locked = true → ∀ previous ∈ siteSnapshot.records, ∃ record,
      w.records previous.id = some record ∧ record.proxied = true) ∧
    RestoresInOrder site siteSnapshot := by
  have hany : ((Succession.run ((⟨exec⟩ : Machine Cloudflare CloudflareWorld CloudflareChoice).restrict
      anyhow) (TransactionStep.prog site) lockingSteps siteTransaction dnsOnly
        (.ret siteTransaction)).any
      fun r => r.1.snapshot = some siteSnapshot ∧ r.2.1.locked = true) = true := by decide +kernel
  obtain ⟨txn, w, p, hsuccession, hend⟩ := Succession.exists_of_run
    (fun (txn : ProviderTransaction) (w : CloudflareWorld) =>
      txn.snapshot = some siteSnapshot ∧ w.locked = true) hany
  obtain ⟨hsnapshot, hlocked⟩ := of_decide_eq_true hend
  have hnew : ProviderTransaction.new "key" "example.com" ["example.com"] = .ok siteTransaction := by
    decide
  exact ⟨txn, w, p, hsuccession, hlocked, proxied_while_locked hnew hsuccession hsnapshot rfl⟩

end CloudflareBackend

end VpsGuard
