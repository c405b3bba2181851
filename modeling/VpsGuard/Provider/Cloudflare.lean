import VpsGuard.Effect.Machine
import VpsGuard.Provider.Transaction
import VpsGuard.Text.Basic

/-!
# The Cloudflare backend

`guard-provider` switches the DNS records of a site at Cloudflare. Only the
records of the configuration are touched. They are switched one by one, and when
one of them cannot be switched those before it are switched back, the last one
first (`setRecordsProxied`).

A request to change a record may fail without effect or after it had its effect.
If the request for a record takes effect and fails, then that record is not among
those that are switched back.

* `CloudflareBackend.setRecordsProxied_all_or_nothing`: if requests to switch a record that fail have
  no effect, then either all records are as they were or all of them are switched,
  unless the error says that they could not be switched back.
* `CloudflareBackend.switched_despite_error`: a request that times out after its effect leaves its
  record switched.
-/

namespace VpsGuard

open Effect List

/-! ## Configuration -/

/-- A record that may be switched. -/
structure CloudflareRecordConfig where
  id : String
  name : String
  recordType : DnsRecordType

/-- A record, as the provider has it. -/
structure DnsRecord where
  id : String
  name : String
  recordType : DnsRecordType
  proxied : Bool
  proxiable : Bool
  ttl : ℕ
  deriving DecidableEq

/-- What is recorded of the record. -/
def DnsRecord.snapshot (record : DnsRecord) : ProviderRecordSnapshot :=
  ⟨record.id, record.name, record.recordType, record.proxied, record.ttl⟩

def eqIgnoreAsciiCase (a b : String) : Bool := Text.eqIgnoreCase a.toList b.toList

theorem eqIgnoreAsciiCase_iff {a b : String} :
    eqIgnoreAsciiCase a b ↔ a.toList.map Char.toLower = b.toList.map Char.toLower :=
  decide_eq_true_iff

def isCloudflareIdentifier (value : String) : Bool :=
  value.utf8ByteSize = 32 && value.toList.all fun c => c.isDigit || 'a' ≤ c && c ≤ 'f'

/-- The records have names of one site. -/
def validateConfiguration (zoneId : String) (records : List CloudflareRecordConfig) :
    Except ProviderError Unit :=
  if ¬ isCloudflareIdentifier zoneId ∨ records = [] ∨ records.length > 16 then
    .error (.configuration "ZONE_OR_RECORDS_INVALID")
  else if records.any fun record => ¬ isCloudflareIdentifier record.id ||
      ¬ (records.head?.any fun first => eqIgnoreAsciiCase record.name first.name) ||
      record.name.toList.take 2 = "*.".toList || '/' ∈ record.name.toList ||
      ':' ∈ record.name.toList then
    .error (.configuration "RECORD_ALLOWLIST_INVALID")
  else .ok ()

/-- The records of a site. -/
structure CloudflareBackend where
  zoneId : String
  allowedRecords : List CloudflareRecordConfig
  valid : validateConfiguration zoneId allowedRecords = .ok ()

/-- The record is the one that is configured. -/
def validateRecord (target : CloudflareRecordConfig) (record : DnsRecord) : Except ProviderError Unit :=
  if record.id ≠ target.id ∨ ¬ eqIgnoreAsciiCase record.name target.name ∨
      record.recordType ≠ target.recordType ∨ ¬ record.proxiable then
    .error (.recordMismatch target.id)
  else .ok ()

/-! ## The programs -/

/-- What the backend asks for: the records at Cloudflare, the site through its
    proxy, and the protection of the origin. -/
inductive CloudflareOp
  | getRecord (id : String)
  | patchRecord (id : String) (proxied : Bool) (ttl : Option ℕ)
  /-- The site is requested. Its answer tells whether it came through the proxy. -/
  | getSite (recordName : String)
  | isLocked
  | lock
  | restoreOrigin (locked : Bool)

abbrev CloudflareOp.Ans : CloudflareOp → Type
  | getRecord _ | patchRecord _ _ _ => Except ProviderError DnsRecord
  | getSite _ | isLocked => Except ProviderError Bool
  | lock | restoreOrigin _ => Except ProviderError Unit

abbrev Cloudflare : Sig := ⟨CloudflareOp, CloudflareOp.Ans⟩

namespace CloudflareBackend

variable (backend : CloudflareBackend)

variable (recordName : String)

/-- The configured records of a name. -/
def targets : List CloudflareRecordConfig :=
  backend.allowedRecords.filter fun record => eqIgnoreAsciiCase record.name recordName

def targetsForName : Except ProviderError (List CloudflareRecordConfig) :=
  if backend.targets recordName = [] then .error (.recordNotAllowed recordName)
  else .ok (backend.targets recordName)

def readRecord (target : CloudflareRecordConfig) : Prog Cloudflare (Except ProviderError DnsRecord) :=
  .call (.getRecord target.id) fun
    | .error e => return .error e
    | .ok record =>
      match validateRecord target record with
      | .error e => return .error e
      | .ok () => return .ok record

def readTargets : List CloudflareRecordConfig → Prog Cloudflare (Except ProviderError (List DnsRecord))
  | [] => return .ok []
  | target :: targets => readRecord target >>= fun
    | .error e => return .error e
    | .ok record => readTargets targets >>= fun
      | .error e => return .error e
      | .ok records => return .ok (record :: records)

def readRecords : Prog Cloudflare (Except ProviderError (List DnsRecord)) :=
  match backend.targetsForName recordName with
  | .error e => return .error e
  | .ok targets => readTargets targets

/-- Switch one record, and see that it is switched. -/
def setRecordState (target : CloudflareRecordConfig) (proxied : Bool) (ttl : Option ℕ) :
    Prog Cloudflare (Except ProviderError Unit) :=
  .call (.patchRecord target.id proxied ttl) fun
    | .error e => return .error e
    | .ok record =>
      match validateRecord target record with
      | .error e => return .error e
      | .ok () =>
        if record.proxied = proxied ∧ ttl.all (record.ttl = ·) then return .ok ()
        else return .error (.recordMismatch target.id)

def targetOf (id : String) : Option CloudflareRecordConfig :=
  backend.allowedRecords.find? (·.id = id)

def switchBack : List DnsRecord → Prog Cloudflare Bool
  | [] => return true
  | previous :: rest =>
    match backend.targetOf previous.id with
    | none => return false
    | some candidate =>
      setRecordState candidate previous.proxied (some previous.ttl) >>= fun
        | .error _ => return false
        | .ok () => switchBack rest

/-- Records are switched in turn. Those that were are switched back when one cannot
    be. -/
def switchRecords (proxied : Bool) (changed : List DnsRecord) :
    List DnsRecord → Prog Cloudflare (Except ProviderError Unit)
  | [] => return .ok ()
  | record :: rest =>
    if record.proxied = proxied then switchRecords proxied changed rest
    else
      match backend.targetOf record.id with
      | none => return .error (.recordMismatch record.id)
      | some target => setRecordState target proxied none >>= fun
        | .ok () => switchRecords proxied (changed ++ [record]) rest
        | .error e => backend.switchBack changed.reverse >>= fun rollbackOk =>
          if rollbackOk then return .error e else return .error .partialRollbackFailed

/-- Switch all records. If one fails, those before it are switched back. -/
def setRecordsProxied (proxied : Bool) : Prog Cloudflare (Except ProviderError Unit) :=
  backend.readRecords recordName >>= fun
    | .error e => return .error e
    | .ok current => backend.switchRecords proxied [] current

/-! ## The backend of a transaction -/

def snapshot : Prog Cloudflare (Except ProviderError ProviderSnapshot) :=
  backend.readRecords recordName >>= fun
    | .error e => return .error e
    | .ok records => .call .isLocked fun
      | .error e => return .error e
      | .ok originLocked => return .ok ⟨recordName, records.map DnsRecord.snapshot, originLocked⟩

def verifyProxyEnabled : Prog Cloudflare (Except ProviderError Bool) :=
  backend.readRecords recordName >>= fun
    | .error e => return .error e
    | .ok records =>
      if records.all (·.proxied) then Prog.perform (S := Cloudflare) (.getSite recordName)
      else return .ok false

def targetOfSnapshot (previous : ProviderRecordSnapshot) : Option CloudflareRecordConfig :=
  backend.allowedRecords.find? fun target => target.id = previous.id &&
    eqIgnoreAsciiCase target.name previous.name && target.recordType = previous.recordType

/-- All records of a snapshot are put back. The first error is returned. -/
def restoreRecords : Option ProviderError → List ProviderRecordSnapshot →
    Prog Cloudflare (Option ProviderError)
  | firstError, [] => return firstError
  | firstError, previous :: rest =>
    match backend.targetOfSnapshot previous with
    | none => restoreRecords (firstError <|> some (.recordMismatch previous.id)) rest
    | some target => setRecordState target previous.proxied (some previous.ttlSeconds) >>= fun
      | .ok () => restoreRecords firstError rest
      | .error e => restoreRecords (firstError <|> some e) rest

/-- A record that was read is as it was. -/
def isRestored (previous : ProviderRecordSnapshot) (record : DnsRecord) : Bool :=
  record.id = previous.id && eqIgnoreAsciiCase record.name previous.name &&
    record.recordType = previous.recordType && record.proxied = previous.proxied &&
    record.ttl = previous.ttlSeconds

/-- The records are read back, and the origin. -/
def verifyRestored (snapshot : ProviderSnapshot) : Prog Cloudflare (Except ProviderError Unit) :=
  backend.readRecords snapshot.recordName >>= fun
    | .error e => return .error e
    | .ok current => .call .isLocked fun
      | .error e => return .error e
      | .ok locked =>
        if (snapshot.records.all fun previous => current.any (isRestored previous)) ∧
            locked = snapshot.originLocked then
          return .ok ()
        else return .error (.recordMismatch snapshot.recordName)

/-- Restore the origin and the records to what the snapshot says, and see that they are. -/
def restore (snapshot : ProviderSnapshot) : Prog Cloudflare (Except ProviderError Unit) :=
  .call (.restoreOrigin snapshot.originLocked) fun
    | .error e => return .error e
    | .ok () => backend.restoreRecords none snapshot.records >>= fun
      | some e => return .error e
      | none => backend.verifyRestored snapshot

/-- What a transaction asks for. -/
def perform : (o : BackendOp) → Prog Cloudflare o.Ans
  | .snapshot recordName => backend.snapshot recordName
  | .requestProxyEnable recordName => backend.setRecordsProxied recordName true
  | .verifyProxyEnabled recordName => backend.verifyProxyEnabled recordName
  | .requestOriginLock => Prog.perform (S := Cloudflare) .lock
  | .verifyOriginLock => Prog.perform (S := Cloudflare) .isLocked
  | .restore snapshot => backend.restore snapshot

end CloudflareBackend

/-! ## Cloudflare and the origin -/

/-- The records by their identifiers, and whether the origin is locked. -/
structure CloudflareWorld where
  records : String → Option DnsRecord
  locked : Bool

/-- How a request ends. One that fails may have had its effect. Cloudflare chooses
    the time to live that is not given. -/
inductive CloudflareChoice
  | done (ttl : ℕ) (proxied : Bool)
  | failed (e : ProviderError) (effect : Option ℕ)

namespace CloudflareWorld

def patch (w : CloudflareWorld) (id : String) (proxied : Bool) (ttl : ℕ) : CloudflareWorld where
  records := Function.update w.records id
    ((w.records id).map fun record => { record with proxied := proxied, ttl := ttl })
  locked := w.locked

/-- The world after a request that had its effect. -/
def apply (w : CloudflareWorld) (chosen : ℕ) : CloudflareOp → CloudflareWorld
  | .patchRecord id proxied ttl => w.patch id proxied (ttl.getD chosen)
  | .lock => { w with locked := true }
  | .restoreOrigin locked => { w with locked }
  | .getRecord _ | .getSite _ | .isLocked => w

/-- What a request answers that has succeeded. There is nothing to answer for a
    record that there is not. -/
def answer (w : CloudflareWorld) (viaProxy : Bool) : (o : CloudflareOp) → Option o.Ans
  | .getRecord id | .patchRecord id _ _ => (w.records id).map .ok
  | .getSite _ => some (.ok viaProxy)
  | .isLocked => some (.ok w.locked)
  | .lock | .restoreOrigin _ => some (.ok ())

/-- The answer of a request that has failed. -/
def refusal (e : ProviderError) : (o : CloudflareOp) → o.Ans
  | .getRecord _ | .patchRecord _ _ _ => .error e
  | .getSite _ | .isLocked => .error e
  | .lock | .restoreOrigin _ => .error e

def exec (o : CloudflareOp) : CloudflareChoice → CloudflareWorld → Option (o.Ans × CloudflareWorld)
  | .done ttl viaProxy, w => ((w.apply ttl o).answer viaProxy o).map fun a => (a, w.apply ttl o)
  | .failed e effect, w => some (refusal e o, effect.elim w fun ttl => w.apply ttl o)

variable {w w₀ u : CloudflareWorld} {x : CloudflareChoice} {id : String}

theorem records_patch_self {record : DnsRecord} (h : w.records id = some record) (proxied : Bool)
    (ttl : ℕ) :
    (w.patch id proxied ttl).records id = some { record with proxied := proxied, ttl := ttl } := by
  rw [patch, h]
  exact Function.update_self _ _ _

theorem records_patch_of_ne {id' : String} (h : id' ≠ id) (proxied : Bool) (ttl : ℕ) :
    (w.patch id proxied ttl).records id' = w.records id' := Function.update_of_ne h _ _

variable {a : Except ProviderError DnsRecord}

theorem of_exec_getRecord (h : exec (.getRecord id) x w = some (a, u)) :
    u = w ∧ ∀ record, a = .ok record → w.records id = some record := by
  cases x with
  | done ttl viaProxy =>
    obtain ⟨b, hb, heq⟩ := Option.map_eq_some_iff.1 h
    obtain ⟨record, hrecord, rfl⟩ := Option.map_eq_some_iff.1 hb
    cases heq
    refine ⟨rfl, ?_⟩
    rintro record' ⟨⟩
    exact hrecord
  | failed e effect =>
    cases h
    refine ⟨by cases effect <;> rfl, ?_⟩
    rintro record ⟨⟩

/-- A change is answered with the record after it, or fails with its effect or
    without. -/
theorem of_exec_patchRecord {proxied : Bool} {ttl : Option ℕ}
    (h : exec (.patchRecord id proxied ttl) x w = some (a, u)) :
    (∃ chosen record, w.records id = some record ∧ u = w.patch id proxied (ttl.getD chosen) ∧
        a = .ok { record with proxied := proxied, ttl := ttl.getD chosen }) ∨
      ∃ e effect, x = .failed e effect ∧ a = .error e ∧
        u = effect.elim w fun chosen => w.patch id proxied (ttl.getD chosen) := by
  cases x with
  | done chosen viaProxy =>
    obtain ⟨b, hb, heq⟩ := Option.map_eq_some_iff.1 h
    obtain ⟨patched, hpatched, rfl⟩ := Option.map_eq_some_iff.1 hb
    cases heq
    cases hrecord : w.records id with
    | none =>
      have hnone : (w.patch id proxied (ttl.getD chosen)).records id = none := by
        rw [patch, hrecord]
        exact Function.update_self _ _ _
      exact absurd (hnone.symm.trans hpatched) (by simp)
    | some record =>
      refine .inl ⟨chosen, record, rfl, rfl, ?_⟩
      have hself := (records_patch_self hrecord proxied (ttl.getD chosen)).symm.trans hpatched
      rw [Option.some.inj hself]
  | failed e effect =>
    cases h
    exact .inr ⟨e, effect, rfl, rfl, rfl⟩

end CloudflareWorld

/-! ## Reading -/

namespace CloudflareBackend

open CloudflareWorld

variable {backend : CloudflareBackend} {w w₀ u : CloudflareWorld}
  {allow : CloudflareOp → CloudflareChoice → CloudflareWorld → Prop} {inv : CloudflareWorld → Prop}

/-- The record of the target, which was found to be the configured one. -/
def IsRecord (w : CloudflareWorld) (target : CloudflareRecordConfig) (record : DnsRecord) : Prop :=
  w.records target.id = some record ∧ validateRecord target record = .ok ()

structure AreRecords (w : CloudflareWorld) (targets : List CloudflareRecordConfig)
    (records : List DnsRecord) : Prop where
  read : ∀ target ∈ targets, ∃ record ∈ records, IsRecord w target record
  target : ∀ record ∈ records, ∃ target ∈ targets, IsRecord w target record

variable {target : CloudflareRecordConfig} {record : DnsRecord} {proxied : Bool}
  {changed : List DnsRecord} {records : List DnsRecord}

theorem AreRecords.cons {targets : List CloudflareRecordConfig}
    (h : IsRecord w target record) (hs : AreRecords w targets records) :
    AreRecords w (target :: targets) (record :: records) := by
  constructor
  · rintro t (_ | ⟨_, ht⟩)
    · exact ⟨record, mem_cons_self, h⟩
    · obtain ⟨r, hr, hrecord⟩ := hs.read t ht
      exact ⟨r, mem_cons_of_mem _ hr, hrecord⟩
  · rintro r (_ | ⟨_, hr⟩)
    · exact ⟨target, mem_cons_self, h⟩
    · obtain ⟨t, ht, hrecord⟩ := hs.target r hr
      exact ⟨t, mem_cons_of_mem _ ht, hrecord⟩

theorem of_validateRecord (h : validateRecord target record = .ok ()) : record.id = target.id ∧
      eqIgnoreAsciiCase record.name target.name ∧ record.recordType = target.recordType := by
  rw [validateRecord] at h
  split at h
  · cases h
  · next hne =>
    simp only [not_or, not_not] at hne
    exact ⟨hne.1, hne.2.1, hne.2.2.1⟩

theorem id_of_validateRecord (h : validateRecord target record = .ok ()) :
    record.id = target.id := (of_validateRecord h).1

theorem readRecord_safe (target : CloudflareRecordConfig) :
    (readRecord target).Safe ⟨⟨exec⟩, allow, inv⟩ .alone
      (fun r t => t = w ∧ Prog.OnOk (IsRecord w target) r) w := by
  refine .call_alone fun hinv x a t _ hx => ?_
  obtain ⟨rfl, hrecord⟩ := of_exec_getRecord hx
  refine ⟨hinv, ?_⟩
  cases a with
  | error e => exact .ret_alone fun _ => ⟨rfl, trivial⟩
  | ok record =>
    dsimp only
    split
    · exact .ret_alone fun _ => ⟨rfl, trivial⟩
    · next hvalid => exact .ret_alone fun _ => ⟨rfl, hrecord record rfl, hvalid⟩

theorem readTargets_safe (targets : List CloudflareRecordConfig) :
    (readTargets targets).Safe ⟨⟨exec⟩, allow, inv⟩ .alone
      (fun r t => t = w ∧ Prog.OnOk (AreRecords w targets) r) w := by
  induction targets with
  | nil => exact .ret_alone fun _ => ⟨rfl, by simp, by simp⟩
  | cons target targets ih =>
    refine (readRecord_safe target).bind ?_
    rintro r t - ⟨rfl, hrecord⟩
    cases r with
    | error e => exact .ret_alone fun _ => ⟨rfl, trivial⟩
    | ok record =>
      refine ih.bind ?_
      rintro r t - ⟨rfl, hrecords⟩
      cases r with
      | error e => exact .ret_alone fun _ => ⟨rfl, trivial⟩
      | ok records => exact .ret_alone fun _ => ⟨rfl, .cons hrecord hrecords⟩

theorem readRecords_safe (recordName : String) :
    (backend.readRecords recordName).Safe ⟨⟨exec⟩, allow, inv⟩ .alone
      (fun r t => t = w ∧ Prog.OnOk (AreRecords w (backend.targets recordName)) r) w := by
  rw [readRecords, targetsForName]
  split
  · exact .ret_alone fun _ => ⟨rfl, trivial⟩
  · next found hfound =>
    split at hfound
    · cases hfound
    · cases hfound
      exact readTargets_safe _

theorem eqIgnoreAsciiCase_of_mem {a b : CloudflareRecordConfig} (ha : a ∈ backend.allowedRecords)
    (hb : b ∈ backend.allowedRecords) : eqIgnoreAsciiCase a.name b.name := by
  have hfirst : ∀ record ∈ backend.allowedRecords, backend.allowedRecords.head?.any fun first =>
      eqIgnoreAsciiCase record.name first.name := by
    have hvalid := backend.valid
    rw [validateConfiguration] at hvalid
    split at hvalid
    · cases hvalid
    split at hvalid
    · cases hvalid
    next hnone =>
    intro record hrecord
    by_contra hne
    refine hnone (any_eq_true.2 ⟨record, hrecord, ?_⟩)
    simp [hne]
  obtain ⟨first, hfirst', haf⟩ := (Option.any_eq_true _ _).1 (hfirst a ha)
  obtain ⟨first', hfirst'', hbf⟩ := (Option.any_eq_true _ _).1 (hfirst b hb)
  cases hfirst'.symm.trans hfirst''
  rw [eqIgnoreAsciiCase_iff] at haf hbf ⊢
  exact haf.trans hbf.symm

/-- A record that was read, and the target by which it is changed. -/
structure Touchable (backend : CloudflareBackend) (w : CloudflareWorld) (record : DnsRecord) : Prop where
  read : w.records record.id = some record
  target : ∃ target, backend.targetOf record.id = some target ∧ target.id = record.id ∧
    validateRecord target record = .ok ()

theorem touchable_of_read {recordName : String}
    (h : AreRecords w (backend.targets recordName) records) (hrecord : record ∈ records) :
    Touchable backend w record := by
  obtain ⟨target, htarget, hread, hvalid⟩ := h.target record hrecord
  have hid := id_of_validateRecord hvalid
  rw [← hid] at hread
  obtain ⟨hmem, hname⟩ := mem_filter.1 htarget
  -- The first target with the identifier has the name of the site too, so it was checked as well.
  obtain ⟨first, hfirst⟩ : ∃ first, backend.targetOf record.id = some first := by
    rw [← Option.isSome_iff_exists, targetOf, find?_isSome]
    exact ⟨target, hmem, decide_eq_true hid.symm⟩
  have hfirstId : first.id = record.id := of_decide_eq_true (find?_some hfirst :)
  have hfirstMem : first ∈ backend.targets recordName := by
    refine mem_filter.2 ⟨mem_of_find?_eq_some hfirst, ?_⟩
    have hsame := eqIgnoreAsciiCase_of_mem (mem_of_find?_eq_some hfirst) hmem
    rw [eqIgnoreAsciiCase_iff] at hsame hname ⊢
    exact hsame.trans hname
  obtain ⟨record', _, hread', hvalid'⟩ := h.read first hfirstMem
  rw [hfirstId, hread] at hread'
  cases hread'
  exact ⟨hread, first, hfirst, hfirstId, hvalid'⟩

/-! ## Switching -/

/-- A request to switch a record that fails has no effect. -/
def Sure : CloudflareOp → CloudflareChoice → CloudflareWorld → Prop
  | .patchRecord _ _ none, .failed _ effect, _ => effect = none
  | _, _, _ => True

def switching : Setting Cloudflare CloudflareWorld CloudflareChoice where
  exec := exec
  allow := Sure
  inv _ := True

theorem setRecordState_safe {ttl : Option ℕ} (hrecord : IsRecord w target record) :
    (setRecordState target proxied ttl).Safe switching .alone
      (fun r t => (∀ e, r = .error e → ttl = none → t = w) ∧
        Prog.OnOk (fun _ => ∃ chosen, t = w.patch target.id proxied (ttl.getD chosen)) r) w := by
  refine .call_alone fun _ x a t hallow hx => ⟨trivial, ?_⟩
  rcases of_exec_patchRecord hx with ⟨chosen, record', hread, rfl, rfl⟩ | ⟨e, effect, rfl, rfl, rfl⟩
  · cases hread.symm.trans hrecord.1
    have hvalid : validateRecord target { record with proxied := proxied, ttl := ttl.getD chosen } =
        .ok () := hrecord.2
    have httl : ttl.all (ttl.getD chosen = ·) := by cases ttl <;> simp
    dsimp only
    rw [hvalid]
    dsimp only
    rw [if_pos ⟨rfl, httl⟩]
    refine .ret_alone fun _ => ⟨?_, chosen, rfl⟩
    rintro e ⟨⟩
  · refine .ret_alone fun _ => ⟨?_, trivial⟩
    rintro e' - rfl
    have heffect : effect = none := hallow
    rw [heffect]
    rfl

/-- Only these records were changed. -/
structure Touched (w₀ : CloudflareWorld) (changed : List DnsRecord) (w : CloudflareWorld) : Prop where
  read : ∀ record ∈ changed, w₀.records record.id = some record
  same : ∀ id, id ∉ changed.map (·.id) → w.records id = w₀.records id
  alike : ∀ record ∈ changed, ∃ proxied ttl,
    w.records record.id = some { record with proxied := proxied, ttl := ttl }

section

variable (h : Touched w₀ changed w) (hread : w₀.records record.id = some record)

include h hread

theorem Touched.exists_record :
    ∃ proxied ttl, w.records record.id = some { record with proxied := proxied, ttl := ttl } := by
  by_cases hmem : record.id ∈ changed.map (·.id)
  · obtain ⟨record', hrecord', hid⟩ := mem_map.1 hmem
    have heq := h.read record' hrecord'
    rw [hid, hread] at heq
    cases heq
    exact h.alike record hrecord'
  · exact ⟨record.proxied, record.ttl, by rw [h.same _ hmem, hread]⟩

theorem Touched.patch (proxied : Bool) (ttl : ℕ) :
    Touched w₀ (changed ++ [record]) (w.patch record.id proxied ttl) := by
  obtain ⟨proxied', ttl', hnow⟩ := h.exists_record hread
  have hself := records_patch_self hnow proxied ttl
  constructor
  · intro r hr
    rcases mem_append.1 hr with hr | hr
    · exact h.read r hr
    · rw [mem_singleton.1 hr]
      exact hread
  · intro id hid
    rw [map_append, mem_append, not_or] at hid
    rw [records_patch_of_ne (by simpa using hid.2), h.same id hid.1]
  · intro r hr
    rcases eq_or_ne r.id record.id with heq | hne
    · have hsame : r = record := by
        rcases mem_append.1 hr with hr | hr
        · have hboth := h.read r hr
          rw [heq, hread] at hboth
          exact (Option.some.inj hboth).symm
        · exact mem_singleton.1 hr
      rw [hsame, hself]
      exact ⟨proxied, ttl, rfl⟩
    · rcases mem_append.1 hr with hr | hr
      · rw [records_patch_of_ne hne]
        exact h.alike r hr
      · exact absurd (congrArg (·.id) (mem_singleton.1 hr)) hne

end

theorem Touched.patch_back (h : Touched w₀ (record :: changed) w) :
    Touched w₀ changed (w.patch record.id record.proxied record.ttl) := by
  have hread := h.read record mem_cons_self
  obtain ⟨proxied, ttl, hnow⟩ := h.alike record mem_cons_self
  have hself : (w.patch record.id record.proxied record.ttl).records record.id = some record :=
    records_patch_self hnow record.proxied record.ttl
  refine ⟨fun r hr => h.read r (mem_cons_of_mem _ hr), fun id hid => ?_, fun r hr => ?_⟩
  · rcases eq_or_ne id record.id with rfl | hne
    · rw [hself, hread]
    · rw [records_patch_of_ne hne]
      refine h.same id ?_
      rw [map_cons, mem_cons, not_or]
      exact ⟨hne, hid⟩
  · have hr' := mem_cons_of_mem record hr
    rcases eq_or_ne r.id record.id with heq | hne
    · have hboth := h.read r hr'
      rw [heq, hread] at hboth
      rw [← Option.some.inj hboth, hself]
      exact ⟨record.proxied, record.ttl, rfl⟩
    · rw [records_patch_of_ne hne]
      exact h.alike r hr'

theorem Touched.isRecord (h : Touched w₀ changed w) (hread : w₀.records record.id = some record)
    (hid : target.id = record.id) (hvalid : validateRecord target record = .ok ()) :
    ∃ record', IsRecord w target record' := by
  obtain ⟨proxied, ttl, hnow⟩ := h.exists_record hread
  exact ⟨{ record with proxied := proxied, ttl := ttl }, by rw [hid, hnow], hvalid⟩

theorem switchBack_safe (h : Touched w₀ changed w)
    (hchanged : ∀ record ∈ changed, Touchable backend w₀ record) :
    (backend.switchBack changed).Safe switching .alone
      (fun ok t => ok = true → t.records = w₀.records) w := by
  induction changed generalizing w with
  | nil => exact .ret_alone fun _ _ => funext fun id => h.same id not_mem_nil
  | cons record changed ih =>
    obtain ⟨hread, target, htarget, hid, hvalid⟩ := hchanged record mem_cons_self
    obtain ⟨record', hrecord'⟩ := h.isRecord hread hid hvalid
    rw [switchBack, htarget]
    refine (setRecordState_safe hrecord').bind fun r t _ hr => ?_
    cases r with
    | error e =>
      refine .ret_alone fun _ hfalse => ?_
      cases hfalse
    | ok _ =>
      obtain ⟨-, chosen, rfl⟩ := hr
      rw [hid]
      exact ih h.patch_back fun r hr => hchanged r (mem_cons_of_mem _ hr)

/-- How a switch ends: all records are switched, or all are as they were. -/
def Ended (w₀ : CloudflareWorld) (proxied : Bool) (records : List DnsRecord) :
    Except ProviderError Unit → CloudflareWorld → Prop
  | .ok (), w => ∀ record ∈ records, ∃ now, w.records record.id = some now ∧ now.proxied = proxied
  | .error e, w => e ≠ .partialRollbackFailed → w.records = w₀.records

def Switched (proxied : Bool) (changed : List DnsRecord) (w : CloudflareWorld) : Prop :=
  ∀ record ∈ changed, ∃ now, w.records record.id = some now ∧ now.proxied = proxied

theorem Switched.patch (hswitched : Switched proxied changed w) (h : Touched w₀ changed w)
    (hread : w₀.records record.id = some record) (ttl : ℕ) :
    Switched proxied (changed ++ [record]) (w.patch record.id proxied ttl) := by
  obtain ⟨proxied', ttl', hnow⟩ := h.exists_record hread
  have hself := records_patch_self hnow proxied ttl
  intro r hr
  rcases eq_or_ne r.id record.id with heq | hne
  · exact ⟨_, by rw [heq, hself], rfl⟩
  · rcases mem_append.1 hr with hr | hr
    · rw [records_patch_of_ne hne]
      exact hswitched r hr
    · exact absurd (congrArg (·.id) (mem_singleton.1 hr)) hne

theorem switchRecords_safe {done rest : List DnsRecord} (h : Touched w₀ changed w)
    (hswitched : Switched proxied changed w)
    (hchanged : ∀ record ∈ changed, Touchable backend w₀ record)
    (hrest : ∀ record ∈ rest, Touchable backend w₀ record)
    (hdone : ∀ record ∈ done, w₀.records record.id = some record ∧
      (record.proxied = proxied ∨ record ∈ changed)) :
    (backend.switchRecords proxied changed rest).Safe switching .alone
      (Ended w₀ proxied (done ++ rest)) w := by
  induction rest generalizing w changed done with
  | nil =>
    refine .ret_alone fun _ record hrecord => ?_
    rw [append_nil] at hrecord
    obtain ⟨hread, hproxied⟩ := hdone record hrecord
    by_cases hmem : record.id ∈ changed.map (·.id)
    · obtain ⟨record', hrecord', hid⟩ := mem_map.1 hmem
      rw [← hid]
      exact hswitched record' hrecord'
    · refine ⟨record, by rw [h.same _ hmem, hread], hproxied.resolve_right fun hin => ?_⟩
      exact hmem (mem_map_of_mem hin)
  | cons record rest ih =>
    obtain ⟨hread, target, htarget, hid, hvalid⟩ := hrest record mem_cons_self
    have hrest' : ∀ r ∈ rest, Touchable backend w₀ r := fun r hr => hrest r (mem_cons_of_mem _ hr)
    rw [append_cons, switchRecords]
    split
    · next hsame =>
      -- The record is as requested.
      refine ih h hswitched hchanged hrest' (forall_mem_append.2 ⟨hdone, ?_⟩)
      exact forall_mem_singleton.2 ⟨hread, .inl hsame⟩
    · obtain ⟨record', hrecord'⟩ := h.isRecord hread hid hvalid
      rw [htarget]
      refine (setRecordState_safe hrecord').bind fun r t _ hr => ?_
      cases r with
      | error e =>
        rw [hr.1 e rfl rfl]
        have hreverse : Touched w₀ changed.reverse w :=
          ⟨by simpa using h.read, by simpa using h.same, by simpa using h.alike⟩
        refine (switchBack_safe hreverse (by simpa using hchanged)).bind fun ok u _ hok => ?_
        split
        · next hyes => exact .ret_alone fun _ _ => hok hyes
        · exact .ret_alone fun _ hne => absurd rfl hne
      | ok _ =>
        obtain ⟨-, chosen, rfl⟩ := hr
        rw [hid]
        have hmore : ∀ r ∈ changed ++ [record], Touchable backend w₀ r :=
          forall_mem_append.2 ⟨hchanged, forall_mem_singleton.2 (hrest _ mem_cons_self)⟩
        refine ih (h.patch hread proxied _) (hswitched.patch h hread _) hmore hrest'
          (forall_mem_append.2 ⟨fun r hr => ?_, forall_mem_singleton.2 ?_⟩)
        · exact ⟨(hdone r hr).1, (hdone r hr).2.imp_right (mem_append_left _)⟩
        · exact ⟨hread, .inr (by simp)⟩

theorem setRecordsProxied_safe {recordName : String} :
    (backend.setRecordsProxied recordName proxied).Safe switching .alone
      (fun r t => match r with
        | .ok () => ∀ target ∈ backend.targets recordName,
            ∃ now, t.records target.id = some now ∧ now.proxied = proxied
        | .error e => e ≠ .partialRollbackFailed → t.records = w₀.records) w₀ := by
  refine (readRecords_safe recordName).bind ?_
  rintro r t - ⟨rfl, hr⟩
  cases r with
  | error e => exact .ret_alone fun _ _ => rfl
  | ok records =>
    have htouched : Touched t [] t := ⟨by simp, fun _ _ => rfl, by simp⟩
    have hsafe : (backend.switchRecords proxied [] records).Safe switching .alone
        (Ended t proxied ([] ++ records)) t :=
      switchRecords_safe htouched (by simp [Switched]) (by simp)
        (fun record hrecord => touchable_of_read hr hrecord) (by simp)
    refine hsafe.weaken fun result u _ hended => ?_
    cases result with
    | error e => exact hended
    | ok _ =>
      intro target htarget
      obtain ⟨record, hrecord, hread, hvalid⟩ := AreRecords.read hr target htarget
      rw [← id_of_validateRecord hvalid]
      exact hended record hrecord

/-- If requests to switch a record that fail have no effect, then an error other
    than that of the rollback leaves the records as they were, and otherwise all
    records of the name are switched. -/
theorem setRecordsProxied_all_or_nothing {recordName : String} {proxied : Bool}
    {result : Except ProviderError Unit}
    (hrun : Prog.Runs ⟨exec⟩ Sure (backend.setRecordsProxied recordName proxied) w₀ result w) :
    (∀ e, result = .error e → e ≠ .partialRollbackFailed → w.records = w₀.records) ∧
      (result = .ok () → ∀ target ∈ backend.targets recordName,
        ∃ record, w.records target.id = some record ∧ record.proxied = proxied) := by
  have hended := (hrun.safe (E := switching) setRecordsProxied_safe trivial).1
  cases result with
  | error e =>
    refine ⟨?_, ?_⟩
    · rintro e' ⟨⟩
      exact hended
    · rintro ⟨⟩
  | ok _ =>
    refine ⟨?_, fun _ => hended⟩
    rintro e ⟨⟩

def apexRecord : CloudflareRecordConfig := ⟨"11111111111111111111111111111111", "example.com", .a⟩

def apexRecordV6 : CloudflareRecordConfig :=
  ⟨"22222222222222222222222222222222", "example.com", .aaaa⟩

theorem validateConfiguration_site :
    validateConfiguration "aaaaaaaaaaaaaaaaaaaaaaaaaaaaaaaa" [apexRecord, apexRecordV6] = .ok () := by
  decide

def site : CloudflareBackend where
  zoneId := "aaaaaaaaaaaaaaaaaaaaaaaaaaaaaaaa"
  allowedRecords := [apexRecord, apexRecordV6]
  valid := validateConfiguration_site

/-- The records of the site, which are not proxied. -/
def dnsOnly : CloudflareWorld where
  records id :=
    if id = apexRecord.id then some ⟨id, "example.com", .a, false, true, 120⟩
    else if id = apexRecordV6.id then some ⟨id, "example.com", .aaaa, false, true, 120⟩
    else none
  locked := false

instance (o : CloudflareOp) (x : CloudflareChoice) (w : CloudflareWorld) : Decidable (Sure o x w) :=
  match o, x with
  | .patchRecord _ _ none, .failed _ effect => inferInstanceAs (Decidable (effect = none))
  | .patchRecord _ _ none, .done _ _ | .patchRecord _ _ (some _), _ | .getRecord _, _
  | .getSite _, _ | .isLocked, _ | .lock, _ | .restoreOrigin _, _ => .isTrue trivial

/-- The second record cannot be switched, and the first one is switched back. -/
theorem setRecordsProxied_rolls_back : ∃ result w,
    Prog.Runs ⟨exec⟩ Sure (site.setRecordsProxied "example.com" true) dnsOnly result w ∧
      result = .error .rateLimited ∧ w.records = dnsOnly.records := by
  have hany : ((Prog.run (switching.restrict Sure) [.done 1 true, .done 1 true, .done 1 true,
      .failed .rateLimited none, .done 1 true] (site.setRecordsProxied "example.com" true) dnsOnly).any
        fun r => r.1 = .error .rateLimited) = true := by decide +kernel
  obtain ⟨result, w, hrun, hresult⟩ := Prog.exists_runs_of_run
    (fun (result : Except ProviderError Unit) _ => result = .error .rateLimited) hany
  have heq := of_decide_eq_true hresult
  exact ⟨result, w, hrun, heq, (setRecordsProxied_all_or_nothing hrun).1 _ heq (by decide)⟩

/-- The request for the first record times out after its effect. -/
theorem switched_despite_error : ∃ w,
    Prog.Runs ⟨exec⟩ (fun _ _ _ => True) (site.setRecordsProxied "example.com" true) dnsOnly
      (.error .unavailable) w ∧ w.records apexRecord.id ≠ dnsOnly.records apexRecord.id := by
  have hany : ((Prog.run (switching.restrict fun _ _ _ => True) [.done 1 true, .done 1 true,
      .failed .unavailable (some 1)] (site.setRecordsProxied "example.com" true) dnsOnly).any
        fun r => r.1 = .error .unavailable ∧
          r.2.records apexRecord.id ≠ dnsOnly.records apexRecord.id) = true := by decide +kernel
  obtain ⟨result, w, hrun, hresult⟩ := Prog.exists_runs_of_run
    (fun (result : Except ProviderError Unit) (w : CloudflareWorld) => result = .error .unavailable ∧
      w.records apexRecord.id ≠ dnsOnly.records apexRecord.id) hany
  obtain ⟨rfl, hne⟩ := of_decide_eq_true hresult
  exact ⟨w, hrun, hne⟩

end CloudflareBackend

end VpsGuard
