import Mathlib.Data.List.InsertIdx
import VpsGuard.Auth.PamCalls

/-!
# What is stored of an administrator

An administrator is enrolled (`Issued`), and second factors are verified, side by
side. A recovery code is then stored as long as no call that presents it has put a
credential in its place, and one call at most has (`Stored`); every step keeps this
(`Stored.step`), since digests tell codes apart.

So it is known what a call reads, as long as its operations do not fail
(`Answered`, `Certain`).
-/

namespace VpsGuard

open Effect Effect.Recorded Fallible List PamWorld

namespace PamCall

def isVerify : PamCall → Bool
  | verify _ _ _ => true
  | _ => false

end PamCall

namespace PamMfa

variable {δ : Type} [DecidableEq δ]

/-! ## Codes and digests -/

/-- The call presents the code, in one of its spellings. -/
def Presents (calls : List (ℕ × PamCall)) (username code : List Char) (i : ℕ) : Prop :=
  ∃ factor now, callOf calls i = some (.verify username factor now) ∧
    normalizeRecoveryCode factor = some code

theorem Presents.eq {calls : List (ℕ × PamCall)} {username username' code code' : List Char} {i : ℕ}
    (h : Presents calls username code i) (h' : Presents calls username' code' i) :
    username = username' ∧ code = code' := by
  obtain ⟨factor, now, hcall, hcode⟩ := h
  obtain ⟨factor', now', hcall', hcode'⟩ := h'
  cases hcall.symm.trans hcall'
  exact ⟨rfl, Option.some.inj (hcode.symm.trans hcode')⟩

theorem credentialName_inj {a b : List Char} (h : credentialName a = credentialName b) : a = b :=
  append_cancel_right h

section

variable {crypto : PamCrypto δ} {digest : δ} {digests : List (List Char)} {index : ℕ}

theorem mem_of_digestIndex (h : digestIndex crypto digest digests = some index) :
    some digest ∈ digests.map crypto.decode := by
  obtain ⟨hlt, heq, -⟩ := findIdx?_eq_some_iff_getElem.1 h
  exact mem_map.2 ⟨digests[index], getElem_mem hlt, of_decide_eq_true heq⟩

theorem exists_digestIndex (h : some digest ∈ digests.map crypto.decode) :
    ∃ index, digestIndex crypto digest digests = some index := by
  obtain ⟨encoded, hmem, heq⟩ := mem_map.1 h
  rw [← Option.isSome_iff_exists, digestIndex, findIdx?_isSome, any_eq_true]
  exact ⟨encoded, hmem, decide_eq_true heq⟩

theorem map_decode_eraseIdx (hnodup : (digests.map crypto.decode).Nodup)
    (h : digestIndex crypto digest digests = some index) :
    (digests.eraseIdx index).map crypto.decode =
      (digests.map crypto.decode).erase (some digest) := by
  obtain ⟨hlt, heq, -⟩ := findIdx?_eq_some_iff_getElem.1 h
  have hlt' : index < (digests.map crypto.decode).length := by rwa [length_map]
  have hget : (digests.map crypto.decode)[index] = some digest := by
    rw [getElem_map]
    exact of_decide_eq_true heq
  rw [← hget, hnodup.erase_getElem index hlt', eraseIdx_map]

end

/-! ## What is stored -/

/-- The directory is private, and holds the key and the user's credential. -/
structure Present (crypto : PamCrypto δ) (euid : ℕ) (key : List UInt8) (username : List Char)
    (credential : SealedCredential) (w : PamWorld δ) : Prop where
  user : w.euid = euid
  directory : ∃ metadata, w.directory = some metadata ∧ Private euid metadata
  keyFile : ∃ metadata, w.files.lookup keyFileName = some ⟨metadata, .bytes key⟩ ∧
    Private euid metadata
  file : ∃ metadata, w.files.lookup (credentialName username) =
    some ⟨metadata, .json credential⟩ ∧ Private euid metadata
  named : credential.username = username
  version : credential.schemaVersion = storeSchemaVersion
  opens : (openCredential crypto key credential).isSome

/-- An administrator is enrolled and the codes have not been used; the helper has just
    started. -/
structure Issued (crypto : PamCrypto δ) (key : List UInt8) (username : List Char)
    (codes : List (List Char)) (w : PamWorld δ) : Prop where
  valid : validUsername username
  length : key.length = masterKeyBytes
  present : ∃ credential, Present crypto w.euid key username credential w ∧
    credential.recoveryDigests =
      codes.map fun code => crypto.encode (crypto.recoveryDigest key username code)
  nodup : codes.Nodup
  digits : ∀ code ∈ codes, code.length = 32 ∧ ∀ d ∈ code, RecoveryCode.IsDigit d
  started : w.crash = w

/-! ## What an enrolment writes -/

section

variable {crypto : PamCrypto δ} {euid : ℕ} {username : List Char} {codes : List (List Char)}

/-- A credential that is written is as in `Issued`, for some key. -/
def Issues (crypto : PamCrypto δ) (username : List Char) (codes : List (List Char)) :
    PamOp δ → Prop
  | .writeFile _ (.json credential) => credential.username = username ∧
      credential.schemaVersion = storeSchemaVersion ∧
      ∃ key, (openCredential crypto key credential).isSome ∧ credential.recoveryDigests =
        codes.map fun code => crypto.encode (crypto.recoveryDigest key username code)
  | _ => True

omit [DecidableEq δ]

theorem Quiet.issues {α : Type} {p : Helping δ α} (hp : Quiet p) :
    p.run.Performs (Issues crypto username codes) :=
  hp.mono fun o ho => by cases o <;> trivial

theorem atomicWrite_issues {name : List Char} {content : PamContent}
    (h : ∀ temporary, Issues crypto username codes (.writeFile temporary content)) :
    (atomicWrite crypto euid name content).run.Performs (Issues crypto username codes) := by
  refine performs_bind (performs_ensureDirectory euid).issues fun _ =>
    performs_bind (performs_randomBytes 12).issues fun random => .bind ?_ fun r => ?_
  · exact performs_bind (performs_request trivial) fun _ => performs_bind (performs_request (h _))
      fun _ => performs_bind (performs_request trivial) fun _ =>
        performs_bind (performs_request trivial) fun _ => performs_request trivial
  · cases r with
    | ok _ => trivial
    | error e => exact ⟨trivial, fun _ => trivial⟩

variable {randoms : List (List UInt8)} (hrandoms : ∀ random ∈ randoms, random.length = 16)

include hrandoms

theorem recoveryDigests_display (key : List UInt8) :
    recoveryDigests crypto key username (randoms.map RecoveryCode.display) =
      some ((randoms.map RecoveryCode.digits).map fun code =>
        crypto.encode (crypto.recoveryDigest key username code)) := by
  unfold recoveryDigests
  induction randoms with
  | nil => rfl
  | cons random randoms ih =>
    rw [forall_mem_cons] at hrandoms
    simp [normalizeRecoveryCode_display hrandoms.1, ih hrandoms.2]

/-- A confirmation writes the digests of the codes that it returns. -/
theorem completeEnrollment_issues {pending : PamPendingEnrollment δ} {totpCode : List Char} {now : ℤ}
    (hcodes : pending.recoveryCodes = randoms.map RecoveryCode.display) :
    (completeEnrollment crypto euid pending totpCode now).run.Performs
      (Issues crypto pending.username (randoms.map RecoveryCode.digits)) := by
  refine performs_bind trivial fun secret => performs_bind trivial fun _ =>
    performs_bind trivial fun _ => performs_bind trivial fun _ =>
    performs_bind (performs_ensureDirectory euid).issues fun _ => performs_bind ?_ fun key => ?_
  · refine performs_bind (performs_request trivial) fun found => ?_
    split
    · exact (performs_readKey euid).issues
    · exact performs_bind (performs_randomBytes _).issues fun _ =>
        performs_bind (atomicWrite_issues fun _ => trivial) fun _ => trivial
  · rw [hcodes, recoveryDigests_display hrandoms, ofOption_some_bind]
    refine ⟨trivial, fun nonce => ?_⟩
    cases nonce with
    | error e => trivial
    | ok nonce =>
      refine performs_bind (performs_bind trivial fun _ => atomicWrite_issues fun _ => ?_)
        fun _ => trivial
      exact ⟨rfl, rfl, key, by rw [openCredential, crypto.decrypt_encrypt]; rfl, rfl⟩

end

/-- The code is stored as long as no call that presents it has used it. -/
structure Stored (crypto : PamCrypto δ) (euid : ℕ) (key : List UInt8) (username code : List Char)
    (calls : List (ℕ × PamCall)) (s : PamState δ) : Prop where
  present : ∃ credential, Present crypto euid key username credential s.state ∧
    (credential.recoveryDigests.map crypto.decode).Nodup ∧
    (some (crypto.recoveryDigest key username code) ∈ credential.recoveryDigests.map crypto.decode ↔
      ∀ j, Presents calls username code j → ¬ Sealed j s)
  unique : ∀ i j, Presents calls username code i → Presents calls username code j → Sealed i s →
    Sealed j s → i = j

section

variable {crypto : PamCrypto δ} {euid : ℕ} {key : List UInt8} {username code : List Char}
  {calls : List (ℕ × PamCall)} {i : ℕ} {s t : PamState δ} {credential : SealedCredential}
  {w : PamWorld δ}

omit [DecidableEq δ] in
theorem Present.configured (hname : validUsername username)
    (h : Present crypto euid key username credential w) : configured w = true := by
  obtain ⟨metadata, hfile, -⟩ := h.file
  exact configured_iff.2 ⟨_, isCredentialName_credentialName hname, by rw [hfile]; rfl⟩

theorem private_written (euid : ℕ) : Private euid ⟨true, euid, 0o600⟩ :=
  ⟨rfl, rfl, (by decide : 0o600 &&& 0o077 = 0)⟩

/-- What is there stays there, up to the codes. -/
theorem Present.step (hname : validUsername username)
    (h : Present crypto euid key username credential s.state)
    (hg : Guarantee crypto (· = key) calls i s t) {digests : List (List Char)}
    (hfile : ∃ metadata, t.state.files.lookup (credentialName username) =
      some ⟨metadata, .json { credential with recoveryDigests := digests }⟩ ∧
        Private euid metadata) :
    Present crypto euid key username { credential with recoveryDigests := digests } t.state where
  user := hg.euid.trans h.user
  directory := by
    obtain ⟨metadata, hdirectory, hprivate⟩ := h.directory
    obtain ⟨after, hafter, hkeeps⟩ := hg.directory metadata hdirectory
    rw [h.user] at hkeeps
    exact ⟨after, hafter, hkeeps hprivate⟩
  keyFile := by
    rw [hg.key (h.configured hname)]
    exact h.keyFile
  file := hfile
  named := h.named
  version := h.version
  opens := h.opens

/-- Where the user's credential stays as it is and nobody who presents the code has
    done anything, the code is stored as before. -/
theorem Stored.same (hs : Stored crypto euid key username code calls s)
    (hname : validUsername username) (hg : Guarantee crypto (· = key) calls i s t)
    (hfile : t.state.files.lookup (credentialName username) =
      s.state.files.lookup (credentialName username))
    (hsealed : ∀ j, Presents calls username code j → (Sealed j t ↔ Sealed j s)) :
    Stored crypto euid key username code calls t := by
  obtain ⟨credential, hpresent, hnodup, hiff⟩ := hs.present
  refine ⟨⟨credential, hpresent.step hname hg ?_, hnodup,
    hiff.trans ?_⟩, fun j k hj hk hjt hkt => ?_⟩
  · rw [hfile]
    exact hpresent.file
  · exact forall₂_congr fun j hj => not_congr (hsealed j hj).symm
  · exact hs.unique j k hj hk ((hsealed j hj).1 hjt) ((hsealed k hk).1 hkt)

theorem Stored.step (hinj : Function.Injective (crypto.recoveryDigest key username))
    (hname : validUsername username) (hs : Stored crypto euid key username code calls s)
    (hg : Guarantee crypto (· = key) calls i s t) :
    Stored crypto euid key username code calls t := by
  cases hg.change with
  | nothing hsame hsealed =>
    exact hs.same hname hg (hsame _ (isCredentialName_credentialName hname)) fun j _ => hsealed j
  | first hnone _ _ _ _ =>
    obtain ⟨credential, hpresent, -⟩ := hs.present
    cases hnone.symm.trans (hpresent.configured hname)
  | @used username' factor code' now key' file credential' index hcall _ hcode hkey hfile hcontent
      hnamed hindex ht hothers hsealed =>
    cases hkey
    have hi : Presents calls username' code' i := ⟨factor, now, hcall, hcode⟩
    -- Who presents this code for this user did nothing, unless it is the call that moved.
    have hsame : ¬ (username' = username ∧ code' = code) →
        ∀ j, Presents calls username code j → (Sealed j t ↔ Sealed j s) := by
      intro hne j hj
      rw [hsealed]
      refine or_iff_left ?_
      rintro rfl
      exact hne (hi.eq hj)
    by_cases husername : username' = username
    · subst husername
      obtain ⟨credential, hpresent, hnodup, hiff⟩ := hs.present
      obtain ⟨metadata, hfile', -⟩ := hpresent.file
      cases hfile.symm.trans hfile'
      cases hcontent
      have hpresent' := hpresent.step hname hg
        ⟨_, ht, by rw [hpresent.user]; exact private_written euid⟩
      have herase := map_decode_eraseIdx hnodup hindex
      have hnodup' : ((credential'.recoveryDigests.eraseIdx index).map crypto.decode).Nodup := by
        rw [herase]
        exact hnodup.erase _
      by_cases heq : code' = code
      · -- The code is used up by the first who does.
        subst heq
        have hnobody := hiff.1 (mem_of_digestIndex hindex)
        have hwho : ∀ j, Presents calls username' code' j → Sealed j t → j = i :=
          fun j hj hjt => ((hsealed j).1 hjt).resolve_left (hnobody j hj)
        refine ⟨⟨_, hpresent', hnodup', ?_⟩, fun j k hj hk hjt hkt =>
          (hwho j hj hjt).trans (hwho k hk hkt).symm⟩
        rw [herase, hnodup.mem_erase_iff]
        exact ⟨fun h => absurd rfl h.1, fun h => absurd ((hsealed i).2 (.inr rfl)) (h i hi)⟩
      · have hsealed' := hsame fun h => heq h.2
        refine ⟨⟨_, hpresent', hnodup', ?_⟩, fun j k hj hk hjt hkt =>
          hs.unique j k hj hk ((hsealed' j hj).1 hjt) ((hsealed' k hk).1 hkt)⟩
        have hne : crypto.recoveryDigest key username' code ≠
            crypto.recoveryDigest key username' code' := fun h => heq (hinj h).symm
        rw [herase, hnodup.mem_erase_iff]
        simp only [ne_eq, Option.some.injEq, hne, not_false_eq_true, true_and]
        exact hiff.trans (forall₂_congr fun j hj => not_congr (hsealed' j hj).symm)
    · refine hs.same hname hg ?_ (hsame fun h => husername h.1)
      exact hothers _ (isCredentialName_credentialName hname) fun h =>
        husername (credentialName_inj h).symm

omit [DecidableEq δ] in
theorem Issued.stored {codes : List (List Char)}
    (hinj : Function.Injective (crypto.recoveryDigest key username))
    (hw : Issued crypto key username codes w) (hcode : code ∈ codes) :
    Stored crypto w.euid key username code calls ⟨w, []⟩ := by
  obtain ⟨credential, hpresent, hdigests⟩ := hw.present
  have hmap : credential.recoveryDigests.map crypto.decode =
      codes.map fun code => some (crypto.recoveryDigest key username code) := by
    rw [hdigests, map_map]
    exact map_congr_left fun code _ => crypto.decode_encode _
  refine ⟨⟨credential, hpresent, ?_, ?_⟩, fun _ _ _ _ h => absurd h not_did_nil⟩
  · rw [hmap]
    exact hw.nodup.map fun a b h => hinj (Option.some.inj h)
  · rw [hmap]
    exact iff_of_true (mem_map_of_mem hcode) fun _ _ => not_did_nil

end

/-! ## What a call reads -/

/-- How operations are answered that do not fail, where everything is present. -/
def Answered (euid : ℕ) (key : List UInt8) (username : List Char) (credential : SealedCredential) :
    (o : PamOp δ) → o.Ans → Prop
  | .random _, a => ∃ bytes, a = .ok bytes
  | .directoryExists, a => a = true
  | .directoryMetadata, a => ∃ metadata, a = .ok metadata ∧ Private euid metadata
  | .chmodDirectory, a => a = .ok ()
  | .syncDirectory, a => a = .ok ()
  | .syncFile _, a => a = .ok ()
  | .fileExists name, a => name = keyFileName ∨ name = credentialName username → a = true
  | .fileMetadata name, a => name = keyFileName ∨ name = credentialName username →
    ∃ metadata, a = .ok metadata ∧ Private euid metadata
  | .readFile name, a => (name = keyFileName → a = .ok (.bytes key)) ∧
    (name = credentialName username → a = .ok (.json credential))
  | _, _ => True

section

variable {crypto : PamCrypto δ} {euid : ℕ} {key : List UInt8} {username code : List Char}
  {credential : SealedCredential}

omit [DecidableEq δ] in
theorem answered_of_exec {i : ℕ} {o : PamOp δ} {x : PamChoice} {a : o.Ans} {w w' : PamWorld δ}
    (hw : Present crypto euid key username credential w) (hx : x.succeeds)
    (h : exec i o x w = some (a, w')) : Answered euid key username credential o a := by
  obtain ⟨directory, hdirectory, hprivate⟩ := hw.directory
  obtain ⟨keyMetadata, hkey, hkeyPrivate⟩ := hw.keyFile
  obtain ⟨metadata, hfile, hfilePrivate⟩ := hw.file
  cases x with
  | failed | torn => cases hx
  | listed => cases o <;> trivial
  | drawn =>
    cases o with
    | random n =>
      simp only [exec, Option.ite_none_right_eq_some] at h
      cases h.2
      exact ⟨_, rfl⟩
    | _ => trivial
  | done =>
    cases o with
    | fileExists name =>
      rintro (rfl | rfl)
      all_goals
        simp [exec, hkey, hfile] at h
        exact h.1
    | fileMetadata name =>
      rintro (rfl | rfl)
      · simp [exec, hkey] at h
        exact ⟨_, h.1.symm, hkeyPrivate⟩
      · simp [exec, hfile] at h
        exact ⟨_, h.1.symm, hfilePrivate⟩
    | readFile name =>
      constructor
      all_goals
        rintro rfl
        simp [exec, hkey, hfile] at h
        exact h.1.symm
    | directoryMetadata =>
      simp [exec, hdirectory] at h
      exact ⟨directory, h.1.symm, hprivate⟩
    | directoryExists | chmodDirectory | syncDirectory | syncFile =>
      simp [exec, hdirectory] at h
      simp [Answered, h.1]
    | _ => trivial

/-- A part that only reads returns a value as `Z` says, where everything is present and
    nothing fails. -/
abbrev Certain (euid : ℕ) (key : List UInt8) (username : List Char) (credential : SealedCredential)
    {α : Type} (p : Helping δ α) (Z : α → Prop) : Prop :=
  p.run.Meets IsQuiet (Answered euid key username credential) (Result Z fun _ => False)

omit [DecidableEq δ] in
theorem certain_validateDirectory :
    Certain euid key username credential (validateDirectory euid : Fallible (Pam δ) _ _)
      fun _ => True := by
  refine meets_bind (Z := Private euid) (meets_request trivial ?_) fun metadata h => ?_
  · rintro _ ⟨metadata, rfl, h⟩
    exact h
  · exact meets_ensure (absurd h) fun _ => trivial

variable {name : List Char}

omit [DecidableEq δ] in
theorem certain_validateSecretFile (hname : name = keyFileName ∨ name = credentialName username) :
    Certain euid key username credential (validateSecretFile euid name : Fallible (Pam δ) _ _) fun
      _ => True := by
  refine meets_bind (Z := Private euid) (meets_request trivial fun a ha => ?_) fun metadata h => ?_
  · obtain ⟨metadata, rfl, h⟩ := ha hname
    exact h
  · exact meets_ensure (absurd h) fun _ => trivial

omit [DecidableEq δ] in
theorem certain_fileExists (hname : name = keyFileName ∨ name = credentialName username) :
    Certain euid key username credential (request (.fileExists name) .ok : Fallible (Pam δ) _ _)
      (· = true) :=
  meets_request trivial fun _ ha => ha hname

omit [DecidableEq δ] in
theorem certain_loadExistingKey (hkey : key.length = masterKeyBytes) :
    Certain euid key username credential (loadExistingKey euid : Fallible (Pam δ) _ _)
      (· = key) := by
  refine meets_bind (certain_fileExists (.inl rfl)) ?_
  rintro _ rfl
  refine meets_bind (certain_validateSecretFile (.inl rfl)) fun _ _ => ?_
  refine meets_bind (Z := (· = .bytes key)) (meets_request trivial fun a ha => ?_) ?_
  · rw [ha.1 rfl]
    rfl
  · rintro _ rfl
    exact meets_bind (Z := fun _ => True) (meets_ensure (absurd hkey) fun _ => trivial)
      fun _ _ => rfl

omit [DecidableEq δ] in
theorem certain_readCredential : Certain euid key username credential
      (readCredential euid (credentialName username) : Fallible (Pam δ) _ _) (· = credential) := by
  refine meets_bind (certain_validateSecretFile (.inr rfl)) fun _ _ => ?_
  refine meets_bind (Z := (· = .json credential)) (meets_request trivial fun a ha => ?_) ?_
  · rw [ha.2 rfl]
    rfl
  · rintro _ rfl
    exact rfl

omit [DecidableEq δ] in
theorem certain_ensureDirectory :
    Certain euid key username credential (ensureDirectory euid : Fallible (Pam δ) _ _)
      fun _ => True := by
  refine meets_bind (Z := (· = true)) (meets_request trivial fun a ha => ha) ?_
  rintro _ rfl
  refine meets_bind certain_validateDirectory fun _ _ => meets_request trivial ?_
  rintro _ rfl
  trivial

omit [DecidableEq δ] in
theorem certain_randomBytes (n : ℕ) :
    Certain euid key username credential (randomBytes n : Fallible (Pam δ) _ _) fun _ => True := by
  refine meets_request trivial ?_
  rintro _ ⟨bytes, rfl⟩
  trivial

end

end PamMfa

end VpsGuard
