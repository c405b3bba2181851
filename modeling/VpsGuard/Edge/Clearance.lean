import Mathlib.Logic.Equiv.List
import VpsGuard.Core.Policy
import VpsGuard.Text.Words

/-!
# Clearances

A client that was challenged and came back has a cookie that says so. The
cookie is signed by the edge, for the address of the client and until a time
(`issueCookie`, `verifyCookie`).

The signatures, and their encoding as text, are those of libraries, and so are
addresses as text. They are given by a `ClearanceCodec`.
-/

namespace VpsGuard

open List Text Option

/-- What is taken from libraries. -/
structure ClearanceCodec where
  /-- The signature of a text, with a secret. -/
  hmacSha256 : List UInt8 → List Char → List UInt8
  encode : List UInt8 → List Char
  decode : List Char → Option (List UInt8)
  printIp : IpAddr → List Char

/-- The key for clearances, and how long one is valid. -/
structure ClearanceSigner where
  secret : List UInt8
  ttlSeconds : ℕ
  /-- Weak secrets are refused. -/
  strong : 32 ≤ secret.length

def cookieName : List Char := "vps_guard_clearance".toList

def findCookie (header : List Char) : Option (List Char) :=
  (header.splitOn ';').findSome? fun entry =>
    (splitOnce '=' (trim entry)).bind fun parts =>
      if parts.1 = cookieName then some parts.2 else none

namespace ClearanceSigner

variable (C : ClearanceCodec) (signer : ClearanceSigner)

/-- What makes a clearance valid for this address and until this time. -/
def signature (clientIp : IpAddr) (expires : ℕ) : List UInt8 :=
  C.hmacSha256 signer.secret (C.printIp clientIp ++ '|' :: Nat.toDigits 10 expires)

/-- A clearance, as a header sets it. -/
def issueCookie (clientIp : IpAddr) (nowUnix : ℕ) (secure : Bool) : List Char :=
  let expires := saturatingAdd 64 nowUnix signer.ttlSeconds
  let token := "v1.".toList ++ Nat.toDigits 10 expires ++
    '.' :: C.encode (signer.signature C clientIp expires)
  cookieName ++ '=' :: token ++ "; Max-Age=".toList ++ Nat.toDigits 10 signer.ttlSeconds ++
    "; Path=/; HttpOnly; SameSite=Strict".toList ++ (if secure then "; Secure".toList else [])

/-- The cookies of a request have a clearance for the client, which has not expired. -/
def verifyCookie (header : Option (List Char)) (clientIp : IpAddr) (nowUnix : ℕ) : Bool :=
  match (header.bind findCookie).map (·.splitOn '.') with
  | some [version, expires, encodedSignature] =>
    version = "v1".toList && (parseUnsigned (2 ^ 64) expires).any fun expires =>
      expires > nowUnix && C.decode encodedSignature = some (signer.signature C clientIp expires)
  | _ => false

end ClearanceSigner

/-! ## What a clearance proves -/

/-- The character is black, and divides neither values nor cookies. -/
def IsPlain (c : Char) : Prop := (33 ≤ c.toNat ∧ c.toNat ≤ 126) ∧ c ≠ '.' ∧ c ≠ ';'

instance : DecidablePred IsPlain := fun _ => inferInstanceAs (Decidable (_ ∧ _))

theorem isPlain_of_mem_toDigits {n : ℕ} {c : Char} (hc : c ∈ Nat.toDigits 10 n) : IsPlain c := by
  have hcode := toNat_of_isDigit (isDigit_of_mem_toDigits hc)
  refine ⟨by omega, ?_, ?_⟩ <;> rintro rfl <;> exact absurd hcode (by decide)

/-- Signatures tell of the secret and the text, and are read back from their encoding.
    Addresses are told apart by their texts. -/
structure ClearanceCodec.Ideal (C : ClearanceCodec) : Prop where
  hmac_inj : ∀ key text key' text', C.hmacSha256 key text = C.hmacSha256 key' text' →
    key = key' ∧ text = text'
  decode_encode : ∀ tag, C.decode (C.encode tag) = some tag
  plain : ∀ tag, ∀ c ∈ C.encode tag, IsPlain c
  printIp_inj : ∀ ip ip', C.printIp ip = C.printIp ip' → ip = ip'
  bar_not_mem : ∀ ip, '|' ∉ C.printIp ip

/-- The entry of a header is a cookie of the name, with a value. -/
def IsClearance (entry value : List Char) : Prop :=
  splitOnce '=' (trim entry) = some (cookieName, value)

theorem findCookie_eq_some_iff {header value : List Char} :
    findCookie header = some value ↔ ∃ before entry after,
      header.splitOn ';' = before ++ entry :: after ∧ IsClearance entry value ∧
        ∀ other ∈ before, ∀ v, ¬ IsClearance other v := by
  have hentry (entry : List Char) (v : List Char) :
      ((splitOnce '=' (trim entry)).bind fun parts =>
        if parts.1 = cookieName then some parts.2 else none) = some v ↔ IsClearance entry v := by
    unfold IsClearance
    cases splitOnce '=' (trim entry) with
    | none => simp
    | some parts => simp [Prod.ext_iff]
  rw [findCookie, findSome?_eq_some_iff]
  simp only [hentry, eq_none_iff_forall_ne_some, ne_eq]

namespace ClearanceSigner

variable {C : ClearanceCodec} {signer : ClearanceSigner}

def token (C : ClearanceCodec) (signer : ClearanceSigner) (clientIp : IpAddr) (expires : ℕ) :
    List Char :=
  ['.'].intercalate ["v1".toList, Nat.toDigits 10 expires,
    C.encode (signer.signature C clientIp expires)]

theorem signature_inj (hC : C.Ideal) {signer' : ClearanceSigner} {ip ip' : IpAddr}
    {expires expires' : ℕ}
    (h : signer'.signature C ip' expires' = signer.signature C ip expires) :
    signer'.secret = signer.secret ∧ ip' = ip ∧ expires' = expires := by
  obtain ⟨hsecret, htext⟩ := hC.hmac_inj _ _ _ _ h
  have hsplit := congrArg (splitOnce '|') htext
  rw [splitOnce_append (hC.bar_not_mem ip'), splitOnce_append (hC.bar_not_mem ip),
    some_inj, Prod.mk.injEq] at hsplit
  refine ⟨hsecret, hC.printIp_inj _ _ hsplit.1, ?_⟩
  have hdigits := congrArg (Nat.ofDigitChars 10 · 0) hsplit.2
  simpa only [Nat.ofDigitChars_ten_toDigits] using hdigits

theorem isPlain_of_mem_parts (hC : C.Ideal) (signer : ClearanceSigner) (ip : IpAddr) (expires : ℕ) :
    ∀ part ∈ ["v1".toList, Nat.toDigits 10 expires, C.encode (signer.signature C ip expires)],
      ∀ c ∈ part, IsPlain c := by
  have hversion : "v1".toList.all (IsPlain ·) := by decide
  simp only [forall_mem_cons, not_mem_nil, false_implies, implies_true, and_true]
  exact ⟨fun c hc => of_decide_eq_true (all_eq_true.1 hversion c hc),
    fun _ => isPlain_of_mem_toDigits, hC.plain _⟩

theorem splitOn_token (hC : C.Ideal) (ip : IpAddr) (expires : ℕ) :
    (signer.token C ip expires).splitOn '.' =
      ["v1".toList, Nat.toDigits 10 expires, C.encode (signer.signature C ip expires)] :=
  splitOn_intercalate '.'
    (fun part hpart hdot => (isPlain_of_mem_parts hC signer ip expires part hpart _ hdot).2.1 rfl)
    (cons_ne_nil _ _)

theorem token_eq (ip : IpAddr) (expires : ℕ) :
    signer.token C ip expires = "v1.".toList ++ Nat.toDigits 10 expires ++
      '.' :: C.encode (signer.signature C ip expires) := by
  have hversion : "v1.".toList = "v1".toList ++ ['.'] := by decide
  rw [token, intercalate_cons_cons, intercalate_cons_cons, intercalate_singleton, hversion]
  simp only [append_assoc, cons_append, nil_append]

theorem black_token (hC : C.Ideal) (ip : IpAddr) (expires : ℕ) :
    ∀ c ∈ cookieName ++ '=' :: signer.token C ip expires,
      (33 ≤ c.toNat ∧ c.toNat ≤ 126) ∧ c ≠ ';' := by
  have hparts := isPlain_of_mem_parts hC signer ip expires
  have hname : cookieName.all (IsPlain ·) := by decide
  have hlead : "v1.".toList.all fun c => (33 ≤ c.toNat ∧ c.toNat ≤ 126) ∧ c ≠ ';' := by decide
  simp only [forall_mem_cons] at hparts
  intro c hc
  rw [token_eq] at hc
  simp only [mem_append, mem_cons] at hc
  rcases hc with hc | rfl | (hc | hc) | rfl | hc
  · have hplain : IsPlain c := of_decide_eq_true (all_eq_true.1 hname c hc)
    exact ⟨hplain.1, hplain.2.2⟩
  · decide
  · exact of_decide_eq_true (all_eq_true.1 hlead c hc)
  · exact ⟨(hparts.2.1 c hc).1, (hparts.2.1 c hc).2.2⟩
  · decide
  · exact ⟨(hparts.2.2.1 c hc).1, (hparts.2.2.1 c hc).2.2⟩

theorem takeWhile_issueCookie (hC : C.Ideal) (ip : IpAddr) (now : ℕ) (secure : Bool) :
    (signer.issueCookie C ip now secure).takeWhile (· ≠ ';') =
      cookieName ++ '=' :: signer.token C ip (saturatingAdd 64 now signer.ttlSeconds) := by
  have hage : "; Max-Age=".toList = ';' :: " Max-Age=".toList := by decide
  have hblack : ∀ c ∈ cookieName ++
      '=' :: signer.token C ip (saturatingAdd 64 now signer.ttlSeconds), decide (c ≠ ';') = true :=
    fun c hc => decide_eq_true (black_token hC ip _ c hc).2
  unfold issueCookie
  dsimp only
  rw [← token_eq, hage]
  generalize "; Path=/; HttpOnly; SameSite=Strict".toList = path
  generalize (if secure then "; Secure".toList else []) = last
  generalize " Max-Age=".toList = age
  rw [append_assoc, append_assoc, append_assoc, takeWhile_append_of_pos hblack]
  simp

theorem isClearance_issueCookie (hC : C.Ideal) {ip : IpAddr} {now : ℕ} {secure : Bool}
    {entry : List Char} (h : trim entry =
      trim ((signer.issueCookie C ip now secure).takeWhile (· ≠ ';'))) :
    IsClearance entry (signer.token C ip (saturatingAdd 64 now signer.ttlSeconds)) := by
  rw [takeWhile_issueCookie hC,
    trim_eq_self fun c hc => not_isWhitespace (black_token hC ip _ c hc).1] at h
  rw [IsClearance, h]
  have hname : '=' ∉ cookieName := by decide
  exact splitOnce_append hname _

theorem verifyCookie_iff {header : Option (List Char)} {ip : IpAddr} {now : ℕ} :
    signer.verifyCookie C header ip now = true ↔ ∃ text value expires digits encoded,
      header = some text ∧ findCookie text = some value ∧
      value.splitOn '.' = ["v1".toList, digits, encoded] ∧
      parseUnsigned (2 ^ 64) digits = some expires ∧ now < expires ∧
      C.decode encoded = some (signer.signature C ip expires) := by
  rw [verifyCookie]
  constructor
  · intro h
    split at h
    · next version digits encoded hvalue =>
      obtain ⟨value, hcookie, hsplit⟩ := map_eq_some_iff.1 hvalue
      obtain ⟨text, hheader, hfind⟩ := bind_eq_some_iff.1 hcookie
      rw [Bool.and_eq_true, decide_eq_true_eq, Option.any_eq_true] at h
      obtain ⟨rfl, expires, hdigits, htag⟩ := h
      rw [Bool.and_eq_true, decide_eq_true_eq, decide_eq_true_eq] at htag
      exact ⟨text, value, expires, digits, encoded, hheader, hfind, hsplit, hdigits, htag⟩
    · cases h
  · rintro ⟨text, value, expires, digits, encoded, rfl, hfind, hsplit, hdigits, hnow, hcode⟩
    simp only [bind_some, hfind, map_some, hsplit, hdigits, any_some, hcode,
      decide_true, Bool.and_true, gt_iff_lt, hnow]

/-- A clearance that was issued is accepted for its address until it expires, wherever
    it is among the cookies. What is accepted has a signature for the address and a time
    that is still to come, and for no other. -/
theorem verifyCookie_bound (hC : C.Ideal) : (∀ ip t secure header before entry after now,
      header.splitOn ';' = before ++ entry :: after →
      (∀ other ∈ before, ∀ value, ¬ IsClearance other value) →
      trim entry = trim ((signer.issueCookie C ip t secure).takeWhile (· ≠ ';')) →
      now < min (t + signer.ttlSeconds) (2 ^ 64 - 1) →
      signer.verifyCookie C (some header) ip now = true) ∧
    ∀ header ip now, signer.verifyCookie C header ip now = true →
      ∃ text before entry after value digits encoded expires,
        header = some text ∧ text.splitOn ';' = before ++ entry :: after ∧
        (∀ other ∈ before, ∀ value, ¬ IsClearance other value) ∧ IsClearance entry value ∧
        value.splitOn '.' = ["v1".toList, digits, encoded] ∧
        parseUnsigned (2 ^ 64) digits = some expires ∧ now < expires ∧
        C.decode encoded = some (signer.signature C ip expires) ∧
        ∀ (signer' : ClearanceSigner) ip' expires',
          C.decode encoded = some (signer'.signature C ip' expires') →
          signer'.secret = signer.secret ∧ ip' = ip ∧ expires' = expires := by
  constructor
  · intro ip t secure header before entry after now hheader hfirst hentry hnow
    have hcookie : findCookie header =
        some (signer.token C ip (saturatingAdd 64 t signer.ttlSeconds)) :=
      findCookie_eq_some_iff.2
        ⟨before, entry, after, hheader, isClearance_issueCookie hC hentry, hfirst⟩
    have hexpires : saturatingAdd 64 t signer.ttlSeconds < 2 ^ 64 := by
      rw [saturatingAdd]
      omega
    refine verifyCookie_iff.2 ⟨header, _, saturatingAdd 64 t signer.ttlSeconds, _, _, rfl, hcookie,
      splitOn_token hC ip _, ?_, hnow, hC.decode_encode _⟩
    rw [parseUnsigned_toDigits, if_pos hexpires]
  · intro header ip now h
    obtain ⟨text, value, expires, digits, encoded, hheader, hcookie, hvalue, hdigits, hnow, hcode⟩ :=
      verifyCookie_iff.1 h
    obtain ⟨before, entry, after, hsplit, hentry, hfirst⟩ := findCookie_eq_some_iff.1 hcookie
    refine ⟨text, before, entry, after, value, digits, encoded, expires, hheader, hsplit, hfirst,
      hentry, hvalue, hdigits, hnow, hcode, fun signer' ip' expires' hother => ?_⟩
    exact signature_inj hC (some_inj.1 (hother.symm.trans hcode))

def numbered : ClearanceCodec where
  hmacSha256 key text :=
    List.replicate (Encodable.encode (key.map UInt8.toNat, text.map Char.toNat)) 0
  encode tag := Nat.toDigits 10 (Encodable.encode (tag.map UInt8.toNat))
  decode text := (Encodable.decode (α := List ℕ) (Nat.ofDigitChars 10 text 0)).map
    (·.map UInt8.ofNat)
  printIp
    | .v4 a => '4' :: Nat.toDigits 10 a.toNat
    | .v6 a => '6' :: Nat.toDigits 10 a.toNat

theorem numbered_ideal : numbered.Ideal where
  hmac_inj key text key' text' h := by
    have hcode := congrArg List.length h
    simp only [numbered, length_replicate] at hcode
    have hpair := Encodable.encode_injective hcode
    rw [Prod.mk.injEq] at hpair
    exact ⟨map_injective_iff.2 (fun a b => UInt8.toNat_inj.1) hpair.1,
      map_injective_iff.2 (fun a b => Char.toNat_inj.1) hpair.2⟩
  decode_encode tag := by simp [numbered, Function.comp_def]
  plain tag c hc := isPlain_of_mem_toDigits hc
  printIp_inj ip ip' h := by
    have hdigits {m n : ℕ} (hmn : Nat.toDigits 10 m = Nat.toDigits 10 n) : m = n := by
      simpa only [Nat.ofDigitChars_ten_toDigits] using congrArg (Nat.ofDigitChars 10 · 0) hmn
    cases ip <;> cases ip' <;> rw [numbered, List.cons.injEq] at h
    · rw [BitVec.eq_of_toNat_eq (hdigits h.2)]
    · exact absurd h.1 (by decide)
    · exact absurd h.1 (by decide)
    · rw [BitVec.eq_of_toNat_eq (hdigits h.2)]
  bar_not_mem ip h := by
    have hdigits {n : ℕ} : '|' ∉ Nat.toDigits 10 n := fun hbar =>
      absurd (isDigit_of_mem_toDigits hbar) (by decide)
    cases ip <;> simp [numbered, hdigits] at h

def hourly : ClearanceSigner := ⟨List.replicate 32 7, 3600, by decide⟩

theorem verifyCookie_bound_hourly : hourly.verifyCookie numbered
      (some ((hourly.issueCookie numbered (.v4 0xC6336407) 1000 true).takeWhile (· ≠ ';')))
      (.v4 0xC6336407) 4599 = true := by
  have hcookie : ';' ∉ (hourly.issueCookie numbered (.v4 0xC6336407) 1000 true).takeWhile
      (· ≠ ';') := fun h => absurd (mem_takeWhile_imp h) (by decide)
  exact (verifyCookie_bound numbered_ideal).1 _ 1000 true _ [] _ [] _
    (Text.splitOn_eq_singleton hcookie) (forall_mem_nil _) rfl (by decide)

/-- At the end of time nothing is accepted. -/
theorem verifyCookie_endOfTime : 2 ^ 64 - 1 < 2 ^ 64 - 2 + hourly.ttlSeconds ∧
    hourly.verifyCookie numbered (some ((hourly.issueCookie numbered (.v4 0xC6336407) (2 ^ 64 - 2)
      true).takeWhile (· ≠ ';'))) (.v4 0xC6336407) (2 ^ 64 - 1) = false := by
  refine ⟨by decide, Bool.eq_false_iff.2 fun h => ?_⟩
  obtain ⟨text, value, expires, digits, encoded, hheader, hcookie, hvalue, hdigits, hnow, hcode⟩ :=
    verifyCookie_iff.1 h
  have := parseUnsigned_lt hdigits
  omega

end ClearanceSigner

end VpsGuard
