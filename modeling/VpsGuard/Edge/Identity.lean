import VpsGuard.Edge.Observation
import VpsGuard.Text.Words

/-!
# Whom a request is from, and whom it is for

A request says two things of itself that anybody may write: whom it was
forwarded for, and the host that it is for.

* Of a chain of addresses, the ones that trusted proxies have appended are passed
  over from the right. What the client has written comes before them, and before
  the address that the first proxy has seen. It can make the whole chain void,
  but it cannot put another address in the place of that one
  (`effectiveClientIp_forwardedChain`).
* A host is compared without its port, its dots at the end and its case. What is
  taken for a port may be any text, and so may what follows a bracket
  (`hostAllowed_evil`). What is accepted is a spelling of an allowed host exactly
  if it has no bracket, has a number for a port if it has one, and needs no rule
  in brackets (`hostAllowed_spells`).
-/

namespace VpsGuard

open List Text Option

/-! ## Forwarded addresses -/

/-- A header to which proxies have appended addresses. What was given before them
    may be anything. -/
def forwardedChain (given : List Char) (added : List (List Char)) : List Char :=
  if given = [] then [','].intercalate added else given ++ ',' :: [','].intercalate added

section Forwarded

variable {parseIp : List Char → Option IpAddr} {trustedProxies : List IpNet} {directPeer : IpAddr}

theorem effectiveClientIp_of_not_trusted (h : ¬ ipIsTrusted directPeer trustedProxies)
    (forwardedFor : Option (List Char)) :
    effectiveClientIp parseIp directPeer forwardedFor trustedProxies = directPeer := by
  rw [effectiveClientIp.eq_def, if_pos (by simpa using h)]

theorem effectiveClientIp_of_chain (h : ipIsTrusted directPeer trustedProxies)
    {rawChain : List Char} {before after : List IpAddr} {client : IpAddr}
    (hchain : ((rawChain.splitOn ',').mapM fun part => parseIp (trim part)) =
      some (before ++ client :: after))
    (hclient : ¬ ipIsTrusted client trustedProxies)
    (hafter : ∀ ip ∈ after, ipIsTrusted ip trustedProxies) :
    effectiveClientIp parseIp directPeer (some rawChain) trustedProxies = client := by
  have hfind : (before ++ client :: after).reverse.find?
      (fun ip => !ipIsTrusted ip trustedProxies) = some client := by
    have hnone : after.reverse.find? (fun ip => !ipIsTrusted ip trustedProxies) = none :=
      find?_eq_none.2 fun ip hip => by simpa using hafter ip (mem_reverse.1 hip)
    rw [reverse_append, reverse_cons, append_assoc, find?_append, hnone,
      none_or, singleton_append, find?_cons_of_pos (by simpa using hclient)]
  rw [effectiveClientIp, if_neg (by simpa using h)]
  simp only [hchain]
  generalize hlist : before ++ client :: after = chain at hfind
  cases chain with
  | nil => exact absurd hlist (by simp)
  | cons first rest =>
    change (((first :: rest).reverse.find? _).getD first) = client
    rw [hfind, getD_some]

theorem effectiveClientIp_of_void {rawChain : List Char}
    (hchain : ((rawChain.splitOn ',').mapM fun part => parseIp (trim part)) = none) :
    effectiveClientIp parseIp directPeer (some rawChain) trustedProxies = directPeer := by
  rw [effectiveClientIp]
  split
  · rfl
  · simp only [hchain]

theorem splitOn_forwardedChain (given : List Char) {added : List (List Char)}
    (hadded : ∀ part ∈ added, ',' ∉ part) (hne : added ≠ []) :
    (forwardedChain given added).splitOn ',' =
      (if given = [] then [] else given.splitOn ',') ++ added := by
  rw [forwardedChain]
  split
  · rw [splitOn_intercalate _ hadded hne, nil_append]
  · rw [splitOn_append_cons_self, splitOn_intercalate _ hadded hne]

variable {texts : List (List Char)}

theorem mapM_of_trusted
    (h : ∀ text ∈ texts, ∃ ip, parseIp (trim text) = some ip ∧ ipIsTrusted ip trustedProxies) :
    ∃ ips, (texts.mapM fun part => parseIp (trim part)) = some ips ∧
      ∀ ip ∈ ips, ipIsTrusted ip trustedProxies := by
  induction texts with
  | nil => exact ⟨[], rfl, by simp⟩
  | cons text texts ih =>
    obtain ⟨ip, hip, htrusted⟩ := h text mem_cons_self
    obtain ⟨ips, hips, hall⟩ := ih fun t ht => h t (mem_cons_of_mem _ ht)
    exact ⟨ip :: ips, by simp [mapM_cons, hip, hips], by simpa using ⟨htrusted, hall⟩⟩

theorem mapM_isSome_iff : (texts.mapM fun part => parseIp (trim part)).isSome ↔
      ∀ text ∈ texts, (parseIp (trim text)).isSome := by
  induction texts with
  | nil => simp
  | cons text texts ih =>
    rw [mapM_cons, forall_mem_cons, ← ih]
    cases parseIp (trim text) <;> cases texts.mapM fun part => parseIp (trim part) <;> simp

end Forwarded

/-- Behind trusted proxies, the client is the one that the first of them has seen,
    whatever the client has written before it, as long as that is a chain of
    addresses. Otherwise it is the peer. -/
theorem effectiveClientIp_forwardedChain (parseIp : List Char → Option IpAddr)
    (trustedProxies : List IpNet) (directPeer : IpAddr) (given clientText : List Char)
    (client : IpAddr) (added : List (List Char))
    (hclient : ',' ∉ clientText ∧ parseIp (trim clientText) = some client)
    (huntrusted : ¬ ipIsTrusted client trustedProxies)
    (hadded : ∀ text ∈ added, ',' ∉ text ∧
      ∃ ip, parseIp (trim text) = some ip ∧ ipIsTrusted ip trustedProxies) :
    effectiveClientIp parseIp directPeer (some (forwardedChain given (clientText :: added)))
        trustedProxies =
      (if ipIsTrusted directPeer trustedProxies ∧
          (given = [] ∨ ∀ part ∈ given.splitOn ',', (parseIp (trim part)).isSome) then client
        else directPeer) ∧
    (¬ ipIsTrusted directPeer trustedProxies → ∀ forwardedFor,
      effectiveClientIp parseIp directPeer forwardedFor trustedProxies = directPeer) := by
  refine ⟨?_, fun h forwardedFor => effectiveClientIp_of_not_trusted h forwardedFor⟩
  by_cases hpeer : ipIsTrusted directPeer trustedProxies
  swap
  · rw [effectiveClientIp_of_not_trusted hpeer, if_neg fun h => hpeer h.1]
  have hcommas : ∀ part ∈ clientText :: added, ',' ∉ part :=
    forall_mem_cons.2 ⟨hclient.1, fun text ht => (hadded text ht).1⟩
  have hsplit := splitOn_forwardedChain given hcommas (cons_ne_nil _ _)
  obtain ⟨after, hafter, htrusted⟩ := mapM_of_trusted fun text ht => (hadded text ht).2
  have htail : ((clientText :: added).mapM fun part => parseIp (trim part)) =
      some (client :: after) := by
    simp [mapM_cons, hclient.2, hafter]
  -- What the client has written is a chain of addresses, or voids the whole.
  cases hgiven : (if given = [] then [] else given.splitOn ',').mapM
      fun part => parseIp (trim part) with
  | some before =>
    have hchain : ((forwardedChain given (clientText :: added)).splitOn ',').mapM
        (fun part => parseIp (trim part)) = some (before ++ client :: after) := by
      rw [hsplit, mapM_append, hgiven, htail]
      rfl
    have hparts : given = [] ∨ ∀ part ∈ given.splitOn ',', (parseIp (trim part)).isSome := by
      have hall := mapM_isSome_iff.1 (isSome_of_eq_some hgiven)
      split at hall
      · next hnil => exact .inl hnil
      · exact .inr hall
    rw [effectiveClientIp_of_chain hpeer hchain huntrusted htrusted, if_pos ⟨hpeer, hparts⟩]
  | none =>
    have hchain : ((forwardedChain given (clientText :: added)).splitOn ',').mapM
        (fun part => parseIp (trim part)) = none := by
      rw [hsplit, mapM_append, hgiven]
      rfl
    rw [effectiveClientIp_of_void hchain, if_neg]
    rintro ⟨-, hnil | hall⟩
    · rw [if_pos hnil] at hgiven
      cases hgiven
    · split at hgiven
      · cases hgiven
      · exact absurd (mapM_isSome_iff.2 hall) (by rw [hgiven]; simp)

def parseSample (text : List Char) : Option IpAddr :=
  if text = "203.0.113.9".toList then some (.v4 0xcb007109#32)
  else if text = "10.1.2.3".toList then some (.v4 0x0a010203#32)
  else if text = "8.8.8.8".toList then some (.v4 0x08080808#32)
  else none

theorem effectiveClientIp_forwardedChain_sample : effectiveClientIp parseSample (.v4 0x0a010203#32)
      (some (forwardedChain "8.8.8.8".toList [" 203.0.113.9".toList, " 10.1.2.3".toList]))
      [⟨.v4 0x0a010203#32, 32⟩] = .v4 0xcb007109#32 := by
  have h := effectiveClientIp_forwardedChain parseSample [⟨.v4 0x0a010203#32, 32⟩] (.v4 0x0a010203#32)
    "8.8.8.8".toList " 203.0.113.9".toList (.v4 0xcb007109#32) [" 10.1.2.3".toList] (by decide)
    (by decide) (by
      intro text ht
      rw [mem_singleton.1 ht]
      exact ⟨by decide, .v4 0x0a010203#32, by decide, by decide⟩)
  exact h.1.trans (if_pos (by decide))

/-! ## Hosts -/

def validateHostRule (raw : List Char) (field : String) : Except ConfigError Unit :=
  let host := trim raw
  if host = [] ∨ host ≠ raw ∨ '/' ∈ host ∨ ':' ∈ host then
    .error ⟨field, "잘못된 Host 규칙: " ++ String.ofList raw⟩
  else
    match strip? "*.".toList host with
    | some suffix =>
      if suffix = [] ∨ '.' ∉ suffix then
        .error ⟨field, "잘못된 wildcard Host 규칙: " ++ String.ofList raw⟩
      else .ok ()
    | none => .ok ()

/-- A name without the dots at its end. -/
def undotted (name : List Char) : List Char := name.rdropWhile (· = '.')

/-- The rule is for the name: it is the same up to case, or has one label less. -/
def RuleNames (rule name : List Char) : Prop :=
  match strip? "*.".toList rule with
  | some suffix =>
    ∃ label, label ≠ [] ∧ '.' ∉ label ∧ eqIgnoreCase name (label ++ '.' :: suffix)
  | none => eqIgnoreCase name rule

/-- The text is the name, then dots, then nothing or the number of a port. What
    starts with a bracket is not a name. -/
def WrittenAs (text name : List Char) : Prop :=
  ∃ dots port, trim text = name ++ dots ++ port ∧ ':' ∉ name ∧ ¬ ['['] <+: name ∧
    (∀ c ∈ dots, c = '.') ∧
    (port = [] ∨ ∃ digits, digits ≠ [] ∧ digits.all Char.isDigit ∧ port = ':' :: digits)

/-- The text is one of the names, with dots at its end or not, and with a port or
    not. -/
def Spells (text : List Char) (names : List Char → Prop) : Prop :=
  ∃ name, names name ∧ WrittenAs text name

/-- There is no bracket at the start, and what comes after the first colon is a
    number. -/
def PlainHost (text : List Char) : Prop :=
  ¬ ['['] <+: trim text ∧
    ∀ name port, splitOnce ':' (trim text) = some (name, port) →
      port ≠ [] ∧ port.all Char.isDigit

section Written

variable {text name name' : List Char}

theorem WrittenAs.undotted (h : WrittenAs text name) : WrittenAs text (undotted name) := by
  obtain ⟨dots, port, htext, hcolon, hbracket, hdots, hport⟩ := h
  have hstart := rdropWhile_prefix (· = '.') name
  refine ⟨name.rtakeWhile (· = '.') ++ dots, port, ?_, fun hmem => hcolon (hstart.subset hmem),
    fun hopen => hbracket (hopen.trans hstart), fun c hc => ?_, hport⟩
  · rw [← append_assoc, VpsGuard.undotted, rdropWhile_append_rtakeWhile, htext]
  · rcases mem_append.1 hc with hc | hc
    · simpa using mem_rtakeWhile_imp hc
    · exact hdots c hc

/-- What the text is written as is what comes before the colon, up to dots. -/
theorem WrittenAs.undotted_eq (h : WrittenAs text name) :
    VpsGuard.undotted name = VpsGuard.undotted ((trim text).takeWhile (· ≠ ':')) := by
  obtain ⟨dots, port, htext, hcolon, -, hdots, hport⟩ := h
  have hkeep : ∀ c ∈ name ++ dots, decide (c ≠ ':') = true := by
    intro c hc
    rw [decide_eq_true_iff]
    rintro rfl
    exact (mem_append.1 hc).elim hcolon fun hdot => absurd (hdots _ hdot) (by decide)
  have hbefore : (trim text).takeWhile (· ≠ ':') = name ++ dots := by
    rw [htext, takeWhile_append_of_pos hkeep]
    rcases hport with rfl | ⟨digits, -, -, rfl⟩ <;> simp
  rw [hbefore]
  clear hkeep hbefore htext
  induction dots using List.reverseRecOn with
  | nil => rw [append_nil]
  | append_singleton dots c ih =>
    have hc : c = '.' := hdots c (by simp)
    rw [ih fun d hd => hdots d (mem_append_left _ hd), ← append_assoc,
      VpsGuard.undotted, VpsGuard.undotted, rdropWhile_concat_pos _ _ _ (by simpa using hc)]

theorem WrittenAs.plain (h : WrittenAs text name) : PlainHost text := by
  obtain ⟨dots, port, htext, hcolon, hbracket, hdots, hport⟩ := h
  have hdot : ':' ∉ name ++ dots := fun hmem =>
    (mem_append.1 hmem).elim hcolon fun hdot => absurd (hdots _ hdot) (by decide)
  constructor
  · rw [htext]
    cases name with
    | cons c name => exact fun hopen => hbracket (by simpa using hopen)
    | nil =>
      cases dots with
      | cons d dots =>
        rw [hdots d mem_cons_self]
        exact fun hopen => absurd (cons_prefix_cons.1 hopen).1 (by decide)
      | nil =>
        rcases hport with rfl | ⟨digits, -, -, rfl⟩
        · simp
        · exact fun hopen => absurd (cons_prefix_cons.1 hopen).1 (by decide)
  · intro before after hsplit
    rcases hport with rfl | ⟨digits, hne, hdigits, rfl⟩
    · rw [htext, append_nil, splitOnce_eq_none.2 hdot] at hsplit
      cases hsplit
    · rw [htext, splitOnce_append hdot] at hsplit
      cases hsplit
      exact ⟨hne, hdigits⟩

end Written

section Hosts

variable {raw text rule name : List Char}

theorem normalizeHost_eq (h : ¬ ['['] <+: trim raw) : normalizeHost raw =
      (splitOnce ':' (toLower (undotted (trim raw)))).elim
        (toLower (undotted (trim raw))) (·.1) := by
  have hbracket : strip? ['['] (toLower (undotted (trim raw))) = none := by
    have hletters : ∀ c ∈ ['['], ¬ c.isAlpha := forall_mem_singleton.2 (by decide)
    rw [strip?_toLower hletters, map_eq_none_iff, strip?_eq_none]
    exact fun hstart => h (hstart.trans (List.rdropWhile_prefix _ _))
  rw [normalizeHost]
  simp only [undotted] at hbracket ⊢
  rw [hbracket, bind_none]

/-- A plain text is compared as what it is written as. -/
theorem exists_writtenAs (h : PlainHost text) :
    ∃ name, WrittenAs text name ∧ normalizeHost text = toLower name := by
  obtain ⟨hbracket, hport⟩ := h
  rw [normalizeHost_eq hbracket]
  cases hsplit : splitOnce ':' (trim text) with
  | none =>
    have hcolon := splitOnce_eq_none.1 hsplit
    have hstart := rdropWhile_prefix (· = '.') (trim text)
    have hname : ':' ∉ undotted (trim text) := fun hmem => hcolon (hstart.subset hmem)
    refine ⟨undotted (trim text), ⟨(trim text).rtakeWhile (· = '.'), [], ?_, hname,
      fun hopen => hbracket (hopen.trans hstart),
      fun c hc => by simpa using mem_rtakeWhile_imp hc, .inl rfl⟩, ?_⟩
    · rw [append_nil, undotted, rdropWhile_append_rtakeWhile]
    · rw [splitOnce_eq_none.2 (mt (mem_toLower (by decide)).1 hname), elim_none]
  | some parts =>
    obtain ⟨name, digits⟩ := parts
    obtain ⟨hne, hdigits⟩ := hport name digits hsplit
    obtain ⟨hcolon, htext⟩ := splitOnce_eq_some.1 hsplit
    -- The text ends in a digit, so that there are no dots at its end.
    have hundotted : undotted (trim text) = trim text := by
      refine rdropWhile_eq_self_iff.2 fun hnil hdot => ?_
      have hlast : (trim text).getLast hnil = digits.getLast hne := by
        simp only [htext, getLast_append_of_ne_nil _ (cons_ne_nil _ _), getLast_cons hne]
      have hdigit := all_eq_true.1 hdigits _ (getLast_mem hne)
      rw [hlast, decide_eq_true_eq] at hdot
      rw [hdot] at hdigit
      exact absurd hdigit (by decide)
    refine ⟨name, ⟨[], ':' :: digits, by rw [append_nil, htext], hcolon,
      fun hopen => hbracket (htext ▸ hopen.trans (prefix_append _ _)), by simp,
      .inr ⟨digits, hne, hdigits, rfl⟩⟩, ?_⟩
    have hlower : toLower (trim text) = toLower name ++ ':' :: toLower digits := by
      rw [htext, toLower_append]
      rfl
    rw [hundotted, hlower, splitOnce_append (mt (mem_toLower (by decide)).1 hcolon), elim_some]

theorem normalizeHost_rule {field : String} (h : validateHostRule rule field = .ok ())
    (hbracket : ¬ ['['] <+: rule) : normalizeHost rule = toLower (undotted rule) := by
  rw [validateHostRule] at h
  split at h
  · cases h
  · next hchecks =>
    simp only [not_or, ne_eq, not_not] at hchecks
    obtain ⟨-, htrim, -, hcolon⟩ := hchecks
    rw [htrim] at hcolon
    have hname : ':' ∉ undotted rule := fun hmem => hcolon ((List.rdropWhile_prefix _ _).subset hmem)
    rw [normalizeHost_eq (by rwa [htrim]), htrim,
      splitOnce_eq_none.2 (mt (mem_toLower (by decide)).1 hname), elim_none]

theorem toLower_normalizeHost (raw : List Char) :
    toLower (normalizeHost raw) = normalizeHost raw := by
  -- It is a part of a text in lower case.
  have hpart {before after lower : List Char} {c : Char} (hlower : toLower lower = lower)
      (h : lower = before ++ c :: after) : toLower before = before ∧
        toLower after = after := by
    rw [h, toLower_append] at hlower
    obtain ⟨hbefore, hafter⟩ := append_inj hlower (by simp [toLower])
    exact ⟨hbefore, (List.cons.inj hafter).2⟩
  rw [normalizeHost]
  set trimmed := toLower ((trim raw).rdropWhile (· = '.')) with htrimmed
  have hlower : toLower trimmed = trimmed := by rw [htrimmed, toLower_toLower]
  split
  · next parts hparts =>
    obtain ⟨inner, hinner, hsplit⟩ := bind_eq_some_iff.1 hparts
    have hopen : trimmed = ['['] ++ inner := strip?_eq_some.1 hinner
    have hrest : toLower inner = inner := (hpart hlower (hopen.trans (nil_append _).symm)).2
    exact (hpart hrest (splitOnce_eq_some.1 hsplit).2).1
  · cases hsplit : splitOnce ':' trimmed with
    | none => exact hlower
    | some parts => exact (hpart hlower (splitOnce_eq_some.1 hsplit).2).1

theorem strip?_star_toLower (rule : List Char) : strip? "*.".toList (toLower rule) =
    (strip? "*.".toList rule).map toLower :=
  strip?_toLower
    (forall_mem_cons.2 ⟨by decide, forall_mem_singleton.2 (by decide)⟩) rule

/-- The case of the letters does not matter. -/
theorem ruleNames_toLower :
    RuleNames (toLower rule) (toLower name) ↔ RuleNames rule name := by
  rw [RuleNames, RuleNames, strip?_star_toLower]
  cases strip? "*.".toList rule with
  | none => simp only [map_none, eqIgnoreCase_iff, toLower_toLower]
  | some suffix =>
    simp only [map_some, eqIgnoreCase_iff, toLower_toLower, toLower_append]
    refine exists_congr fun label => and_congr_right fun _ => and_congr_right fun _ => ?_
    have htail : toLower ('.' :: toLower suffix) = toLower ('.' :: suffix) :=
      congrArg ('.'.toLower :: ·) (toLower_toLower suffix)
    rw [htail]

/-- A rule is compared with a host as what is left of both. -/
theorem hostMatchesRule_iff :
    hostMatchesRule text rule ↔ RuleNames (normalizeHost rule) (normalizeHost text) := by
  have hhost := toLower_normalizeHost text
  have hrule := toLower_normalizeHost rule
  simp only [hostMatchesRule, RuleNames]
  cases hstar : strip? "*.".toList (normalizeHost rule) with
  | none => rw [decide_eq_true_iff, eqIgnoreCase_iff, hhost, hrule]
  | some suffix =>
    have hsuffix : toLower suffix = suffix := by
      have hmap := strip?_star_toLower (normalizeHost rule)
      rw [hrule, hstar, Option.map_some] at hmap
      exact (Option.some.inj hmap).symm
    simp only [Option.any_eq_true, Option.bind_eq_some_iff, stripEnd?_eq_some,
      Bool.and_eq_true, decide_eq_true_eq, Bool.not_eq_true', contains_eq_mem,
      decide_eq_false_iff_not, eqIgnoreCase_iff, hhost, toLower_append]
    constructor
    · rintro ⟨label, ⟨rest, hrest, hdot⟩, hlabel⟩
      refine ⟨label, hlabel.1, hlabel.2, ?_⟩
      have hwhole : normalizeHost text = label ++ '.' :: suffix := by rw [hrest, hdot]; simp
      rw [← hhost, hwhole, toLower_append]
    · rintro ⟨label, hne, hdot, heq⟩
      refine ⟨toLower label, ⟨toLower label ++ ['.'], ?_, rfl⟩, ?_,
        mt (mem_toLower (by decide)).1 hdot⟩
      · have htail : toLower ('.' :: suffix) = '.' :: suffix := congrArg ('.' :: ·) hsuffix
        rw [heq, htail, append_assoc, singleton_append]
      · simpa [toLower] using hne

/-- A name that a rule is for does not end in a dot, and the rule does not start with
    a bracket if the name does not. -/
theorem RuleNames.undotted (h : RuleNames (undotted rule) name) :
    VpsGuard.undotted name = name ∧ (['['] <+: rule → ['['] <+: name) := by
  have hself : VpsGuard.undotted (VpsGuard.undotted rule) = VpsGuard.undotted rule :=
    rdropWhile_idempotent _ _
  have hsame {word : List Char} (hword : VpsGuard.undotted word = word)
      (heq : eqIgnoreCase name word) : VpsGuard.undotted name = name := by
    rw [eqIgnoreCase_iff] at heq
    have hlower : toLower (VpsGuard.undotted name) = toLower name := by
      rw [VpsGuard.undotted, toLower_rdropWhile (by decide), heq, ← toLower_rdropWhile (by decide)]
      exact congrArg toLower hword
    have hlength : (VpsGuard.undotted name).length = name.length := by
      simpa [toLower] using congrArg List.length hlower
    exact (List.rdropWhile_prefix _ _).eq_of_length hlength
  have hopen : ['['] <+: rule → ['['] <+: VpsGuard.undotted rule := by
    rintro ⟨rest, rfl⟩
    rw [VpsGuard.undotted, singleton_append, ← nil_append ('[' :: rest),
      rdropWhile_append (by decide)]
    exact ⟨_, rfl⟩
  rw [RuleNames] at h
  split at h
  · next suffix hstar =>
    obtain ⟨label, -, -, heq⟩ := h
    have hrule := strip?_eq_some.1 hstar
    refine ⟨hsame (rdropWhile_eq_self_iff.2 fun hne hlast => ?_) heq, fun hrules => ?_⟩
    · -- The name ends as the rule does.
      rw [hrule] at hself
      rcases eq_or_ne suffix [] with rfl | hsuffix
      · exact absurd hself (by decide)
      · have hend := rdropWhile_eq_self_iff.1 hself (by simp)
        rw [getLast_append_of_ne_nil _ hsuffix] at hend
        rw [getLast_append_of_ne_nil _ (cons_ne_nil _ _), getLast_cons hsuffix] at hlast
        exact hend hlast
    · have hstart := hopen hrules
      rw [hrule] at hstart
      exact absurd (cons_prefix_cons.1 hstart).1 (by decide)
  · refine ⟨hsame hself h, fun hrules => ?_⟩
    have hletters : ∀ c ∈ ['['], ¬ c.isAlpha := forall_mem_singleton.2 (by decide)
    by_contra hname
    have hnone := strip?_toLower hletters name
    rw [eqIgnoreCase_iff.1 h, strip?_toLower hletters, strip?_eq_none.2 hname,
      map_none, map_eq_none_iff, strip?_eq_none] at hnone
    exact hnone (hopen hrules)

end Hosts

/-- A host that is accepted, or taken for that of the administrator, spells one
    exactly if it is plain, and is named by a rule without brackets where it is by one
    with brackets. -/
theorem hostAllowed_spells (rules : List (List Char)) (config : EdgeConfig) (text : List Char)
    (hrules : ∀ rule ∈ rules, ∃ field, validateHostRule rule field = .ok ()) :
    ((hostAllowed (some text) rules → ∃ rule ∈ rules, Spells text (RuleNames (undotted rule))) ↔
      ∀ rule ∈ rules, RuleNames (normalizeHost rule) (normalizeHost text) → PlainHost text ∧
        (['['] <+: rule → ∃ other ∈ rules, ¬ ['['] <+: other ∧
          RuleNames (undotted other) (undotted (normalizeHost text)))) ∧
    ((config.upstreamKind (some text) = .management → ∃ management ∈ config.management,
        Spells text fun name => eqIgnoreCase name (undotted management.host.toList)) ↔
      ∀ management ∈ config.management,
        eqIgnoreCase (normalizeHost text) management.host.toList → PlainHost text) := by
  have hallowed : hostAllowed (some text) rules ↔
      ∃ rule ∈ rules, RuleNames (normalizeHost rule) (normalizeHost text) :=
    any_eq_true.trans (exists_congr fun rule => and_congr_right fun _ => hostMatchesRule_iff)
  have hundotted {name : List Char} (hnormal : normalizeHost text = toLower name) :
      undotted (normalizeHost text) = toLower (undotted name) := by
    rw [hnormal, undotted, undotted, toLower_rdropWhile (by decide)]
  constructor
  · constructor
    · intro h rule hmem hnames
      obtain ⟨other, hother, name, hname, hwritten⟩ := h (hallowed.2 ⟨rule, hmem, hnames⟩)
      have hplain := hwritten.plain
      refine ⟨hplain, fun _ => ⟨other, hother, ?_, ?_⟩⟩
      · obtain ⟨-, -, -, -, hbracket, -⟩ := hwritten
        exact mt hname.undotted.2 hbracket
      · obtain ⟨name', hwritten', hnormal⟩ := exists_writtenAs hplain
        rw [hundotted hnormal, hwritten'.undotted_eq, ← hwritten.undotted_eq, hname.undotted.1,
          ← ruleNames_toLower, toLower_toLower, ruleNames_toLower]
        exact hname
    · intro h hallow
      obtain ⟨rule, hmem, hnames⟩ := hallowed.1 hallow
      obtain ⟨hplain, hbracket⟩ := h rule hmem hnames
      obtain ⟨name, hwritten, hnormal⟩ := exists_writtenAs hplain
      by_cases hopen : ['['] <+: rule
      · obtain ⟨other, hother, -, hname⟩ := hbracket hopen
        rw [hundotted hnormal, ← ruleNames_toLower, toLower_toLower, ruleNames_toLower] at hname
        exact ⟨other, hother, undotted name, hname, hwritten.undotted⟩
      · obtain ⟨field, hvalid⟩ := hrules rule hmem
        rw [normalizeHost_rule hvalid hopen, hnormal, ruleNames_toLower] at hnames
        exact ⟨rule, hmem, name, hnames, hwritten⟩
  · have hkind : config.upstreamKind (some text) = .management ↔ ∃ management ∈ config.management,
        eqIgnoreCase (normalizeHost text) management.host.toList := by
      rw [EdgeConfig.upstreamKind]
      refine Iff.trans ⟨fun hif => ?_, fun hany => if_pos hany⟩ (any_eq_true _ _)
      by_contra hany
      rw [if_neg hany] at hif
      cases hif
    constructor
    · intro h management hmem hhost
      obtain ⟨_, _, _, _, hwritten⟩ := h (hkind.2 ⟨management, hmem, hhost⟩)
      exact hwritten.plain
    · intro h hmanagement
      obtain ⟨management, hmem, hhost⟩ := hkind.1 hmanagement
      obtain ⟨name, hwritten, hnormal⟩ := exists_writtenAs (h management hmem hhost)
      refine ⟨management, hmem, undotted name, ?_, hwritten.undotted⟩
      -- The dots at the end go on both sides.
      rw [eqIgnoreCase_iff, hnormal, toLower_toLower] at hhost
      rw [eqIgnoreCase_iff, undotted, undotted, toLower_rdropWhile (by decide), hhost,
        toLower_rdropWhile (by decide)]

theorem hostAllowed_spells_sample : ∃ rule ∈ ["www.example.com".toList, "[abc]".toList],
      Spells "WWW.example.com:443".toList (RuleNames (undotted rule)) := by
  refine (hostAllowed_spells ["www.example.com".toList, "[abc]".toList] GuardEdge.unguarded.config
    "WWW.example.com:443".toList ?_).1.2 ?_ (by decide)
  · exact forall_mem_cons.2 ⟨⟨"edge.allowed_hosts", by decide⟩,
      forall_mem_singleton.2 ⟨"edge.allowed_hosts", by decide⟩⟩
  · refine forall_mem_cons.2 ⟨fun _ => ⟨⟨by decide, fun name port hsplit => ?_⟩,
      fun hopen => absurd hopen (by decide)⟩, forall_mem_singleton.2 fun hnames =>
        absurd (hostMatchesRule_iff.2 hnames) (by decide)⟩
    have hport : splitOnce ':' (trim "WWW.example.com:443".toList) =
        some ("WWW.example.com".toList, "443".toList) := by decide
    cases hport.symm.trans hsplit
    decide

/-- Any text is taken for a port. -/
theorem hostAllowed_evil :
    (∀ rule ∈ ["www.example.com".toList], validateHostRule rule "edge.allowed_hosts" = .ok ()) ∧
    hostAllowed (some "www.example.com:evil".toList) ["www.example.com".toList] ∧
    ¬ ∃ rule ∈ ["www.example.com".toList],
      Spells "www.example.com:evil".toList (RuleNames (undotted rule)) := by
  refine ⟨by decide, by decide, ?_⟩
  rintro ⟨rule, -, name, -, dots, port, htext, hcolon, -, hdots, hport⟩
  have htrim : trim "www.example.com:evil".toList = "www.example.com:evil".toList := by decide
  rw [htrim] at htext
  rcases hport with rfl | ⟨digits, hne, hdigits, rfl⟩
  · have hmem : ':' ∈ name ++ dots ++ [] := htext ▸ by decide
    rw [append_nil, mem_append] at hmem
    exact hmem.elim hcolon fun hdot => absurd (hdots _ hdot) (by decide)
  · have hlast : some 'l' = digits.getLast? := by
      have hsame := congrArg List.getLast? htext
      rw [getLast?_append_of_ne_nil _ (cons_ne_nil _ _), getLast?_cons,
        getLast?_eq_getLast_of_ne_nil hne] at hsame
      rw [getLast?_eq_getLast_of_ne_nil hne]
      exact hsame
    have hdigit := all_eq_true.1 hdigits 'l' (mem_of_getLast? hlast.symm)
    exact absurd hdigit (by decide)

end VpsGuard
