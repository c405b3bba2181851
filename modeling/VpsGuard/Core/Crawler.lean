import VpsGuard.Core.Policy
import VpsGuard.Text.Words

/-!
# Declared bots

A client may say what it is, in its `User-Agent`. If it says that it is the
crawler of a search engine, it is one when its address is of a network of this
engine and the administrator allows the engine; otherwise it only pretends to
be. If it says that it is another program, it is not approved
(`declaredBotDisposition`).

What is reported of a client is a class, a reason, and the family of the
program (`userAgentFamily`), never the text itself.
-/

namespace VpsGuard

open Text

/-- The search engines. -/
inductive CrawlerProvider
  | google
  | bing
  | naver
  deriving DecidableEq

structure CrawlerNetwork where
  provider : CrawlerProvider
  cidrs : List IpNet
  deriving DecidableEq

/-- What is made of what a client says. -/
inductive DeclaredBotDisposition
  | undeclared
  /-- A crawler, from a network of an engine that is allowed. -/
  | verifiedCrawler (provider : CrawlerProvider)
  | spoofedCrawler (provider : CrawlerProvider)
  | unapprovedDeclaredBot
  deriving DecidableEq

/-- What is made of a client. -/
inductive BotClass
  | undeclared
  | verifiedCrawler
  | spoofedCrawler
  | unapprovedDeclaredBot
  deriving DecidableEq

/-- Why this is made of it. -/
inductive BotReason
  | notDeclared
  | officialNetworkMatch
  | officialNetworkMismatch
  | unapprovedUserAgent
  deriving DecidableEq

/-- What the client says it is. -/
inductive UserAgentFamily
  | missing
  | googlebot
  | bingbot
  | naver
  | declaredAutomation
  | chrome
  | edge
  | firefox
  | safari
  | curl
  | wget
  | other
  deriving DecidableEq

namespace DeclaredBotDisposition

/-- The client is to be refused. -/
def blocked : DeclaredBotDisposition → Bool
  | spoofedCrawler _ | unapprovedDeclaredBot => true
  | undeclared | verifiedCrawler _ => false

def botClass : DeclaredBotDisposition → BotClass
  | undeclared => .undeclared
  | verifiedCrawler _ => .verifiedCrawler
  | spoofedCrawler _ => .spoofedCrawler
  | unapprovedDeclaredBot => .unapprovedDeclaredBot

/-- The search engine, if there is one. -/
def provider : DeclaredBotDisposition → Option CrawlerProvider
  | verifiedCrawler provider | spoofedCrawler provider => some provider
  | undeclared | unapprovedDeclaredBot => none

def verified : DeclaredBotDisposition → Bool
  | verifiedCrawler _ => true
  | _ => false

def reason : DeclaredBotDisposition → BotReason
  | undeclared => .notDeclared
  | verifiedCrawler _ => .officialNetworkMatch
  | spoofedCrawler _ => .officialNetworkMismatch
  | unapprovedDeclaredBot => .unapprovedUserAgent

end DeclaredBotDisposition

def browserFamily (normalized : List Char) : UserAgentFamily :=
  if containsAny ["edg/".toList, "edge/".toList] normalized then .edge
  else if containsAny ["chrome/".toList, "chromium/".toList] normalized then .chrome
  else if contains "firefox/".toList normalized then .firefox
  else if contains "safari/".toList normalized && contains "version/".toList normalized
    then .safari
  else if contains "curl/".toList normalized then .curl
  else if contains "wget/".toList normalized then .wget
  else .other

def userAgentFamily (userAgent : Option (List Char)) : DeclaredBotDisposition → UserAgentFamily
  | .verifiedCrawler .google | .spoofedCrawler .google => .googlebot
  | .verifiedCrawler .bing | .spoofedCrawler .bing => .bingbot
  | .verifiedCrawler .naver | .spoofedCrawler .naver => .naver
  | .unapprovedDeclaredBot => .declaredAutomation
  | .undeclared => userAgent.elim .missing fun text => browserFamily (toLower text)

/-- The search engine that a client says it is of. -/
def declaredProvider (normalized : List Char) : Option CrawlerProvider :=
  if containsAny ["googlebot".toList, "google-inspectiontool".toList] normalized then
    some .google
  else if contains "bingbot".toList normalized then some .bing
  else if containsAny ["yeti/".toList, "ads-naver".toList, "blueno".toList] normalized then
    some .naver
  else none

/-- The words of programs that are not approved. -/
def unapprovedTokens : List (List Char) :=
  ["gptbot".toList, "chatgpt-user".toList, "claudebot".toList, "claude-web".toList,
    "anthropic-ai".toList, "meta-externalagent".toList, "facebookexternalhit".toList,
    "bytespider".toList, "ccbot".toList, "perplexitybot".toList, "amazonbot".toList,
    "applebot-extended".toList, "cohere-ai".toList, "diffbot".toList, "scrapy".toList,
    "crawler".toList, "spider".toList, "headless".toList]

/-- The text names a program that is not approved: by one of the words, or by a
    word of its own that ends in `bot`. -/
def namesUnapproved (normalized : List Char) : Bool :=
  containsAny unapprovedTokens normalized ||
    (normalized.splitOnP fun c => !c.isAlphanum).any fun token =>
      endsWith "bot".toList token && byteLength token > 3

/-- What is made of what a client says, and of its address. -/
def declaredBotDisposition (userAgent : Option (List Char)) (clientIp : Option IpAddr)
    (allowedCrawlers : List CrawlerProvider) (networks : List CrawlerNetwork) :
    DeclaredBotDisposition :=
  match userAgent with
  | none => .undeclared
  | some userAgent =>
    let normalized := toLower userAgent
    match declaredProvider normalized with
    | some provider =>
      let verified := allowedCrawlers.contains provider && clientIp.any fun address =>
        networks.any fun entry =>
          entry.provider = provider && entry.cidrs.any (·.contains address)
      if verified then .verifiedCrawler provider else .spoofedCrawler provider
    | none =>
      if namesUnapproved normalized then .unapprovedDeclaredBot else .undeclared

/-! ## Names of addresses -/

/-- How a crawler was recognised. -/
inductive VerificationMethod
  | officialCidr
  | forwardConfirmedReverseDns
  deriving DecidableEq

/-- Why a crawler is recognised, or not. -/
inductive VerificationReason
  | officialNetworkMatch
  | forwardConfirmedName
  | reverseNameMismatch
  | forwardAddressMismatch
  | evidenceUnavailable
  deriving DecidableEq

/-- What is known of a client: the networks of the engine, the names of the address, and
    the addresses of these names. -/
structure CrawlerVerificationInput where
  provider : CrawlerProvider
  clientIp : IpAddr
  officialNetworks : List IpNet
  reverseNames : List (List Char)
  forwardAddresses : List IpAddr
  expiresAtUnix : ℕ

/-- The outcome of a verification. -/
structure CrawlerVerification where
  provider : CrawlerProvider
  verified : Bool
  method : Option VerificationMethod
  reason : VerificationReason
  expiresAtUnix : ℕ

/-- The domains of a search engine. -/
def CrawlerProvider.suffixes : CrawlerProvider → List (List Char)
  | google => ["googlebot.com".toList, "google.com".toList, "googleusercontent.com".toList]
  | bing => ["search.msn.com".toList]
  | naver => ["naver.com".toList]

/-- The name is in a domain of the search engine. -/
def providerHostname (provider : CrawlerProvider) (hostname : List Char) : Bool :=
  let hostname := toLower (hostname.rdropWhile (· = '.'))
  provider.suffixes.any fun suffix =>
    hostname = suffix || (stripEnd? suffix hostname).any (endsWith ['.'])

/-- The name is a domain of the search engine, or is below one. -/
def CrawlerProvider.Owns (provider : CrawlerProvider) (hostname : List Char) : Prop :=
  ∃ suffix ∈ provider.suffixes, toLower (hostname.rdropWhile (· = '.')) = suffix ∨
    ∃ labels, toLower (hostname.rdropWhile (· = '.')) = labels ++ '.' :: suffix

theorem providerHostname_iff {provider : CrawlerProvider} {hostname : List Char} :
    providerHostname provider hostname ↔ provider.Owns hostname := by
  simp only [providerHostname, CrawlerProvider.Owns, List.any_eq_true, Bool.or_eq_true,
    decide_eq_true_eq, Option.any_eq_true, stripEnd?_eq_some, endsWith_iff]
  refine exists_congr fun suffix => and_congr_right fun _ => or_congr_right ⟨?_, ?_⟩
  · rintro ⟨_, hname, labels, rfl⟩
    exact ⟨labels, by rw [hname, List.append_assoc, List.singleton_append]⟩
  · rintro ⟨labels, hname⟩
    exact ⟨labels ++ ['.'], by rw [hname, List.append_assoc, List.singleton_append], labels, rfl⟩

namespace CrawlerVerificationInput

variable (input : CrawlerVerificationInput)

def verification (verified : Bool) (method : Option VerificationMethod)
    (reason : VerificationReason) : CrawlerVerification :=
  ⟨input.provider, verified, method, reason, input.expiresAtUnix⟩

/-- The address is of a network of the engine, or has a name in a domain of the engine
    and is an address of a name. -/
def verifyCrawler : CrawlerVerification :=
  if input.officialNetworks.any (·.contains input.clientIp) then
    input.verification true (some .officialCidr) .officialNetworkMatch
  else if input.reverseNames = [] then input.verification false none .evidenceUnavailable
  else if !input.reverseNames.any (providerHostname input.provider) then
    input.verification false none .reverseNameMismatch
  else if !input.forwardAddresses.contains input.clientIp then
    input.verification false none .forwardAddressMismatch
  else input.verification true (some .forwardConfirmedReverseDns) .forwardConfirmedName

theorem verified_verifyCrawler : input.verifyCrawler.verified ↔
      input.officialNetworks.any (·.contains input.clientIp) ∨
        (∃ name ∈ input.reverseNames, providerHostname input.provider name) ∧
          input.clientIp ∈ input.forwardAddresses := by
  rw [← List.any_eq_true, ← List.contains_iff_mem, verifyCrawler]
  split
  · next hofficial => exact iff_of_true rfl (.inl hofficial)
  next hofficial =>
  rw [or_iff_right hofficial]
  split
  · next hnames => simp [hnames, verification]
  cases input.reverseNames.any (providerHostname input.provider) <;>
    cases input.forwardAddresses.contains input.clientIp <;> simp [verification]

/-- Whatever addresses the names have, a client is recognised only by one name that
    the engine owns and that has its address, exactly if its address is the engine's,
    or the engine owns none of its names, or all of them. -/
theorem verifyCrawler_oneName : (∀ addresses : List Char → List IpAddr,
      { input with
        forwardAddresses := input.reverseNames.flatMap addresses }.verifyCrawler.verified →
      (∃ net ∈ input.officialNetworks, net.contains input.clientIp) ∨
        ∃ name ∈ input.reverseNames, input.provider.Owns name ∧ input.clientIp ∈ addresses name) ↔
    (∃ net ∈ input.officialNetworks, net.contains input.clientIp) ∨
      (∀ name ∈ input.reverseNames, ¬ input.provider.Owns name) ∨
      ∀ name ∈ input.reverseNames, input.provider.Owns name := by
  simp only [verified_verifyCrawler, List.any_eq_true, List.mem_flatMap, providerHostname_iff]
  constructor
  · intro h
    by_contra hnot
    simp only [not_or, not_forall, not_not] at hnot
    obtain ⟨hofficial, ⟨own, hown, howns⟩, foreign, hforeign, hnotowns⟩ := hnot
    -- The names that are not the engine's have the address, and its own have none.
    classical
    obtain hnet | ⟨name, -, howns', hmem⟩ :=
      h (fun name => if input.provider.Owns name then [] else [input.clientIp])
        (.inr ⟨⟨own, hown, howns⟩, foreign, hforeign, by simp [hnotowns]⟩)
    · exact hofficial hnet
    · simp [howns'] at hmem
  · rintro (hofficial | hnone | hall) addresses hverified
    · exact .inl hofficial
    · obtain hnet | ⟨⟨name, hname, howns⟩, -⟩ := hverified
      · exact .inl hnet
      · exact absurd howns (hnone name hname)
    · exact hverified.imp_right fun ⟨_, name, hname, haddress⟩ =>
        ⟨name, hname, hall name hname, haddress⟩

/-- A client that has one name by its own choice, and another one in a domain of Google. -/
def twoNames : CrawlerVerificationInput where
  provider := .google
  clientIp := .v4 0xC6336407
  officialNetworks := []
  reverseNames := ["crawl.googlebot.com".toList, "evil.example".toList]
  forwardAddresses := [.v4 0x42F94201, .v4 0xC6336407]
  expiresAtUnix := 0

def twoNamesAddresses (name : List Char) : List IpAddr :=
  if name = "evil.example".toList then [.v4 0xC6336407] else [.v4 0x42F94201]

/-- The address is that of the one name, and the domain that of the other. -/
theorem verifyCrawler_twoNames :
    twoNames.forwardAddresses = twoNames.reverseNames.flatMap twoNamesAddresses ∧
      twoNames.verifyCrawler.verified = true ∧ twoNames.officialNetworks = [] ∧
      ¬ ∃ name ∈ twoNames.reverseNames, providerHostname twoNames.provider name ∧
        twoNames.clientIp ∈ twoNamesAddresses name := by
  decide

end CrawlerVerificationInput

end VpsGuard
