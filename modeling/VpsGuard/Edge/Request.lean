import VpsGuard.Core.Policy
import VpsGuard.Text.Basic

/-!
# Requests at the edge

What the edge reads from a request before it decides anything:

* its headers (`RequestHeader.headerValue`), as far as they are text;
* whether it is clear where it ends (`validateRequestFraming`). This is asked of
  the headers as they were parsed and of the bytes they were parsed from;
* the host it is for, and whether that is one of those that are served
  (`hostAllowed`);
* whether its path is below one of some paths (`pathMatchesAny`);
* the address of its client (`effectiveClientIp`): of a chain of proxies that
  are trusted, the last one before it that is not.

Addresses as text are read by a library, which is given (`parseIp`).
-/

namespace VpsGuard

open Text

/-! ## Headers -/

/-- A request, as far as it was parsed. -/
structure RequestHeader where
  method : List Char
  path : List Char
  pathAndQuery : Option (List Char)
  authority : Option (List Char)
  /-- The names are in lower case. -/
  headers : List (List Char × List UInt8)
  deriving DecidableEq

/-- The text of a header, if it can be read as one. -/
def headerText (value : List UInt8) : Option (List Char) :=
  if value.all fun b => (32 ≤ b.toNat && b.toNat < 127) || b.toNat = 9 then
    some (value.map fun b => Char.ofNat b.toNat)
  else none

namespace RequestHeader

variable (request : RequestHeader)

def getAll (name : List Char) : List (List UInt8) :=
  (request.headers.filter (·.1 = name)).map (·.2)

/-- The first value of a header, as text, if there is something to it. -/
def headerValue (name : List Char) : Option (List Char) :=
  (((request.getAll name).head?.bind headerText).map trim).filter (· ≠ [])

def requestHost : Option (List Char) := (request.headerValue "host".toList).or request.authority

def target : List Char := request.pathAndQuery.getD request.path

end RequestHeader

/-! ## Framing -/

/-- Why it is not clear where a request ends. -/
inductive FramingViolation
  | duplicateHost
  | duplicateContentLength
  | conflictingLengthSignals
  | invalidTransferEncoding

/-- What is blank among bytes. -/
def isAsciiWhitespace (b : UInt8) : Bool := [9, 10, 12, 13, 32].contains b.toNat

/-- Bytes without what is blank at both ends. -/
def trimAscii (value : List UInt8) : List UInt8 :=
  (value.dropWhile isAsciiWhitespace).rdropWhile isAsciiWhitespace

def asciiBytes (text : List Char) : List UInt8 := text.map fun c => UInt8.ofNat c.toNat

def asciiLower (b : UInt8) : UInt8 := if 65 ≤ b.toNat && b.toNat ≤ 90 then b + 32 else b

def eqIgnoreCaseBytes (value : List UInt8) (text : List Char) : Bool :=
  value.map asciiLower = (asciiBytes text).map asciiLower

/-- The fields that say where a request ends. -/
structure RawFramingHeaders where
  hostCount : ℕ
  contentLengthCount : ℕ
  transferEncodingCount : ℕ
  invalidTransferEncoding : Bool

namespace RawFramingHeaders

/-- A line that is not blank. -/
def ingest (result : RawFramingHeaders) (line : List UInt8) : RawFramingHeaders :=
  if ¬ line.contains 58 then result
  else
    let name := trimAscii (line.takeWhile (· ≠ 58))
    let value := trimAscii (line.dropWhile (· ≠ 58)).tail
    if eqIgnoreCaseBytes name "host".toList then { result with hostCount := result.hostCount + 1 }
    else if eqIgnoreCaseBytes name "content-length".toList then
      { result with contentLengthCount := result.contentLengthCount + 1 }
    else if eqIgnoreCaseBytes name "transfer-encoding".toList then
      { result with
        transferEncodingCount := result.transferEncodingCount + 1
        invalidTransferEncoding :=
          result.invalidTransferEncoding || !eqIgnoreCaseBytes value "chunked".toList }
    else result

def ingestLines (result : RawFramingHeaders) : List (List UInt8) → RawFramingHeaders
  | [] => result
  | line :: lines =>
    if trimAscii line = [] then result else ingestLines (result.ingest (trimAscii line)) lines

/-- The headers of the bytes of a head, after its first line. -/
def parse (rawHeader : List UInt8) : RawFramingHeaders :=
  let result := ingestLines ⟨0, 0, 0, false⟩ ((rawHeader.splitOn 10).drop 1)
  { result with
    invalidTransferEncoding :=
      result.invalidTransferEncoding || result.transferEncodingCount > 1 }

end RawFramingHeaders

/-- The value of a `Transfer-Encoding` is not the one that is supported. -/
def notChunked (value : List UInt8) : Bool :=
  ((headerText value).map trim).all fun text => !eqIgnoreCase text "chunked".toList

/-- It is clear for whom the request is and where it ends, whoever reads it. -/
def validateRequestFraming (rawHeader : List UInt8) (request : RequestHeader) :
    Except FramingViolation Unit :=
  let raw := RawFramingHeaders.parse rawHeader
  let contentLengths :=
    max raw.contentLengthCount (request.getAll "content-length".toList).length
  let transferEncodings := request.getAll "transfer-encoding".toList
  if max raw.hostCount (request.getAll "host".toList).length > 1 then .error .duplicateHost
  else if contentLengths > 1 then .error .duplicateContentLength
  else if contentLengths > 0 ∧ max raw.transferEncodingCount transferEncodings.length > 0 then
    .error .conflictingLengthSignals
  else if raw.invalidTransferEncoding ∨
      transferEncodings ≠ [] ∧ (transferEncodings.length ≠ 1 ∨ transferEncodings.head?.any notChunked)
    then .error .invalidTransferEncoding
  else .ok ()

def rejectsMethod (method : List Char) : Bool :=
  ["CONNECT".toList, "TRACE".toList, "TRACK".toList].contains (toUpper method)

/-! ## Hosts and paths -/

/-- A host without its port, in lower case. -/
def normalizeHost (raw : List Char) : List Char :=
  let trimmed := toLower ((trim raw).rdropWhile (· = '.'))
  match (strip? ['['] trimmed).bind (splitOnce ']') with
  | some parts => parts.1
  | none => (splitOnce ':' trimmed).elim trimmed (·.1)

/-- The host is the one of the rule, or has one label more than its domain. -/
def hostMatchesRule (host rule : List Char) : Bool :=
  let host := normalizeHost host
  let rule := normalizeHost rule
  match strip? "*.".toList rule with
  | some suffix =>
    ((stripEnd? suffix host).bind (stripEnd? ['.'])).any fun label =>
      label ≠ [] && !label.contains '.'
  | none => host = rule

def hostAllowed (host : Option (List Char)) (allowedHosts : List (List Char)) : Bool :=
  host.any fun candidate => allowedHosts.any (hostMatchesRule candidate)

/-- The path is the one of the rule, or is below it. -/
def pathMatchesRule (path rule : List Char) : Bool :=
  rule = ['/'] || path = rule || (strip? rule path).any (startsWith ['/'])

def pathMatchesAny (path : List Char) (rules : List (List Char)) : Bool :=
  rules.any (pathMatchesRule path)

/-! ## Addresses -/

def ipIsTrusted (ip : IpAddr) (trustedProxies : List IpNet) : Bool :=
  trustedProxies.any (·.contains ip)

/-- The client: the last address of the chain that is not a trusted proxy. -/
def effectiveClientIp (parseIp : List Char → Option IpAddr) (directPeer : IpAddr)
    (forwardedFor : Option (List Char)) (trustedProxies : List IpNet) : IpAddr :=
  if !ipIsTrusted directPeer trustedProxies then directPeer
  else
    match forwardedFor with
    | none => directPeer
    | some rawChain =>
      -- If a part of the chain is no address, nothing in it counts.
      match (rawChain.splitOn ',').mapM fun part => parseIp (trim part) with
      | none | some [] => directPeer
      | some (first :: rest) =>
        ((first :: rest).reverse.find? fun ip => !ipIsTrusted ip trustedProxies).getD first

end VpsGuard
