import Mathlib.Data.List.Sort
import VpsGuard.Core.Policy
import VpsGuard.Effect.Prog
import VpsGuard.Text.Basic

/-!
# The controller of UFW

`guard-system` changes the firewall of the host through the program `ufw`. It
only knows the rows that `ufw status numbered` prints: those whose comment is
in its namespace are its own, the others are foreign (`UfwSnapshot.parse`).
A change is planned on a snapshot (`UfwController.plan`), and applied if the
snapshot is still the same (`UfwController.apply`): the rows are read back
afterwards, and where they are not as expected the change is undone.

Rows are deleted by their number, which is that of a snapshot.

The root helper accepts the arguments of an addition only if they are such as
the controller makes them (`validateUfwAddArguments`).
-/

namespace VpsGuard

open Effect Text

/-! ## Commands of the host -/

/-- What is on record of a command. -/
structure CommandAudit where
  occurredAt : String
  program : String
  argv : List String
  exitCode : Option ℤ
  durationMs : ℕ
  deriving DecidableEq

structure CommandOutput where
  stdout : List Char
  audit : CommandAudit

inductive CommandError
  | io (cause : String)
  | failed (program : String) (exitCode : Option ℤ) (stderr : String)
  deriving DecidableEq

/-! ## Rules -/

/-- Who has the firewall. -/
inductive FirewallMode
  | standaloneUfw
  | jwAgentDelegated
  | disabled
  deriving DecidableEq

inductive UfwAction
  | allow
  | deny
  deriving DecidableEq

def UfwAction.asArg : UfwAction → String
  | allow => "allow"
  | deny => "deny"

inductive UfwProtocol
  | tcp
  | udp
  | any
  deriving DecidableEq

def UfwProtocol.asArg : UfwProtocol → Option String
  | tcp => some "tcp"
  | udp => some "udp"
  | any => none

/-- A rule of the guard. -/
structure UfwRule where
  id : String
  action : UfwAction
  source : Option IpNet
  destinationPort : Option UInt16
  protocol : UfwProtocol
  deriving DecidableEq

/-- A rule is added or removed. -/
inductive UfwMutation
  | add (rule : UfwRule)
  | remove (rule : UfwRule)
  deriving DecidableEq

def UfwMutation.rule : UfwMutation → UfwRule
  | add rule | remove rule => rule

/-- Why a change is refused, or fails. -/
inductive UfwError
  | ownershipDenied
  | inactive
  | invalidRule (problem : String)
  | sshInvariant
  | ruleIdentity (problem : String)
  | snapshotChanged
  | verificationFailed
  | rollbackFailed
  | command (e : CommandError)
  deriving DecidableEq

/-- What is taken from libraries. -/
structure UfwCodec where
  /-- The hash of a text. -/
  sha256Hex : List Char → String
  printNet : IpNet → String
  parseNet : String → Option IpNet

def commentNamespace : String := "vps-guard:"

def isRuleIdChar (c : Char) : Bool := c.isAlphanum || c = '_' || c = '-'

namespace UfwRule

/-- The rule may be added. It denies neither the port of `ssh` nor everything. -/
def validate (rule : UfwRule) (sshPort : UInt16) : Except UfwError Unit :=
  if rule.id = "" ∨ rule.id.utf8ByteSize > 48 ∨ ¬ rule.id.toList.all isRuleIdChar then
    .error (.invalidRule "rule ID는 48자 이하 영문자·숫자·밑줄·하이픈이어야 합니다")
  else if rule.destinationPort = some 0 then
    .error (.invalidRule "0번 port는 사용할 수 없습니다")
  else if rule.action = .deny ∧ (rule.destinationPort = some sshPort ∨
      rule.source = none ∧ rule.destinationPort = none) then
    .error .sshInvariant
  else if rule.destinationPort = none ∧ rule.protocol ≠ .any then
    .error (.invalidRule "port 없는 source rule은 protocol=any여야 합니다")
  else .ok ()

def comment (rule : UfwRule) : String := commentNamespace ++ rule.id

def addArguments (C : UfwCodec) (rule : UfwRule) (dryRun : Bool) : List String :=
  (if dryRun then ["--dry-run"] else []) ++ [rule.action.asArg, "in"] ++
    (rule.source.elim [] fun source => ["from", C.printNet source]) ++
    (rule.destinationPort.elim [] fun port => ["to", "any", "port", toString port.toNat]) ++
    (rule.protocol.asArg.elim [] fun protocol => ["proto", protocol]) ++
    ["comment", rule.comment]

end UfwRule

def deleteArguments (number : ℕ) : List String := ["--force", "delete", toString number]

def statusArguments : List String := ["status", "numbered"]

/-! ## Snapshots -/

/-- A row of the controller's own. -/
structure UfwObservedRule where
  number : ℕ
  id : String
  summary : String
  deriving DecidableEq

/-- What was seen of the firewall. -/
structure UfwSnapshot where
  active : Bool
  fingerprint : String
  ownedRules : List UfwObservedRule
  foreignRules : List String
  deriving DecidableEq

def splitNumberedRule (line : List Char) : Option (ℕ × List Char) := do
  let (number, body) ← splitOnce ']' line
  let number ← parseUnsigned 4294967296 (trim number.tail)
  return (number, trim body)

def parseOwnedComment (body : List Char) : Option String := do
  let (_, comment) ← rsplitOnce '#' body
  let id := trim (← strip? commentNamespace.toList (trim comment))
  if id = [] ∨ ¬ id.all isRuleIdChar then none else some (String.ofList id)

def boundedSummary (body : List Char) : String := String.ofList (body.take 512)

def isActiveLine (line : List Char) : Bool :=
  (strip? "Status:".toList (trim line)).any fun value =>
    eqIgnoreCase (trim value) "active".toList

def parseRow (line : List Char) : Option (ℕ × List Char) :=
  if (trim line).head? = some '[' then splitNumberedRule (trim line) else none

def parseOwned (row : ℕ × List Char) : Option UfwObservedRule :=
  (parseOwnedComment row.2).map fun id => ⟨row.1, id, boundedSummary row.2⟩

def parseForeign (row : ℕ × List Char) : Option String :=
  if (parseOwnedComment row.2).isNone then some (boundedSummary row.2) else none

/-- What is read from the output of `ufw status numbered`. -/
def UfwSnapshot.parse (C : UfwCodec) (output : List Char) : UfwSnapshot where
  active := (lines output).any isActiveLine
  fingerprint := C.sha256Hex output
  ownedRules := ((lines output).filterMap parseRow).filterMap parseOwned
  foreignRules := ((lines output).filterMap parseRow).filterMap parseForeign

theorem UfwSnapshot.active_parse_eq (C : UfwCodec) (output : List Char) :
    (UfwSnapshot.parse C output).active = (lines output).any isActiveLine := rfl

/-- The number of rows with an identifier. -/
def UfwSnapshot.countId (snapshot : UfwSnapshot) (id : String) : ℕ :=
  snapshot.ownedRules.countP (·.id = id)

def uniqueRuleNumber (snapshot : UfwSnapshot) (id : String) : Except UfwError ℕ :=
  match (snapshot.ownedRules.filter (·.id = id)).map (·.number) with
  | [number] => .ok number
  | _ => .error (.ruleIdentity id)

def ownedRuleIds (snapshot : UfwSnapshot) : List String :=
  (snapshot.ownedRules.map (·.id)).insertionSort (· ≤ ·)

/-! ## Plans -/

/-- A change, and the state of the firewall that it was planned for. -/
structure UfwPlan where
  beforeFingerprint : String
  mutation : UfwMutation
  sshPort : UInt16
  deriving DecidableEq

namespace UfwController

/-- Plan a change against what was seen. -/
def plan (mode : FirewallMode) (snapshot : UfwSnapshot) (mutation : UfwMutation)
    (sshPort : UInt16) : Except UfwError UfwPlan :=
  if mode ≠ .standaloneUfw then .error .ownershipDenied
  else if ¬ snapshot.active then .error .inactive
  else
    match mutation.rule.validate sshPort with
    | .error e => .error e
    | .ok () =>
      match mutation with
      | .add rule =>
        if snapshot.countId rule.id ≠ 0 then .error (.ruleIdentity "이미 존재하는 ID")
        else .ok ⟨snapshot.fingerprint, mutation, sshPort⟩
      | .remove rule =>
        if snapshot.countId rule.id ≠ 1 then .error (.ruleIdentity "제거 대상은 정확히 하나여야 함")
        else .ok ⟨snapshot.fingerprint, mutation, sshPort⟩

/-- The rows are as they should be after the change. -/
def verifiesTransition (before after : UfwSnapshot) (plan : UfwPlan) : Bool :=
  after.active && before.foreignRules = after.foreignRules &&
    match plan.mutation with
    | .add rule => after.countId rule.id = 1
    | .remove rule => after.countId rule.id = 0

/-! ## The programs -/

end UfwController

/-- The commands, and what they print. -/
abbrev Ufw : Sig := ⟨List String, fun _ => Except CommandError CommandOutput⟩

namespace UfwController

variable {α : Type} (C : UfwCodec)

def runThen (arguments : List String) (k : CommandOutput → Prog Ufw (Except UfwError α)) :
    Prog Ufw (Except UfwError α) :=
  .call arguments fun
    | .ok output => k output
    | .error e => return .error (.command e)

def snapshotThen (k : UfwSnapshot → CommandAudit → Prog Ufw (Except UfwError α)) :
    Prog Ufw (Except UfwError α) :=
  runThen statusArguments fun output => k (.parse C output.stdout) output.audit

/-- An addition is tried first. -/
def dryRunThen (plan : UfwPlan) (k : List CommandAudit → Prog Ufw (Except UfwError α)) :
    Prog Ufw (Except UfwError α) :=
  match plan.mutation with
  | .add rule => runThen (rule.addArguments C true) fun output => k [output.audit]
  | .remove _ => k []

def deleteThen (snapshot : UfwSnapshot) (id : String)
    (k : CommandOutput → Prog Ufw (Except UfwError α)) : Prog Ufw (Except UfwError α) :=
  match uniqueRuleNumber snapshot id with
  | .ok number => runThen (deleteArguments number) k
  | .error e => return .error e

def mutateThen (before : UfwSnapshot) (plan : UfwPlan)
    (k : CommandOutput → Prog Ufw (Except UfwError α)) : Prog Ufw (Except UfwError α) :=
  match plan.mutation with
  | .add rule => runThen (rule.addArguments C false) k
  | .remove rule => deleteThen before rule.id k

def revertThen (current : UfwSnapshot) (plan : UfwPlan)
    (k : CommandOutput → Prog Ufw (Except UfwError α)) : Prog Ufw (Except UfwError α) :=
  match plan.mutation with
  | .add rule => deleteThen current rule.id k
  | .remove rule => runThen (rule.addArguments C false) k

/-- The rows are as they were. -/
def isRestored (before restored : UfwSnapshot) : Bool :=
  restored.active = before.active && restored.foreignRules = before.foreignRules &&
    ownedRuleIds restored = ownedRuleIds before

def rollbackTransition (before current : UfwSnapshot) (plan : UfwPlan) :
    Prog Ufw (Except UfwError (List CommandAudit)) :=
  revertThen C current plan fun output => snapshotThen C fun restored readback =>
    if isRestored before restored then return .ok [output.audit, readback]
    else return .error .rollbackFailed

/-- See that the change was made, and nothing else. Otherwise it is undone. -/
def readBack (before : UfwSnapshot) (plan : UfwPlan) (audits : List CommandAudit) :
    Prog Ufw (Except UfwError (List CommandAudit)) :=
  snapshotThen C fun after afterAudit =>
    if verifiesTransition before after plan then return .ok (audits ++ [afterAudit])
    else
      rollbackTransition C before after plan >>= fun
        | .ok _ => return .error .verificationFailed
        | .error _ => return .error .rollbackFailed

/-- A planned change is made. -/
def apply (plan : UfwPlan) : Prog Ufw (Except UfwError (List CommandAudit)) :=
  snapshotThen C fun before beforeAudit =>
    if before.fingerprint ≠ plan.beforeFingerprint then return .error .snapshotChanged
    else
      dryRunThen C plan fun dryAudits => mutateThen C before plan fun output =>
        readBack C before plan (beforeAudit :: dryAudits ++ [output.audit])

end UfwController

/-! ## The check of the root helper -/

def takeExact (expected : String) (arguments : List String) : Except UfwError (List String) :=
  if arguments.head? = some expected then .ok arguments.tail
  else .error (.invalidRule ("UFW token `" ++ expected ++ "`가 필요합니다"))

variable (C : UfwCodec) (arguments : List String)

def takeAction : Except UfwError (UfwAction × List String) :=
  if arguments.head? = some "allow" then .ok (.allow, arguments.tail)
  else if arguments.head? = some "deny" then .ok (.deny, arguments.tail)
  else .error (.invalidRule "허용되지 않은 action")

def takeSource : Except UfwError (Option IpNet × List String) :=
  if arguments.head? = some "from" then
    match arguments.tail with
    | [] => .error (.invalidRule "source가 없습니다")
    | value :: rest =>
      match C.parseNet value with
      | some source => .ok (some source, rest)
      | none => .error (.invalidRule "source IP/CIDR가 올바르지 않습니다")
  else .ok (none, arguments)

def takeDestination : Except UfwError (List String) :=
  if arguments.head? = some "to" then takeExact "any" arguments.tail else .ok arguments

def takePort : Except UfwError (Option UInt16 × List String) :=
  if arguments.head? = some "port" then
    match arguments.tail with
    | [] => .error (.invalidRule "port가 없습니다")
    | value :: rest =>
      match parseUnsigned 65536 value.toList with
      | some port => .ok (some (.ofNat port), rest)
      | none => .error (.invalidRule "port가 올바르지 않습니다")
  else .ok (none, arguments)

def takeProtocol : Except UfwError (UfwProtocol × List String) :=
  if arguments.head? = some "proto" then
    if arguments.tail.head? = some "tcp" then .ok (.tcp, arguments.tail.tail)
    else if arguments.tail.head? = some "udp" then .ok (.udp, arguments.tail.tail)
    else .error (.invalidRule "protocol이 올바르지 않습니다")
  else .ok (.any, arguments)

/-- The identifier in the last argument. -/
def takeComment : List String → Except UfwError String
  | [] => .error (.invalidRule "소유권 comment가 없습니다")
  | [comment] =>
    match strip? commentNamespace.toList comment.toList with
    | some id => .ok (String.ofList id)
    | none => .error (.invalidRule "VPSGuard 소유권 comment가 필요합니다")
  | _ => .error (.invalidRule "알 수 없는 UFW token")

/-- The rule that the arguments describe. -/
def parseUfwAddArguments : Except UfwError UfwRule := do
  let rest := if arguments.head? = some "--dry-run" then arguments.tail else arguments
  let (action, rest) ← takeAction rest
  let rest ← takeExact "in" rest
  let (source, rest) ← takeSource C rest
  let rest ← takeDestination rest
  let (destinationPort, rest) ← takePort rest
  let (protocol, rest) ← takeProtocol rest
  let rest ← takeExact "comment" rest
  let id ← takeComment rest
  return { id, action, source, destinationPort, protocol }

def validateUfwAddArguments (sshPort : UInt16) : Except UfwError Unit := do
  (← parseUfwAddArguments C arguments).validate sshPort

end VpsGuard
