import Mathlib.Data.Nat.Pairing
import VpsGuard.System.Ufw
import VpsGuard.Text.Words

/-!
# Rules as arguments

The root helper reads a rule from the arguments that it is given, and accepts the
arguments of every rule that passes the check. It also accepts some that no rule is
written as: `to any` and `port` one without the other, and numbers and networks that
are not as they are printed. These are all (`validateUfwAddArguments_generated`).

A rule stands for the packets that it matches. One that refuses packets and passes the
check leaves `ssh` open to some address of each family, unless its source is a whole
family and it has no port (`deny_leaves_ssh`).
-/

namespace VpsGuard

open Text Option UfwRule

theorem bind_eq_ok {ε α β : Type} {x : Except ε α} {f : α → Except ε β} {b : β} :
    x >>= f = .ok b ↔ ∃ a, x = .ok a ∧ f a = .ok b := by
  cases x with
  | error e => exact iff_of_false nofun nofun
  | ok a => exact ⟨fun h => ⟨a, rfl, h⟩, fun ⟨_, h, hf⟩ => Except.ok.inj h ▸ hf⟩

section Parts

variable {C : UfwCodec} {arguments rest : List String}

theorem takeExact_eq_ok {expected : String} :
    takeExact expected arguments = .ok rest ↔ arguments = expected :: rest := by
  cases arguments with
  | nil => exact iff_of_false nofun nofun
  | cons word arguments =>
    by_cases h : word = expected <;> simp [takeExact, h]

theorem takeAction_eq_ok {action : UfwAction} :
    takeAction arguments = .ok (action, rest) ↔ arguments = action.asArg :: rest := by
  cases arguments with
  | nil => exact iff_of_false nofun nofun
  | cons word arguments =>
    by_cases hallow : word = "allow"
    · cases action <;> simp [takeAction, hallow, UfwAction.asArg]
    · by_cases hdeny : word = "deny" <;>
        cases action <;> simp [takeAction, hallow, hdeny, UfwAction.asArg]

theorem takeSource_eq_ok {source : Option IpNet} : takeSource C arguments = .ok (source, rest) ↔
      source = none ∧ arguments = rest ∧ arguments.head? ≠ some "from" ∨
        ∃ value net, arguments = "from" :: value :: rest ∧ C.parseNet value = some net ∧
          source = some net := by
  rw [takeSource]
  by_cases hfrom : arguments.head? = some "from"
  · obtain ⟨tail, rfl⟩ := List.head?_eq_some_iff.1 hfrom
    cases tail with
    | nil => exact iff_of_false (by simp) (by simp)
    | cons value tail => cases hvalue : C.parseNet value <;> simp [hvalue, eq_comm, and_comm]
  · have hne : ∀ value, arguments ≠ "from" :: value :: rest := by
      rintro value rfl
      exact hfrom rfl
    simp [hfrom, hne, eq_comm, and_comm]

theorem takeDestination_eq_ok : takeDestination arguments = .ok rest ↔
      arguments = rest ∧ arguments.head? ≠ some "to" ∨ arguments = "to" :: "any" :: rest := by
  rw [takeDestination]
  by_cases hto : arguments.head? = some "to"
  · obtain ⟨tail, rfl⟩ := List.head?_eq_some_iff.1 hto
    simp [takeExact_eq_ok]
  · have hne : arguments ≠ "to" :: "any" :: rest := by
      rintro rfl
      exact hto rfl
    simp [hto, hne]

theorem takePort_eq_ok {port : Option UInt16} : takePort arguments = .ok (port, rest) ↔
      port = none ∧ arguments = rest ∧ arguments.head? ≠ some "port" ∨
        ∃ value n, arguments = "port" :: value :: rest ∧
          parseUnsigned 65536 value.toList = some n ∧ port = some (.ofNat n) := by
  rw [takePort]
  by_cases hport : arguments.head? = some "port"
  · obtain ⟨tail, rfl⟩ := List.head?_eq_some_iff.1 hport
    cases tail with
    | nil => exact iff_of_false (by simp) (by simp)
    | cons value tail =>
      cases hvalue : parseUnsigned 65536 value.toList <;> simp [hvalue, eq_comm, and_comm]
  · have hne : ∀ value, arguments ≠ "port" :: value :: rest := by
      rintro value rfl
      exact hport rfl
    simp [hport, hne, eq_comm, and_comm]

theorem takeProtocol_eq_ok {protocol : UfwProtocol} :
    takeProtocol arguments = .ok (protocol, rest) ↔
      protocol = .any ∧ arguments = rest ∧ arguments.head? ≠ some "proto" ∨
        ∃ word, protocol.asArg = some word ∧ arguments = "proto" :: word :: rest := by
  rw [takeProtocol]
  by_cases hproto : arguments.head? = some "proto"
  · obtain ⟨tail, rfl⟩ := List.head?_eq_some_iff.1 hproto
    cases tail with
    | nil => exact iff_of_false (by simp) (by simp)
    | cons word tail =>
      by_cases htcp : word = "tcp"
      · cases protocol <;> simp [htcp, UfwProtocol.asArg]
      · by_cases hudp : word = "udp" <;>
          cases protocol <;> simp [htcp, hudp, UfwProtocol.asArg]
  · have hne : ∀ word, arguments ≠ "proto" :: word :: rest := by
      rintro word rfl
      exact hproto rfl
    simp [hproto, hne, eq_comm, and_comm]

theorem takeComment_eq_ok {id : String} :
    takeComment arguments = .ok id ↔ arguments = [commentNamespace ++ id] := by
  match arguments with
  | [] => exact iff_of_false nofun nofun
  | [comment] =>
    have hcomment : comment = commentNamespace ++ id ↔
        strip? commentNamespace.toList comment.toList = some id.toList := by
      rw [strip?_eq_some, ← String.toList_append, String.toList_inj]
    rw [takeComment, List.singleton_inj, hcomment]
    cases strip? commentNamespace.toList comment.toList with
    | none => exact iff_of_false nofun nofun
    | some rest =>
      rw [Except.ok.injEq, some_inj, ← String.toList_inj, String.toList_ofList]
  | _ :: _ :: _ => exact iff_of_false nofun nofun

theorem parseUfwAddArguments_eq_ok {rule : UfwRule} : parseUfwAddArguments C arguments = .ok rule ↔
      ∃ r₁ r₂ r₃ r₄ r₅, (arguments = "--dry-run" :: rule.action.asArg :: "in" :: r₁ ∨
          arguments = rule.action.asArg :: "in" :: r₁) ∧
        takeSource C r₁ = .ok (rule.source, r₂) ∧ takeDestination r₂ = .ok r₃ ∧
        takePort r₃ = .ok (rule.destinationPort, r₄) ∧ takeProtocol r₄ = .ok (rule.protocol, r₅) ∧
        r₅ = ["comment", rule.comment] := by
  have hdry (action : UfwAction) (r : List String) :
      (if arguments.head? = some "--dry-run" then arguments.tail else arguments) =
          action.asArg :: r ↔
        arguments = "--dry-run" :: action.asArg :: r ∨ arguments = action.asArg :: r := by
    cases arguments with
    | nil => simp
    | cons word arguments =>
      by_cases hword : word = "--dry-run"
      · have hne : "--dry-run" ≠ action.asArg := by cases action <;> decide
        simp [hword, hne]
      · simp [hword]
  simp only [parseUfwAddArguments, bind_eq_ok, Prod.exists, takeAction_eq_ok, takeExact_eq_ok,
    takeComment_eq_ok, hdry]
  constructor
  · rintro ⟨action, _, hstart, r₁, rfl, source, r₂, hsource, r₃, hdestination, port, r₄, hport,
      protocol, r₅, hprotocol, _, rfl, id, rfl, hrule⟩
    cases hrule
    exact ⟨r₁, r₂, r₃, r₄, _, hstart, hsource, hdestination, hport, hprotocol, rfl⟩
  · rintro ⟨r₁, r₂, r₃, r₄, _, hstart, hsource, hdestination, hport, hprotocol, rfl⟩
    exact ⟨rule.action, _, hstart, r₁, rfl, rule.source, r₂, hsource, r₃, hdestination,
      rule.destinationPort, r₄, hport, rule.protocol, _, hprotocol, _, rfl, rule.id, rfl, rfl⟩

end Parts

/-- A part of a rule that may be missing, after the word for it. -/
def part (word : String) (value : Option String) : List String := value.elim [] ([word, ·])

/-- The parts of a rule as they are written in arguments: the number and the network
    are any texts, and `to any` may be there or not. -/
structure UfwSpelling where
  dryRun : Bool
  action : UfwAction
  source : Option String
  anywhere : Bool
  port : Option String
  protocol : UfwProtocol
  id : String

namespace UfwSpelling

/-- The arguments from the port on. -/
def ending (text : UfwSpelling) : List String :=
  part "port" text.port ++ (part "proto" text.protocol.asArg ++
    ["comment", commentNamespace ++ text.id])

/-- The arguments from the source on. -/
def tail (text : UfwSpelling) : List String :=
  part "from" text.source ++ (part "to" (if text.anywhere then some "any" else none) ++ text.ending)

def arguments (text : UfwSpelling) : List String :=
  (if text.dryRun then ["--dry-run"] else []) ++ text.action.asArg :: "in" :: text.tail

/-- What is written is the rule. -/
structure Reads (C : UfwCodec) (text : UfwSpelling) (rule : UfwRule) : Prop where
  id : rule.id = text.id
  action : rule.action = text.action
  protocol : rule.protocol = text.protocol
  source : text.source.map C.parseNet = rule.source.map some
  port : text.port.map (fun value => parseUnsigned 65536 value.toList) =
    rule.destinationPort.map fun port => some port.toNat

/-- It is written as a rule is: `to any` comes before a port and only there, and the
    number and the network are as they are printed. -/
structure Printed (C : UfwCodec) (text : UfwSpelling) : Prop where
  anywhere : text.anywhere = text.port.isSome
  source : ∀ value ∈ text.source, ∃ net, value = C.printNet net
  port : ∀ value ∈ text.port, ∃ n : ℕ, value = toString n

end UfwSpelling

section Spellings

variable {C : UfwCodec} {arguments rest rest' : List String} {word : String}
  {value value' : Option String} {text text' : UfwSpelling} {rule : UfwRule}

theorem part_inj (h : part word value ++ rest = part word value' ++ rest')
    (hrest : rest.head? ≠ some word) (hrest' : rest'.head? ≠ some word) :
    value = value' ∧ rest = rest' := by
  cases value with
  | none =>
    cases value' with
    | none => exact ⟨rfl, h⟩
    | some v' => exact absurd (congrArg List.head? h) hrest
  | some v =>
    cases value' with
    | none => exact absurd (congrArg List.head? h).symm hrest'
    | some v' =>
      obtain ⟨hvalue, htail⟩ := List.cons.inj (List.cons.inj h).2
      exact ⟨congrArg some hvalue, htail⟩

/-- The words that may come next are those of the parts that are left. -/
theorem head?_comment (text : UfwSpelling) (hword : word ∉ ["proto", "comment"]) :
    (part "proto" text.protocol.asArg ++ ["comment", commentNamespace ++ text.id]).head? ≠
      some word := by
  simp only [List.mem_cons, List.not_mem_nil, or_false, not_or] at hword
  cases text.protocol <;> simp [part, UfwProtocol.asArg, Ne.symm hword.1, Ne.symm hword.2]

theorem head?_ending (text : UfwSpelling) (hword : word ∉ ["port", "proto", "comment"]) :
    text.ending.head? ≠ some word := by
  rw [List.mem_cons, not_or] at hword
  rw [UfwSpelling.ending]
  cases text.port with
  | none => exact head?_comment text hword.2
  | some port => simpa [part] using Ne.symm hword.1

theorem head?_destination (text : UfwSpelling) (hword : word ∉ ["to", "port", "proto", "comment"]) :
    (part "to" (if text.anywhere then some "any" else none) ++ text.ending).head? ≠ some word := by
  rw [List.mem_cons, not_or] at hword
  cases text.anywhere with
  | false => exact head?_ending text hword.2
  | true => simpa [part] using Ne.symm hword.1

theorem UfwSpelling.arguments_inj (h : text.arguments = text'.arguments) : text = text' := by
  have hstart : text.dryRun = text'.dryRun ∧ text.action = text'.action ∧ text.tail = text'.tail := by
    revert h
    rw [arguments, arguments]
    cases text.dryRun <;> cases text'.dryRun <;> cases text.action <;> cases text'.action <;>
      simp [UfwAction.asArg]
  obtain ⟨hdryRun, haction, htail⟩ := hstart
  obtain ⟨hsource, hdestination⟩ := part_inj htail (head?_destination text (by decide))
    (head?_destination text' (by decide))
  obtain ⟨hanywhere, hending⟩ := part_inj hdestination (head?_ending text (by decide))
    (head?_ending text' (by decide))
  obtain ⟨hport, hcomment⟩ := part_inj hending (head?_comment text (by decide))
    (head?_comment text' (by decide))
  obtain ⟨hprotocol, hid⟩ := part_inj hcomment (by simp) (by simp)
  have hanywhere : text.anywhere = text'.anywhere := by
    revert hanywhere
    cases text.anywhere <;> cases text'.anywhere <;> simp
  have hprotocol : text.protocol = text'.protocol := by
    revert hprotocol
    cases text.protocol <;> cases text'.protocol <;> simp [UfwProtocol.asArg]
  have hid : text.id = text'.id := by simpa [← String.toList_inj] using hid
  cases text
  cases text'
  simp_all

/-- The helper reads the arguments as a rule if they are written as one. -/
theorem parseUfwAddArguments_iff : parseUfwAddArguments C arguments = .ok rule ↔
    ∃ text : UfwSpelling, arguments = text.arguments ∧ text.Reads C rule := by
  rw [parseUfwAddArguments_eq_ok]
  constructor
  · rintro ⟨r₁, r₂, r₃, r₄, _, hstart, hsource, hdestination, hport, hprotocol, rfl⟩
    obtain ⟨dryRun, hstart⟩ : ∃ dryRun : Bool, arguments =
        (if dryRun then ["--dry-run"] else []) ++ rule.action.asArg :: "in" :: r₁ :=
      hstart.elim (fun h => ⟨true, h⟩) fun h => ⟨false, h⟩
    obtain ⟨source, rfl, hread⟩ : ∃ source, r₁ = part "from" source ++ r₂ ∧
        source.map C.parseNet = rule.source.map some := by
      rcases takeSource_eq_ok.1 hsource with ⟨hnone, rfl, -⟩ | ⟨value, net, rfl, hvalue, hsome⟩
      · exact ⟨none, rfl, by rw [hnone]; rfl⟩
      · exact ⟨some value, rfl, by rw [hsome, map_some, hvalue]; rfl⟩
    obtain ⟨anywhere, rfl⟩ : ∃ anywhere : Bool, r₂ =
        part "to" (if anywhere then some "any" else none) ++ r₃ := by
      rcases takeDestination_eq_ok.1 hdestination with ⟨rfl, -⟩ | rfl
      · exact ⟨false, rfl⟩
      · exact ⟨true, rfl⟩
    obtain ⟨port, rfl, hnumber⟩ : ∃ port, r₃ = part "port" port ++ r₄ ∧
        port.map (fun value => parseUnsigned 65536 value.toList) =
          rule.destinationPort.map fun port => some port.toNat := by
      rcases takePort_eq_ok.1 hport with ⟨hnone, rfl, -⟩ | ⟨value, n, rfl, hvalue, hsome⟩
      · exact ⟨none, rfl, by rw [hnone]; rfl⟩
      · refine ⟨some value, rfl, ?_⟩
        rw [hsome, map_some, hvalue, map_some, UInt16.toNat_ofNat_of_lt' (parseUnsigned_lt hvalue)]
    have hr₄ : r₄ = part "proto" rule.protocol.asArg ++ ["comment", rule.comment] := by
      rcases takeProtocol_eq_ok.1 hprotocol with ⟨hany, rfl, -⟩ | ⟨word, hword, rfl⟩
      · rw [hany]
        rfl
      · rw [hword]
        rfl
    refine ⟨⟨dryRun, rule.action, source, anywhere, port, rule.protocol, rule.id⟩, ?_, rfl, rfl, rfl,
      hread, hnumber⟩
    rw [hstart, hr₄]
    rfl
  · rintro ⟨text, rfl, hid, haction, hprotocol, hsource, hport⟩
    refine ⟨text.tail, part "to" (if text.anywhere then some "any" else none) ++ text.ending,
      text.ending, part "proto" text.protocol.asArg ++ ["comment", commentNamespace ++ text.id], _,
      ?_, takeSource_eq_ok.2 ?_, takeDestination_eq_ok.2 ?_, takePort_eq_ok.2 ?_,
      takeProtocol_eq_ok.2 ?_, rfl⟩
    · rw [haction]
      exact (Bool.eq_false_or_eq_true text.dryRun).imp (fun h => by rw [UfwSpelling.arguments, h]; rfl)
        fun h => by rw [UfwSpelling.arguments, h]; rfl
    · rw [UfwSpelling.tail]
      cases hvalue : text.source with
      | none =>
        rw [hvalue, map_none, eq_comm, map_eq_none_iff] at hsource
        exact .inl ⟨hsource, rfl, head?_destination text (by decide)⟩
      | some value =>
        rw [hvalue, map_some, eq_comm, map_eq_some_iff] at hsource
        obtain ⟨net, hnet, hparse⟩ := hsource
        exact .inr ⟨value, net, rfl, hparse.symm, hnet⟩
    · cases text.anywhere with
      | false => exact .inl ⟨rfl, head?_ending text (by decide)⟩
      | true => exact .inr rfl
    · rw [UfwSpelling.ending]
      cases hvalue : text.port with
      | none =>
        rw [hvalue, map_none, eq_comm, map_eq_none_iff] at hport
        exact .inl ⟨hport, rfl, head?_comment text (by decide)⟩
      | some value =>
        rw [hvalue, map_some, eq_comm, map_eq_some_iff] at hport
        obtain ⟨port, hsome, hparse⟩ := hport
        exact .inr ⟨value, port.toNat, rfl, hparse.symm, by rw [hsome, UInt16.ofNat_toNat]⟩
    · rw [hprotocol, comment, hid]
      cases text.protocol <;> simp [part, UfwProtocol.asArg]

/-- How a rule is written. -/
def UfwRule.spelling (C : UfwCodec) (rule : UfwRule) (dryRun : Bool) : UfwSpelling where
  dryRun
  action := rule.action
  source := rule.source.map C.printNet
  anywhere := rule.destinationPort.isSome
  port := rule.destinationPort.map (toString ·.toNat)
  protocol := rule.protocol
  id := rule.id

theorem UfwRule.arguments_spelling (rule : UfwRule) (dryRun : Bool) :
    (rule.spelling C dryRun).arguments = rule.addArguments C dryRun := by
  obtain ⟨id, action, source, port, protocol⟩ := rule
  cases source <;> cases port <;>
    simp [UfwSpelling.arguments, UfwSpelling.tail, UfwSpelling.ending, spelling, addArguments,
      part, comment]

theorem UfwRule.printed_spelling (rule : UfwRule) (dryRun : Bool) :
    (rule.spelling C dryRun).Printed C where
  anywhere := by cases h : rule.destinationPort <;> simp [spelling, h]
  source value hvalue := by
    obtain ⟨net, -, rfl⟩ := map_eq_some_iff.1 hvalue
    exact ⟨net, rfl⟩
  port value hvalue := by
    obtain ⟨port, -, rfl⟩ := map_eq_some_iff.1 hvalue
    exact ⟨port.toNat, rfl⟩

variable (hC : ∀ net, C.parseNet (C.printNet net) = some net)

include hC in
/-- A rule is read back, and what is printed and read is the rule. -/
theorem UfwSpelling.eq_spelling_iff : text = rule.spelling C text.dryRun ↔
    text.Printed C ∧ text.Reads C rule := by
  have hport (n : ℕ) : parseUnsigned 65536 (toString n).toList = if n < 65536 then some n else
      none := by
    rw [Nat.toString_eq_repr, Nat.toList_repr, parseUnsigned_toDigits]
  constructor
  · intro h
    rw [h]
    refine ⟨rule.printed_spelling _, rfl, rfl, rfl, ?_, ?_⟩
    · cases hsource : rule.source <;> simp [spelling, hsource, hC]
    · cases hsome : rule.destinationPort with
      | none => simp [spelling, hsome]
      | some port =>
        simp [spelling, hsome, parseUnsigned_toDigits, port.toNat_lt]
  · rintro ⟨⟨hanywhere, hprint, hnumber⟩, ⟨hid, haction, hprotocol, hsource, hread⟩⟩
    obtain ⟨dryRun, action, source, anywhere, port, protocol, id⟩ := text
    obtain ⟨id', action', source', port', protocol'⟩ := rule
    dsimp only at *
    subst hanywhere hid haction hprotocol
    have hsame : source = source'.map C.printNet := by
      cases source with
      | none => rw [map_none, eq_comm, map_eq_none_iff] at hsource; rw [hsource]; rfl
      | some value =>
        obtain ⟨net, rfl⟩ := hprint value rfl
        rw [map_some, hC, eq_comm, map_eq_some_iff] at hsource
        obtain ⟨net', rfl, hnet⟩ := hsource
        cases hnet
        rfl
    have hdigits : port = port'.map (toString ·.toNat) := by
      cases port with
      | none => rw [map_none, eq_comm, map_eq_none_iff] at hread; rw [hread]; rfl
      | some value =>
        obtain ⟨n, rfl⟩ := hnumber value rfl
        rw [map_some, hport, eq_comm, map_eq_some_iff] at hread
        obtain ⟨port', rfl, hn⟩ := hread
        split at hn
        · cases hn
          rfl
        · cases hn
    subst hsame hdigits
    cases port' <;> rfl

end Spellings

/-- The helper accepts the arguments that a rule that passes the check is written as,
    and no others, exactly if such a rule is not written in the arguments in another
    way. -/
theorem validateUfwAddArguments_generated (C : UfwCodec)
    (hC : ∀ net, C.parseNet (C.printNet net) = some net) (sshPort : UInt16)
    (arguments : List String) :
    (validateUfwAddArguments C arguments sshPort = .ok () ↔
      ∃ dryRun rule, validate rule sshPort = .ok () ∧
        arguments = rule.addArguments C dryRun) ↔
    ∀ (text : UfwSpelling) (rule : UfwRule), arguments = text.arguments → text.Reads C rule →
      rule.validate sshPort = .ok () → text.Printed C := by
  have hok : validateUfwAddArguments C arguments sshPort = .ok () ↔ ∃ text rule,
      arguments = UfwSpelling.arguments text ∧ text.Reads C rule ∧
        rule.validate sshPort = .ok () := by
    rw [validateUfwAddArguments, bind_eq_ok]
    simp only [parseUfwAddArguments_iff]
    exact ⟨fun ⟨rule, ⟨text, h, hreads⟩, hvalid⟩ => ⟨text, rule, h, hreads, hvalid⟩,
      fun ⟨text, rule, h, hreads, hvalid⟩ => ⟨rule, ⟨text, h, hreads⟩, hvalid⟩⟩
  rw [hok]
  constructor
  · intro h text rule harguments hreads hvalid
    obtain ⟨dryRun, rule', -, heq⟩ := h.1 ⟨text, rule, harguments, hreads, hvalid⟩
    rw [harguments, ← rule'.arguments_spelling] at heq
    rw [UfwSpelling.arguments_inj heq]
    exact rule'.printed_spelling dryRun
  · intro h
    constructor
    · rintro ⟨text, rule, harguments, hreads, hvalid⟩
      have hspelling := (UfwSpelling.eq_spelling_iff hC).2
        ⟨h text rule harguments hreads hvalid, hreads⟩
      refine ⟨text.dryRun, rule, hvalid, ?_⟩
      rw [← rule.arguments_spelling, ← hspelling, harguments]
    · rintro ⟨dryRun, rule, hvalid, rfl⟩
      exact ⟨rule.spelling C dryRun, rule, (rule.arguments_spelling dryRun).symm,
        ((UfwSpelling.eq_spelling_iff hC).1 rfl).2, hvalid⟩

def numberCodec : UfwCodec where
  sha256Hex _ := ""
  printNet net :=
    match net.addr with
    | .v4 a => toString (2 * Nat.pair a.toNat net.prefixLen)
    | .v6 a => toString (2 * Nat.pair a.toNat net.prefixLen + 1)
  parseNet text :=
    let n := Nat.ofDigitChars 10 text.toList 0
    let parts := Nat.unpair (n / 2)
    some ⟨if n % 2 = 0 then .v4 (.ofNat 32 parts.1) else .v6 (.ofNat 128 parts.1), parts.2⟩

theorem parseNet_printNet (net : IpNet) :
    numberCodec.parseNet (numberCodec.printNet net) = some net := by
  obtain ⟨addr, len⟩ := net
  have hhalf (n : ℕ) : (2 * n + 1) / 2 = n := by omega
  cases addr with
  | v4 a => simp [numberCodec]
  | v6 a => simp [numberCodec, hhalf]

def officeRule : UfwRule := ⟨"office", .allow, some ⟨.v4 0xC0A80100, 24⟩, some 443, .tcp⟩

theorem validateUfwAddArguments_generated_office :
    validateUfwAddArguments numberCodec (officeRule.addArguments numberCodec true) 22 = .ok () := by
  refine ((validateUfwAddArguments_generated numberCodec parseNet_printNet 22 _).2
    fun text rule h _ _ => ?_).2 ⟨true, officeRule, by decide, rfl⟩
  rw [← officeRule.arguments_spelling] at h
  rw [← UfwSpelling.arguments_inj h]
  exact officeRule.printed_spelling true

/-- A destination without a port is accepted, and no rule is written so. -/
theorem validateUfwAddArguments_anywhere :
    validateUfwAddArguments numberCodec ["allow", "in", "to", "any", "comment", "vps-guard:x"] 22 =
        .ok () ∧
      ¬ ∃ dryRun rule, ["allow", "in", "to", "any", "comment", "vps-guard:x"] =
        addArguments numberCodec rule dryRun := by
  refine ⟨rfl, ?_⟩
  rintro ⟨dryRun, ⟨id, action, source, port, protocol⟩, h⟩
  cases dryRun <;> cases action <;> cases source <;> cases port <;>
    simp [addArguments, UfwAction.asArg] at h
  cases protocol <;> simp [UfwProtocol.asArg] at h

/-! ## Packets -/

inductive Transport
  | tcp
  | udp
  deriving DecidableEq

/-- A packet, as far as rules look at it. -/
structure Packet where
  source : IpAddr
  destinationPort : UInt16
  transport : Transport

def UfwProtocol.transport? : UfwProtocol → Option Transport
  | tcp => some .tcp
  | udp => some .udp
  | any => none

/-- The rule is for the packet. What it does not say does not matter. -/
def UfwRule.matches (rule : UfwRule) (packet : Packet) : Bool :=
  rule.source.all (·.contains packet.source) &&
    rule.destinationPort.all (· = packet.destinationPort) &&
    rule.protocol.transport?.all (· = packet.transport)

theorem shiftRight_ne_zero {w k : ℕ} (h : k < w) : BitVec.ofNat w (2 ^ (w - 1)) >>> k ≠ 0 := by
  intro hzero
  have hpow : 2 ^ (w - 1) / 2 ^ k = 2 ^ (w - 1 - k) :=
    Nat.pow_div (by omega) (by decide)
  have hnat := congrArg BitVec.toNat hzero
  rw [BitVec.toNat_ushiftRight, BitVec.toNat_ofNat, Nat.shiftRight_eq_div_pow,
    Nat.mod_eq_of_lt (Nat.pow_lt_pow_right (by decide) (by omega)), hpow] at hnat
  exact absurd hnat (Nat.two_pow_pos _).ne'

theorem exists_not_contains {net : IpNet} (h : 0 < net.prefixLen) :
    (∃ a, ¬ net.contains (.v4 a)) ∧ ∃ a, ¬ net.contains (.v6 a) := by
  obtain ⟨addr, len⟩ := net
  have hlen : 32 - len < 32 ∧ 128 - len < 128 := by
    have hlen : 0 < len := h
    omega
  cases addr with
  | v4 a =>
    refine ⟨⟨a ^^^ BitVec.ofNat 32 (2 ^ 31), ?_⟩, 0, Bool.false_ne_true⟩
    change ¬ decide ((a ^^^ (a ^^^ _)) >>> (32 - len) = 0) = true
    rw [decide_eq_true_eq, ← BitVec.xor_assoc, BitVec.xor_self, BitVec.zero_xor]
    exact shiftRight_ne_zero hlen.1
  | v6 a =>
    refine ⟨⟨0, Bool.false_ne_true⟩, a ^^^ BitVec.ofNat 128 (2 ^ 127), ?_⟩
    change ¬ decide ((a ^^^ (a ^^^ _)) >>> (128 - len) = 0) = true
    rw [decide_eq_true_eq, ← BitVec.xor_assoc, BitVec.xor_self, BitVec.zero_xor]
    exact shiftRight_ne_zero hlen.2

/-- What is refused by a rule that passes the check is for another port, or comes from a
    source, by any protocol. -/
theorem UfwRule.of_validate_deny {rule : UfwRule} {sshPort : UInt16}
    (hvalid : rule.validate sshPort = .ok ()) (hdeny : rule.action = .deny) :
    rule.destinationPort ≠ some sshPort ∧
      (rule.destinationPort = none → (∃ net, rule.source = some net) ∧ rule.protocol = .any) := by
  unfold validate at hvalid
  split at hvalid
  · cases hvalid
  split at hvalid
  · cases hvalid
  split at hvalid
  · cases hvalid
  next hssh =>
  split at hvalid
  · cases hvalid
  next hprotocol =>
  refine ⟨fun hport => hssh ⟨hdeny, .inl hport⟩, fun hport => ⟨?_, ?_⟩⟩
  · exact ne_none_iff_exists'.1 fun hsource => hssh ⟨hdeny, .inr ⟨hsource, hport⟩⟩
  · exact not_not.1 fun hne => hprotocol ⟨hport, hne⟩

theorem contains_of_prefixLen_eq_zero {net : IpNet} (h : net.prefixLen = 0) :
    (∀ a, net.contains (.v4 a)) ∨ ∀ a, net.contains (.v6 a) := by
  obtain ⟨addr, len⟩ := net
  cases (h : len = 0)
  cases addr with
  | v4 a => exact .inl fun b => by simp [IpNet.contains, BitVec.ushiftRight_eq_zero]
  | v6 a => exact .inr fun b => by simp [IpNet.contains, BitVec.ushiftRight_eq_zero]

/-- A rule that refuses packets, and was checked as a rule or as arguments, leaves
    `ssh` open to an address of each family exactly if it does not refuse all packets of
    a whole family. -/
theorem deny_leaves_ssh (C : UfwCodec) (rule : UfwRule) (sshPort : UInt16)
    (hdeny : rule.action = .deny)
    (hvalid : rule.validate sshPort = .ok () ∨ ∃ arguments,
      parseUfwAddArguments C arguments = .ok rule ∧
        validateUfwAddArguments C arguments sshPort = .ok ()) :
    ((∃ a, ¬ rule.matches ⟨.v4 a, sshPort, .tcp⟩) ∧ ∃ a, ¬ rule.matches ⟨.v6 a, sshPort, .tcp⟩) ↔
      ¬ (rule.destinationPort = none ∧ ∃ net, rule.source = some net ∧ net.prefixLen = 0) := by
  have hvalid : rule.validate sshPort = .ok () := by
    rcases hvalid with hvalid | ⟨arguments, hparse, hok⟩
    · exact hvalid
    · obtain ⟨parsed, hparsed, hvalid⟩ := bind_eq_ok.1 hok
      rw [hparse] at hparsed
      cases hparsed
      exact hvalid
  obtain ⟨hport, hnone⟩ := UfwRule.of_validate_deny hvalid hdeny
  cases hdestination : rule.destinationPort with
  | some port =>
    -- It is for another port.
    have hother (address : IpAddr) : ¬ rule.matches ⟨address, sshPort, .tcp⟩ := by
      simp only [UfwRule.matches, Bool.and_eq_true]
      rintro ⟨⟨-, hsame⟩, -⟩
      rw [hdestination, all_some, decide_eq_true_eq] at hsame
      exact hport (hsame ▸ hdestination)
    exact iff_of_true ⟨⟨0, hother _⟩, 0, hother _⟩ fun h => nomatch h.1
  | none =>
    obtain ⟨⟨net, hnet⟩, hprotocol⟩ := hnone hdestination
    have hmatches (address : IpAddr) :
        rule.matches ⟨address, sshPort, .tcp⟩ ↔ net.contains address := by
      simp [UfwRule.matches, hnet, hdestination, hprotocol, UfwProtocol.transport?]
    simp only [hmatches, hnet, Option.some.injEq, exists_eq_left', true_and]
    constructor
    · rintro ⟨⟨a, ha⟩, b, hb⟩ hzero
      exact (contains_of_prefixLen_eq_zero hzero).elim (fun h => ha (h a)) fun h => hb (h b)
    · exact fun hpos => exists_not_contains (Nat.pos_of_ne_zero hpos)

def denyFrom (net : IpNet) : UfwRule := ⟨"lockdown", .deny, some net, none, .any⟩

theorem deny_leaves_ssh_office : ∃ a, ¬ (denyFrom ⟨.v4 0xC0A80100, 24⟩).matches ⟨.v4 a, 22, .tcp⟩ :=
  ((deny_leaves_ssh numberCodec (denyFrom ⟨.v4 0xC0A80100, 24⟩) 22 rfl (.inl (by decide))).2
    (by rintro ⟨-, net, ⟨⟩, hzero⟩; cases hzero)).1

/-- The network of all addresses passes the check. -/
theorem deny_shuts_out_ssh : (denyFrom ⟨.v4 0, 0⟩).validate 22 = .ok () ∧
      ∀ a, (denyFrom ⟨.v4 0, 0⟩).matches ⟨.v4 a, 22, .tcp⟩ := by
  refine ⟨by decide, fun a => ?_⟩
  simp [UfwRule.matches, denyFrom, IpNet.contains, UfwProtocol.transport?,
    BitVec.ushiftRight_eq_zero]

end VpsGuard
