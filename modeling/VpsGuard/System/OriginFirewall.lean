import VpsGuard.Core.Policy
import VpsGuard.Text.Words

/-!
# The lock of the origin

While a proxy stands before the host, only the networks of the proxy may reach its web
ports. `guard-system` writes this as a table of `nftables` (`OriginFirewallPlan.render`),
and looks for the words of the plan in the table that it reads back
(`rulesetMatchesPlan`).

It finds the networks of the plan that are in the table, or that are written inside of a
network of the table (`rulesetMatchesPlan_render`). It does not look for more: a table that
lets in other networks too is taken for that of the plan (`rulesetMatchesPlan_wider`), and
these are the only mistakes (`rulesetMatchesPlan_exact`).
-/

namespace VpsGuard

open List

/-- The networks that may reach the origin. -/
structure OriginFirewallPlan where
  ipv4Networks : List IpNet
  ipv6Networks : List IpNet

/-- Why there are no rules for a plan. -/
inductive NftablesError
  | emptyAllowlist
  | missingIpv4Allowlist
  | missingIpv6Allowlist

def IpNet.isV4 (net : IpNet) : Bool :=
  match net.addr with
  | .v4 _ => true
  | .v6 _ => false

namespace OriginFirewallPlan

/-- The plan for some networks. There have to be some of each family. -/
def new (networks : List IpNet) : Except NftablesError OriginFirewallPlan :=
  let (ipv4Networks, ipv6Networks) := networks.partition IpNet.isV4
  if ipv4Networks = [] ∧ ipv6Networks = [] then .error .emptyAllowlist
  else if ipv4Networks = [] then .error .missingIpv4Allowlist
  else if ipv6Networks = [] then .error .missingIpv6Allowlist
  else .ok ⟨ipv4Networks, ipv6Networks⟩

variable (printNet : IpNet → List Char)

def joinNetworks (networks : List IpNet) : List Char :=
  ", ".toList.intercalate (networks.map printNet)

def tableHead : List Char := "table inet vps_guard \x7b\n".toList

def setHead4 : List Char :=
  "  set cloudflare_v4 \x7b type ipv4_addr; flags interval; elements = \x7b ".toList

def setHead6 : List Char :=
  "  set cloudflare_v6 \x7b type ipv6_addr; flags interval; elements = \x7b ".toList

def setTail : List Char := " \x7d \x7d\n".toList

def chainHead : List Char :=
  "  chain origin_input \x7b\n    type filter hook input priority -10; policy accept;\n".toList

def dropRule4 : List Char :=
  "    meta nfproto ipv4 tcp dport \x7b 80, 443 \x7d ip saddr != @cloudflare_v4 drop\n".toList

def dropRule6 : List Char :=
  "    meta nfproto ipv6 tcp dport \x7b 80, 443 \x7d ip6 saddr != @cloudflare_v6 drop\n".toList

def tableTail : List Char := "  \x7d\n\x7d\n".toList

/-- The table, as it is given to `nft`. -/
def render (plan : OriginFirewallPlan) : List Char :=
  let (set4, rule4) := if plan.ipv4Networks = [] then ([], []) else
    (setHead4 ++ joinNetworks printNet plan.ipv4Networks ++ setTail, dropRule4)
  let (set6, rule6) := if plan.ipv6Networks = [] then ([], []) else
    (setHead6 ++ joinNetworks printNet plan.ipv6Networks ++ setTail, dropRule6)
  tableHead ++ (set4 ++ set6) ++ chainHead ++ (rule4 ++ rule6) ++ tableTail

def planWords : List (List Char) :=
  ["table inet vps_guard".toList, "chain origin_input".toList, "cloudflare_v4".toList,
    "cloudflare_v6".toList, "meta nfproto ipv4".toList, "ip saddr != @cloudflare_v4 drop".toList,
    "meta nfproto ipv6".toList, "ip6 saddr != @cloudflare_v6 drop".toList]

/-- The rules that are in place are those of the plan. -/
def rulesetMatchesPlan (output : List Char) (plan : OriginFirewallPlan) : Bool :=
  planWords.all (Text.contains · output) &&
  (plan.ipv4Networks ++ plan.ipv6Networks).all fun network =>
    Text.contains (printNet network) output

/-! ## What is found -/

/-- How networks are written: with a slash, and without blanks and commas. -/
def NetText : Prop := ∀ net, '/' ∈ printNet net ∧ ' ' ∉ printNet net ∧ ',' ∉ printNet net

section Words

variable {word a lit rest : List Char} (hslash : '/' ∈ word) (hblank : ' ' ∉ word)
  (hlit : '/' ∉ lit)
include hslash hblank hlit

theorem infix_lead (hlast : lit.getLast? = some ' ') : word <:+: lit ++ rest ↔ word <:+: rest := by
  obtain ⟨lead, rfl⟩ := getLast?_eq_some_iff.1 hlast
  rw [append_assoc, singleton_append, Text.infix_append_cons_iff hblank]
  exact or_iff_right fun h => hlit (mem_append_left _ (h.subset hslash))

theorem infix_tail (hhead : lit.head? = some ' ') : word <:+: a ++ lit ↔ word <:+: a := by
  obtain ⟨tail, rfl⟩ := head?_eq_some_iff.1 hhead
  rw [Text.infix_append_cons_iff hblank]
  exact or_iff_left fun h => hlit (mem_cons_of_mem _ (h.subset hslash))

end Words

variable {printNet}

theorem infix_joinNetworks (hprint : NetText printNet) (n : IpNet) (networks : List IpNet) :
    printNet n <:+: joinNetworks printNet networks ↔
      ∃ m ∈ networks, printNet n <:+: printNet m := by
  have hnot : ¬ printNet n <:+: [] := fun h => by
    have hslash := h.subset (hprint n).1
    cases hslash
  rw [joinNetworks]
  induction networks with
  | nil => exact iff_of_false hnot nofun
  | cons m networks ih =>
    rw [exists_mem_cons_iff]
    refine Iff.trans ?_ (or_congr_right ih)
    cases networks with
    | nil =>
      rw [map_singleton, intercalate_singleton]
      exact (or_iff_left hnot).symm
    | cons m' networks =>
      rw [map_cons, map_cons, intercalate_cons_cons, ← map_cons, append_assoc]
      exact (Text.infix_append_cons_iff (hprint n).2.2).trans (or_congr_right
        ((Text.infix_append_cons_iff (a := []) (hprint n).2.1).trans (or_iff_right hnot)))

theorem of_new {networks : List IpNet} {plan : OriginFirewallPlan} (h : new networks = .ok plan) :
    plan.ipv4Networks ≠ [] ∧ plan.ipv6Networks ≠ [] := by
  rw [new] at h
  dsimp only at h
  split at h
  · cases h
  split at h
  · cases h
  next hv4 =>
  split at h
  · cases h
  next hv6 =>
  cases h
  exact ⟨hv4, hv6⟩

section Render

variable {q : OriginFirewallPlan} (hv4 : q.ipv4Networks ≠ []) (hv6 : q.ipv6Networks ≠ [])
include hv4 hv6

theorem render_eq : q.render printNet =
    [tableHead, setHead4, joinNetworks printNet q.ipv4Networks, setTail, setHead6,
      joinNetworks printNet q.ipv6Networks, setTail, chainHead, dropRule4, dropRule6,
      tableTail].flatten := by
  simp only [render, if_neg hv4, if_neg hv6, append_assoc, flatten_cons, flatten_nil, append_nil]

theorem infix_render (hprint : NetText printNet) (n : IpNet) : printNet n <:+: q.render printNet ↔
      ∃ m ∈ q.ipv4Networks ++ q.ipv6Networks, printNet n <:+: printNet m := by
  obtain ⟨hslash, hblank, -⟩ := hprint n
  have hrender : q.render printNet =
      tableHead ++ setHead4 ++ (joinNetworks printNet q.ipv4Networks ++ (setTail ++ setHead6) ++
        (joinNetworks printNet q.ipv6Networks ++
          (setTail ++ chainHead ++ (dropRule4 ++ dropRule6) ++ tableTail))) := by
    simp only [render_eq hv4 hv6, flatten_cons, flatten_nil, append_nil, append_assoc]
  have hmiddle : ∃ middle, setTail ++ setHead6 = ' ' :: middle ∧ '/' ∉ middle ∧
      middle.getLast? = some ' ' := ⟨(setTail ++ setHead6).tail, by decide⟩
  obtain ⟨middle, hcons, hclean, hlast⟩ := hmiddle
  rw [hrender, infix_lead hslash hblank (by decide) (by decide), hcons, append_assoc,
    cons_append, Text.infix_append_cons_iff hblank, infix_lead hslash hblank hclean hlast,
    infix_tail hslash hblank (by decide +kernel) (by decide +kernel), infix_joinNetworks hprint,
    infix_joinNetworks hprint]
  simp only [mem_append, or_and_right, exists_or]

theorem words_infix_render : ∀ word ∈ planWords, word <:+: q.render printNet := by
  rw [render_eq hv4 hv6, planWords]
  have hpiece {word : List Char} {pieces : List (List Char)} (i : ℕ)
      (p : List Char) (hword : word <:+: p) (hi : pieces[i]? = some p) : word <:+: pieces.flatten :=
    hword.trans (infix_of_mem_flatten (mem_of_getElem? hi))
  simp only [forall_mem_cons, not_mem_nil, false_implies, implies_true, and_true]
  refine ⟨hpiece 0 tableHead ?_ rfl, hpiece 7 chainHead ?_ rfl,
    hpiece 1 setHead4 ?_ rfl, hpiece 4 setHead6 ?_ rfl,
    hpiece 8 dropRule4 ?_ rfl, hpiece 8 dropRule4 ?_ rfl,
    hpiece 9 dropRule6 ?_ rfl, hpiece 9 dropRule6 ?_ rfl⟩
  all_goals decide +kernel

/-- What is looked for are the networks. -/
theorem rulesetMatchesPlan_render (p : OriginFirewallPlan) :
    rulesetMatchesPlan printNet (q.render printNet) p ↔
      ∀ n ∈ p.ipv4Networks ++ p.ipv6Networks, printNet n <:+: q.render printNet := by
  rw [rulesetMatchesPlan, Bool.and_eq_true, all_eq_true, all_eq_true]
  simp only [Text.contains_iff]
  exact and_iff_right (words_infix_render hv4 hv6)

end Render

/-- The table is recognised exactly if it has the networks of the plan, unless it has
    others, and still all networks of the plan are written inside of some of its own. -/
theorem rulesetMatchesPlan_exact (printNet : IpNet → List Char) (hprint : NetText printNet)
    {networks networks' : List IpNet} {p q : OriginFirewallPlan} (_hp : new networks = .ok p)
    (hq : new networks' = .ok q) :
    (rulesetMatchesPlan printNet (q.render printNet) p ↔
      (∀ n, n ∈ p.ipv4Networks ↔ n ∈ q.ipv4Networks) ∧
        ∀ n, n ∈ p.ipv6Networks ↔ n ∈ q.ipv6Networks) ↔
    ((∀ n ∈ p.ipv4Networks ++ p.ipv6Networks, ∃ m ∈ q.ipv4Networks ++ q.ipv6Networks,
        printNet n <:+: printNet m) →
      (∀ n, n ∈ p.ipv4Networks ↔ n ∈ q.ipv4Networks) ∧
        ∀ n, n ∈ p.ipv6Networks ↔ n ∈ q.ipv6Networks) := by
  obtain ⟨hv4, hv6⟩ := of_new hq
  have hmatches : rulesetMatchesPlan printNet (q.render printNet) p ↔
      ∀ n ∈ p.ipv4Networks ++ p.ipv6Networks, ∃ m ∈ q.ipv4Networks ++ q.ipv6Networks,
        printNet n <:+: printNet m :=
    (rulesetMatchesPlan_render hv4 hv6 p).trans
      (forall₂_congr fun n _ => infix_render hv4 hv6 hprint n)
  rw [hmatches]
  refine ⟨fun h => h.1, fun h => ⟨h, ?_⟩⟩
  -- The networks that the table has are found in it.
  rintro ⟨h4, h6⟩ n hn
  refine ⟨n, ?_, infix_rfl⟩
  simpa only [mem_append, h4, h6] using hn

/-- A network of each family. -/
def lockPlan : OriginFirewallPlan := ⟨[⟨.v4 0xC0000200, 24⟩], [⟨.v6 1, 128⟩]⟩

/-- The same networks, and all addresses. -/
def openPlan : OriginFirewallPlan := ⟨[⟨.v4 0xC0000200, 24⟩, ⟨.v4 0, 0⟩], [⟨.v6 1, 128⟩]⟩

def numberNet (net : IpNet) : List Char :=
  (match net.addr with
    | .v4 a => Nat.toDigits 10 a.toNat
    | .v6 a => Nat.toDigits 10 a.toNat) ++ '/' :: Nat.toDigits 10 net.prefixLen

theorem netText_numberNet : NetText numberNet := by
  have hdigits {c : Char} (hc : ¬ c.isDigit) (hslash : c ≠ '/') (net : IpNet) :
      c ∉ numberNet net := by
    have hnot (n : ℕ) : c ∉ Nat.toDigits 10 n := fun h => hc (Text.isDigit_of_mem_toDigits h)
    obtain ⟨addr, len⟩ := net
    cases addr <;> simp [numberNet, hnot, hslash]
  exact fun net => ⟨mem_append_right _ mem_cons_self, hdigits (by decide) (by decide) net,
    hdigits (by decide) (by decide) net⟩

/-- The table of another network is refused. -/
theorem rulesetMatchesPlan_exact_private :
    ¬ rulesetMatchesPlan numberNet (lockPlan.render numberNet) ⟨[⟨.v4 0x0A000000, 8⟩],
      [⟨.v6 1, 128⟩]⟩ := by
  have hexact := rulesetMatchesPlan_exact numberNet netText_numberNet
    (rfl : new [⟨.v4 0x0A000000, 8⟩, ⟨.v6 1, 128⟩] = .ok ⟨[⟨.v4 0x0A000000, 8⟩], [⟨.v6 1, 128⟩]⟩)
    (rfl : new [⟨.v4 0xC0000200, 24⟩, ⟨.v6 1, 128⟩] = .ok lockPlan)
  intro hmatches
  have hsame := (hexact.2 fun hinside => absurd hinside (by decide +kernel)).1 hmatches
  exact absurd ((hsame.1 ⟨.v4 0x0A000000, 8⟩).1 mem_cons_self) (by decide)

/-- However networks are written, the table of all addresses is taken for the lock. -/
theorem rulesetMatchesPlan_wider : new [⟨.v4 0xC0000200, 24⟩, ⟨.v6 1, 128⟩] = .ok lockPlan ∧
      new [⟨.v4 0xC0000200, 24⟩, ⟨.v4 0, 0⟩, ⟨.v6 1, 128⟩] = .ok openPlan ∧
      (∀ printNet, NetText printNet →
        rulesetMatchesPlan printNet (openPlan.render printNet) lockPlan) ∧
      ⟨.v4 0, 0⟩ ∈ openPlan.ipv4Networks ∧ ⟨.v4 0, 0⟩ ∉ lockPlan.ipv4Networks := by
  refine ⟨rfl, rfl, fun printNet hprint => ?_, by decide, by decide⟩
  refine (rulesetMatchesPlan_render (by decide) (by decide) _).2 fun n hn => ?_
  refine (infix_render (by decide) (by decide) hprint n).2 ⟨n, ?_, infix_rfl⟩
  revert n
  decide

end OriginFirewallPlan

end VpsGuard
