/-
  Subject:   THE RULES OF AN ACCESS CONTROL LIST (`acl/mod.rs` and `acl/sub_domains_tree.rs` of the service). Texts
  are lists of characters; building a regular expression is a parameter.
-/
import Mathlib.Data.List.DropRight
import Shadowsocks.Lib.Trie
import Shadowsocks.Server.Association

namespace Shadowsocks.Acl

open Lib

abbrev Text := List Char

variable (s : Text)

def toAsciiLowercase : Text := s.map Char.toLower

theorem isAlphanum_iff {c : Char} : c.isAlphanum = true ↔
    (65 ≤ c.toNat ∧ c.toNat ≤ 90 ∨ 97 ≤ c.toNat ∧ c.toNat ≤ 122) ∨ 48 ≤ c.toNat ∧ c.toNat ≤ 57 := by
  show (decide (65 ≤ c.val ∧ c.val ≤ 90) || decide (97 ≤ c.val) && decide (c.val ≤ 122) ||
    decide (48 ≤ c.val) && decide (c.val ≤ 57)) = true ↔ _
  simp only [Bool.or_eq_true, Bool.and_eq_true, decide_eq_true_eq, UInt32.le_iff_toNat_le]
  rfl

theorem ascii_forall {P : Char → Prop} {c : Char} (h : ∀ n : Fin 128, P (Char.ofNat n)) (hc : c.toNat < 128) : P c := by
  have := h ⟨c.toNat, hc⟩
  rwa [show Char.ofNat (⟨c.toNat, hc⟩ : Fin 128) = c from Char.ofNat_toNat c] at this

def trimEndDots : Text := s.rdropWhile (· == '.')

def isAscii : Bool := s.all fun c => c.toNat < 128

/-! ## 1. Addresses -/

inductive IpAddr where
  | v4 (ip : UInt32)
  | v6 (ip : BitVec 128)
  deriving DecidableEq

def ipOf : SocketAddr → IpAddr
  | .v4 a => .v4 a.ip
  | .v6 a => .v6 a.ip

structure IpNet where
  (addr prefixLen : Nat)

def IpNet.contains (width : Nat) (net : IpNet) (ip : Nat) : Bool :=
  ip / 2 ^ (width - net.prefixLen) == net.addr / 2 ^ (width - net.prefixLen)

/-! ## 2. Names and their sub-domains -/

abbrev SubDomainsTree := Trie.Children Text

namespace SubDomainsTree

def labels (value : Text) : List Text := (value.splitOn '.').reverse

def insert (t : SubDomainsTree) (value : Text) : SubDomainsTree :=
  Trie.insert ((labels value).map toAsciiLowercase) t

def contains (t : SubDomainsTree) (value : Text) : Bool := Trie.contains (labels value) t

end SubDomainsTree

/-! ## 3. The rules -/

structure RegexEngine where
  build : (caseInsensitive : Bool) → Text → Option (Text → Bool)

structure Rules where
  (ipv4 ipv6 : List IpNet)
  ruleRegex : List (Text → Bool)
  ruleSet : List Text
  ruleTree : SubDomainsTree

namespace Rules

variable (r : Rules)

def checkIpMatched : IpAddr → Bool
  | .v4 ip =>
    r.ipv4.any (fun net => net.contains 32 ip.toNat) ||
      r.ipv6.any fun net => net.contains 128 (Server.toIpv6Mapped ip).toNat
  | .v6 ip =>
    r.ipv6.any (fun net => net.contains 128 ip.toNat) ||
      match Server.toIpv4Mapped ip with
      | some v4 => r.ipv4.any fun net => net.contains 32 v4.toNat
      | none => false

def checkHostMatched (host : Text) : Bool :=
  let host := trimEndDots host
  r.ruleSet.contains host || r.ruleTree.contains host || r.ruleRegex.any fun isMatch => isMatch host

def isIpEmpty : Bool := r.ipv4.isEmpty && r.ipv6.isEmpty

def isHostEmpty : Bool := r.ruleSet.isEmpty && List.isEmpty r.ruleTree && r.ruleRegex.isEmpty

end Rules

section

open Server (toIpv4Mapped toIpv6Mapped)

theorem toIpv6Mapped_toNat (ip : UInt32) : (toIpv6Mapped ip).toNat = 2 ^ 32 * 0xffff + ip.toNat := by
  have hlt : ip.toNat < 2 ^ 32 := ip.toNat_lt
  rw [toIpv6Mapped, BitVec.toNat_or, BitVec.toNat_ofNat, BitVec.toNat_ofNat,
    Nat.mod_eq_of_lt (show ip.toNat < 2 ^ 128 by omega), Nat.two_pow_add_eq_or_of_lt hlt]

theorem toIpv4Mapped_toIpv6Mapped (ip : UInt32) : toIpv4Mapped (toIpv6Mapped ip) = some ip := by
  have hlt : ip.toNat < 2 ^ 32 := ip.toNat_lt
  have hhigh : toIpv6Mapped ip >>> 32 = 0xffff#128 := by
    apply BitVec.eq_of_toNat_eq
    rw [BitVec.toNat_ushiftRight, toIpv6Mapped_toNat, Nat.shiftRight_eq_div_pow, BitVec.toNat_ofNat]
    omega
  rw [toIpv4Mapped, if_pos hhigh, toIpv6Mapped_toNat]
  congr 1
  apply UInt32.toNat_inj.mp
  rw [UInt32.toNat_ofNat']
  omega

theorem toIpv6Mapped_of_toIpv4Mapped {ip : BitVec 128} {v4 : UInt32} (h : toIpv4Mapped ip = some v4) :
    toIpv6Mapped v4 = ip := by
  unfold toIpv4Mapped at h
  split at h
  · rename_i hhigh
    cases h
    have hnat := congrArg BitVec.toNat hhigh
    rw [BitVec.toNat_ushiftRight, Nat.shiftRight_eq_div_pow, BitVec.toNat_ofNat] at hnat
    apply BitVec.eq_of_toNat_eq
    rw [toIpv6Mapped_toNat, UInt32.toNat_ofNat']
    omega
  · cases h

theorem Rules.checkIpMatched_mapped (r : Rules) (ip : UInt32) :
    r.checkIpMatched (.v6 (toIpv6Mapped ip)) = r.checkIpMatched (.v4 ip) := by
  simp only [checkIpMatched, toIpv4Mapped_toIpv6Mapped]
  exact Bool.or_comm ..

end

/-! ## 4. From lines to rules -/

structure ParsingRules where
  (ipv4 ipv6 : List IpNet)
  (rulesRegex rulesSet : List Text)
  rulesTree : SubDomainsTree

inductive Lead where
  | startOrDot
  | startOrDotGroup
  | anyPlusDot
  | anyStarDot
  | dot
  | start
  deriving DecidableEq

def Lead.all : List Lead := [.startOrDot, .startOrDotGroup, .anyPlusDot, .anyStarDot, .dot, .start]

def Lead.text : Lead → Text
  | .startOrDot => ['(', '^', '|', '\\', '.', ')']
  | .startOrDotGroup => ['(', '?', ':', '^', '|', '\\', '.', ')']
  | .anyPlusDot => ['^', '.', '+', '\\', '.']
  | .anyStarDot => ['^', '.', '*', '\\', '.']
  | .dot => ['\\', '.']
  | .start => ['^']

structure Shape where
  lead : Lead
  body : Text
  dollar : Bool
  deriving DecidableEq

def isWord (c : Char) : Bool := c.isAlphanum || c == '_' || c == '-'

def isBodyFrom : Bool → Text → Bool
  | _, [] => true
  | true, '\\' :: '.' :: rest => isBodyFrom false rest
  | _, c :: rest => isWord c && isBodyFrom true rest

def isBody : Bool := !s.isEmpty && isBodyFrom false s

def splitDollar : Text × Bool := if s.getLast? = some '$' then (s.dropLast, true) else (s, false)

def recognise (rule : Text) : Option Shape :=
  Lead.all.findSome? fun lead =>
    if lead.text.isPrefixOf rule then
      let (body, dollar) := splitDollar (rule.drop lead.text.length)
      if isBody body then some ⟨lead, body, dollar⟩ else none
    else none

def unescape : Text → Text
  | '\\' :: '.' :: rest => '.' :: unescape rest
  | c :: rest => c :: unescape rest
  | [] => []

namespace ParsingRules

def new : ParsingRules := ⟨[], [], [], [], []⟩

def checkIsAscii : Option Text := if isAscii s then some (trimEndDots s) else none

variable (p : ParsingRules)

def addSetRule (rule : Text) : Option ParsingRules :=
  (checkIsAscii rule).map fun name => { p with rulesSet := toAsciiLowercase name :: p.rulesSet }

def addTreeRule (rule : Text) : Option ParsingRules :=
  (checkIsAscii rule).map fun name => { p with rulesTree := p.rulesTree.insert name }

def pushRegex (rule : Text) : ParsingRules :=
  { p with rulesRegex := p.rulesRegex ++ [toAsciiLowercase rule] }

def addRegexRule (rule : Text) : ParsingRules :=
  match recognise rule with
  | some ⟨.start, body, _⟩ => (p.addSetRule (unescape body)).getD (p.pushRegex rule)
  | some ⟨_, body, _⟩ => (p.addTreeRule (unescape body)).getD (p.pushRegex rule)
  | none => p.pushRegex rule

def intoRules (E : RegexEngine) (p : ParsingRules) : Option Rules :=
  (p.rulesRegex.mapM (E.build false)).map fun regex => ⟨p.ipv4, p.ipv6, regex, p.rulesSet, p.rulesTree⟩

end ParsingRules

end Shadowsocks.Acl
