import Blackwire.Lib.Text
import Blackwire.Config.Impl.Schema
import Blackwire.App.Router

/-!
This module contains the compilation of the routing rules.
-/

namespace Blackwire

def isWhitespace (c : Char) : Bool :=
  let n := c.toNat
  (9 ≤ n && n ≤ 13) || n == 0x20 || n == 0x85 || n == 0xA0 || n == 0x1680
    || (0x2000 ≤ n && n ≤ 0x200A) || n == 0x2028 || n == 0x2029 || n == 0x202F || n == 0x205F
    || n == 0x3000

def trim (s : List Char) : List Char :=
  ((s.dropWhile isWhitespace).reverse.dropWhile isWhitespace).reverse

def parseDigits (acc : Nat) : List Char → Option Nat
  | [] => some acc
  | c :: cs => if c.isDigit then parseDigits (10 * acc + (c.toNat - 48)) cs else none

-- `str::parse::<u16>`, which allows one leading plus sign.
def parseU16 (s : List Char) : Option Nat :=
  let digits := match s with
    | '+' :: rest => rest
    | _ => s
  if digits.isEmpty then
    none
  else
    match parseDigits 0 digits with
    | none => none
    | some n => if n < 65536 then some n else none

def parsePort (s : List Char) : Except String Nat :=
  match parseU16 s with
  | none => .error ("invalid port '" ++ String.ofList s ++ "'")
  | some n => .ok n

def parsePortRange (part : List Char) : Except String (Nat × Nat) :=
  let part := trim part
  if part.contains '-' then do
    let lo ← parsePort (part.takeWhile (· ≠ '-'))
    let hi ← parsePort ((part.dropWhile (· ≠ '-')).drop 1)
    if lo > hi then
      .error ("invalid port range '" ++ String.ofList part
        ++ "': lower bound exceeds upper bound")
    else
      return (lo, hi)
  else do
    let p ← parsePort part
    return (p, p)

def parsePortRanges (s : String) : Except String (List (Nat × Nat)) :=
  if s.isEmpty then
    .ok []
  else
    (Text.split [','] s.toList).mapM parsePortRange

def stripPrefix? (pre s : String) : Option String :=
  if pre.toList.isPrefixOf s.toList then
    some (String.ofList (s.toList.drop pre.length))
  else
    none

structure SortedPatterns where
  full : List String
  suffix : List String
  keywords : List String
  regexes : List String
  geositeCodes : List String

def sortDomain (p : Patterns) (acc : SortedPatterns) (pattern : String) : SortedPatterns :=
  match stripPrefix? "domain:" pattern with
  | some rest => { acc with full := acc.full ++ [rest] }
  | none =>
  match stripPrefix? "suffix:" pattern with
  | some rest => { acc with suffix := acc.suffix ++ [rest] }
  | none =>
  match stripPrefix? "keyword:" pattern with
  | some rest => { acc with keywords := acc.keywords ++ [rest] }
  | none =>
  match stripPrefix? "regexp:" pattern with
  | some rest => { acc with regexes := acc.regexes ++ [rest] }
  | none =>
  match stripPrefix? "geosite:" pattern with
  | some rest => { acc with geositeCodes := acc.geositeCodes ++ [p.toUppercase rest] }
  | none => { acc with full := acc.full ++ [pattern] }

def buildRule (p : Patterns) (outboundTags : List String) (r : RoutingRule)
    : Except String CompiledRule :=
  if r.outboundTag ∉ outboundTags then
    .error ("routing rule references missing outboundTag '" ++ r.outboundTag ++ "'")
  else do
    let sorted := r.domain.foldl (sortDomain p) ⟨[], [], [], [], []⟩
    let geoipCodes := r.ip.filterMap fun pattern =>
      (stripPrefix? "geoip:" pattern).map p.toUppercase
    let ipRanges := r.ip.filter fun pattern => (stripPrefix? "geoip:" pattern).isNone
    let domainMatcher ←
      if sorted.full.isEmpty ∧ sorted.suffix.isEmpty ∧ sorted.keywords.isEmpty
          ∧ sorted.regexes.isEmpty then
        pure none
      else
        some <$> DomainMatcher.new p sorted.full sorted.suffix sorted.keywords sorted.regexes
    let ipMatcher ←
      if ipRanges.isEmpty then
        pure none
      else
        some <$> IpMatcher.new p.parseNet ipRanges
    let portRanges ← parsePortRanges (r.port.getD "")
    return {
      outboundTag := r.outboundTag
      domainMatcher := domainMatcher
      geositeCodes := sorted.geositeCodes
      ipMatcher := ipMatcher
      geoipCodes := geoipCodes
      portRanges := portRanges
      inboundTags := r.inboundTag
      protocols := r.protocol
      users := r.user
    }

def buildRules (p : Patterns) (rules : List RoutingRule) (outboundTags : List String)
    : Except String (List CompiledRule) :=
  rules.mapM (buildRule p outboundTags)

theorem buildRules_congr (p : Patterns) (rules : List RoutingRule) (tags tags' : List String)
    (h : ∀ tag, tag ∈ tags ↔ tag ∈ tags')
    : buildRules p rules tags = buildRules p rules tags' := by
  unfold buildRules
  congr 1
  funext r
  unfold buildRule
  simp only [h]

end Blackwire
