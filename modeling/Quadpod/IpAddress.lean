import Quadpod.Text
import Mathlib.Data.List.TakeWhile

/-!
# IP addresses and their text forms

`std::net`: the two kinds of addresses, and the parsers of `core::net::parser`
that read them.  A reader takes a part of the text from the front and returns
what is left; a text is an address when its reader leaves nothing.
-/

/-- `Ipv4Addr`: four octets. -/
structure Ipv4Addr where
  a : UInt8
  b : UInt8
  c : UInt8
  d : UInt8
  deriving DecidableEq

/-- `Ipv6Addr`: eight groups of sixteen bits. -/
structure Ipv6Addr where
  segments : List UInt16
  eight : segments.length = 8
  deriving DecidableEq

/-- `IpAddr` -/
inductive IpAddr where
  | v4 (address : Ipv4Addr)
  | v6 (address : Ipv6Addr)
  deriving DecidableEq

/-- `SocketAddr` -/
structure SocketAddr where
  ip : IpAddr
  port : UInt16
  deriving DecidableEq

namespace IpText

/-- `char::to_digit` -/
def toDigit (radix : Nat) (c : Char) : Option Nat :=
  let value :=
    if '0' ≤ c ∧ c ≤ '9' then
      some (c.toNat - '0'.toNat)
    else if 'a' ≤ c ∧ c ≤ 'z' then
      some (c.toNat - 'a'.toNat + 10)
    else if 'A' ≤ c ∧ c ≤ 'Z' then
      some (c.toNat - 'A'.toNat + 10)
    else
      none
  value.filter (· < radix)

/-- The number some digits spell. -/
def valueOf (radix : Nat) (digits : Text) : Nat :=
  digits.foldl (fun value c => value * radix + (toDigit radix c).getD 0) 0

/-- `Parser::read_number`, for numbers below a limit. -/
def readNumber
    (radix maxDigits limit : Nat) (allowZeroPrefix : Bool) (text : Text) :
    Option (Nat × Text) :=
  let digits := text.takeWhile fun c => (toDigit radix c).isSome
  if digits.isEmpty || maxDigits < digits.length then
    none
  else if !allowZeroPrefix && digits.head? = some '0' && 1 < digits.length then
    none
  else if limit ≤ valueOf radix digits then
    none
  else
    some (valueOf radix digits, text.drop digits.length)

/-- `Parser::read_separator`: every element but the first has one before it. -/
def readSeparator
    {α : Type} (separator : Char) (isFirst : Bool)
    (read : Text → Option (α × Text)) (text : Text) : Option (α × Text) :=
  if isFirst then
    read text
  else do
    let rest ← Text.stripPrefix [separator] text
    read rest

/-- `Parser::read_ipv4_addr` -/
def readIpv4Addr (text : Text) : Option (Ipv4Addr × Text) := do
  let octet (isFirst : Bool) :=
    readSeparator '.' isFirst (readNumber 10 3 256 false)
  let (a, rest) ← octet true text
  let (b, rest) ← octet false rest
  let (c, rest) ← octet false rest
  let (d, rest) ← octet false rest
  pure (⟨.ofNat a, .ofNat b, .ofNat c, .ofNat d⟩, rest)

/-- `u16::from_be_bytes` -/
def fromBeBytes (high low : UInt8) : UInt16 :=
  .ofNat (high.toNat * 256 + low.toNat)

/--
`read_groups`: groups of an IPv6 address, at most `left` of them, and whether
they end in an embedded IPv4 address.
-/
def readGroups : Nat → Bool → Text → List UInt16 × Bool × Text
  | 0, _, text => ([], false, text)
  | left + 1, isFirst, text =>
      let embedded :=
        if 1 ≤ left then readSeparator ':' isFirst readIpv4Addr text else none
      match embedded with
      | some (⟨a, b, c, d⟩, rest) =>
          ([fromBeBytes a b, fromBeBytes c d], true, rest)
      | none =>
          match readSeparator ':' isFirst (readNumber 16 4 65536 true) text with
          | some (group, rest) =>
              let (groups, hasIpv4, rest) := readGroups left false rest
              (.ofNat group :: groups, hasIpv4, rest)
          | none => ([], false, text)

theorem length_readGroups (left : Nat) (isFirst : Bool) (text : Text) :
    (readGroups left isFirst text).1.length ≤ left := by
  induction left generalizing isFirst text with
  | zero =>
      exact Nat.le_refl 0
  | succ left inductionHypothesis =>
      rw [readGroups]
      dsimp only
      split
      · next embedded =>
          split at embedded
          · next several =>
              exact Nat.succ_le_succ several
          · cases embedded
      · split
        · exact Nat.succ_le_succ (inductionHypothesis _ _)
        · exact Nat.zero_le _

/-- `Parser::read_ipv6_addr` -/
def readIpv6Addr (text : Text) : Option (Ipv6Addr × Text) :=
  let head := readGroups 8 true text
  if full : head.1.length = 8 then
    some (⟨head.1, full⟩, head.2.2)
  else if head.2.1 then
    none
  else do
    let rest ← Text.stripPrefix [':', ':'] head.2.2
    let tail := readGroups (8 - (head.1.length + 1)) true rest
    let zeros := List.replicate (8 - head.1.length - tail.1.length) (0 : UInt16)
    pure (⟨head.1 ++ zeros ++ tail.1, by
      have headFits := length_readGroups 8 true text
      have tailFits := length_readGroups (8 - (head.1.length + 1)) true rest
      simp only [zeros, List.length_append, List.length_replicate]
      change head.1.length ≤ 8 at headFits
      change tail.1.length ≤ _ at tailFits
      omega⟩, tail.2.2)

/-- `Parser::parse_with`: a text that is read to its end. -/
def parseWith {α : Type} (read : Text → Option (α × Text)) (text : Text) :
    Option α := do
  let (value, rest) ← read text
  if rest.isEmpty then some value else none

end IpText

/-- `Ipv6Addr::from_str` -/
def Ipv6Addr.parse (text : Text) : Option Ipv6Addr :=
  IpText.parseWith IpText.readIpv6Addr text

/-- `IpAddr::from_str` -/
def IpAddr.parse (text : Text) : Option IpAddr :=
  IpText.parseWith
    (fun text =>
      match IpText.readIpv4Addr text with
      | some (address, rest) => some (.v4 address, rest)
      | none => (IpText.readIpv6Addr text).map fun (address, rest) =>
          (.v6 address, rest))
    text
