import Quadpod.FieldSyntax
import Quadpod.SafeFetch
import Mathlib.Data.List.Dedup

/-!
# What an entry for an insecure host grants

An operator's entry is a host, or a host and a port.  The host is read by the
parser of URLs and the port by the code itself, each from the same text; an
entry grants the host that the parser makes of it on the port it names, and on
every port when it names none.  What a policy prints of its entries is read back
as the same entries.
-/

namespace IpText

/-! ## Colons of an IPv6 address -/

theorem count_readNumber
    {radix maxDigits limit value : Nat} {allowZeroPrefix : Bool}
    {text rest : Text}
    (isRead :
      readNumber radix maxDigits limit allowZeroPrefix text =
        some (value, rest)) :
    rest.count ':' ≤ text.count ':' := by
  rw [readNumber] at isRead
  simp only [Option.ite_none_left_eq_some, Option.some.injEq,
    Prod.mk.injEq] at isRead
  rw [← isRead.2.2.2.2]
  exact (List.drop_sublist _ _).count_le ':'

/-- A reader that never gives back more colons than it was given. -/
def KeepsColons {α : Type} (read : Text → Option (α × Text)) : Prop :=
  ∀ {text value rest},
    read text = some (value, rest) → rest.count ':' ≤ text.count ':'

theorem count_readSeparator
    {α : Type} {read : Text → Option (α × Text)} (keeps : KeepsColons read)
    {separator : Char} {isFirst : Bool} {text : Text} {value : α} {rest : Text}
    (isRead : readSeparator separator isFirst read text = some (value, rest)) :
    rest.count ':' + (if isFirst = false ∧ separator = ':' then 1 else 0) ≤
      text.count ':' := by
  rw [readSeparator] at isRead
  split at isRead
  · next first =>
      simpa [first] using keeps isRead
  · obtain ⟨after, isAfter, isValue⟩ := Option.bind_eq_some_iff.mp isRead
    have fewer := keeps isValue
    rw [Text.stripPrefix_eq_some.mp isAfter, List.singleton_append,
      List.count_cons]
    by_cases isColon : separator = ':'
    · rw [if_pos (beq_iff_eq.mpr isColon)]
      split <;> omega
    · rw [if_neg (fun both => isColon both.2)]
      omega

theorem keepsColons_readIpv4Addr : KeepsColons readIpv4Addr := by
  intro text value rest isRead
  have octet :
      ∀ {isFirst : Bool} {text : Text} {value : Nat} {rest : Text},
        readSeparator '.' isFirst (readNumber 10 3 256 false) text =
            some (value, rest) →
          rest.count ':' ≤ text.count ':' := by
    intro isFirst text value rest isOctet
    simpa using count_readSeparator (fun isNumber => count_readNumber isNumber)
      isOctet
  simp only [readIpv4Addr, Option.bind_eq_bind, Option.bind_eq_some_iff,
    Prod.exists, Option.pure_def, Option.some.injEq, Prod.mk.injEq] at isRead
  obtain ⟨_, _, first, _, _, second, _, _, third, _, _, fourth, _, rfl⟩ :=
    isRead
  exact ((octet fourth).trans (octet third)).trans
    ((octet second).trans (octet first))

/--
Every group but the first costs a colon, and an embedded IPv4 address counts for
two groups.
-/
theorem count_readGroups (left : Nat) (isFirst : Bool) (text : Text) :
    (readGroups left isFirst text).2.2.count ':' +
        ((readGroups left isFirst text).1.length -
          (if isFirst = false then 1 else 2)) ≤
      text.count ':' := by
  induction left generalizing isFirst text with
  | zero =>
      simp [readGroups]
  | succ left inductionHypothesis =>
      rw [readGroups]
      dsimp only
      split
      · next embedded =>
          split at embedded
          · have fewer :=
              count_readSeparator keepsColons_readIpv4Addr embedded
            cases isFirst <;> simpa using fewer
          · cases embedded
      · split
        · next group rest isGroup =>
            have fewer :=
              count_readSeparator (fun isNumber => count_readNumber isNumber)
                isGroup
            have others := inductionHypothesis false rest
            generalize readGroups left false rest = read at others ⊢
            obtain ⟨groups, hasIpv4, back⟩ := read
            cases isFirst <;> simp at fewer others ⊢ <;> omega
        · simp

theorem two_le_count_of_readIpv6Addr
    {text : Text} {address : Ipv6Addr} {rest : Text}
    (isRead : readIpv6Addr text = some (address, rest)) :
    2 ≤ text.count ':' := by
  have counted := count_readGroups 8 true text
  rw [readIpv6Addr] at isRead
  split at isRead
  · next full =>
      simp only [Bool.true_eq_false, if_false] at counted
      omega
  · split at isRead
    · cases isRead
    · obtain ⟨after, isAfter, _⟩ := Option.bind_eq_some_iff.mp isRead
      rw [Text.stripPrefix_eq_some.mp isAfter] at counted
      simp only [List.count_append] at counted
      have twoColons : List.count ':' [':', ':'] = 2 := rfl
      omega

end IpText

namespace Ipv6Addr

/-- An IPv6 address has two colons at least. -/
theorem two_le_count_of_parse
    {text : Text} (isAddress : (Ipv6Addr.parse text).isSome = true) :
    2 ≤ text.count ':' := by
  obtain ⟨address, isParsed⟩ := Option.isSome_iff_exists.mp isAddress
  obtain ⟨⟨_, rest⟩, isRead, _⟩ := Option.bind_eq_some_iff.mp isParsed
  exact IpText.two_le_count_of_readIpv6Addr isRead

/-- No IPv6 address begins with a bracket. -/
theorem parse_bracket (rest : Text) :
    Ipv6Addr.parse ('[' :: rest) = none := by
  have noDigit : ∀ radix ∈ [10, 16], IpText.toDigit radix '[' = none := by
    decide
  have noNumber :
      ∀ radix ∈ [10, 16], ∀ maxDigits limit allowZeroPrefix,
        IpText.readNumber radix maxDigits limit allowZeroPrefix
          ('[' :: rest) = none := by
    intro radix member maxDigits limit allowZeroPrefix
    simp [IpText.readNumber, noDigit radix member]
  have noGroups :
      IpText.readGroups 8 true ('[' :: rest) = ([], false, '[' :: rest) := by
    simp [IpText.readGroups, IpText.readSeparator, IpText.readIpv4Addr,
      noNumber]
  have noColons : Text.stripPrefix [':', ':'] ('[' :: rest) = none := by
    rw [Text.stripPrefix_eq_none]
    simp
  simp [Ipv6Addr.parse, IpText.parseWith, IpText.readIpv6Addr, noGroups,
    noColons]

end Ipv6Addr

namespace Quadpod

/-! ## Ports -/

/-- A port is written in digits, with a plus sign before them or none. -/
theorem digit_or_plus_of_parseU16
    {text : Text} {port : UInt16} (isPort : parseU16 text = some port) :
    ∀ c ∈ text, c = '+' ∨ (IpText.toDigit 10 c).isSome = true := by
  rw [parseU16] at isPort
  simp only [Option.ite_none_right_eq_some, Bool.and_eq_true,
    List.all_eq_true] at isPort
  obtain ⟨⟨⟨_, digits⟩, _⟩, _⟩ := isPort
  intro c member
  cases isStripped : Text.stripPrefix ['+'] text with
  | none =>
      rw [isStripped] at digits
      exact Or.inr (digits c member)
  | some rest =>
      rw [isStripped] at digits
      rw [Text.stripPrefix_eq_some.mp isStripped, List.singleton_append,
        List.mem_cons] at member
      exact member.imp_right (digits c)

theorem not_mem_of_parseU16
    {text : Text} {port : UInt16} (isPort : parseU16 text = some port)
    {c : Char} (notPlus : c ≠ '+') (notDigit : IpText.toDigit 10 c = none) :
    c ∉ text := by
  intro member
  have shape := digit_or_plus_of_parseU16 isPort c member
  rw [notDigit] at shape
  exact shape.elim notPlus nofun

theorem colon_not_mem_of_parseU16
    {text : Text} {port : UInt16} (isPort : parseU16 text = some port) :
    ':' ∉ text :=
  not_mem_of_parseU16 isPort (by decide) (by decide)

theorem toDigit_of_isDigit {c : Char} (isDigit : c.isDigit = true) :
    IpText.toDigit 10 c = some (c.toNat - '0'.toNat) := by
  simp only [Char.isDigit, Bool.and_eq_true, decide_eq_true_eq] at isDigit
  have bounds : '0' ≤ c ∧ c ≤ '9' := isDigit
  have small : c.toNat - '0'.toNat < 10 := by
    have upper : c.toNat ≤ 57 := bounds.2
    have zero : '0'.toNat = 48 := rfl
    omega
  rw [IpText.toDigit, if_pos bounds, Option.filter_some,
    decide_eq_true small, if_pos rfl]

theorem valueOf_of_isDigit
    {digits : Text} (areDigits : ∀ c ∈ digits, c.isDigit = true) :
    IpText.valueOf 10 digits = Nat.ofDigitChars 10 digits 0 := by
  rw [IpText.valueOf, Nat.ofDigitChars_eq_foldl]
  refine List.foldl_ext _ _ _ ?_
  intro value c member
  rw [toDigit_of_isDigit (areDigits c member), Option.getD_some,
    Nat.mul_comm]

/-- The decimal digits of a port are read as that port. -/
theorem parseU16_repr (port : UInt16) :
    parseU16 (Nat.repr port.toNat).toList = some port := by
  have areDigits :
      ∀ c ∈ (Nat.repr port.toNat).toList, c.isDigit = true := by
    intro c member
    rw [Nat.toList_repr] at member
    exact Nat.isDigit_of_mem_toDigits (by decide) (by decide) member
  have noPlus :
      Text.stripPrefix ['+'] (Nat.repr port.toNat).toList = none := by
    rw [Text.stripPrefix_eq_none]
    intro lead
    have member : '+' ∈ (Nat.repr port.toNat).toList :=
      lead.subset (by simp)
    have isDigit := areDigits '+' member
    revert isDigit
    decide
  have value :
      IpText.valueOf 10 (Nat.repr port.toNat).toList = port.toNat := by
    rw [valueOf_of_isDigit areDigits, Nat.toList_repr,
      Nat.ofDigitChars_ten_toDigits]
  have allDigits :
      (Nat.repr port.toNat).toList.all
        (fun c => (IpText.toDigit 10 c).isSome) = true := by
    rw [List.all_eq_true]
    intro c member
    rw [toDigit_of_isDigit (areDigits c member)]
    rfl
  rw [parseU16, noPlus, Option.getD_none, value, allDigits]
  simp [port.toNat_lt]

/-! ## The last colon -/

theorem splitLastColon_append_cons
    {after : Text} (absent : ':' ∉ after) (before : Text) :
    splitLastColon (before ++ ':' :: after) = some (before, after) := by
  have reversed :
      (before ++ ':' :: after).reverse =
        after.reverse ++ ':' :: before.reverse := by
    simp
  rw [splitLastColon, reversed,
    Text.splitOnce_append_cons (by simpa using absent)]
  simp

theorem splitLastColon_eq_some
    {text before after : Text}
    (isCut : splitLastColon text = some (before, after)) :
    text = before ++ ':' :: after := by
  obtain ⟨⟨back, front⟩, isReversed, isPair⟩ :=
    Option.map_eq_some_iff.mp isCut
  cases isPair
  have reversed := congrArg List.reverse (Text.splitOnce_eq_some isReversed)
  simpa using reversed

theorem splitLastColon_eq_none
    {text : Text} (absent : ':' ∉ text) : splitLastColon text = none := by
  rw [splitLastColon, Text.splitOnce_eq_none (by simpa using absent)]
  rfl

/-! ## What an entry names -/

/-- The authority a URL is made of for an entry: IPv6 addresses in brackets. -/
def hostAuthority (entry : Text) : Text :=
  if (Ipv6Addr.parse entry).isSome then '[' :: entry ++ [']'] else entry

/-- `http://<authority>/` -/
def authorityUrl (authority : Text) : Text :=
  "http://".toList ++ authority ++ ['/']

/-- A URL of a host and nothing else, whatever its port. -/
structure ParsedUrl.OnlyNames (url : ParsedUrl) (host : Text) : Prop where
  hostStr : url.hostStr = some host
  path : url.path = ['/']
  username : url.username = []
  password : url.password = none
  query : url.query = none
  fragment : url.fragment = none

/-- The host of an entry, as the parser of URLs writes it. -/
def NamesHost [UrlLibrary] (entry host : Text) : Prop :=
  ∃ url,
    UrlLibrary.parse (authorityUrl (hostAuthority (Text.trim entry))) =
        .ok url ∧
      url.OnlyNames host

/--
The port of an entry: a number after a colon at its end, unless the entry is an
address as it stands.
-/
def NamesPort (entry : Text) (port : UInt16) : Prop :=
  Ipv6Addr.parse (Text.trim entry) = none ∧
    ∃ before digits,
      Text.trim entry = before ++ ':' :: digits ∧ parseU16 digits = some port

/-- An address that is another address and a port as well. -/
def IsAmbiguous (entry : Text) : Prop :=
  (Ipv6Addr.parse (Text.trim entry)).isSome = true ∧
    ∃ before digits,
      Text.trim entry = before ++ ':' :: digits ∧
        (Ipv6Addr.parse before).isSome = true ∧
        (parseU16 digits).isSome = true

theorem isAmbiguousEntry_trim
    {entry : Text} (isAmbiguous : IsAmbiguous entry) :
    isAmbiguousEntry (Text.trim entry) = true := by
  obtain ⟨isAddress, before, digits, isText, isHost, isPort⟩ := isAmbiguous
  obtain ⟨port, isNumber⟩ := Option.isSome_iff_exists.mp isPort
  have isCut : splitLastColon (Text.trim entry) = some (before, digits) := by
    rw [isText]
    exact splitLastColon_append_cons (colon_not_mem_of_parseU16 isNumber) before
  rw [isAmbiguousEntry, isAddress, isCut]
  simp [isHost, isPort]

/-- An entry that ends in a bracket names no port. -/
theorem not_port_of_bracket
    {text before digits : Text} {port : UInt16}
    (isText : text ++ [']'] = before ++ ':' :: digits) :
    parseU16 digits ≠ some port := by
  intro isPort
  have last := congrArg List.getLast? isText
  cases digits with
  | nil =>
      cases isPort
  | cons first rest =>
      rw [List.getLast?_concat, List.getLast?_append_cons,
        List.getLast?_cons_cons] at last
      have member : ']' ∈ first :: rest := List.mem_of_getLast? last.symm
      exact not_mem_of_parseU16 isPort (by decide) (by decide) member

/-- The port read from an entry is the one it names. -/
theorem port_of_entryAuthority
    {entry authority : Text} {port : Option UInt16}
    (isRead : entryAuthority (Text.trim entry) = some (authority, port)) :
    authority = hostAuthority (Text.trim entry) ∧
      ∀ named, port = some named ↔ NamesPort entry named := by
  have named_of_cut :
      ∀ {before digits number},
        Ipv6Addr.parse (Text.trim entry) = none →
        Text.trim entry = before ++ ':' :: digits →
        parseU16 digits = some number →
        ∀ named, some number = some named ↔ NamesPort entry named := by
    intro before digits number notAddress isText isNumber named
    constructor
    · intro same
      exact ⟨notAddress, before, digits, isText, isNumber.trans same⟩
    · rintro ⟨_, other, others, isOther, isPort⟩
      have isCut :=
        splitLastColon_append_cons (colon_not_mem_of_parseU16 isNumber) before
      rw [← isText, isOther,
        splitLastColon_append_cons (colon_not_mem_of_parseU16 isPort)] at isCut
      cases isCut
      exact isNumber.symm.trans isPort
  rw [entryAuthority] at isRead
  rw [hostAuthority]
  split at isRead
  · next rest isBracketed =>
      have isText := Text.stripPrefix_eq_some.mp isBracketed
      have notAddress : Ipv6Addr.parse (Text.trim entry) = none := by
        rw [isText]
        exact Ipv6Addr.parse_bracket rest
      obtain ⟨⟨inner, tail⟩, isCut, isTail⟩ :=
        Option.bind_eq_some_iff.mp isRead
      have isRest := Text.splitOnce_eq_some isCut
      rw [notAddress]
      dsimp only at isTail
      split at isTail
      · next noTail =>
          cases isTail
          refine ⟨rfl, fun named => ⟨fun same => (nomatch same), ?_⟩⟩
          rintro ⟨_, before, digits, isOther, isPort⟩
          rw [isText, isRest, List.isEmpty_iff.mp noTail,
            ← List.append_assoc] at isOther
          exact absurd isPort (not_port_of_bracket isOther)
      · obtain ⟨digits, isStripped, isPort⟩ := Option.bind_eq_some_iff.mp isTail
        obtain ⟨number, isNumber, isPair⟩ := Option.bind_eq_some_iff.mp isPort
        cases isPair
        have isAuthority :
            Text.trim entry = ('[' :: inner ++ [']']) ++ ':' :: digits := by
          rw [isText, isRest, Text.stripPrefix_eq_some.mp isStripped]
          simp
        exact ⟨rfl, named_of_cut notAddress isAuthority isNumber⟩
  · split at isRead
    · next isAddress =>
        cases isRead
        refine ⟨(if_pos isAddress).symm, fun named =>
          ⟨fun same => (nomatch same), ?_⟩⟩
        rintro ⟨notAddress, _⟩
        rw [notAddress] at isAddress
        cases isAddress
    · next notSome =>
        have notAddress : Ipv6Addr.parse (Text.trim entry) = none :=
          Option.not_isSome_iff_eq_none.mp notSome
        rw [if_neg notSome]
        split at isRead
        · next before tail isCut =>
            obtain ⟨number, isNumber, isPair⟩ :=
              Option.map_eq_some_iff.mp isRead
            cases isPair
            exact ⟨rfl, named_of_cut notAddress (splitLastColon_eq_some isCut)
              isNumber⟩
        · next notCut =>
            cases isRead
            refine ⟨rfl, fun named => ⟨fun same => (nomatch same), ?_⟩⟩
            rintro ⟨_, before, digits, isText, isPort⟩
            rw [isText, splitLastColon_append_cons
              (colon_not_mem_of_parseU16 isPort)] at notCut
            cases notCut

section Library

variable [UrlLibrary]

/-! ## Entries that are accepted -/

omit [UrlLibrary] in
theorem toOption_eq_some {ε α : Type} {result : Except ε α} {value : α} :
    result.toOption = some value ↔ result = .ok value := by
  cases result with
  | error message => simp [Except.toOption]
  | ok found => simp [Except.toOption]

theorem parseInsecureHostEntry_eq_some
    {entry host : Text} {port : Option UInt16} :
    parseInsecureHostEntry entry = some (host, port) ↔
      Text.trim entry ≠ [] ∧
        isAmbiguousEntry (Text.trim entry) = false ∧
        ∃ authority url,
          entryAuthority (Text.trim entry) = some (authority, port) ∧
            UrlLibrary.parse (authorityUrl authority) = .ok url ∧
            url.OnlyNames host := by
  rw [parseInsecureHostEntry]
  simp only [Option.ite_none_left_eq_some, Bool.or_eq_true,
    List.isEmpty_iff, not_or, Bool.not_eq_true, Option.bind_eq_bind,
    Option.bind_eq_some_iff, Prod.exists, toOption_eq_some,
    Option.some.injEq, Prod.mk.injEq, and_assoc, ne_eq, not_not]
  constructor
  · rintro ⟨nonempty, plain, authority, named, isRead, url, parses, path,
      username, password, query, fragment, _, hostStr, rfl, rfl⟩
    exact ⟨nonempty, plain, authority, url, isRead, parses, hostStr, path,
      username, by simpa using password, by simpa using query,
      by simpa using fragment⟩
  · rintro ⟨nonempty, plain, authority, url, isRead, parses, only⟩
    exact ⟨nonempty, plain, authority, port, isRead, url, parses, only.path,
      only.username, by simp [only.password], by simp [only.query],
      by simp [only.fragment], host, only.hostStr, rfl, rfl⟩

/-- The one pair of a policy of one entry decides what it permits. -/
theorem permitsInsecure_single
    {entry host : Text} {port : Option UInt16}
    (accepted : parseInsecureHostEntry entry = some (host, port))
    (requested : Text) (requestedPort : UInt16) :
    (FetchPolicy.tryWithInsecureHosts [entry]).1.permitsInsecure requested
        requestedPort = true ↔
      requested = host ∧ (port = none ∨ port = some requestedPort) := by
  simp only [FetchPolicy.permitsInsecure, FetchPolicy.tryWithInsecureHosts,
    List.filterMap_cons, accepted, List.filterMap_nil, Bool.or_eq_true,
    List.contains_iff_mem, List.mem_singleton, Prod.mk.injEq]
  constructor
  · rintro (⟨rfl, rfl⟩ | ⟨rfl, rfl⟩)
    · exact ⟨rfl, Or.inl rfl⟩
    · exact ⟨rfl, Or.inr rfl⟩
  · rintro ⟨rfl, rfl | rfl⟩
    · exact Or.inl ⟨rfl, rfl⟩
    · exact Or.inr ⟨rfl, rfl⟩

/-! ## Hosts as the parser of URLs writes them -/

/-- The text of a host: an IPv6 address in brackets, or no colon at all. -/
structure IsHostText (host : Text) : Prop where
  nonempty : host ≠ []
  noBlank : ∀ c ∈ host, Text.isWhitespace c = false
  colons :
    (':' ∉ host ∧ '[' ∉ host) ∨
      ∃ inner, host = '[' :: inner ++ [']'] ∧ ']' ∉ inner

/--
What the parser of URLs does to hosts: it writes each in one form, and reads that
form as the same host, with a port behind it or none.
-/
structure CanonicalHosts : Prop where
  written :
    ∀ authority url host,
      UrlLibrary.parse (authorityUrl authority) = .ok url →
        url.hostStr = some host → IsHostText host
  idempotent :
    ∀ authority url host,
      UrlLibrary.parse (authorityUrl authority) = .ok url →
        url.hostStr = some host →
          ∃ again,
            UrlLibrary.parse (authorityUrl host) = .ok again ∧
              again.OnlyNames host
  idempotentWithPort :
    ∀ authority url host,
      UrlLibrary.parse (authorityUrl authority) = .ok url →
        url.hostStr = some host →
          ∀ port : UInt16,
            ∃ again,
              UrlLibrary.parse
                  (authorityUrl
                    (host ++ ':' :: (Nat.repr port.toNat).toList)) =
                  .ok again ∧
                again.OnlyNames host

/-! ## Entries as they are printed -/

omit [UrlLibrary] in
theorem digit_not_blank (port : UInt16) :
    ∀ c ∈ (Nat.repr port.toNat).toList, Text.isWhitespace c = false := by
  intro c member
  rw [Nat.toList_repr] at member
  have isDigit := Nat.isDigit_of_mem_toDigits (by decide) (by decide) member
  simp only [Char.isDigit, Bool.and_eq_true, decide_eq_true_eq] at isDigit
  have bounds : '0' ≤ c ∧ c ≤ '9' := isDigit
  have lower : 48 ≤ c.toNat := bounds.1
  have upper : c.toNat ≤ 57 := bounds.2
  simp [Text.isWhitespace]
  omega

omit [UrlLibrary] in
theorem trim_displayInsecureHostEntry
    {host : Text} (isHost : IsHostText host) (port : Option UInt16) :
    Text.trim (displayInsecureHostEntry host port) =
      displayInsecureHostEntry host port := by
  refine Text.trim_of_plain ?_
  cases port with
  | none =>
      exact isHost.noBlank
  | some port =>
      intro c member
      rw [displayInsecureHostEntry, List.mem_append, List.mem_cons] at member
      obtain inHost | rfl | inPort := member
      · exact isHost.noBlank c inHost
      · decide
      · exact digit_not_blank port c inPort

omit [UrlLibrary] in
/-- What is printed of a host is never an IPv6 address as it stands. -/
theorem parse_displayInsecureHostEntry
    {host : Text} (isHost : IsHostText host) (port : Option UInt16) :
    Ipv6Addr.parse (displayInsecureHostEntry host port) = none := by
  obtain ⟨noColon, _⟩ | ⟨inner, rfl, _⟩ := isHost.colons
  · rw [← Option.not_isSome_iff_eq_none]
    intro isAddress
    have twoColons := Ipv6Addr.two_le_count_of_parse isAddress
    have noneInHost : host.count ':' = 0 := List.count_eq_zero.mpr noColon
    cases port with
    | none =>
        rw [displayInsecureHostEntry] at twoColons
        omega
    | some port =>
        have noneInPort : (Nat.repr port.toNat).toList.count ':' = 0 :=
          List.count_eq_zero.mpr
            (colon_not_mem_of_parseU16 (parseU16_repr port))
        rw [displayInsecureHostEntry, List.count_append,
          List.count_cons_self] at twoColons
        omega
  · cases port with
    | none => exact Ipv6Addr.parse_bracket _
    | some port => exact Ipv6Addr.parse_bracket _

omit [UrlLibrary] in
theorem entryAuthority_displayInsecureHostEntry
    {host : Text} (isHost : IsHostText host) (port : Option UInt16) :
    entryAuthority (displayInsecureHostEntry host port) =
      some (displayInsecureHostEntry host port, port) := by
  have notAddress := parse_displayInsecureHostEntry isHost port
  have isPort : ∀ port : UInt16, ':' ∉ (Nat.repr port.toNat).toList :=
    fun port => colon_not_mem_of_parseU16 (parseU16_repr port)
  obtain ⟨noColon, noBracket⟩ | ⟨inner, rfl, noBracket⟩ := isHost.colons
  · have notBracketed :
        Text.stripPrefix ['['] (displayInsecureHostEntry host port) = none := by
      rw [Text.stripPrefix_eq_none]
      intro lead
      have member : '[' ∈ displayInsecureHostEntry host port :=
        lead.subset (List.mem_singleton_self '[')
      cases port with
      | none =>
          exact noBracket member
      | some port =>
          rw [displayInsecureHostEntry, List.mem_append,
            List.mem_cons] at member
          obtain inHost | isColon | inPort := member
          · exact noBracket inHost
          · cases isColon
          · exact not_mem_of_parseU16 (parseU16_repr port) (by decide)
              (by decide) inPort
    rw [entryAuthority, notBracketed]
    dsimp only
    rw [notAddress]
    cases port with
    | none =>
        rw [displayInsecureHostEntry, splitLastColon_eq_none noColon]
        rfl
    | some port =>
        rw [displayInsecureHostEntry,
          splitLastColon_append_cons (isPort port)]
        dsimp only
        rw [parseU16_repr]
        rfl
  · have opened :
        ∀ tail,
          entryAuthority ('[' :: (inner ++ ']' :: tail)) =
            if tail.isEmpty then
              some ('[' :: (inner ++ ']' :: tail), none)
            else
              (Text.stripPrefix [':'] tail).bind fun digits =>
                (parseU16 digits).bind fun port =>
                  some ('[' :: (inner ++ ']' :: tail), some port) := by
      intro tail
      have isStripped :
          Text.stripPrefix ['['] ('[' :: (inner ++ ']' :: tail)) =
            some (inner ++ ']' :: tail) :=
        Text.stripPrefix_append ['['] (inner ++ ']' :: tail)
      rw [entryAuthority, isStripped]
      dsimp only
      rw [Text.splitOnce_append_cons noBracket]
      rfl
    cases port with
    | none =>
        exact opened []
    | some port =>
        have isColon :
            Text.stripPrefix [':'] (':' :: (Nat.repr port.toNat).toList) =
              some (Nat.repr port.toNat).toList :=
          Text.stripPrefix_append [':'] _
        have shape :
            displayInsecureHostEntry ('[' :: inner ++ [']']) (some port) =
              '[' :: (inner ++ ']' :: ':' :: (Nat.repr port.toNat).toList) := by
          simp [displayInsecureHostEntry]
        rw [shape, opened, isColon, Option.bind_some, parseU16_repr]
        rfl

/-- What is printed of an accepted entry is read as the same host and port. -/
theorem parse_display_of_accepted
    (canonical : CanonicalHosts)
    {entry host : Text} {port : Option UInt16}
    (accepted : parseInsecureHostEntry entry = some (host, port)) :
    parseInsecureHostEntry (displayInsecureHostEntry host port) =
      some (host, port) := by
  obtain ⟨_, _, authority, url, _, parses, only⟩ :=
    parseInsecureHostEntry_eq_some.mp accepted
  have isHost : IsHostText host :=
    canonical.written authority url host parses only.hostStr
  have reparsed :
      ∃ again,
        UrlLibrary.parse
            (authorityUrl (displayInsecureHostEntry host port)) =
            .ok again ∧
          again.OnlyNames host := by
    cases port with
    | none =>
        exact canonical.idempotent authority url host parses only.hostStr
    | some port =>
        exact canonical.idempotentWithPort authority url host parses
          only.hostStr port
  obtain ⟨again, parsesAgain, onlyAgain⟩ := reparsed
  rw [parseInsecureHostEntry_eq_some,
    trim_displayInsecureHostEntry isHost port]
  refine ⟨?_, ?_, displayInsecureHostEntry host port, again,
    entryAuthority_displayInsecureHostEntry isHost port, parsesAgain,
    onlyAgain⟩
  · cases port with
    | none => exact isHost.nonempty
    | some port => simp [displayInsecureHostEntry]
  · simp [isAmbiguousEntry, parse_displayInsecureHostEntry isHost port]

/-- The policies that the constructors of the source build. -/
inductive FetchPolicy.Constructed : FetchPolicy → Prop
  | default : Constructed FetchPolicy.default
  | permissive : Constructed FetchPolicy.permissive
  | withInsecureHosts (hosts : List Text) :
      Constructed (FetchPolicy.tryWithInsecureHosts hosts).1

theorem FetchPolicy.Constructed.accepted
    {policy : FetchPolicy} (constructed : policy.Constructed)
    {pair : Text × Option UInt16} (member : pair ∈ policy.insecureHosts) :
    ∃ entry, parseInsecureHostEntry entry = some pair := by
  cases constructed with
  | default => cases member
  | permissive => cases member
  | withInsecureHosts hosts =>
      obtain ⟨entry, _, accepted⟩ := List.mem_filterMap.mp member
      exact ⟨entry, accepted⟩

omit [UrlLibrary] in
theorem mem_insecureHostEntries
    {policy : FetchPolicy} {text : Text} :
    text ∈ policy.insecureHostEntries ↔
      ∃ pair ∈ policy.insecureHosts,
        displayInsecureHostEntry pair.1 pair.2 = text := by
  rw [FetchPolicy.insecureHostEntries, List.mem_mergeSort, List.mem_map]
  simp only [List.mem_dedup]

/-! ## Entries grant what they say -/

/--
Every accepted entry grants the host that the parser of URLs makes of it, on the
port it names or else on every port; an ambiguous entry is refused; and what a
policy prints is read back as the policy's own set.
-/
theorem insecure_entries_exact (canonical : CanonicalHosts) :
    (∀ entry host port,
      parseInsecureHostEntry entry = some (host, port) →
        NamesHost entry host ∧
          (∀ named, port = some named ↔ NamesPort entry named) ∧
          ∀ requested requestedPort,
            (FetchPolicy.tryWithInsecureHosts [entry]).1.permitsInsecure
                requested requestedPort = true ↔
              requested = host ∧
                ∀ named, NamesPort entry named → requestedPort = named) ∧
      (∀ entry, IsAmbiguous entry → parseInsecureHostEntry entry = none) ∧
      ∀ policy : FetchPolicy, policy.Constructed →
        (FetchPolicy.tryWithInsecureHosts policy.insecureHostEntries).2 = [] ∧
          ∀ pair,
            pair ∈ (FetchPolicy.tryWithInsecureHosts
                policy.insecureHostEntries).1.insecureHosts ↔
              pair ∈ policy.insecureHosts := by
  refine ⟨?_, ?_, ?_⟩
  · intro entry host port accepted
    obtain ⟨_, _, authority, url, isRead, parses, only⟩ :=
      parseInsecureHostEntry_eq_some.mp accepted
    obtain ⟨rfl, isNamed⟩ := port_of_entryAuthority isRead
    refine ⟨⟨url, parses, only⟩, isNamed, ?_⟩
    intro requested requestedPort
    rw [permitsInsecure_single accepted]
    refine and_congr_right fun _ => ?_
    simp only [← isNamed]
    cases port with
    | none => simp
    | some port => simp [eq_comm]
  · intro entry isAmbiguous
    rw [parseInsecureHostEntry]
    simp [isAmbiguousEntry_trim isAmbiguous]
  · intro policy constructed
    have reparsed :
        ∀ pair ∈ policy.insecureHosts,
          parseInsecureHostEntry
              (displayInsecureHostEntry pair.1 pair.2) = some pair := by
      intro pair member
      obtain ⟨entry, accepted⟩ := constructed.accepted member
      exact parse_display_of_accepted canonical accepted
    constructor
    · rw [FetchPolicy.tryWithInsecureHosts, List.filter_eq_nil_iff]
      intro text member
      obtain ⟨pair, inPolicy, rfl⟩ := mem_insecureHostEntries.mp member
      simp [reparsed pair inPolicy]
    · intro pair
      rw [FetchPolicy.tryWithInsecureHosts, List.mem_filterMap]
      constructor
      · rintro ⟨text, member, isPair⟩
        obtain ⟨found, inPolicy, rfl⟩ := mem_insecureHostEntries.mp member
        rw [reparsed found inPolicy] at isPair
        cases isPair
        exact inPolicy
      · intro member
        exact ⟨_, mem_insecureHostEntries.mpr ⟨pair, member, rfl⟩,
          reparsed pair member⟩

end Library

end Quadpod

namespace Quadpod.HostReference

/-- The hosts that the parser below knows. -/
def knownHosts : List Text := ["localhost".toList, "[::1]".toList]

/-- A URL of a host and a port. -/
def hostUrl (host : Text) (port : UInt16) : ParsedUrl where
  scheme := "http".toList
  hostStr := some host
  portOrKnownDefault := some port
  path := ['/']
  username := []
  password := none
  query := none
  fragment := none

/-- The port of an authority with a given host; the scheme's own is 80. -/
def portAfter (host authority : Text) : Option UInt16 := do
  let rest ← Text.stripPrefix host authority
  if rest.isEmpty then
    some 80
  else do
    let digits ← Text.stripPrefix [':'] rest
    if digits.head? = some '+' then none else parseU16 digits

/-- The URL a text is, for the hosts that are known. -/
def knownUrl (text : Text) : Option ParsedUrl := do
  let rest ← Text.stripPrefix "http://".toList text
  let authority ← Text.stripSuffix ['/'] rest
  knownHosts.findSome? fun host => (portAfter host authority).map (hostUrl host)

/-- A parser of URLs that knows a name and an address. -/
scoped instance : UrlLibrary where
  parse text := (knownUrl text).elim (.error "invalid host".toList) .ok

theorem parse_authorityUrl {authority : Text} {url : ParsedUrl} :
    UrlLibrary.parse (authorityUrl authority) = .ok url ↔
      (knownHosts.findSome? fun host =>
        (portAfter host authority).map (hostUrl host)) = some url := by
  have isKnown :
      knownUrl (authorityUrl authority) =
        knownHosts.findSome? fun host =>
          (portAfter host authority).map (hostUrl host) := by
    have isRest :
        Text.stripPrefix "http://".toList (authorityUrl authority) =
          some (authority ++ ['/']) :=
      Text.stripPrefix_eq_some.mpr (List.append_assoc _ _ _)
    simp only [knownUrl, isRest, Text.stripSuffix_append,
      Option.bind_eq_bind, Option.bind_some]
  change (knownUrl (authorityUrl authority)).elim _ _ = _ ↔ _
  rw [isKnown]
  cases knownHosts.findSome? fun host =>
    (portAfter host authority).map (hostUrl host) with
  | none => simp
  | some found => simp

theorem mem_knownHosts_of_parse
    {authority : Text} {url : ParsedUrl} {host : Text}
    (parses : UrlLibrary.parse (authorityUrl authority) = .ok url)
    (hasHost : url.hostStr = some host) : host ∈ knownHosts := by
  obtain ⟨known, member, isUrl⟩ :=
    List.exists_of_findSome?_eq_some (parse_authorityUrl.mp parses)
  obtain ⟨port, _, rfl⟩ := Option.map_eq_some_iff.mp isUrl
  cases hasHost
  exact member

/-- A known host with a port behind it, or none, is read as that host. -/
theorem parse_knownHost
    {host : Text} (member : host ∈ knownHosts) {tail : Text} {port : UInt16}
    (isPort :
      portAfter host (host ++ tail) = some port) :
    ∃ again,
      UrlLibrary.parse (authorityUrl (host ++ tail)) = .ok again ∧
        again.OnlyNames host := by
  refine ⟨hostUrl host port, parse_authorityUrl.mpr ?_, rfl, rfl, rfl, rfl,
    rfl, rfl⟩
  rw [knownHosts, List.mem_cons, List.mem_singleton] at member
  rw [knownHosts, List.findSome?_cons]
  obtain rfl | rfl := member
  · rw [isPort]
    rfl
  · have otherHost :
        portAfter "localhost".toList ("[::1]".toList ++ tail) = none := by
      have notLead :
          Text.stripPrefix "localhost".toList ("[::1]".toList ++ tail) =
            none := by
        rw [Text.stripPrefix_eq_none]
        simp
      rw [portAfter, notLead]
      rfl
    rw [otherHost, Option.map_none, List.findSome?_cons, isPort]
    rfl

theorem portAfter_self (host : Text) : portAfter host host = some 80 := by
  have noRest : Text.stripPrefix host host = some [] :=
    Text.stripPrefix_eq_some.mpr (List.append_nil host).symm
  rw [portAfter, noRest]
  rfl

theorem portAfter_repr (host : Text) (port : UInt16) :
    portAfter host (host ++ ':' :: (Nat.repr port.toNat).toList) =
      some port := by
  have isColon :
      Text.stripPrefix [':'] (':' :: (Nat.repr port.toNat).toList) =
        some (Nat.repr port.toNat).toList :=
    Text.stripPrefix_append [':'] _
  have noPlus : (Nat.repr port.toNat).toList.head? ≠ some '+' := by
    intro isPlus
    have member := List.mem_of_mem_head? isPlus
    rw [Nat.toList_repr] at member
    have isDigit :=
      Nat.isDigit_of_mem_toDigits (by decide) (by decide) member
    revert isDigit
    decide
  rw [portAfter, Text.stripPrefix_append]
  dsimp only [Option.bind_eq_bind, Option.bind_some, List.isEmpty_cons]
  rw [if_neg Bool.false_ne_true, isColon, Option.bind_some, if_neg noPlus,
    parseU16_repr]

theorem isHostText_of_known {host : Text} (member : host ∈ knownHosts) :
    IsHostText host := by
  rw [knownHosts, List.mem_cons, List.mem_singleton] at member
  obtain rfl | rfl := member
  · have noBlank :
        "localhost".toList.all (fun c => !Text.isWhitespace c) = true := by
      decide
    exact ⟨by decide, by simpa using noBlank, Or.inl (by decide)⟩
  · have noBlank :
        "[::1]".toList.all (fun c => !Text.isWhitespace c) = true := by
      decide
    exact ⟨by decide, by simpa using noBlank,
      Or.inr ⟨"::1".toList, by decide⟩⟩

theorem canonicalHosts : CanonicalHosts where
  written authority url host parses hasHost :=
    isHostText_of_known (mem_knownHosts_of_parse parses hasHost)
  idempotent authority url host parses hasHost := by
    have isPort : portAfter host (host ++ []) = some 80 := by
      rw [List.append_nil]
      exact portAfter_self host
    have reparsed :=
      parse_knownHost (mem_knownHosts_of_parse parses hasHost) isPort
    rw [List.append_nil] at reparsed
    exact reparsed
  idempotentWithPort authority url host parses hasHost port :=
    parse_knownHost (mem_knownHosts_of_parse parses hasHost)
      (portAfter_repr host port)

/-- The scheme's default port, and an address without brackets. -/
def hostEntries : List Text := ["localhost:80".toList, "::1".toList]

/--
An entry for port 80 grants that port only, an address that is a pair as well is
refused, and what is printed of two entries is read back.
-/
theorem hostEntries_exact :
    (∀ requestedPort,
      (FetchPolicy.tryWithInsecureHosts
          ["localhost:80".toList]).1.permitsInsecure "localhost".toList
          requestedPort = true →
        requestedPort = 80) ∧
      parseInsecureHostEntry "fd00::1:80".toList = none ∧
      (FetchPolicy.tryWithInsecureHosts
          (FetchPolicy.tryWithInsecureHosts
            hostEntries).1.insecureHostEntries).2 = [] := by
  obtain ⟨grants, refuses, reparses⟩ := insecure_entries_exact canonicalHosts
  have accepted :
      parseInsecureHostEntry "localhost:80".toList =
        some ("localhost".toList, some 80) := by
    decide
  refine ⟨?_, refuses _ ⟨by decide, "fd00::1".toList, "80".toList,
    by decide⟩, (reparses _ (.withInsecureHosts hostEntries)).1⟩
  intro requestedPort permitted
  obtain ⟨_, isNamed, permits⟩ := grants _ _ _ accepted
  exact ((permits _ _).mp permitted).2 80 ((isNamed 80).mp rfl)

end Quadpod.HostReference
