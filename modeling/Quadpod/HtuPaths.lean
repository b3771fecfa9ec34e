import Quadpod.AdvertisedUrls
import Quadpod.Authentication
import Quadpod.UrlNormalization

namespace Quadpod

open PercentEncoding UrlNormalization

/-!
# The resource a proof names

A proof names a URL, and the request arrives at a path; the two are compared as
the parser of URLs normalizes them, while the handlers decode the path once and
give it to `resolve`.  A path that resolves has no segment the parser would
resolve and no character it would fold or strip, so the parser only
percent-encodes it, and decoding undoes that.
-/

/-! ## What the parser of URLs and the syntax of IRIs are known to do -/

/-- An IRI has no backslash, no space and no control character. -/
def PlainIris [IriSyntax] : Prop :=
  ∀ text : Text, IriSyntax.valid text = true →
    ∀ c ∈ text, c ≠ '\\' ∧ 0x20 < c.toNat

/--
The pod's URLs go through the path state of the URL standard: the path of the
base with a path behind it is the two normalized.
-/
def NormalizesBelow [IriSyntax] [UrlParser]
    (space : StorageSpace) (basePath : Text) : Prop :=
  ∀ wire path : Text,
    Text.startsWith ['/'] wire = true →
      (∀ c ∈ wire, c ≠ '?' ∧ c ≠ '#' ∧ 0x20 < c.toNat) →
        UrlParser.path (deriveHtu space wire) = some path →
          Text.utf8 path = normalizePath (basePath ++ wire)

variable [IriSyntax] {space : StorageSpace}

/-! ## Paths that resolve -/

omit [IriSyntax] in
/-- A stable path has no dot segments. -/
theorem not_dot_of_stable
    {path piece : Text} (rooted : Text.startsWith ['/'] path = true)
    (stable : isNormalizationStable path = true)
    (member : piece ∈ Text.split '/' path) :
    isDotSegment piece = false := by
  obtain ⟨segments, leaf, good, goodLeaf, rfl⟩ := exists_segments rooted stable
  have cut :=
    Text.split_append_cons '/' [] (segments.flatMap (· ++ ['/']) ++ leaf)
  rw [split_containerPath (fun segment member => (good segment member).slashFree)
    goodLeaf.slashFree] at cut
  rw [containerPath, List.cons_append, ← List.nil_append ('/' :: _), cut,
    List.mem_append, List.mem_append, List.mem_singleton] at member
  rcases member with isFirst | inSegments | isLeaf
  · rw [Text.split_of_not_mem List.not_mem_nil, List.mem_singleton] at isFirst
    rw [isFirst]
    rfl
  · exact (good piece inSegments).notDot
  · rw [isLeaf]
    rcases goodLeaf with isNil | goodName
    · rw [isNil]
      rfl
    · exact goodName.notDot

/-- A path on the wire, and what it is decoded to and resolved to. -/
structure Addresses (space : StorageSpace) (wire path : Text)
    (target : Target space) : Prop where
  given : handlerPath wire = some path
  resolves : space.resolve path = .ok target

theorem exists_addresses {wire : Text} {target : Target space}
    (found : space.resolveWire wire = some target) :
    ∃ path, Addresses space wire path target := by
  simp only [StorageSpace.resolveWire, Option.bind_eq_bind,
    Option.bind_eq_some_iff] at found
  obtain ⟨path, given, isTarget⟩ := found
  refine ⟨path, given, ?_⟩
  cases resolved : space.resolve path with
  | error error =>
      rw [resolved] at isTarget
      cases isTarget
  | ok other =>
      rw [resolved] at isTarget
      cases isTarget
      rfl

namespace Addresses

variable {wire path : Text} {target : Target space}

theorem exists_rest (addresses : Addresses space wire path target) :
    ∃ rest, wire = '/' :: rest := by
  have given := addresses.given
  simp only [handlerPath, Option.bind_eq_bind, Option.bind_eq_some_iff]
    at given
  obtain ⟨rest, isRooted, _⟩ := given
  exact ⟨rest, Text.stripPrefix_eq_some.mp isRooted⟩

/-- No segment on the wire is one that normalization resolves. -/
theorem noDots (addresses : Addresses space wire path target) :
    ∀ segment ∈ Text.split '/' wire,
      segment ∉ singleDots ∧ segment ∉ doubleDots := by
  intro segment member
  have decodes := decode_of_handlerPath addresses.given
  obtain ⟨rooted, stable⟩ :=
    StorageSpace.rooted_of_resolve addresses.resolves
  constructor
  · intro isSingle
    have inPath :=
      mem_split_of_decode decodes member
        (decode_of_singleDots segment isSingle) (by decide)
    have notDot := not_dot_of_stable rooted stable inPath
    cases notDot
  · intro isDouble
    have inPath :=
      mem_split_of_decode decodes member
        (decode_of_doubleDots segment isDouble) (by decide)
    have notDot := not_dot_of_stable rooted stable inPath
    cases notDot

/-- What resolves has been checked as part of an IRI. -/
theorem plain (addresses : Addresses space wire path target)
    (plainIris : PlainIris) :
    ∀ c ∈ path, c ≠ '\\' ∧ 0x20 < c.toNat := by
  intro c member
  have isIri := StorageSpace.graphIri_of_resolve addresses.resolves
  refine plainIris target.node.iri target.node.valid c ?_
  change c ∈ graphIri target
  rw [isIri]
  exact List.mem_append_right _ member

theorem noBackslash (addresses : Addresses space wire path target)
    (plainIris : PlainIris) : '\\' ∉ wire := by
  intro member
  have inPath :=
    mem_of_decode (decode_of_handlerPath addresses.given) (by decide)
      (by decide) (by decide) member
  exact (addresses.plain plainIris '\\' inPath).1 rfl

theorem printable (addresses : Addresses space wire path target)
    (plainIris : PlainIris) : ∀ c ∈ wire, 0x20 < c.toNat := by
  intro c member
  refine Nat.lt_of_not_le fun isControl => ?_
  have notDigit : hexValue (UInt8.ofNat c.toNat) = none := by
    have small : ∀ n ≤ 0x20, hexValue (UInt8.ofNat n) = none := by decide
    exact small c.toNat isControl
  have notPercent : c ≠ '%' := by
    rintro rfl
    exact absurd isControl (by decide)
  have inPath :=
    mem_of_decode (decode_of_handlerPath addresses.given) (by omega)
      notPercent notDigit member
  exact absurd isControl
    (Nat.not_le_of_lt (addresses.plain plainIris c inPath).2)

end Addresses

/-! ## The comparison -/

/--
A proof for one path is accepted for a request to another only where both name
the same graph.
-/
theorem htu_names_one_resource [UrlParser]
    {basePath proofWire requestWire : Text}
    {proofTarget requestTarget : Target space}
    (plainIris : PlainIris) (normalizes : NormalizesBelow space basePath)
    (proofUncut : '?' ∉ proofWire ∧ '#' ∉ proofWire)
    (requestUncut : '?' ∉ requestWire ∧ '#' ∉ requestWire)
    (proofResolves : space.resolveWire proofWire = some proofTarget)
    (requestResolves : space.resolveWire requestWire = some requestTarget)
    (accepted :
      htuNamesTheSameResource (deriveHtu space proofWire)
        (deriveHtu space requestWire) = true) :
    graphIri proofTarget = graphIri requestTarget := by
  obtain ⟨front, below⟩ := exists_normalizePath_below basePath
  have encoded {wire path parsed : Text} {target : Target space}
      (addresses : Addresses space wire path target)
      (uncut : '?' ∉ wire ∧ '#' ∉ wire)
      (parses : UrlParser.path (deriveHtu space wire) = some parsed) :
      Text.utf8 parsed = front ++ encode pathSet (Text.utf8 wire) := by
    have printable := addresses.printable plainIris
    have noBackslash := addresses.noBackslash plainIris
    have noDots := addresses.noDots
    obtain ⟨rest, rfl⟩ := addresses.exists_rest
    have normalized :=
      normalizes ('/' :: rest) parsed (by simp) (fun c member => by
        refine ⟨?_, ?_, printable c member⟩
        · rintro rfl
          exact uncut.1 member
        · rintro rfl
          exact uncut.2 member) parses
    rw [normalized]
    refine below rest (fun member => noBackslash (List.mem_cons_of_mem _ member))
      fun segment member => noDots segment ?_
    rw [← List.nil_append ('/' :: rest), Text.split_append_cons]
    exact List.mem_append_right _ member
  obtain ⟨proofPath, proofAddresses⟩ := exists_addresses proofResolves
  obtain ⟨requestPath, requestAddresses⟩ := exists_addresses requestResolves
  unfold htuNamesTheSameResource at accepted
  split at accepted
  · next proofParsed requestParsed proofParses requestParses =>
      have same :
          front ++ encode pathSet (Text.utf8 proofWire) =
            front ++ encode pathSet (Text.utf8 requestWire) := by
        rw [← encoded proofAddresses proofUncut proofParses,
          ← encoded requestAddresses requestUncut requestParses,
          eq_of_beq accepted]
      have decoded :=
        congrArg decode (List.append_cancel_left same)
      rw [decode_encode pathSet_keepsEscapes,
        decode_encode pathSet_keepsEscapes,
        decode_of_handlerPath proofAddresses.given,
        decode_of_handlerPath requestAddresses.given] at decoded
      rw [StorageSpace.graphIri_of_resolve proofAddresses.resolves,
        StorageSpace.graphIri_of_resolve requestAddresses.resolves,
        Text.utf8_injective decoded]
  · cases accepted

end Quadpod

namespace Quadpod.HtuReference

open PercentEncoding UrlNormalization Reference

/-- A parser of URLs that normalizes the paths below the pod's origin. -/
@[reducible] def normalizingParser : UrlParser where
  path url :=
    (Text.stripPrefix podSpace.origin url).bind fun wire =>
      fromUtf8 (normalizePath wire)

/-- A resource whose name is not ASCII. -/
def accent : ResourceUrl podSpace where
  path := "/é".toList
  iri := "https://pod.example/é".toList
  addressable := ⟨by decide, by decide, by decide⟩
  iriPath := by decide
  valid := by decide

theorem deriveHtu_podSpace (wire : Text) :
    deriveHtu podSpace wire = podSpace.origin ++ wire := by
  have trimmed :
      (graphIri podSpace.root).rdropWhile (· = '/') = podSpace.origin := by
    decide
  rw [deriveHtu, trimmed]

theorem normalizes_podSpace :
    @NormalizesBelow _ normalizingParser podSpace [] := by
  intro wire path _ _ parses
  rw [deriveHtu_podSpace] at parses
  change (Text.stripPrefix podSpace.origin (podSpace.origin ++ wire)).bind _ =
    some path at parses
  rw [Text.stripPrefix_append] at parses
  exact (fromUtf8_eq_some.mp parses).symm

theorem plainIris : PlainIris := by
  intro text valid c member
  have isChar := (iriValid_iff.mp valid).2 c member
  simp only [iriChar, Bool.and_eq_true, decide_eq_true_eq,
    Bool.not_eq_true'] at isChar
  refine ⟨?_, isChar.1⟩
  rintro rfl
  exact absurd isChar.2 (by decide)

/-- The client signs the URL unescaped, and requests it escaped. -/
theorem accent_names_one_resource :
    podSpace.resolveWire "/é".toList = some accent.toTarget ∧
      podSpace.resolveWire "/%C3%A9".toList = some accent.toTarget ∧
      @htuNamesTheSameResource normalizingParser
        (deriveHtu podSpace "/é".toList)
        (deriveHtu podSpace "/%C3%A9".toList) = true ∧
      graphIri accent.toTarget = graphIri accent.toTarget := by
  have unescaped :
      podSpace.resolveWire "/é".toList = some accent.toTarget := by
    decide
  have escaped :
      podSpace.resolveWire "/%C3%A9".toList = some accent.toTarget := by
    decide
  have accepted :
      @htuNamesTheSameResource normalizingParser
        (deriveHtu podSpace "/é".toList)
        (deriveHtu podSpace "/%C3%A9".toList) = true := by
    decide
  exact ⟨unescaped, escaped, accepted,
    @htu_names_one_resource _ _ normalizingParser _ _ _ _ _ plainIris
      normalizes_podSpace (by decide) (by decide) unescaped escaped accepted⟩

end Quadpod.HtuReference
