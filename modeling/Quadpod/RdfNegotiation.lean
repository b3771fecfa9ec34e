import Quadpod.RdfFormat

namespace Quadpod

/-!
# Content negotiation

The `Accept` header as `rdf.rs` reads it: the ranked list of its media ranges,
the format and version `negotiate` selects, and whether a blob's one media type
is admissible.  Quality values are `f32` in the source; how the standard library
reads and compares them is a parameter, and so is how it sorts: it promises no
order where the comparator is not total.
-/

/-- `rdf::Shape`: what a resource turned out to be, once read. -/
inductive RdfShape where
  | graph
  | dataset
  deriving DecidableEq

/-- A comparator that orders the entries of a list totally. -/
structure TotalOn {Entry : Type} (cmp : Entry → Entry → Ordering)
    (entries : List Entry) : Prop where
  swap :
    ∀ first ∈ entries, ∀ second ∈ entries,
      cmp second first = (cmp first second).swap
  trans :
    ∀ first ∈ entries, ∀ second ∈ entries, ∀ third ∈ entries,
      (cmp first second).isLE = true →
        (cmp second third).isLE = true → (cmp first third).isLE = true

/--
`slice::sort_by`: whatever the comparator, the entries in some order, and where
it orders them totally, in that order.
-/
class SliceSort where
  sortBy : {Entry : Type} → (Entry → Entry → Ordering) → List Entry → List Entry
  perm :
    ∀ {Entry : Type} (cmp : Entry → Entry → Ordering) (entries : List Entry),
      (sortBy cmp entries).Perm entries
  sorted :
    ∀ {Entry : Type} (cmp : Entry → Entry → Ordering) (entries : List Entry),
      TotalOn cmp entries →
        (sortBy cmp entries).Pairwise fun first second =>
          (cmp first second).isLE = true

/-- The `f32` of a quality value, as the standard library parses and compares. -/
class Quality extends SliceSort where
  Value : Type
  parse : Text → Option Value
  one : Value
  isZero : Value → Bool
  isPositive : Value → Bool
  partialCmp : Value → Value → Option Ordering
  notZero : ∀ value, isPositive value = true → isZero value = false

variable [Quality]

/-- One media range of an `Accept` header, with its parameters and without. -/
structure AcceptRange where
  quality : Quality.Value
  position : Nat
  range : Text
  whole : Text

/-- The quality value among the parameters of a range. -/
def rangeQuality (parameters : List Text) : Quality.Value :=
  (parameters.findSome? fun parameter =>
    (Text.stripPrefix "q=".toList (Text.trim parameter)).bind
      Quality.parse).getD Quality.one

/-- One comma-separated part of an `Accept` header. -/
def acceptRange (position : Nat) (part : Text) : AcceptRange where
  quality := rangeQuality ((Text.split ';' part).drop 1)
  position := position
  range := Text.trim ((Text.split ';' part).headD [])
  whole := Text.trim part

/-- The entries of an `Accept` header, in order of their positions. -/
def acceptEntries (accept : Text) : List AcceptRange :=
  (Text.split ',' accept).mapIdx acceptRange

/-- Higher quality first, and earlier entries first among equals. -/
def AcceptRange.cmp (first second : AcceptRange) : Ordering :=
  ((Quality.partialCmp second.quality first.quality).getD .eq).then
    (compare first.position second.position)

/-- `ranked_accept` -/
def rankedAccept (accept : Text) : List AcceptRange :=
  SliceSort.sortBy AcceptRange.cmp (acceptEntries accept)

theorem mem_rankedAccept {accept : Text} {entry : AcceptRange} :
    entry ∈ rankedAccept accept ↔ entry ∈ acceptEntries accept :=
  (SliceSort.perm _ _).mem_iff

theorem rankedAccept_of_single {accept : Text} (single : ',' ∉ accept) :
    rankedAccept accept = [acceptRange 0 accept] := by
  have entries : acceptEntries accept = [acceptRange 0 accept] := by
    rw [acceptEntries, Text.split_of_not_mem single]
    rfl
  refine List.perm_singleton.mp ?_
  rw [← entries]
  exact SliceSort.perm _ _

/-- The decision of `accept_allows`, by the most specific range. -/
def bestRange (essence : Text) :
    List AcceptRange → Option (Nat × Quality.Value) →
      Option (Nat × Quality.Value)
  | [], best => best
  | entry :: rest, best =>
      let range := Text.toAsciiLowercase entry.range
      let specificity :=
        if range = essence then
          3
        else if range =
            (Text.split '/' essence).headD [] ++ "/*".toList then
          2
        else if range = "*/*".toList then
          1
        else
          0
      if 0 < specificity && best.all (fun found => found.1 < specificity) then
        bestRange essence rest (some (specificity, entry.quality))
      else
        bestRange essence rest best

/-- `accept_allows` -/
def acceptAllows (accept : Text) (mediaType : MediaType) : Bool :=
  let accept := Text.trim accept
  if accept.isEmpty then
    true
  else
    let essence := Text.toAsciiLowercase (mediaTypeEssence mediaType.raw)
    (bestRange essence (rankedAccept accept) none).any fun found =>
      Quality.isPositive found.2

/-- One pass of `negotiate` over the ranges: the first that can be served. -/
def firstServable (candidate : Text → Option Format) :
    List AcceptRange → Option (Format × RdfVersion)
  | [] => none
  | entry :: rest =>
      if Quality.isZero entry.quality then
        firstServable candidate rest
      else
        match RdfVersion.fromMediaType entry.whole with
        | none => firstServable candidate rest
        | some version =>
            match candidate (Text.toAsciiLowercase entry.range) with
            | some format => some (format, version)
            | none => firstServable candidate rest

/-- The two formats a wildcard falls back to. -/
def fallbackFormats : List Format := [.turtle, .jsonLd]

/-- `negotiate` -/
def negotiate (accept : Text) (shape : RdfShape) (stored : Option Format) :
    Option (Format × RdfVersion) :=
  let usable (format : Format) : Bool :=
    shape = .graph || format.carriesDataset
  let accept := Text.trim accept
  if accept.isEmpty then
    ((stored.filter usable).or (fallbackFormats.find? usable)).map fun format =>
      (format, .rdf11)
  else
    let ranked := rankedAccept accept
    let rejected :=
      (ranked.filter fun entry =>
        Quality.isZero entry.quality &&
          !Text.endsWith "/*".toList entry.range).map fun entry =>
            Text.toAsciiLowercase entry.range
    let notRejected (format : Format) : Bool :=
      !rejected.contains format.mediaType
    let fallback :=
      fallbackFormats.find? fun format => usable format && notRejected format
    let strict (range : Text) : Option Format :=
      if range = "*/*".toList then
        (stored.filter fun format =>
          usable format && notRejected format).or fallback
      else if range = "text/*".toList then
        (some Format.turtle).filter fun format =>
          usable format && notRejected format
      else if range = "application/*".toList then
        fallback
      else
        (Format.fromContentType range).filter usable
    let laxFallback := fallbackFormats.find? notRejected
    let lax (range : Text) : Option Format :=
      if range = "*/*".toList then
        (stored.filter notRejected).or laxFallback
      else if range = "text/*".toList then
        (some Format.turtle).filter notRejected
      else if range = "application/*".toList then
        laxFallback
      else
        (Format.fromContentType range).filter notRejected
    (firstServable strict ranked).or (firstServable lax ranked)

end Quadpod
