import Quadpod.Text

namespace Quadpod

/-!
# Media types and RDF versions

The parts of `rdf.rs` the write path reads: the version labels of RDF 1.2, the
media types a blob may be stored under, and the five RDF formats.
-/

/-- `RdfVersion`, in containment order. -/
inductive RdfVersion where
  | rdf11
  | rdf12Basic
  | rdf12
  deriving DecidableEq

namespace RdfVersion

/-- The position in the derived order of the Rust type. -/
def rank : RdfVersion → Nat
  | .rdf11 => 0
  | .rdf12Basic => 1
  | .rdf12 => 2

instance : LE RdfVersion where
  le first second := first.rank ≤ second.rank

instance : LT RdfVersion where
  lt first second := first.rank < second.rank

instance (first second : RdfVersion) : Decidable (first ≤ second) :=
  inferInstanceAs (Decidable (first.rank ≤ second.rank))

instance (first second : RdfVersion) : Decidable (first < second) :=
  inferInstanceAs (Decidable (first.rank < second.rank))

/-- `RdfVersion::label` -/
def label : RdfVersion → Text
  | .rdf11 => "1.1".toList
  | .rdf12Basic => "1.2-basic".toList
  | .rdf12 => "1.2".toList

/-- The loop of `from_media_type` over the parameters. -/
def fromParameters :
    List Text → Option RdfVersion → Option (Option RdfVersion)
  | [], found => some found
  | parameter :: rest, found =>
      match Text.splitOnce '=' (Text.trim parameter) with
      | none => none
      | some (name, value) =>
          if Text.eqIgnoreAsciiCase (Text.trim name) "version".toList then
            let value := Text.trim value
            if value = "1.1".toList then
              fromParameters rest (some .rdf11)
            else if value = "1.2-basic".toList then
              fromParameters rest (some .rdf12Basic)
            else if value = "1.2".toList then
              fromParameters rest (some .rdf12)
            else
              none
          else
            fromParameters rest found

/-- `RdfVersion::from_media_type` -/
def fromMediaType (mediaType : Text) : Option RdfVersion :=
  (fromParameters ((Text.split ';' mediaType).drop 1) none).map
    (·.getD .rdf11)

end RdfVersion

/-- `rdf::media_type`: a content type without its parameters. -/
def mediaTypeEssence (contentType : Text) : Text :=
  Text.trim ((Text.split ';' contentType).headD [])

/-- `RdfError` -/
inductive RdfError where
  | parse (message : Text)
  | serialize (message : Text)
  | unsupportedType
  | unsupportedRdfVersion (found allowed : RdfVersion)
  deriving DecidableEq

/-! ## Stored media types -/

/-- `is_tchar`, RFC 9110 section 5.6.2. -/
def isTchar (c : Char) : Bool :=
  c.isAlphanum || "!#$%&'*+-.^_`|~".toList.contains c

/-- `is_token` -/
def isToken (text : Text) : Bool :=
  !text.isEmpty && text.all isTchar

/-- `is_media_type_byte` -/
def isMediaTypeChar (c : Char) : Bool :=
  isTchar c || "/;= ".toList.contains c

/-- The checks of `MediaType::parse` on the trimmed text. -/
def isMediaType (text : Text) : Bool :=
  text.all isMediaTypeChar &&
    match Text.split ';' text with
    | [] => false
    | essence :: parameters =>
        (match Text.splitOnce '/' (Text.trim essence) with
          | none => false
          | some (type, subtype) => isToken type && isToken subtype) &&
          parameters.all fun parameter =>
            match Text.splitOnce '=' (Text.trim parameter) with
            | none => false
            | some (name, value) => isToken name && isToken value

/-- `MediaType`: a text the constructor accepted. -/
structure MediaType where
  raw : Text
  trimmed : Text.trim raw = raw
  accepted : isMediaType raw = true
  deriving DecidableEq

/-- `MediaType::parse` -/
def MediaType.parse (text : Text) : Option MediaType :=
  if accepted : isMediaType (Text.trim text) = true then
    some ⟨Text.trim text, Text.trim_trim text, accepted⟩
  else
    none

/-- A stored media type is read back as itself. -/
@[simp] theorem MediaType.parse_raw (mediaType : MediaType) :
    MediaType.parse mediaType.raw = some mediaType := by
  obtain ⟨raw, trimmed, accepted⟩ := mediaType
  simp [parse, trimmed, accepted]

/-! ## Formats -/

/-- `Format`: the media types this pod can read and write as RDF. -/
inductive Format where
  | turtle
  | nTriples
  | jsonLd
  | triG
  | nQuads
  deriving DecidableEq

namespace Format

/-- `Format::ALL` -/
def all : List Format := [.turtle, .nTriples, .jsonLd, .triG, .nQuads]

/-- `Format::media_type` -/
def mediaType : Format → Text
  | .turtle => "text/turtle".toList
  | .nTriples => "application/n-triples".toList
  | .jsonLd => "application/ld+json".toList
  | .triG => "application/trig".toList
  | .nQuads => "application/n-quads".toList

/-- `Format::from_content_type` -/
def fromContentType (contentType : Text) : Option Format :=
  let essence := Text.toAsciiLowercase (mediaTypeEssence contentType)
  all.find? fun format => format.mediaType == essence

/-- `Format::carries_dataset` -/
def carriesDataset : Format → Bool
  | .turtle => false
  | .nTriples => false
  | .jsonLd => true
  | .triG => true
  | .nQuads => true

end Format

end Quadpod
