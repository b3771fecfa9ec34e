import Quadpod.RdfFormat
import Quadpod.RdfTerm

namespace Quadpod

/-!
# Datasets and skolemization

`dataset.rs`: a dataset as a client writes or reads it (`Dataset`, with blank
nodes) and as the store holds it (`Skolemized`, where every blank node is an IRI
the server minted).  The UUIDs drawn while skolemizing one document are a
parameter: `fresh n` is the `n`-th one.
-/

variable [IriSyntax]

/-- SHA-256, rendered as lowercase hexadecimal digits. -/
class Sha256 where
  hexDigest : List UInt8 → Text
  hex : ∀ bytes, ∀ c ∈ hexDigest bytes, c.isAlphanum = true

/-- How the quads and terms of `oxigraph::model` print themselves. -/
class QuadText where
  display : Quad → Text
  displayTerm : Term → Text

/-- A version 4 UUID, as it prints: hexadecimal digits and hyphens. -/
structure Uuid where
  text : Text
  nonempty : text ≠ []
  plain : ∀ c ∈ text, c.isAlphanum = true ∨ c = '-'
  deriving DecidableEq

/-- `dataset::is_reserved_iri` -/
def isReservedIri (iri : Text) : Bool :=
  Text.toAsciiLowercase (iri.take reservedPrefix.length) == reservedPrefix

/-- `SKOLEM_PREFIX` -/
def skolemPrefix : Text := "urn:quadpod:bnode:".toList

/-- `Dataset`: blank nodes intact. -/
structure Dataset where
  quads : List Quad
  deriving DecidableEq

/-- `Skolemized`: a dataset as the store holds it. -/
structure Skolemized where
  quads : List GroundQuad
  deriving DecidableEq

namespace Dataset

/-- The version one object needs, if it is above RDF 1.1. -/
def objectVersion : Term → Option RdfVersion
  | .triple _ _ _ => some .rdf12
  | .literal content =>
      if content.direction.isSome then some .rdf12Basic else none
  | _ => none

/-- The loop of `rdf_version`. -/
def versionFrom : List Quad → RdfVersion → RdfVersion
  | [], found => found
  | quad :: rest, found =>
      match objectVersion quad.object with
      | none => versionFrom rest found
      | some here =>
          let found := if found ≤ here then here else found
          if found = .rdf12 then found else versionFrom rest found

/-- `Dataset::rdf_version` -/
def rdfVersion (dataset : Dataset) : RdfVersion :=
  versionFrom dataset.quads .rdf11

/-- `Dataset::has_named_graphs` -/
def hasNamedGraphs (dataset : Dataset) : Bool :=
  dataset.quads.any fun quad => quad.graphName != .defaultGraph

/-- `Dataset::uses_reserved_namespace` -/
def usesReservedNamespace (dataset : Dataset) : Bool :=
  dataset.quads.any fun quad =>
    let subject :=
      match quad.subject with
      | .namedNode node => isReservedIri node.iri
      | .blankNode _ => false
    let object :=
      match quad.object with
      | .namedNode node => isReservedIri node.iri
      | _ => false
    let graph :=
      match quad.graphName with
      | .namedNode node => isReservedIri node.iri
      | _ => false
    subject || object || graph || isReservedIri quad.predicate.iri

/-- `Dataset::named_graphs`: the IRI names, each once. -/
def namedGraphs (dataset : Dataset) : List NamedNode :=
  dataset.quads.foldl
    (fun seen quad =>
      match quad.graphName with
      | .namedNode node =>
          if seen.contains node then seen else seen ++ [node]
      | _ => seen)
    []

/-- `Dataset::default_graph_only` -/
def defaultGraphOnly (dataset : Dataset) : Dataset where
  quads := dataset.quads.filter fun quad => quad.graphName == .defaultGraph

/-- `dataset::triples_of` -/
def triplesOf (dataset : Dataset) : List Triple :=
  dataset.quads.map Quad.toTriple

end Dataset

/-- `RdfParser`: the quads of a document against a base IRI, or a message. -/
class RdfParser where
  parse : Format → List UInt8 → Text → Except Text (List Quad)

/-- `Format::parse` -/
def Format.parse [RdfParser]
    (format : Format) (bytes : List UInt8) (base : Text)
    (declared : RdfVersion) : Except RdfError Dataset :=
  match RdfParser.parse format bytes base with
  | .error message => .error (.parse message)
  | .ok quads =>
      let parsed : Dataset := ⟨quads⟩
      let found := parsed.rdfVersion
      if found ≤ declared then
        .ok parsed
      else
        .error (.unsupportedRdfVersion found declared)

/-! ## Skolemization -/

omit [IriSyntax] in
theorem isPlain_of_uuid (uuid : Uuid) :
    ∀ c ∈ "bnode:".toList ++ uuid.text, isPlain c = true ∨ c = ':' := by
  intro c member
  rw [List.mem_append] at member
  rcases member with inName | inUuid
  · have checked :
        ("bnode:".toList.all fun c => isPlain c || c == ':') = true := by
      decide
    simpa using List.all_eq_true.mp checked c inName
  · left
    rcases uuid.plain c inUuid with alphanumeric | hyphen
    · simp [isPlain, alphanumeric]
    · simp [isPlain, hyphen]

/-- The IRI minted for a blank node. -/
def skolemIri (uuid : Uuid) : NamedNode where
  iri := skolemPrefix ++ uuid.text
  valid := by
    have minted := IriSyntax.minted _ (isPlain_of_uuid uuid)
    rw [← List.append_assoc] at minted
    exact minted

/-- The IRIs minted so far, by the label of the blank node. -/
abbrev Minted := List (Text × NamedNode)

namespace Skolemized

variable (fresh : Nat → Uuid)

/-- `iri_for`: the IRI of a blank node, minted at its first occurrence. -/
def iriFor (blank : BlankNode) (minted : Minted) : NamedNode × Minted :=
  match minted.lookup blank.label with
  | some node => (node, minted)
  | none =>
      let node := skolemIri (fresh minted.length)
      (node, (blank.label, node) :: minted)

/-- A subject without its blank node. -/
def groundSubject (subject : NamedOrBlankNode) (minted : Minted) :
    NamedNode × Minted :=
  match subject with
  | .namedNode node => (node, minted)
  | .blankNode blank => iriFor fresh blank minted

/-- The inner function `ground` of `skolemize`. -/
def ground : Term → Minted → GroundTerm × Minted
  | .namedNode node, minted => (.namedNode node, minted)
  | .blankNode blank, minted =>
      let (node, minted) := iriFor fresh blank minted
      (.namedNode node, minted)
  | .literal content, minted => (.literal content, minted)
  | .triple subject predicate object, minted =>
      let (subject, minted) := groundSubject fresh subject minted
      let (object, minted) := ground object minted
      (.triple subject predicate object, minted)

/-- A graph name without its blank node. -/
def groundGraphName (graphName : GraphName) (minted : Minted) :
    GroundGraphName × Minted :=
  match graphName with
  | .defaultGraph => (.defaultGraph, minted)
  | .namedNode node => (.namedNode node, minted)
  | .blankNode blank =>
      let (node, minted) := iriFor fresh blank minted
      (.namedNode node, minted)

/-- One quad without its blank nodes. -/
def groundQuad (quad : Quad) (minted : Minted) : GroundQuad × Minted :=
  let (subject, minted) := groundSubject fresh quad.subject minted
  let (object, minted) := ground fresh quad.object minted
  let (graphName, minted) := groundGraphName fresh quad.graphName minted
  (⟨subject, quad.predicate, object, graphName⟩, minted)

/-- The quads of a document, one after the other. -/
def groundQuads : List Quad → Minted → List GroundQuad
  | [], _ => []
  | quad :: rest, minted =>
      let (first, minted) := groundQuad fresh quad minted
      first :: groundQuads rest minted

/-- `Skolemized::skolemize` -/
def skolemize (dataset : Dataset) : Skolemized where
  quads := groundQuads fresh dataset.quads []

/-! ## Reading back -/

/-- The inner function `ground` of `from_store`. -/
def groundOf : Term → Option GroundTerm
  | .namedNode node => some (.namedNode node)
  | .literal content => some (.literal content)
  | .blankNode _ => none
  | .triple (.namedNode subject) predicate object =>
      (groundOf object).map (.triple subject predicate ·)
  | .triple (.blankNode _) _ _ => none

theorem groundOf_toTerm (term : GroundTerm) :
    groundOf term.toTerm = some term := by
  induction term with
  | namedNode node =>
      rfl
  | literal content =>
      rfl
  | triple subject predicate object inductionHypothesis =>
      simp [GroundTerm.toTerm, groundOf, inductionHypothesis]

/-- One quad of `from_store`. -/
def groundQuadOf (quad : Quad) : Option GroundQuad := do
  let subject ←
    match quad.subject with
    | .namedNode node => some node
    | .blankNode _ => none
  let object ← groundOf quad.object
  let graphName ←
    match quad.graphName with
    | .defaultGraph => some .defaultGraph
    | .namedNode node => some (.namedNode node)
    | .blankNode _ => none
  some ⟨subject, quad.predicate, object, graphName⟩

/-- `Skolemized::from_store` -/
def fromStore (quads : List Quad) : Option Skolemized :=
  (quads.mapM groundQuadOf).map (⟨·⟩)

/-- `Skolemized::named_graphs`: each name once, in order of appearance. -/
def namedGraphs (dataset : Skolemized) : List NamedNode :=
  dataset.quads.foldl
    (fun seen quad =>
      match quad.graphName with
      | .namedNode node =>
          if seen.contains node then seen else seen ++ [node]
      | .defaultGraph => seen)
    []

/-- `Skolemized::has_named_graphs` -/
def hasNamedGraphs (dataset : Skolemized) : Bool :=
  dataset.quads.any fun quad => quad.graphName != .defaultGraph

/-- The inner function `blank_for` of `deskolemize`. -/
def blankFor (node : NamedNode) : Option BlankNode :=
  (Text.stripPrefix skolemPrefix node.iri).map fun rest =>
    ⟨'b' :: rest.filter Char.isAlphanum⟩

/-- A stored subject as a client sees it. -/
def subjectFor (node : NamedNode) : NamedOrBlankNode :=
  match blankFor node with
  | some blank => .blankNode blank
  | none => .namedNode node

/-- The inner function `term_for` of `deskolemize`. -/
def termFor : GroundTerm → Term
  | .namedNode node =>
      match blankFor node with
      | some blank => .blankNode blank
      | none => .namedNode node
  | .literal content => .literal content
  | .triple subject predicate object =>
      .triple (subjectFor subject) predicate (termFor object)

/-- A stored graph name as a client sees it. -/
def graphNameFor : GroundGraphName → GraphName
  | .namedNode node =>
      match blankFor node with
      | some blank => .blankNode blank
      | none => .namedNode node
  | .defaultGraph => .defaultGraph

/-- `Skolemized::deskolemize` -/
def deskolemize (dataset : Skolemized) : Dataset where
  quads :=
    dataset.quads.map fun quad =>
      { subject := subjectFor quad.subject
        predicate := quad.predicate
        object := termFor quad.object
        graphName := graphNameFor quad.graphName }

end Skolemized

/-- `impl From<&GroundQuad> for Quad` -/
def GroundQuad.toQuad (quad : GroundQuad) : Quad where
  subject := .namedNode quad.subject
  predicate := quad.predicate
  object := quad.object.toTerm
  graphName :=
    match quad.graphName with
    | .defaultGraph => .defaultGraph
    | .namedNode node => .namedNode node

/-- The order `sort` puts texts in: by their bytes. -/
def textLe (first second : Text) : Bool :=
  (compare (Text.utf8 first) (Text.utf8 second)).isLE

/-- `RdfSerializer`: the text of some quads, or a message. -/
class RdfSerializer where
  serialize : Format → List Quad → Except Text Text

/-- `Format::serialize`: quads are sorted before they are written. -/
def Format.serialize [QuadText] [RdfSerializer]
    (format : Format) (dataset : Dataset) : Except RdfError Text :=
  let quads :=
    dataset.quads.mergeSort fun first second =>
      textLe (QuadText.display first) (QuadText.display second)
  (RdfSerializer.serialize format quads).mapError .serialize

/-- `Skolemized::etag` -/
def Skolemized.etag [Sha256] [QuadText]
    (dataset : Skolemized) (format : Format) (served : RdfVersion) : Text :=
  let lines :=
    (dataset.quads.map fun quad => QuadText.display quad.toQuad).mergeSort
      textLe
  let hashed :=
    Text.utf8 (format.mediaType ++ ['\n'] ++ served.label ++ ['\n'] ++
      lines.flatMap (· ++ ['\n']))
  '"' :: Sha256.hexDigest hashed ++ ['"']

end Quadpod
