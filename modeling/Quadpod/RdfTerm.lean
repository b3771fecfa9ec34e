import Quadpod.Text

namespace Quadpod

/-!
# RDF terms

The term types of `oxigraph::model`, and the ground ones of `dataset.rs` that
the store holds.  `NamedNode::new` belongs to a library outside this repository, so
which texts are IRIs is a parameter (`IriSyntax`); a `NamedNode` carries the
proof that it was accepted, exactly as the Rust type can only be built through
that check.
-/

/-! ## Vocabulary -/

def rdfNamespace : Text :=
  "http://www.w3.org/1999/02/22-rdf-syntax-ns#".toList
def rdfTypeIri : Text := rdfNamespace ++ "type".toList
def rdfLangStringIri : Text := rdfNamespace ++ "langString".toList
def rdfDirLangStringIri : Text := rdfNamespace ++ "dirLangString".toList
def xsdNamespace : Text := "http://www.w3.org/2001/XMLSchema#".toList
def xsdStringIri : Text := xsdNamespace ++ "string".toList
def xsdBooleanIri : Text := xsdNamespace ++ "boolean".toList
def ldpNamespace : Text := "http://www.w3.org/ns/ldp#".toList
def ldpContainerIri : Text := ldpNamespace ++ "Container".toList
def ldpBasicContainerIri : Text := ldpNamespace ++ "BasicContainer".toList
def ldpContainsIri : Text := ldpNamespace ++ "contains".toList
def ldpConstrainedByIri : Text := ldpNamespace ++ "constrainedBy".toList
def sysPresentIri : Text := "urn:quadpod:sys#present".toList
def sysBinaryResourceIri : Text := "urn:quadpod:sys#BinaryResource".toList
def sysHasSubgraphIri : Text := "urn:quadpod:sys#hasSubgraph".toList
def sysGraphNameIri : Text := "urn:quadpod:sys#graphName".toList
def sysMediaTypeIri : Text := "urn:quadpod:sys#mediaType".toList

/-- The fixed IRIs this pod writes into the store or asks it for. -/
def vocabulary : List Text :=
  [rdfTypeIri, rdfLangStringIri, rdfDirLangStringIri, xsdStringIri,
    xsdBooleanIri, ldpContainerIri, ldpBasicContainerIri, ldpContainsIri,
    ldpConstrainedByIri, sysPresentIri, sysBinaryResourceIri,
    sysHasSubgraphIri, sysGraphNameIri, sysMediaTypeIri]

/-- The namespace of every IRI the server mints. -/
def reservedPrefix : Text := "urn:quadpod:".toList

/-- An ASCII letter or digit, a hyphen, a dot or a slash. -/
def isPlain (c : Char) : Bool :=
  c.isAlphanum || c == '-' || c == '.' || c == '/'

/--
Which texts `NamedNode::new` accepts (RFC 3987 absolute IRIs), with the facts
about it the code relies on.

Below a base that is itself an IRI and ends in a slash, cutting an IRI after a
slash gives an IRI (`truncate`), and so does removing a final slash
(`unslash`), adding plain characters at the end (`extend`), or placing a plain
segment right below the base (`descend`).  No IRI contains a control character,
so none contains `U+0000` (`noNul`).  The vocabulary above and the plain names
the server mints under its own namespace are IRIs (`vocabulary`, `minted`).
-/
class IriSyntax where
  valid : Text → Bool
  truncate :
    ∀ base path rest : Text,
      valid base = true →
      ['/'] <:+ base →
      valid (base ++ path ++ '/' :: rest) = true →
      valid (base ++ path ++ ['/']) = true
  unslash :
    ∀ base path : Text,
      valid base = true →
      ['/'] <:+ base →
      valid (base ++ path ++ ['/']) = true →
      valid (base ++ path) = true
  extend :
    ∀ base path tail : Text,
      valid base = true →
      ['/'] <:+ base →
      tail.all isPlain = true →
      valid (base ++ path) = true →
      valid (base ++ path ++ tail) = true
  descend :
    ∀ base name path : Text,
      valid base = true →
      ['/'] <:+ base →
      name.all isPlain = true →
      valid (base ++ path) = true →
      valid (base ++ name ++ '/' :: path) = true
  noNul : ∀ text : Text, valid text = true → '\x00' ∉ text
  vocabulary : ∀ text ∈ vocabulary, valid text = true
  minted :
    ∀ name : Text,
      (∀ c ∈ name, isPlain c = true ∨ c = ':') →
      valid (reservedPrefix ++ name) = true

/-- An IRI that passed `NamedNode::new`. -/
structure NamedNode [IriSyntax] where
  iri : Text
  valid : IriSyntax.valid iri = true
  deriving DecidableEq

namespace NamedNode

variable [IriSyntax]

/-- `NamedNode::new` -/
def new (iri : Text) : Option NamedNode :=
  if valid : IriSyntax.valid iri = true then some ⟨iri, valid⟩ else none

theorem new_eq_some {iri : Text} {node : NamedNode} :
    new iri = some node ↔ node.iri = iri := by
  unfold new
  split
  · next valid =>
      rw [Option.some.injEq]
      constructor
      · rintro rfl
        rfl
      · rintro rfl
        rfl
  · next invalid =>
      constructor
      · intro impossible
        cases impossible
      · rintro rfl
        exact (invalid node.valid).elim

@[simp] theorem new_iri (node : NamedNode) :
    new node.iri = some node :=
  new_eq_some.mpr rfl

theorem ext_iri {first second : NamedNode}
    (same : first.iri = second.iri) : first = second := by
  cases first
  cases second
  cases same
  rfl

/-- A fixed IRI of the vocabulary. -/
def ofVocabulary (iri : Text) (known : iri ∈ vocabulary) : NamedNode :=
  ⟨iri, IriSyntax.vocabulary iri known⟩

end NamedNode

section Vocabulary

variable [IriSyntax]

def rdfType : NamedNode := .ofVocabulary rdfTypeIri (by simp [vocabulary])
def rdfLangString : NamedNode :=
  .ofVocabulary rdfLangStringIri (by simp [vocabulary])
def rdfDirLangString : NamedNode :=
  .ofVocabulary rdfDirLangStringIri (by simp [vocabulary])
def xsdString : NamedNode := .ofVocabulary xsdStringIri (by simp [vocabulary])
def xsdBoolean : NamedNode := .ofVocabulary xsdBooleanIri (by simp [vocabulary])
def ldpContainer : NamedNode :=
  .ofVocabulary ldpContainerIri (by simp [vocabulary])
def ldpBasicContainer : NamedNode :=
  .ofVocabulary ldpBasicContainerIri (by simp [vocabulary])
def ldpContains : NamedNode :=
  .ofVocabulary ldpContainsIri (by simp [vocabulary])
def ldpConstrainedBy : NamedNode :=
  .ofVocabulary ldpConstrainedByIri (by simp [vocabulary])
def sysPresent : NamedNode := .ofVocabulary sysPresentIri (by simp [vocabulary])
def sysBinaryResource : NamedNode :=
  .ofVocabulary sysBinaryResourceIri (by simp [vocabulary])
def sysHasSubgraph : NamedNode :=
  .ofVocabulary sysHasSubgraphIri (by simp [vocabulary])
def sysGraphName : NamedNode :=
  .ofVocabulary sysGraphNameIri (by simp [vocabulary])
def sysMediaType : NamedNode :=
  .ofVocabulary sysMediaTypeIri (by simp [vocabulary])

end Vocabulary

/-! ## Terms, triples and quads -/

/-- A blank node, by its label. -/
structure BlankNode where
  label : Text
  deriving DecidableEq

/-- The base direction of an RDF 1.2 directional string. -/
inductive BaseDirection where
  | ltr
  | rtl
  deriving DecidableEq

/-- `oxigraph::model::Literal` -/
inductive Literal [IriSyntax] where
  | simple (value : Text)
  | languageTagged (value language : Text)
  | directional (value language : Text) (direction : BaseDirection)
  | typed (value : Text) (datatype : NamedNode)
  deriving DecidableEq

/-- `oxigraph::model::NamedOrBlankNode` -/
inductive NamedOrBlankNode [IriSyntax] where
  | namedNode (node : NamedNode)
  | blankNode (node : BlankNode)
  deriving DecidableEq

/-- `oxigraph::model::Term`, with the RDF 1.2 triple term. -/
inductive Term [IriSyntax] where
  | namedNode (node : NamedNode)
  | blankNode (node : BlankNode)
  | literal (literal : Literal)
  | triple
      (subject : NamedOrBlankNode) (predicate : NamedNode) (object : Term)
  deriving DecidableEq

/-- `oxigraph::model::Triple` -/
structure Triple [IriSyntax] where
  subject : NamedOrBlankNode
  predicate : NamedNode
  object : Term
  deriving DecidableEq

/-- `oxigraph::model::GraphName` -/
inductive GraphName [IriSyntax] where
  | defaultGraph
  | namedNode (node : NamedNode)
  | blankNode (node : BlankNode)
  deriving DecidableEq

/-- `oxigraph::model::Quad` -/
structure Quad [IriSyntax] where
  subject : NamedOrBlankNode
  predicate : NamedNode
  object : Term
  graphName : GraphName
  deriving DecidableEq

/-- `dataset::GroundTerm`: a term without blank nodes, at any depth. -/
inductive GroundTerm [IriSyntax] where
  | namedNode (node : NamedNode)
  | literal (literal : Literal)
  | triple (subject predicate : NamedNode) (object : GroundTerm)
  deriving DecidableEq

/-- `dataset::GroundTriple`, and the triples the store holds. -/
structure GroundTriple [IriSyntax] where
  subject : NamedNode
  predicate : NamedNode
  object : GroundTerm
  deriving DecidableEq

/-- `dataset::GroundGraphName` -/
inductive GroundGraphName [IriSyntax] where
  | defaultGraph
  | namedNode (node : NamedNode)
  deriving DecidableEq

/-- `dataset::GroundQuad`: a quad without blank nodes. -/
structure GroundQuad [IriSyntax] where
  subject : NamedNode
  predicate : NamedNode
  object : GroundTerm
  graphName : GroundGraphName
  deriving DecidableEq

section

variable [IriSyntax]

namespace Literal

/-- `Literal::value` -/
def value : Literal → Text
  | .simple value => value
  | .languageTagged value _ => value
  | .directional value _ _ => value
  | .typed value _ => value

/-- `Literal::direction` -/
def direction : Literal → Option BaseDirection
  | .directional _ _ direction => some direction
  | _ => none

/-- `Literal::datatype` -/
def datatype : Literal → NamedNode
  | .simple _ => xsdString
  | .languageTagged _ _ => rdfLangString
  | .directional _ _ _ => rdfDirLangString
  | .typed _ datatype => datatype

end Literal

/-- `impl From<&GroundTerm> for Term` -/
def GroundTerm.toTerm : GroundTerm → Term
  | .namedNode node => .namedNode node
  | .literal content => .literal content
  | .triple subject predicate object =>
      .triple (.namedNode subject) predicate object.toTerm

/-- A stored triple as the store's queries return it. -/
def GroundTriple.toTriple (triple : GroundTriple) : Triple where
  subject := .namedNode triple.subject
  predicate := triple.predicate
  object := triple.object.toTerm

/-- A stored triple read back as a quad of the default graph. -/
def GroundTriple.toQuad (triple : GroundTriple) (graphName : GroundGraphName) :
    GroundQuad where
  subject := triple.subject
  predicate := triple.predicate
  object := triple.object
  graphName := graphName

/-- A ground quad without its graph name. -/
def GroundQuad.toTriple (quad : GroundQuad) : GroundTriple where
  subject := quad.subject
  predicate := quad.predicate
  object := quad.object

/-- `impl From<Quad> for Triple` -/
def Quad.toTriple (quad : Quad) : Triple where
  subject := quad.subject
  predicate := quad.predicate
  object := quad.object

/-- The literal `true` of the presence marker. -/
def trueTerm : GroundTerm := .literal (.typed "true".toList xsdBoolean)

end

end Quadpod
