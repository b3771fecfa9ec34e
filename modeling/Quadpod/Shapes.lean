import Quadpod.Container

namespace Quadpod

open AtomicProgram

/-!
# Shape validation

`shapes.rs`: which constraint document a container binds, and whether a body
satisfies it.  The SHACL engine is outside this repository; `ShapeEngine` stands
for it.
-/

variable [IriSyntax]

def shResultSeverityIri : Text :=
  "http://www.w3.org/ns/shacl#resultSeverity".toList
def shViolationIri : Text := "http://www.w3.org/ns/shacl#Violation".toList

/-- The predicates through which SHACL-SPARQL embeds a query. -/
def shaclSparqlTerms : List Text :=
  ["http://www.w3.org/ns/shacl#sparql".toList,
    "http://www.w3.org/ns/shacl#select".toList,
    "http://www.w3.org/ns/shacl#ask".toList,
    "http://www.w3.org/ns/shacl#construct".toList,
    "http://www.w3.org/ns/shacl#update".toList]

/-- `mentions_shacl_sparql` -/
def mentionsShaclSparql (triples : List Triple) : Bool :=
  triples.any fun triple =>
    shaclSparqlTerms.contains triple.predicate.iri ||
      match triple.object with
      | .namedNode node => shaclSparqlTerms.contains node.iri
      | _ => false

/-- `ShapeError` -/
inductive ShapeError where
  | unparsable (message : Text)
  | unsupported (message : Text)
  | missing
  | engine (message : Text)
  | resource (error : ResourceError)
  deriving DecidableEq

/--
The SHACL engine: the report on a Turtle document against a Turtle shapes graph,
itself in Turtle.  It fails to read the shapes (`unparsable`) or to run
(`engine`).
-/
class ShapeEngine where
  validate : Text → Text → Except ShapeError Bytes

/-- `Report` -/
structure Report where
  dataset : Dataset

namespace Report

/-- `Report::refuses` -/
def refuses (report : Report) : Bool :=
  report.dataset.quads.any fun quad =>
    quad.predicate.iri == shResultSeverityIri &&
      match quad.object with
      | .namedNode node => node.iri == shViolationIri
      | _ => false

/-- `Report::is_empty` -/
def isEmpty (report : Report) : Bool :=
  !report.dataset.quads.any fun quad =>
    quad.predicate.iri == shResultSeverityIri

end Report

section Engine

variable [QuadText] [RdfParser] [RdfSerializer]

/-- How an `RdfError` prints itself. -/
def RdfError.display : RdfError → Text
  | .parse message => "rdf parse error: ".toList ++ message
  | .serialize message => "rdf serialize error: ".toList ++ message
  | .unsupportedType => "unsupported media type".toList
  | .unsupportedRdfVersion found allowed =>
      "this representation is RDF ".toList ++ found.label ++
        ", and ".toList ++ allowed.label ++ " was declared".toList

/-- `shapes::validate` -/
def validateShape [ShapeEngine] (shapesTurtle : Text) (body : Dataset) :
    Except ShapeError Report := do
  let data ←
    (Format.turtle.serialize body.defaultGraphOnly).mapError
      fun error => .engine error.display
  let output ← ShapeEngine.validate shapesTurtle data
  let report ←
    (Format.turtle.parse output "urn:quadpod:report".toList .rdf12).mapError
      fun error => .engine error.display
  .ok ⟨report⟩

/-- `Shape` -/
structure Shape where
  turtle : Text
  iri : Text

/-- A program of this layer. -/
abbrev ShapeProgram := StoreProgram ShapeError

/-- The loop of `load` over the bindings of a container. -/
def bindings (containerIri : Text) :
    List Triple → Except ShapeError (List Text)
  | [] => .ok []
  | triple :: rest =>
      match triple.object with
      | .namedNode node => (bindings containerIri rest).map (node.iri :: ·)
      | other =>
          .error (.unsupported (containerIri ++
            " binds ldp:constrainedBy to ".toList ++
            QuadText.displayTerm other ++ ", which is not an IRI".toList))

/-- The one binding of a container, or none. -/
def bindingOf (containerIri : Text) (triples : List Triple) :
    Except ShapeError (Option Text) := do
  match ← bindings containerIri triples with
  | [] => .ok none
  | [iri] => .ok (some iri)
  | several =>
      .error (.unsupported (containerIri ++ " carries ".toList ++
        (Nat.repr several.length).toList ++
        " ldp:constrainedBy bindings (".toList ++
        ", ".toList.intercalate several ++ "), not one".toList))

/-- The resource of this pod a bound IRI names. -/
def shapeDocument (space : StorageSpace) (iri : Text) :
    Except ShapeError (ResourceUrl space) :=
  let base := (graphIri space.root).rdropWhile (· = '/')
  match Text.stripPrefix base iri with
  | none => .error (.unsupported iri)
  | some rest =>
      if Text.startsWith ['/'] rest then
        match space.resolve rest with
        | .ok (.resource url _) => .ok url
        | _ => .error (.unsupported iri)
      else
        .error (.unsupported iri)

/-- The Turtle text of a constraint document's triples. -/
def shapeTurtle (iri : Text) (triples : List Triple) :
    Except ShapeError Shape :=
  if mentionsShaclSparql triples then
    .error (.unsupported (iri ++ (" uses SHACL-SPARQL " ++
      "(sh:sparql/sh:select/sh:ask/sh:construct/sh:update), " ++
      "which is not supported: it would let a shapes document make this " ++
      "pod issue arbitrary outbound HTTP requests").toList))
  else
    match Skolemized.fromStore (asQuads triples) with
    | none => .error (.resource .panicked)
    | some ground =>
        match Format.turtle.serialize ground.deskolemize with
        | .ok turtle => .ok ⟨turtle, iri⟩
        | .error error => .error (.unparsable error.display)

/-- `shapes::load` -/
def loadShape {space : StorageSpace} (container : ContainerUrl space) :
    ShapeProgram (Option Shape) := do
  let triples : List Triple ←
    StoreProgram.issue (fun error => .resource (.store error))
      (.queryTriples (graphIri container) (some container.node)
        (some ldpConstrainedBy))
  match ← Program.ofExcept (bindingOf (graphIri container) triples) with
  | none => pure none
  | some iri => do
      let url ← Program.ofExcept (shapeDocument space iri)
      match ← Program.mapError .resource (kindOf url) with
      | none => .fail .missing
      | some (.binary mediaType) => .fail (.unsupported mediaType.raw)
      | some .rdf => do
          match ← Program.mapError .resource (getRdf url) with
          | none => .fail .missing
          | some triples => do
              let shape ← Program.ofExcept (shapeTurtle iri triples)
              pure (some shape)

end Engine

end Quadpod
