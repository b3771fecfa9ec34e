import Quadpod.Stores

namespace Quadpod

/-!
# N3 Patch documents

`patch.rs`: reading a patch document and checking its shape.  The N3 parser is
outside this repository; `N3Parser` stands for it, and everything from the quads
it yields to the `Patch` is modelled.
-/

variable [IriSyntax]

/-- `oxttl::n3::N3Term` -/
inductive N3Term where
  | namedNode (node : NamedNode)
  | blankNode (node : BlankNode)
  | literal (content : Literal)
  | variable (name : Text)
  | triple (content : Triple)
  deriving DecidableEq

/-- `oxttl::n3::N3Quad` -/
structure N3Quad where
  subject : N3Term
  predicate : N3Term
  object : N3Term
  graphName : GraphName
  deriving DecidableEq

/-- The N3 parser: the quads of a document against a base IRI, or a message. -/
class N3Parser where
  parse : Bytes → Text → Except Text (List N3Quad)

/-- `PatchError` -/
inductive PatchError where
  | malformed (message : Text)
  | shape (message : Text)
  | reserved
  | rdf12Term
  deriving DecidableEq

/-- `Mode` -/
inductive Mode where
  | read
  | write
  | append
  | control
  deriving DecidableEq

/-- `AccessModes` -/
structure AccessModes where
  read : Bool
  write : Bool
  append : Bool
  control : Bool
  deriving DecidableEq

/-- `AccessModes::allows`: a writer may also append. -/
def AccessModes.allows (held : AccessModes) : Mode → Bool
  | .read => held.read
  | .write => held.write
  | .append => held.append || held.write
  | .control => held.control

/-- `RequiredModes` -/
structure RequiredModes where
  read : Bool
  append : Bool
  write : Bool
  deriving DecidableEq

/-- `RequiredModes::satisfied_by` -/
def RequiredModes.satisfiedBy
    (required : RequiredModes) (held : AccessModes) : Bool :=
  (!required.read || held.allows .read) &&
    (!required.append || held.allows .append) &&
    (!required.write || held.allows .write)

/-- `Patch` -/
structure Patch where
  conditions : List Pattern
  deletions : List Pattern
  insertions : List Pattern
  variableCount : Nat
  deriving DecidableEq

def solidNamespace : Text := "http://www.w3.org/ns/solid/terms#".toList
def solidInsertDeletePatchIri : Text :=
  solidNamespace ++ "InsertDeletePatch".toList
def solidWhereIri : Text := solidNamespace ++ "where".toList
def solidDeletesIri : Text := solidNamespace ++ "deletes".toList
def solidInsertsIri : Text := solidNamespace ++ "inserts".toList

/-! ## Names -/

/-- `Renumber`: the index of every client name met so far. -/
abbrev Renumber := List (Text × Nat)

namespace Renumber

/-- `Renumber::bind` -/
def bind (names : Renumber) (name : Text) : Nat × Renumber :=
  match names.lookup name with
  | some index => (index, names)
  | none => (names.length, (name, names.length) :: names)

end Renumber

/-- `Binding`: whether a formula may introduce names. -/
inductive Binding where
  | bind
  | lookup
  deriving DecidableEq

namespace Patch

/-- Whether an N3 term is the IRI given. -/
def isNode (term : N3Term) (iri : Text) : Bool :=
  match term with
  | .namedNode node => node.iri == iri
  | _ => false

/-- `patch_subject`: the one subject typed `solid:InsertDeletePatch`. -/
def patchSubject (quads : List N3Quad) : Except PatchError N3Term :=
  let found :=
    quads.foldl
      (fun found quad =>
        if quad.graphName == .defaultGraph && isNode quad.predicate rdfTypeIri &&
            isNode quad.object solidInsertDeletePatchIri &&
            !found.contains quad.subject then
          found ++ [quad.subject]
        else
          found)
      []
  match found with
  | [subject] => .ok subject
  | [] => .error (.shape "no solid:InsertDeletePatch resource".toList)
  | _ =>
      .error (.shape "more than one solid:InsertDeletePatch resource".toList)

/-- `names_a_formula` -/
def namesAFormula (quads : List N3Quad) (blank : BlankNode) : Bool :=
  quads.any fun quad => quad.graphName == .blankNode blank

/-- `formula`: the blank node naming one formula of the patch resource. -/
def formula
    (quads : List N3Quad) (subject : N3Term) (predicate : Text) :
    Except PatchError (Option BlankNode) :=
  let found :=
    (quads.filter fun quad =>
      quad.graphName == .defaultGraph && quad.subject == subject &&
        isNode quad.predicate predicate).map N3Quad.object
  match found with
  | [] => .ok none
  | [.blankNode blank] =>
      if namesAFormula quads blank then
        .ok (some blank)
      else
        .error (.shape
          "a formula predicate whose object is not a formula".toList)
  | [_] =>
      .error (.shape "a formula predicate whose object is not a formula".toList)
  | _ => .error (.shape "more than one of a formula predicate".toList)

/-- `term` -/
def term (value : N3Term) (names : Renumber) (binding : Binding) :
    Except PatchError (PatternTerm × Renumber) :=
  match value with
  | .namedNode node =>
      if isReservedIri node.iri then
        .error .reserved
      else
        .ok (.named node, names)
  | .literal content =>
      if content.direction.isSome then
        .error .rdf12Term
      else
        .ok (.literal content, names)
  | .variable name =>
      match binding with
      | .bind =>
          let (index, names) := names.bind name
          .ok (.var index, names)
      | .lookup =>
          match names.lookup name with
          | some index => .ok (.var index, names)
          | none => .error (.shape "a variable no condition binds".toList)
  | .blankNode blank =>
      match binding with
      | .bind =>
          let (index, names) := names.bind ("_:".toList ++ blank.label)
          .ok (.var index, names)
      | .lookup =>
          .error (.shape "a blank node in insertions or deletions".toList)
  | .triple _ => .error .rdf12Term

/-- `non_literal` -/
def nonLiteral (value : PatternTerm) (violation : Text) :
    Except PatchError PatternTerm :=
  match value with
  | .literal _ => .error (.shape violation)
  | other => .ok other

/-- One pass of the loop of `patterns`. -/
def pattern (quad : N3Quad) (names : Renumber) (binding : Binding) :
    Except PatchError (Pattern × Renumber) := do
  let (subject, names) ← term quad.subject names binding
  let subject ← nonLiteral subject "a literal in subject position".toList
  let (predicate, names) ← term quad.predicate names binding
  let predicate ←
    nonLiteral predicate "a literal in predicate position".toList
  let (object, names) ← term quad.object names binding
  .ok (⟨subject, predicate, object⟩, names)

/-- The loop of `patterns`, over the quads of one formula. -/
def patternsOf :
    List N3Quad → Renumber → Binding →
      Except PatchError (List Pattern × Renumber)
  | [], names, _ => .ok ([], names)
  | quad :: rest, names, binding => do
      let (first, names) ← pattern quad names binding
      let (others, names) ← patternsOf rest names binding
      .ok (first :: others, names)

/-- `patterns` -/
def patterns
    (quads : List N3Quad) (formula : Option BlankNode)
    (names : Renumber) (binding : Binding) :
    Except PatchError (List Pattern × Renumber) :=
  match formula with
  | none => .ok ([], names)
  | some blank =>
      patternsOf (quads.filter (·.graphName == .blankNode blank)) names binding

/-- The part of `Patch::parse` after the N3 parser. -/
def ofQuads (quads : List N3Quad) : Except PatchError Patch := do
  let subject ← patchSubject quads
  let conditionsFormula ← formula quads subject solidWhereIri
  let deletionsFormula ← formula quads subject solidDeletesIri
  let insertionsFormula ← formula quads subject solidInsertsIri
  let (conditions, names) ← patterns quads conditionsFormula [] .bind
  let (deletions, names) ← patterns quads deletionsFormula names .lookup
  let (insertions, names) ← patterns quads insertionsFormula names .lookup
  .ok
    { conditions := conditions
      deletions := deletions
      insertions := insertions
      variableCount := names.length }

/-- `Patch::parse` -/
def parse [N3Parser] (body : Bytes) (base : Text) : Except PatchError Patch :=
  match N3Parser.parse body base with
  | .error message => .error (.malformed message)
  | .ok quads => ofQuads quads

/-- `Patch::required_modes` -/
def requiredModes (patch : Patch) : RequiredModes where
  read := !patch.conditions.isEmpty || !patch.deletions.isEmpty
  append := !patch.insertions.isEmpty
  write := !patch.deletions.isEmpty

/-- One insertion as a ground triple. -/
def groundInsertion (pattern : Pattern) : Option Triple :=
  match pattern.subject, pattern.predicate, pattern.object with
  | .named subject, .named predicate, .named object =>
      some ⟨.namedNode subject, predicate, .namedNode object⟩
  | .named subject, .named predicate, .literal content =>
      some ⟨.namedNode subject, predicate, .literal content⟩
  | _, _, _ => none

/-- `Patch::ground_insertions` -/
def groundInsertions (patch : Patch) : Option (List Triple) :=
  if patch.conditions.isEmpty then
    patch.insertions.mapM groundInsertion
  else
    none

end Patch

end Quadpod
