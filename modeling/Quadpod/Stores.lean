import Quadpod.AtomicProgram
import Quadpod.Dataset
import Quadpod.GraphStore

namespace Quadpod

open AtomicProgram
open GraphStore

/-!
# The two stores

Everything a pod keeps is in a triple store (`store.rs`) and an object store
(`blob.rs`).  The traits `SparqlStore` and `BlobStore` promise that one call is
atomic, so the two together are one `Machine` and each query, update or object
operation the source issues is one of its calls.  The SPARQL texts of the source
are fixed apart from the IRIs and terms in them; a call is such a text with
those holes filled, and its meaning is that of SPARQL 1.1 for that text, with
literals told apart and returned as terms.  What is different where the triple
store keeps them by their values is in `StoredLiterals`.
-/

variable [IriSyntax]

/-- Where the bytes of one resource live, `blob::BlobKey`. -/
structure BlobKey where
  path : Text
  deriving DecidableEq

/-- The bytes of an object. -/
abbrev Bytes := List UInt8

/-- What the two stores hold. -/
structure World where
  graphs : Store Text GroundTriple
  blobs : BlobKey → Option Bytes

/-! ## Patterns and templates -/

/-- `patch::PatternTerm` -/
inductive PatternTerm where
  | named (node : NamedNode)
  | literal (content : Literal)
  | var (index : Nat)
  deriving DecidableEq

/-- `patch::Pattern` -/
structure Pattern where
  subject : PatternTerm
  predicate : PatternTerm
  object : PatternTerm
  deriving DecidableEq

/-- One `QuerySolution`: the terms bound to the variables. -/
abbrev Solution := List (Nat × GroundTerm)

/-- Match one position, extending the solution when a variable is unbound. -/
def PatternTerm.matchTerm
    (pattern : PatternTerm) (value : GroundTerm) (solution : Solution) :
    Option Solution :=
  match pattern with
  | .named node => if value = .namedNode node then some solution else none
  | .literal content =>
      if value = .literal content then some solution else none
  | .var index =>
      match solution.lookup index with
      | some bound => if bound = value then some solution else none
      | none => some ((index, value) :: solution)

/-- Match a triple pattern against one triple. -/
def Pattern.matchTriple
    (pattern : Pattern) (triple : GroundTriple) (solution : Solution) :
    Option Solution := do
  let solution ←
    pattern.subject.matchTerm (.namedNode triple.subject) solution
  let solution ←
    pattern.predicate.matchTerm (.namedNode triple.predicate) solution
  pattern.object.matchTerm triple.object solution

/-- The solutions of a basic graph pattern that extend a given one. -/
def solutionsFrom (graph : List GroundTriple) :
    List Pattern → Solution → List Solution
  | [], solution => [solution]
  | pattern :: rest, solution =>
      graph.flatMap fun triple =>
        match pattern.matchTriple triple solution with
        | none => []
        | some extended => solutionsFrom graph rest extended

/-- A ground triple as a patch's update text writes it. -/
structure TemplateTriple where
  subject : GroundTerm
  predicate : GroundTerm
  object : GroundTerm
  deriving DecidableEq

namespace TemplateTriple

/-- Whether SPARQL's grammar admits the triple: its predicate is an IRI. -/
def parses (template : TemplateTriple) : Bool :=
  match template.predicate with
  | .namedNode _ => true
  | _ => false

/-- The triple it denotes, unless its subject is a literal. -/
def ground (template : TemplateTriple) : Option GroundTriple :=
  match template.subject, template.predicate with
  | .namedNode subject, .namedNode predicate =>
      some ⟨subject, predicate, template.object⟩
  | _, _ => none

end TemplateTriple

/-! ## Calls -/

/-- One call to one of the stores. -/
inductive Call where
  /-- a `;`-separated update -/
  | update (operations : List (Operation Text GroundTriple))
  /-- `WITH g DELETE { … } INSERT { … } WHERE { … }` of a patch -/
  | modify
      (graph : Text)
      (deletions insertions : List TemplateTriple)
      (guard : Condition Text GroundTriple)
  /-- `CONSTRUCT` over one graph, with the subject and predicate fixed or not -/
  | queryTriples (graph : Text) (subject predicate : Option NamedNode)
  /-- `ASK` for ground triples -/
  | ask (condition : Condition Text GroundTriple)
  /-- `ASK` for the deletions of a patch -/
  | askTemplate (graph : Text) (templates : List TemplateTriple)
  /-- `SELECT ?g`: which candidates carry a presence marker -/
  | queryPresent (candidates : List (Text × NamedNode))
  /-- `SELECT ?g ?s ?p ?o` over several graphs -/
  | queryGraphs (graphs : List Text)
  /-- `SELECT * … LIMIT 2` for the conditions of a patch -/
  | querySolutions (graph : Text) (patterns : List Pattern)
  | blobPut (key : BlobKey) (bytes : Bytes)
  | blobGet (key : BlobKey)
  | blobDelete (key : BlobKey)

/-- What each call is answered with. -/
abbrev Call.Reply : Call → Type
  | .update _ => Unit
  | .modify _ _ _ _ => Unit
  | .queryTriples _ _ _ => List Triple
  | .ask _ => Bool
  | .askTemplate _ _ => Bool
  | .queryPresent _ => List NamedNode
  | .queryGraphs _ => List (Text × Triple)
  | .querySolutions _ _ => List Solution
  | .blobPut _ _ => Unit
  | .blobGet _ => Option Bytes
  | .blobDelete _ => Unit

/-- The calls of the two stores; a failed call carries the backend's message. -/
abbrev stores : Interface where
  Call := Call
  Reply := Call.Reply
  Fault := Text

/-- A program over the two stores. -/
abbrev StoreProgram := Program stores

/-- The marker that says a graph exists. -/
def presenceMarker (node : NamedNode) : GroundTriple :=
  ⟨node, sysPresent, trueTerm⟩

namespace Call

/-- The update operations a call performs. -/
def operations : Call → List (Operation Text GroundTriple)
  | .update operations => operations
  | .modify graph deletions insertions guard =>
      if (deletions ++ insertions).all TemplateTriple.parses then
        match deletions.mapM TemplateTriple.ground with
        | some removed =>
            [.modifyWhere graph removed
              (insertions.filterMap TemplateTriple.ground)
              (removed.map (graph, ·) ++ guard)]
        | none => []
      else
        []
  | _ => []

/-- What a call does to the object store. -/
def objects : Call → (BlobKey → Option Bytes) → BlobKey → Option Bytes
  | .blobPut key bytes, blobs => Function.update blobs key (some bytes)
  | .blobDelete key, blobs => Function.update blobs key none
  | _, blobs => blobs

/-- The calls that change nothing. -/
def Reads (call : Call) : Prop :=
  call.operations = [] ∧ ∀ blobs, call.objects blobs = blobs

/-- What a call that the backend serves is answered. -/
def answer (world : World) : (call : Call) → Except Text call.Reply
  | .update _ => .ok ()
  | .modify _ deletions insertions _ =>
      if (deletions ++ insertions).all TemplateTriple.parses then
        .ok ()
      else
        .error "syntax error".toList
  | .queryTriples graph subject predicate =>
      .ok (((world.graphs graph).triples.filter fun triple =>
        subject.all (· = triple.subject) &&
          predicate.all (· = triple.predicate)).map GroundTriple.toTriple)
  | .ask condition => .ok (world.graphs.satisfies condition)
  | .askTemplate graph templates =>
      if templates.all TemplateTriple.parses then
        .ok ((templates.mapM TemplateTriple.ground).any fun triples =>
          triples.all (· ∈ world.graphs graph))
      else
        .error "syntax error".toList
  | .queryPresent candidates =>
      .ok ((candidates.filter fun (graph, node) =>
        presenceMarker node ∈ world.graphs graph).map Prod.snd)
  | .queryGraphs graphs =>
      .ok (graphs.flatMap fun graph =>
        (world.graphs graph).triples.map fun triple =>
          (graph, triple.toTriple))
  | .querySolutions graph patterns =>
      .ok ((solutionsFrom (world.graphs graph).triples patterns []).take 2)
  | .blobPut _ _ => .ok ()
  | .blobGet key => .ok (world.blobs key)
  | .blobDelete _ => .ok ()

end Call

/-- The two stores as one machine; terms come back as they were inserted. -/
def backend : Machine stores World where
  perform world call :=
    (call.answer world,
      { graphs := world.graphs.applyAll (Call.operations call)
        blobs := Call.objects call world.blobs })

@[simp] theorem backend_reply (world : World) (call : Call) :
    (backend.perform world call).1 = call.answer world :=
  rfl

@[simp] theorem backend_graphs (world : World) (call : Call) :
    (backend.perform world call).2.graphs =
      world.graphs.applyAll call.operations :=
  rfl

@[simp] theorem backend_blobs (world : World) (call : Call) :
    (backend.perform world call).2.blobs = call.objects world.blobs :=
  rfl

theorem Call.Reads.perform
    {call : Call} (reads : call.Reads) (world : World) :
    (backend.perform world call).2 = world := by
  change (⟨world.graphs.applyAll call.operations,
    call.objects world.blobs⟩ : World) = world
  rw [reads.1, reads.2]
  rfl

/-! ## Issuing calls -/

/-- `StoreError` and `BlobError`: the backend's message. -/
inductive StoreError where
  | backend (message : Text)
  deriving DecidableEq

namespace StoreProgram

variable {ε α : Type}

/-- One call; the backend's message becomes an error of the caller. -/
def issue (translate : StoreError → ε) (call : Call) :
    StoreProgram ε call.Reply :=
  .call call fun
    | .ok reply => .done reply
    | .error message => .fail (translate (.backend message))

/-- A call that is answered continues with its reply. -/
theorem eval_issue_bind
    {translate : StoreError → ε}
    {call : Call}
    {next : call.Reply → StoreProgram ε α}
    {world : World}
    {reply : call.Reply}
    (answered : call.answer world = .ok reply) :
    Program.eval backend (issue translate call >>= next) world =
      Program.eval backend (next reply) (backend.perform world call).2 := by
  rw [issue, Program.call_bind, Program.eval, backend_reply, answered]
  rfl

/-- A read that is answered continues in the same world. -/
theorem eval_read_bind
    {translate : StoreError → ε}
    {call : Call}
    {next : call.Reply → StoreProgram ε α}
    {world : World}
    {reply : call.Reply}
    (reads : call.Reads)
    (answered : call.answer world = .ok reply) :
    Program.eval backend (issue translate call >>= next) world =
      Program.eval backend (next reply) world := by
  rw [eval_issue_bind answered, reads.perform]

/-- A single call that is answered. -/
theorem eval_issue
    {translate : StoreError → ε}
    {call : Call}
    {world : World}
    {reply : call.Reply}
    (answered : call.answer world = .ok reply) :
    Program.eval backend (issue translate call) world =
      (.ok reply, (backend.perform world call).2) := by
  rw [issue, Program.eval, backend_reply, answered]
  rfl

/-- A call is answered by the backend or fails without effect. -/
theorem ensures_issue_bind
    {mayFail : Prop}
    {translate : StoreError → ε}
    {call : Call}
    {next : call.Reply → StoreProgram ε α}
    {world : World}
    {post : Except ε α → World → Prop}
    (answered :
      ∀ reply,
        call.answer world = .ok reply →
        Program.Ensures backend mayFail (next reply)
          (backend.perform world call).2 post)
    (refused :
      ∀ message,
        call.answer world = .error message →
        post (.error (translate (.backend message)))
          (backend.perform world call).2)
    (failed :
      mayFail →
      ∀ message, post (.error (translate (.backend message))) world) :
    Program.Ensures backend mayFail (issue translate call >>= next) world
      post := by
  refine Program.ensures_call ?_ ?_
  · rw [backend_reply]
    cases reply : call.answer world with
    | ok value =>
        exact answered value reply
    | error message =>
        exact Program.ensures_fail (refused message reply)
  · intro fails message
    exact Program.ensures_fail (failed fails message)

/-- One allowed call is a program of allowed calls. -/
theorem uses_issue
    {translate : StoreError → ε}
    {allowed : Call → Prop}
    {call : Call}
    (isAllowed : allowed call) :
    Program.Uses allowed (issue translate call) := by
  refine ⟨isAllowed, ?_⟩
  intro answer _
  cases answer with
  | ok reply =>
      exact trivial
  | error message =>
      exact trivial

/-- A call a rule permits, whose answers it knows something about. -/
theorem obeys_issue
    {translate : StoreError → ε}
    {rule : Rule stores}
    {call : Call}
    {post : Except ε call.Reply → Prop}
    (permitted : rule.permits call)
    (answered :
      ∀ reply, rule.answers call (.ok reply) → post (.ok reply))
    (failed : ∀ message, post (.error (translate (.backend message)))) :
    (issue translate call).Obeys rule post := by
  refine ⟨permitted, ?_⟩
  intro answer known
  cases answer with
  | ok reply =>
      exact answered reply known
  | error message =>
      exact failed message

end StoreProgram

end Quadpod
