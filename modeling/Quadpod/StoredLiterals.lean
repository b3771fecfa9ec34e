import Quadpod.Container

namespace Quadpod

open AtomicProgram
open GraphStore

/-!
# Stores that keep literals by their values

The backend behind `store.rs` belongs to a library outside this repository.  A
literal whose datatype it knows is kept as its value: it comes back as the
canonical literal of that value, and it matches every literal of the same value.
A store that takes each call with its literals in canonical form does just that.
Where the terms come back as they were inserted, `backend` is that store.
-/

variable [IriSyntax]

/--
The literals that come back for those a store is given: the canonical literal of
a value, which is its own (`idempotent`), and any literal without a datatype of
its own as it stands (`untyped`).  The literal `true` is canonical (`marker`).
Nothing is said of the datatype of what comes back: an `xsd:byte` may come back
as an `xsd:integer`.
-/
class LiteralForms where
  canonical : Literal → Literal
  idempotent : ∀ content, canonical (canonical content) = canonical content
  untyped :
    ∀ content,
      (∀ value datatype, content ≠ .typed value datatype) →
      canonical content = content
  marker :
    canonical (.typed "true".toList xsdBoolean) =
      .typed "true".toList xsdBoolean

variable [LiteralForms]

/-! ## Canonical forms -/

/-- The term that comes back for a term, at any depth. -/
def GroundTerm.canonical : GroundTerm → GroundTerm
  | .namedNode node => .namedNode node
  | .literal content => .literal (LiteralForms.canonical content)
  | .triple subject predicate object =>
      .triple subject predicate object.canonical

/-- The triple that comes back for a triple. -/
def GroundTriple.canonical (triple : GroundTriple) : GroundTriple where
  subject := triple.subject
  predicate := triple.predicate
  object := triple.object.canonical

@[simp] theorem GroundTriple.subject_canonical (triple : GroundTriple) :
    triple.canonical.subject = triple.subject :=
  rfl

@[simp] theorem GroundTriple.predicate_canonical (triple : GroundTriple) :
    triple.canonical.predicate = triple.predicate :=
  rfl

@[simp] theorem GroundTriple.object_canonical (triple : GroundTriple) :
    triple.canonical.object = triple.object.canonical :=
  rfl

/-- Ground triples that have to be present, with canonical literals. -/
abbrev canonicalCondition
    (condition : Condition Text GroundTriple) : Condition Text GroundTriple :=
  condition.map (Prod.map id GroundTriple.canonical)

/-- A position of a pattern with a canonical literal. -/
def PatternTerm.canonical : PatternTerm → PatternTerm
  | .literal content => .literal (LiteralForms.canonical content)
  | term => term

/-- A pattern with canonical literals. -/
def Pattern.canonical (pattern : Pattern) : Pattern where
  subject := pattern.subject.canonical
  predicate := pattern.predicate.canonical
  object := pattern.object.canonical

/-- A template with canonical literals. -/
def TemplateTriple.canonical (template : TemplateTriple) : TemplateTriple where
  subject := template.subject.canonical
  predicate := template.predicate.canonical
  object := template.object.canonical

@[simp] theorem GroundTerm.canonical_namedNode (node : NamedNode) :
    (GroundTerm.namedNode node).canonical = .namedNode node :=
  rfl

@[simp] theorem GroundTerm.canonical_canonical (term : GroundTerm) :
    term.canonical.canonical = term.canonical := by
  induction term with
  | namedNode node =>
      rfl
  | literal content =>
      exact congrArg GroundTerm.literal (LiteralForms.idempotent content)
  | triple subject predicate object inductionHypothesis =>
      exact congrArg (GroundTerm.triple subject predicate) inductionHypothesis

@[simp] theorem GroundTriple.canonical_canonical (triple : GroundTriple) :
    triple.canonical.canonical = triple.canonical := by
  simp only [GroundTriple.canonical, GroundTerm.canonical_canonical]

/-- The triples the server asserts have no literal but the marker's. -/
@[simp] theorem canonical_presenceMarker (node : NamedNode) :
    (presenceMarker node).canonical = presenceMarker node := by
  have same : trueTerm.canonical = trueTerm :=
    congrArg GroundTerm.literal LiteralForms.marker
  simp only [presenceMarker, GroundTriple.canonical, same]

@[simp] theorem canonical_simple
    (subject predicate : NamedNode) (value : Text) :
    (GroundTriple.mk subject predicate (.literal (.simple value))).canonical =
      ⟨subject, predicate, .literal (.simple value)⟩ := by
  have same : LiteralForms.canonical (.simple value) = .simple value :=
    LiteralForms.untyped _ fun _ _ isTyped => by cases isTyped
  simp only [GroundTriple.canonical, GroundTerm.canonical, same]

@[simp] theorem canonical_named (subject predicate object : NamedNode) :
    (GroundTriple.mk subject predicate (.namedNode object)).canonical =
      ⟨subject, predicate, .namedNode object⟩ :=
  rfl

/-! ## Templates -/

namespace TemplateTriple

@[simp] theorem parses_canonical (template : TemplateTriple) :
    template.canonical.parses = template.parses := by
  obtain ⟨subject, predicate, object⟩ := template
  cases predicate with
  | namedNode node =>
      rfl
  | literal content =>
      rfl
  | triple inner innerPredicate innerObject =>
      rfl

theorem ground_canonical (template : TemplateTriple) :
    template.canonical.ground =
      template.ground.map GroundTriple.canonical := by
  obtain ⟨subject, predicate, object⟩ := template
  cases subject with
  | namedNode subjectNode =>
      cases predicate with
      | namedNode predicateNode =>
          rfl
      | literal content =>
          rfl
      | triple inner innerPredicate innerObject =>
          rfl
  | literal content =>
      rfl
  | triple inner innerPredicate innerObject =>
      rfl

theorem mapM_ground_canonical (templates : List TemplateTriple) :
    (templates.map canonical).mapM ground =
      (templates.mapM ground).map (List.map GroundTriple.canonical) := by
  induction templates with
  | nil =>
      rfl
  | cons first rest inductionHypothesis =>
      rw [List.map_cons, List.mapM_cons, List.mapM_cons, inductionHypothesis,
        ground_canonical]
      cases first.ground with
      | none =>
          rfl
      | some triple =>
          cases rest.mapM ground with
          | none =>
              rfl
          | some triples =>
              rfl

theorem filterMap_ground_canonical (templates : List TemplateTriple) :
    (templates.map canonical).filterMap ground =
      (templates.filterMap ground).map GroundTriple.canonical := by
  rw [List.filterMap_map, List.map_filterMap]
  refine List.filterMap_congr fun template _ => ?_
  exact ground_canonical template

theorem all_parses_canonical (templates : List TemplateTriple) :
    (templates.map canonical).all parses = templates.all parses := by
  rw [List.all_map]
  exact congrArg templates.all (funext parses_canonical)

end TemplateTriple

/-! ## Calls -/

namespace Call

/-- A call as the store takes it. -/
def canonical : Call → Call
  | .update operations =>
      .update (operations.map (Operation.map GroundTriple.canonical))
  | .modify graph deletions insertions guard =>
      .modify graph (deletions.map TemplateTriple.canonical)
        (insertions.map TemplateTriple.canonical) (canonicalCondition guard)
  | .ask condition => .ask (canonicalCondition condition)
  | .askTemplate graph templates =>
      .askTemplate graph (templates.map TemplateTriple.canonical)
  | .querySolutions graph patterns =>
      .querySolutions graph (patterns.map Pattern.canonical)
  | call => call

/-- What a call is answered by a store that takes it in canonical form. -/
def answerByValue (world : World) :
    (call : Call) → Except Text call.Reply
  | .update operations => (Call.update operations).canonical.answer world
  | .modify graph deletions insertions guard =>
      (Call.modify graph deletions insertions guard).canonical.answer world
  | .ask condition => (Call.ask condition).canonical.answer world
  | .askTemplate graph templates =>
      (Call.askTemplate graph templates).canonical.answer world
  | .querySolutions graph patterns =>
      (Call.querySolutions graph patterns).canonical.answer world
  | .queryTriples graph subject predicate =>
      (Call.queryTriples graph subject predicate).answer world
  | .queryPresent candidates => (Call.queryPresent candidates).answer world
  | .queryGraphs graphs => (Call.queryGraphs graphs).answer world
  | .blobPut key bytes => (Call.blobPut key bytes).answer world
  | .blobGet key => (Call.blobGet key).answer world
  | .blobDelete key => (Call.blobDelete key).answer world

/-- The operations are those of the call, with canonical literals. -/
theorem operations_canonical (call : Call) :
    call.canonical.operations =
      call.operations.map (Operation.map GroundTriple.canonical) := by
  cases call with
  | modify graph deletions insertions guard =>
      simp only [canonical, operations, ← List.map_append,
        TemplateTriple.all_parses_canonical,
        TemplateTriple.mapM_ground_canonical,
        TemplateTriple.filterMap_ground_canonical]
      split
      · cases deletions.mapM TemplateTriple.ground with
        | none =>
            rfl
        | some removed =>
            simp [Operation.map, Function.comp_def]
      · rfl
  | _ =>
      rfl

theorem objects_canonical (call : Call) :
    call.canonical.objects = call.objects := by
  cases call with
  | _ =>
      rfl

/-- Reading is reading in either form. -/
theorem Reads.canonical {call : Call} (reads : call.Reads) :
    call.canonical.Reads := by
  refine ⟨?_, ?_⟩
  · rw [operations_canonical, reads.1]
    rfl
  · rw [objects_canonical]
    exact reads.2

/-- A call whose literals are canonical is answered as it stands. -/
theorem answerByValue_of_canonical
    {call : Call} (same : call.canonical = call) (world : World) :
    call.answerByValue world = call.answer world := by
  cases call with
  | ask condition =>
      have sameCondition := Call.ask.inj same
      change (Call.ask (canonicalCondition condition)).answer world = _
      rw [sameCondition]
  | askTemplate graph templates =>
      obtain ⟨_, sameTemplates⟩ := Call.askTemplate.inj same
      change (Call.askTemplate graph (templates.map _)).answer world = _
      rw [sameTemplates]
  | modify graph deletions insertions guard =>
      obtain ⟨_, sameDeletions, sameInsertions, sameGuard⟩ :=
        Call.modify.inj same
      change (Call.modify graph (deletions.map _) (insertions.map _)
        (canonicalCondition guard)).answer world = _
      rw [sameDeletions, sameInsertions, sameGuard]
  | querySolutions graph patterns =>
      obtain ⟨_, samePatterns⟩ := Call.querySolutions.inj same
      change (Call.querySolutions graph (patterns.map _)).answer world = _
      rw [samePatterns]
  | _ =>
      rfl

end Call

/-! ## The machine -/

/-- The two stores, when the triple store keeps literals by their values. -/
def byValue : Machine stores World where
  perform world call :=
    (call.answerByValue world,
      { graphs := world.graphs.applyAll call.canonical.operations
        blobs := call.objects world.blobs })

@[simp] theorem byValue_reply (world : World) (call : Call) :
    (byValue.perform world call).1 = call.answerByValue world :=
  rfl

/-- The world is left as by a call with canonical literals. -/
theorem byValue_world (world : World) (call : Call) :
    (byValue.perform world call).2 =
      (backend.perform world call.canonical).2 := by
  change (⟨world.graphs.applyAll call.canonical.operations,
    call.objects world.blobs⟩ : World) =
      ⟨world.graphs.applyAll call.canonical.operations,
        call.canonical.objects world.blobs⟩
  rw [Call.objects_canonical]

/-- Several calls leave what they leave with canonical literals. -/
theorem byValue_after (world : World) (calls : List Call) :
    byValue.after world calls =
      backend.after world (calls.map Call.canonical) := by
  induction calls generalizing world with
  | nil =>
      rfl
  | cons call rest inductionHypothesis =>
      rw [Machine.after_cons, inductionHypothesis, byValue_world]
      rfl

/-- Where the literals of a call are canonical, nothing is different. -/
theorem byValue_of_canonical
    {call : Call} (same : call.canonical = call) (world : World) :
    byValue.perform world call = backend.perform world call := by
  refine Prod.ext (Call.answerByValue_of_canonical same world) ?_
  rw [byValue_world, same]

/-- A call that is answered continues with its reply. -/
theorem StoreProgram.eval_byValue_bind
    {ε α : Type} {translate : StoreError → ε} {call : Call}
    {next : call.Reply → StoreProgram ε α} {world : World}
    {reply : call.Reply}
    (answered : call.answerByValue world = .ok reply) :
    Program.eval byValue (StoreProgram.issue translate call >>= next) world =
      Program.eval byValue (next reply) (byValue.perform world call).2 := by
  rw [StoreProgram.issue, Program.call_bind, Program.eval, byValue_reply,
    answered]
  rfl

/-- A program all of whose calls have canonical literals. -/
abbrev CanonicalOnly {ε α : Type} (program : StoreProgram ε α) : Prop :=
  Program.Uses (fun call : Call => call.canonical = call) program

theorem CanonicalOnly.eval_byValue
    {ε α : Type} {program : StoreProgram ε α}
    (canonical : CanonicalOnly program) (world : World) :
    Program.eval byValue program world = Program.eval backend program world :=
  Program.Uses.eval_congr canonical (fun _ same => byValue_of_canonical same)
    world

end Quadpod
