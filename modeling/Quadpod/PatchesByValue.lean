import Quadpod.PatchSemantics
import Quadpod.ReferencePod

namespace Quadpod

open AtomicProgram
open GraphStore

/-!
# What a patch does to literals

`patch_guarded` on a store that keeps literals by their values.  The patterns and
the templates of a patch reach the store as SPARQL text, so a literal in them
stands for its value as well: the patch acts as the same patch with canonical
literals does on canonical triples.
-/

variable [IriSyntax] [LiteralForms]

/-! ## Canonical worlds -/

/-- Every triple is one the store gives back as it is. -/
def World.Canonical (world : World) : Prop :=
  ∀ name, ∀ triple ∈ world.graphs name, triple.canonical = triple

/-- What an operation with canonical literals adds is canonical. -/
theorem canonical_of_mem_adds
    {operation : Operation Text GroundTriple} {name : Text}
    {triple : GroundTriple}
    (added :
      (name, triple) ∈ (operation.map GroundTriple.canonical).adds) :
    triple.canonical = triple := by
  have ofBlocks (blocks : List (Text × List GroundTriple))
      (member :
        (name, triple) ∈
          (blocks.map (Prod.map id (List.map GroundTriple.canonical))).flatMap
            fun block => block.2.map (block.1, ·)) :
      triple.canonical = triple := by
    obtain ⟨block, inBlocks, inBlock⟩ := List.mem_flatMap.mp member
    obtain ⟨original, _, rfl⟩ := List.mem_map.mp inBlocks
    obtain ⟨mapped, isMapped, same⟩ := List.mem_map.mp inBlock
    obtain ⟨source, _, rfl⟩ := List.mem_map.mp isMapped
    rw [← (Prod.mk.inj same).2, GroundTriple.canonical_canonical]
  cases operation with
  | insertData blocks =>
      exact ofBlocks blocks added
  | insertWhere blocks condition =>
      exact ofBlocks blocks added
  | modifyWhere target removed inserted condition =>
      simp only [Operation.map, Operation.adds, List.mem_map] at added
      obtain ⟨_, ⟨source, _, rfl⟩, same⟩ := added
      rw [← (Prod.mk.inj same).2, GroundTriple.canonical_canonical]
  | drop target =>
      cases added
  | deleteData target removed =>
      cases added
  | clearWhere target condition =>
      cases added

/-- Every call leaves a canonical world canonical. -/
theorem World.Canonical.perform
    {world : World} (canonical : world.Canonical) (call : Call) :
    (byValue.perform world call).2.Canonical := by
  intro name triple member
  rw [byValue_world, backend_graphs, Call.operations_canonical] at member
  rcases Store.mem_applyAll member with old | ⟨operation, inCall, added⟩
  · exact canonical name triple old
  · obtain ⟨original, _, rfl⟩ := List.mem_map.mp inCall
    exact canonical_of_mem_adds added

/-- A world a program leaves is canonical where it started in one. -/
theorem World.Canonical.eval
    {ε α : Type} {world : World} (canonical : world.Canonical)
    (program : StoreProgram ε α) :
    (Program.eval byValue program world).2.Canonical := by
  induction program generalizing world with
  | done value =>
      exact canonical
  | fail error =>
      exact canonical
  | call request next inductionHypothesis =>
      exact inductionHypothesis _ (canonical.perform request)

/-! ## Canonical patches -/

/-- A patch with canonical literals. -/
def Patch.canonical (patch : Patch) : Patch where
  conditions := patch.conditions.map Pattern.canonical
  deletions := patch.deletions.map Pattern.canonical
  insertions := patch.insertions.map Pattern.canonical
  variableCount := patch.variableCount

/-- Every variable is bound to a canonical term. -/
def CanonicalBindings (bindings : List Solution) : Prop :=
  ∀ solution ∈ bindings, ∀ index value,
    solution.lookup index = some value → value.canonical = value

section Substitution

variable {bindings : List Solution}

theorem groundTerm_canonical
    (canonical : CanonicalBindings bindings) (term : PatternTerm) :
    groundTerm term.canonical bindings =
      (groundTerm term bindings).map GroundTerm.canonical := by
  cases term with
  | named node =>
      rfl
  | literal content =>
      rfl
  | var index =>
      simp only [PatternTerm.canonical, groundTerm]
      cases bindings with
      | nil =>
          rfl
      | cons solution rest =>
          simp only [List.head?_cons, Option.bind_some]
          cases bound : solution.lookup index with
          | none =>
              rfl
          | some value =>
              have same :=
                canonical solution List.mem_cons_self index value bound
              cases value with
              | namedNode node =>
                  rfl
              | literal content =>
                  exact congrArg Except.ok same.symm
              | triple subject predicate object =>
                  rfl

theorem substituteOne_canonical
    (canonical : CanonicalBindings bindings) (pattern : Pattern) :
    substituteOne bindings pattern.canonical =
      (substituteOne bindings pattern).map TemplateTriple.canonical := by
  simp only [substituteOne, Pattern.canonical,
    groundTerm_canonical canonical]
  cases groundTerm pattern.subject bindings with
  | error error =>
      rfl
  | ok subject =>
      cases groundTerm pattern.predicate bindings with
      | error error =>
          rfl
      | ok predicate =>
          cases groundTerm pattern.object bindings with
          | error error =>
              rfl
          | ok object =>
              rfl

theorem substitute_canonical
    (canonical : CanonicalBindings bindings) (patterns : List Pattern) :
    substitute (patterns.map Pattern.canonical) bindings =
      (substitute patterns bindings).map
        (List.map TemplateTriple.canonical) := by
  unfold substitute
  induction patterns with
  | nil =>
      rfl
  | cons first rest inductionHypothesis =>
      rw [List.map_cons, List.mapM_cons, List.mapM_cons, inductionHypothesis,
        substituteOne_canonical canonical]
      cases substituteOne bindings first with
      | error error =>
          rfl
      | ok template =>
          cases rest.mapM (substituteOne bindings) with
          | error error =>
              rfl
          | ok templates =>
              rfl

end Substitution

/-- What matching a position in a canonical graph binds is canonical. -/
theorem canonical_of_solutionsFrom
    {graph : List GroundTriple}
    (canonical : ∀ triple ∈ graph, triple.canonical = triple)
    {patterns : List Pattern} :
    CanonicalBindings (solutionsFrom graph patterns []) := by
  intro solution member index value bound
  obtain ⟨matched, present⟩ := solutionsFrom_sound member
  have isBound : solution.mapping index ≠ none := by
    rw [Solution.mapping, bound]
    exact Option.some_ne_none value
  rcases (matched.domain index).mp isBound with impossible | inVariables
  · exact (impossible rfl).elim
  · obtain ⟨pattern, inPatterns, inPattern⟩ :=
      List.mem_flatMap.mp inVariables
    obtain ⟨triple, inGraph, isTriple⟩ := present pattern inPatterns
    obtain ⟨subject, predicate, object⟩ :=
      Pattern.instantiate_eq_some_iff.mp isTriple
    have ofPosition {term : PatternTerm} {position : GroundTerm}
        (inTerm : index ∈ term.variables)
        (isPosition : term.instantiate solution.mapping = some position) :
        value = position := by
      cases term with
      | var other =>
          rw [PatternTerm.variables, List.mem_singleton] at inTerm
          subst inTerm
          exact Option.some.inj (bound.symm.trans isPosition)
      | named node =>
          cases inTerm
      | literal content =>
          cases inTerm
    simp only [Pattern.variables, List.mem_append] at inPattern
    obtain (inSubject | inPredicate) | inObject := inPattern
    · rw [ofPosition inSubject subject]
      rfl
    · rw [ofPosition inPredicate predicate]
      rfl
    · rw [ofPosition inObject object]
      exact congrArg GroundTriple.object (canonical triple inGraph)

/-! ## Running by value -/

section Running

variable {Url : Type} [GraphUrl Url] {url : Url} {patch : Patch}
variable {guard : Condition Text GroundTriple} {world : World}

theorem perform_modify_byValue
    (canonicalGuard : canonicalCondition guard = guard)
    (graph : Text) (deletions insertions : List TemplateTriple) :
    byValue.perform world (.modify graph deletions insertions guard) =
      backend.perform world
        (.modify graph (deletions.map TemplateTriple.canonical)
          (insertions.map TemplateTriple.canonical) guard) := by
  conv_rhs => rw [← canonicalGuard]
  rfl

/-- Templates and canonical templates make the same calls. -/
theorem eval_applyPatch_byValue
    {bindings : List Solution} (canonical : CanonicalBindings bindings)
    (canonicalGuard : canonicalCondition guard = guard) :
    Program.eval byValue (applyPatch url patch guard bindings) world =
      Program.eval backend
        (applyPatch url patch.canonical guard bindings) world := by
  unfold applyPatch
  simp only [Patch.canonical, substitute_canonical canonical]
  cases substitute patch.deletions bindings with
  | error error =>
      rfl
  | ok deletions =>
      cases substitute patch.insertions bindings with
      | error error =>
          rfl
      | ok insertions =>
          have updated (before : Bool) (world : World) :
              Program.eval byValue
                (do
                  StoreProgram.issue .store
                    (.modify (graphIri url) deletions insertions guard)
                  if !deletions.isEmpty && !before then
                    pure .deletionMissing
                  else
                    pure .applied : ResourceProgram PatchResult)
                world =
              Program.eval backend
                (do
                  StoreProgram.issue .store
                    (.modify (graphIri url)
                      (deletions.map TemplateTriple.canonical)
                      (insertions.map TemplateTriple.canonical) guard)
                  if !deletions.isEmpty && !before then
                    pure .deletionMissing
                  else
                    pure .applied : ResourceProgram PatchResult)
                world := by
            simp only [StoreProgram.issue, Program.call_bind, Program.eval,
              perform_modify_byValue canonicalGuard]
            generalize backend.perform world _ = performed
            obtain ⟨answer, reached⟩ := performed
            cases answer with
            | error message =>
                rfl
            | ok reply =>
                dsimp only
                split
                · rfl
                · rfl
          change Program.eval byValue
            (if deletions.isEmpty && insertions.isEmpty then _ else _) world =
              Program.eval backend
                (if (deletions.map TemplateTriple.canonical).isEmpty &&
                  (insertions.map TemplateTriple.canonical).isEmpty then _ else _)
                world
          rw [List.isEmpty_map, List.isEmpty_map]
          split
          · rfl
          · split
            · exact updated false world
            · have asked :
                byValue.perform world (.askTemplate (graphIri url) deletions) =
                  backend.perform world
                    (.askTemplate (graphIri url)
                      (deletions.map TemplateTriple.canonical)) :=
                rfl
              conv_lhs => rw [StoreProgram.issue, Program.call_bind,
                Program.eval, asked]
              conv_rhs => rw [StoreProgram.issue, Program.call_bind,
                Program.eval]
              generalize backend.perform world _ = performed
              obtain ⟨answer, reached⟩ := performed
              cases answer with
              | error message =>
                  rfl
              | ok before =>
                  exact updated before reached

/-- A patch acts on canonical triples as the patch with canonical literals. -/
theorem eval_patchGuarded_byValue
    (canonical : world.Canonical)
    (canonicalGuard : canonicalCondition guard = guard) :
    Program.eval byValue (patchGuarded url patch guard) world =
      Program.eval backend (patchGuarded url patch.canonical guard) world := by
  have bound :
      CanonicalBindings
        (solutionsFrom (world.graphs (graphIri url)).triples
          patch.canonical.conditions []) :=
    canonical_of_solutionsFrom (canonical (graphIri url))
  unfold patchGuarded
  have sameEmpty :
      patch.canonical.conditions.isEmpty = patch.conditions.isEmpty :=
    List.isEmpty_map
  rw [sameEmpty]
  split
  · exact eval_applyPatch_byValue (fun solution inNone => by cases inNone)
      canonicalGuard
  · have answered :
        (Call.querySolutions (graphIri url) patch.conditions).answerByValue
            world =
          .ok ((solutionsFrom (world.graphs (graphIri url)).triples
            patch.canonical.conditions []).take 2) :=
      rfl
    have unchanged :
        (byValue.perform world
          (.querySolutions (graphIri url) patch.conditions)).2 = world :=
      rfl
    rw [StoreProgram.eval_read_bind ⟨rfl, fun _ => rfl⟩ rfl,
      StoreProgram.eval_byValue_bind answered, unchanged]
    have inSolutions :
        ∀ solution ∈ (solutionsFrom (world.graphs (graphIri url)).triples
            patch.canonical.conditions []).take 2,
          solution ∈ solutionsFrom (world.graphs (graphIri url)).triples
            patch.canonical.conditions [] :=
      fun solution => List.mem_of_mem_take
    generalize (solutionsFrom (world.graphs (graphIri url)).triples
      patch.canonical.conditions []).take 2 = solutions at inSolutions ⊢
    match solutions with
    | [] =>
        rfl
    | [solution] =>
        refine eval_applyPatch_byValue ?_ canonicalGuard
        intro other isOther
        exact bound other (inSolutions other isOther)
    | first :: second :: rest =>
        rfl

end Running

theorem canonical_subjectPresentGuard
    {space : StorageSpace} (aux : AuxUrl space) :
    canonicalCondition (subjectPresentGuard aux) = subjectPresentGuard aux := by
  simp [subjectPresentGuard]

/--
On canonical triples a patch that runs alone follows the rules with its literals
taken by their values, wherever its one mapping makes no triple term; behind an
absent subject it changes nothing.
-/
theorem patch_follows_rules_by_value
    {space : StorageSpace} {world : World} (canonical : world.Canonical)
    (patch : Patch) :
    (∀ resource : ResourceUrl space,
      patch.canonical.WellFormedIn (world.graphs (graphIri resource)) →
      patch.canonical.RendersIn (world.graphs (graphIri resource)) →
        FollowsPatchRules (graphIri resource) patch.canonical world
          (Program.eval byValue (patchGuarded resource patch []) world)) ∧
    ∀ aux : AuxUrl space,
      patch.canonical.WellFormedIn (world.graphs (graphIri aux)) →
        (world.present aux.subject.node = true →
          patch.canonical.RendersIn (world.graphs (graphIri aux)) →
            FollowsPatchRules (graphIri aux) patch.canonical world
              (Program.eval byValue
                (patchGuarded aux patch (subjectPresentGuard aux)) world)) ∧
        (world.present aux.subject.node = false →
          (Program.eval byValue
            (patchGuarded aux patch (subjectPresentGuard aux)) world).2 =
              world) := by
  refine ⟨?_, ?_⟩
  · intro resource wellFormed renders
    rw [eval_patchGuarded_byValue canonical rfl]
    exact followsPatchRules_of_renders wellFormed renders rfl
  · intro aux wellFormed
    rw [eval_patchGuarded_byValue canonical
      (canonical_subjectPresentGuard aux)]
    refine ⟨?_, ?_⟩
    · intro present renders
      exact followsPatchRules_of_renders wellFormed renders
        ((satisfies_subjectPresentGuard aux world).mpr present)
    · intro absent
      refine eval_patchGuarded_unguarded wellFormed ?_
      rw [satisfies_subjectPresentGuard, absent]
      exact Bool.false_ne_true

end Quadpod

namespace Quadpod.Reference

open AtomicProgram
open GraphStore

/-- The pod that is provisioned on a store that keeps values. -/
def freshByValue : World :=
  (Program.run byValue (provision podSpace owner true uuid) []
    World.empty).world

/-- The owner states that something is true, with the digit for it. -/
def truth : GroundTriple :=
  ⟨owner, plainPredicate, .literal (.typed "1".toList xsdBoolean)⟩

/-- The world after `/note` got the statement. -/
def truthWorld : World :=
  (Program.eval byValue
    (putDataset note ⟨[truth.toQuad .defaultGraph]⟩ .turtle) freshByValue).2

theorem canonical_freshByValue : freshByValue.Canonical := by
  unfold freshByValue
  rw [Program.run_nil]
  exact World.Canonical.eval (fun _ _ isThere => by cases isThere) _

theorem canonical_truthWorld : truthWorld.Canonical :=
  canonical_freshByValue.eval _

/-- A patch that takes the statement back, as it was sent. -/
def untruePatch : Patch where
  conditions := []
  deletions :=
    [⟨.named owner, .named plainPredicate,
      .literal (.typed "1".toList xsdBoolean)⟩]
  insertions := []
  variableCount := 0

theorem untruePatch_wellFormed (graph : Graph GroundTriple) :
    untruePatch.WellFormedIn graph ∧
      untruePatch.canonical.WellFormedIn graph := by
  refine ⟨?_, ?_⟩
  · intro mapping _ pattern inPatterns
    rw [List.mem_singleton.mp inPatterns]
    exact ⟨truth, rfl⟩
  · intro mapping _ pattern inPatterns
    rw [List.mem_singleton.mp inPatterns]
    exact ⟨truth.canonical, rfl⟩

theorem untruePatch_renders (graph : Graph GroundTriple) :
    untruePatch.RendersIn graph ∧ untruePatch.canonical.RendersIn graph := by
  refine ⟨?_, ?_⟩
  · intro mapping _ pattern inPatterns
    rw [List.mem_singleton.mp inPatterns]
    intro subject predicate object same
    cases same
  · intro mapping _ pattern inPatterns
    rw [List.mem_singleton.mp inPatterns]
    intro subject predicate object same
    cases same

/-- The access rules of `/note`. -/
def noteAcl : AuxUrl podSpace := note.aux .acl

/-- A patch of `/note` and of its access rules follows the rules by value. -/
theorem untruePatch_follows_rules :
    FollowsPatchRules (graphIri note) untruePatch.canonical truthWorld
        (Program.eval byValue (patchGuarded note untruePatch []) truthWorld) ∧
      FollowsPatchRules (graphIri noteAcl) untruePatch.canonical truthWorld
        (Program.eval byValue
          (patchGuarded noteAcl untruePatch (subjectPresentGuard noteAcl))
          truthWorld) ∧
      (Program.eval byValue
        (patchGuarded noteAcl untruePatch (subjectPresentGuard noteAcl))
        freshByValue).2 = freshByValue := by
  refine ⟨?_, ?_, ?_⟩
  · exact (patch_follows_rules_by_value canonical_truthWorld untruePatch).1
      note (untruePatch_wellFormed _).2 (untruePatch_renders _).2
  · exact ((patch_follows_rules_by_value canonical_truthWorld untruePatch).2
      noteAcl (untruePatch_wellFormed _).2).1 (by decide)
        (untruePatch_renders _).2
  · exact ((patch_follows_rules_by_value canonical_freshByValue untruePatch).2
      noteAcl (untruePatch_wellFormed _).2).2 (by decide)

/-- The statement is not there as it was sent, and yet it is taken back. -/
theorem untruePatch_applied :
    truthWorld.Canonical ∧
      untruePatch.WellFormedIn (truthWorld.graphs (graphIri note)) ∧
      untruePatch.RendersIn (truthWorld.graphs (graphIri note)) ∧
      ¬ FollowsPatchRules (graphIri note) untruePatch truthWorld
        (Program.eval byValue (patchGuarded note untruePatch [])
          truthWorld) := by
  refine ⟨canonical_truthWorld, (untruePatch_wellFormed _).1,
    (untruePatch_renders _).1, fun follows => ?_⟩
  have absent : truth ∉ truthWorld.graphs (graphIri note) := by
    decide
  have only :
      untruePatch.MapsOnly (truthWorld.graphs (graphIri note))
        fun _ => none :=
    ⟨solves_nil.mpr rfl, fun _ solves => solves_nil.mp solves⟩
  have refused :=
    follows.deletionMissing _ only truth (List.mem_singleton.mpr rfl) absent
  have applies :
      (Program.eval byValue (patchGuarded note untruePatch [])
        truthWorld).1 = .ok .applied := by
    decide
  rw [refused] at applies
  cases applies

end Quadpod.Reference
