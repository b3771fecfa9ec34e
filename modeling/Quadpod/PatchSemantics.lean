import Quadpod.PatternMappings
import Quadpod.SlashPairs
import Quadpod.Traversal

namespace Quadpod

open AtomicProgram
open GraphStore

/-!
# What a patch does when it runs alone

`patch_guarded` against the meaning of an N3 patch: the one mapping of the
conditions is put into the deletions and the insertions, the deletions have to be
there, and they give way to the insertions.  The code renders what a variable is
bound to as SPARQL text, and has no text for a triple term.
-/

variable [IriSyntax]

/-! ## Substitution -/

/-- What the bindings of a patch bind its variables to. -/
def bindingsMapping (bindings : List Solution) : Mapping :=
  (bindings.head?.getD []).mapping

/-- The object of a pattern is no triple term. -/
def Pattern.Renders (pattern : Pattern) (mapping : Mapping) : Prop :=
  ∀ subject predicate object,
    pattern.object.instantiate mapping ≠ some (.triple subject predicate object)

/-- A ground triple as a template. -/
def GroundTriple.toTemplate (triple : GroundTriple) : TemplateTriple where
  subject := .namedNode triple.subject
  predicate := .namedNode triple.predicate
  object := triple.object

/-- A position is put in as it stands, unless it is a triple term. -/
theorem groundTerm_of_instantiate
    {term : PatternTerm} {bindings : List Solution} {value : GroundTerm}
    (isValue : term.instantiate (bindingsMapping bindings) = some value)
    (renders : ∀ subject predicate object,
      value ≠ .triple subject predicate object) :
    groundTerm term bindings = .ok value := by
  cases term with
  | named node =>
      cases isValue
      rfl
  | literal content =>
      cases isValue
      rfl
  | var index =>
      cases bindings with
      | nil =>
          cases isValue
      | cons solution rest =>
          have bound : solution.lookup index = some value := isValue
          simp only [groundTerm, List.head?_cons, Option.bind_some, bound]
          cases value with
          | namedNode node =>
              rfl
          | literal content =>
              rfl
          | triple subject predicate object =>
              exact (renders subject predicate object rfl).elim

/-- What is put in is what the position stands for, and no triple term. -/
theorem instantiate_of_groundTerm
    {term : PatternTerm} {bindings : List Solution} {value : GroundTerm}
    (isGround : groundTerm term bindings = .ok value) :
    term.instantiate (bindingsMapping bindings) = some value ∧
      ∀ subject predicate object,
        value ≠ .triple subject predicate object := by
  cases term with
  | named node =>
      cases isGround
      exact ⟨rfl, fun _ _ _ same => by cases same⟩
  | literal content =>
      cases isGround
      exact ⟨rfl, fun _ _ _ same => by cases same⟩
  | var index =>
      cases bindings with
      | nil =>
          cases isGround
      | cons solution rest =>
          simp only [groundTerm, List.head?_cons, Option.bind_some] at isGround
          cases bound : solution.lookup index with
          | none =>
              rw [bound] at isGround
              cases isGround
          | some held =>
              rw [bound] at isGround
              cases held with
              | namedNode node =>
                  cases isGround
                  exact ⟨bound, fun _ _ _ same => by cases same⟩
              | literal content =>
                  cases isGround
                  exact ⟨bound, fun _ _ _ same => by cases same⟩
              | triple subject predicate object =>
                  cases isGround

/-- A pattern whose instance has no triple term is substituted. -/
theorem substituteOne_of_instantiate
    {pattern : Pattern} {bindings : List Solution} {triple : GroundTriple}
    (isTriple :
      pattern.instantiate (bindingsMapping bindings) = some triple)
    (renders : pattern.Renders (bindingsMapping bindings)) :
    substituteOne bindings pattern = .ok triple.toTemplate := by
  obtain ⟨subject, predicate, object⟩ :=
    Pattern.instantiate_eq_some_iff.mp isTriple
  have isSubject :
      groundTerm pattern.subject bindings = .ok (.namedNode triple.subject) :=
    groundTerm_of_instantiate subject (fun _ _ _ same => by cases same)
  have isPredicate :
      groundTerm pattern.predicate bindings =
        .ok (.namedNode triple.predicate) :=
    groundTerm_of_instantiate predicate (fun _ _ _ same => by cases same)
  have isObject : groundTerm pattern.object bindings = .ok triple.object := by
    refine groundTerm_of_instantiate object ?_
    intro s p o same
    rw [same] at object
    exact renders s p o object
  unfold substituteOne
  rw [isSubject, isPredicate, isObject]
  rfl

/-- A pattern that is substituted has no triple term. -/
theorem renders_of_substituteOne
    {pattern : Pattern} {bindings : List Solution} {template : TemplateTriple}
    (isTemplate : substituteOne bindings pattern = .ok template) :
    pattern.Renders (bindingsMapping bindings) := by
  unfold substituteOne at isTemplate
  cases isSubject : groundTerm pattern.subject bindings with
  | error error =>
      rw [isSubject] at isTemplate
      cases isTemplate
  | ok subject =>
      cases isPredicate : groundTerm pattern.predicate bindings with
      | error error =>
          rw [isSubject, isPredicate] at isTemplate
          cases isTemplate
      | ok predicate =>
          cases isObject : groundTerm pattern.object bindings with
          | error error =>
              rw [isSubject, isPredicate, isObject] at isTemplate
              cases isTemplate
          | ok object =>
              obtain ⟨isValue, notTriple⟩ := instantiate_of_groundTerm isObject
              intro s p o same
              rw [isValue] at same
              exact notTriple s p o (Option.some.inj same)

/-- The triples a list of patterns stands for. -/
def instances (mapping : Mapping) (patterns : List Pattern) :
    List GroundTriple :=
  patterns.filterMap (Pattern.instantiate mapping)

/-- Patterns whose instances have no triple term are substituted. -/
theorem substitute_of_instantiate
    {patterns : List Pattern} {bindings : List Solution}
    (wellFormed :
      ∀ pattern ∈ patterns, ∃ triple,
        pattern.instantiate (bindingsMapping bindings) = some triple)
    (renders :
      ∀ pattern ∈ patterns, pattern.Renders (bindingsMapping bindings)) :
    substitute patterns bindings =
      .ok ((instances (bindingsMapping bindings) patterns).map
        GroundTriple.toTemplate) := by
  induction patterns with
  | nil =>
      rfl
  | cons first rest inductionHypothesis =>
      obtain ⟨triple, isTriple⟩ := wellFormed first List.mem_cons_self
      have substituted := inductionHypothesis
        (fun pattern inRest =>
          wellFormed pattern (List.mem_cons_of_mem first inRest))
        (fun pattern inRest =>
          renders pattern (List.mem_cons_of_mem first inRest))
      unfold substitute at substituted ⊢
      rw [List.mapM_cons,
        substituteOne_of_instantiate isTriple (renders first List.mem_cons_self),
        substituted]
      unfold instances
      rw [List.filterMap_cons, isTriple]
      rfl

/-! ## The update -/

theorem Graph.removeAll_nil (graph : Graph GroundTriple) :
    graph.removeAll [] = graph := by
  obtain ⟨triples, nodup⟩ := graph
  simp [Graph.removeAll]

theorem Graph.insertAll_nil (graph : Graph GroundTriple) :
    graph.insertAll [] = graph :=
  rfl

theorem all_parses_toTemplate (triples : List GroundTriple) :
    (triples.map GroundTriple.toTemplate).all TemplateTriple.parses = true := by
  simp [GroundTriple.toTemplate, TemplateTriple.parses]

theorem mapM_ground_toTemplate (triples : List GroundTriple) :
    (triples.map GroundTriple.toTemplate).mapM TemplateTriple.ground =
      some triples := by
  induction triples with
  | nil =>
      rfl
  | cons first rest inductionHypothesis =>
      rw [List.map_cons, List.mapM_cons, inductionHypothesis]
      rfl

theorem filterMap_ground_toTemplate (triples : List GroundTriple) :
    (triples.map GroundTriple.toTemplate).filterMap TemplateTriple.ground =
      triples := by
  rw [List.filterMap_map]
  exact List.filterMap_some

/-- The update of a patch with ground triples. -/
abbrev modifyGround (graph : Text) (removed added : List GroundTriple)
    (guard : Condition Text GroundTriple) : Call :=
  .modify graph (removed.map GroundTriple.toTemplate)
    (added.map GroundTriple.toTemplate) guard

theorem operations_modifyGround
    (graph : Text) (removed added : List GroundTriple)
    (guard : Condition Text GroundTriple) :
    (modifyGround graph removed added guard).operations =
      [.modifyWhere graph removed added
        (removed.map (graph, ·) ++ guard)] := by
  have parses :
      ((removed.map GroundTriple.toTemplate) ++
        (added.map GroundTriple.toTemplate)).all TemplateTriple.parses =
        true := by
    rw [List.all_append, all_parses_toTemplate, all_parses_toTemplate]
    rfl
  unfold Call.operations
  simp only [parses, if_true, mapM_ground_toTemplate,
    filterMap_ground_toTemplate]

theorem answer_modifyGround
    (graph : Text) (removed added : List GroundTriple)
    (guard : Condition Text GroundTriple) (world : World) :
    (modifyGround graph removed added guard).answer world = .ok () := by
  have parses :
      ((removed.map GroundTriple.toTemplate) ++
        (added.map GroundTriple.toTemplate)).all TemplateTriple.parses =
        true := by
    rw [List.all_append, all_parses_toTemplate, all_parses_toTemplate]
    rfl
  unfold Call.answer
  simp only [parses, if_true]

theorem answer_askTemplate
    (graph : Text) (triples : List GroundTriple) (world : World) :
    (Call.askTemplate graph (triples.map GroundTriple.toTemplate)).answer world =
      .ok (triples.all (· ∈ world.graphs graph)) := by
  unfold Call.answer
  simp only [all_parses_toTemplate, if_true, mapM_ground_toTemplate]
  rfl

/-- A world is its graphs and its objects. -/
theorem World.eq_of_parts {first second : World}
    (graphs : first.graphs = second.graphs)
    (blobs : first.blobs = second.blobs) :
    first = second := by
  cases first
  cases second
  cases graphs
  cases blobs
  rfl

/-- What the update of a patch leaves. -/
theorem perform_modifyGround
    (graph : Text) (removed added : List GroundTriple)
    (guard : Condition Text GroundTriple) (world : World) :
    (backend.perform world (modifyGround graph removed added guard)).2 =
      if (∀ triple ∈ removed, triple ∈ world.graphs graph) ∧
          world.graphs.satisfies guard = true then
        { world with
          graphs := Function.update world.graphs graph
            (((world.graphs graph).removeAll removed).insertAll added) }
      else
        world := by
  have holds :
      world.graphs.satisfies (removed.map (graph, ·) ++ guard) = true ↔
        (∀ triple ∈ removed, triple ∈ world.graphs graph) ∧
          world.graphs.satisfies guard = true := by
    simp only [Store.satisfies_iff, List.mem_append, List.mem_map]
    constructor
    · intro all
      refine ⟨?_, ?_⟩
      · intro triple member
        exact all (graph, triple) (.inl ⟨triple, member, rfl⟩)
      · intro entry member
        exact all entry (.inr member)
    · rintro ⟨inGraph, inGuard⟩ entry (⟨triple, member, rfl⟩ | member)
      · exact inGraph triple member
      · exact inGuard entry member
  have graphs :
      (backend.perform world (modifyGround graph removed added guard)).2.graphs =
        if world.graphs.satisfies (removed.map (graph, ·) ++ guard) then
          Function.update world.graphs graph
            (((world.graphs graph).removeAll removed).insertAll added)
        else
          world.graphs := by
    rw [backend_graphs, operations_modifyGround]
    rfl
  have blobs :
      (backend.perform world (modifyGround graph removed added guard)).2.blobs =
        world.blobs := rfl
  by_cases met :
      (∀ triple ∈ removed, triple ∈ world.graphs graph) ∧
        world.graphs.satisfies guard = true
  · rw [if_pos met]
    rw [if_pos (holds.mpr met)] at graphs
    exact World.eq_of_parts graphs blobs
  · rw [if_neg met]
    rw [if_neg fun all => met (holds.mp all)] at graphs
    exact World.eq_of_parts graphs blobs

/-- The triples of the graph after an update that applies. -/
theorem mem_perform_modifyGround
    {graph : Text} {removed added : List GroundTriple}
    {guard : Condition Text GroundTriple} {world : World}
    (present : ∀ triple ∈ removed, triple ∈ world.graphs graph)
    (holds : world.graphs.satisfies guard = true) (triple : GroundTriple) :
    triple ∈
        (backend.perform world
          (modifyGround graph removed added guard)).2.graphs graph ↔
      (triple ∈ world.graphs graph ∧ triple ∉ removed) ∨ triple ∈ added := by
  rw [perform_modifyGround, if_pos ⟨present, holds⟩]
  change triple ∈ Function.update world.graphs graph _ _ ↔ _
  rw [Function.update_self, Graph.mem_insertAll, Graph.mem_removeAll]

/-! ## Running alone -/

section Alone

variable {Url : Type} [GraphUrl Url]
variable {url : Url} {patch : Patch} {guard : Condition Text GroundTriple}
variable {world : World}

/-- A patch whose patterns are substituted: its answer and what it leaves. -/
theorem eval_applyPatch
    {bindings : List Solution} {removed added : List GroundTriple}
    (isRemoved :
      substitute patch.deletions bindings =
        .ok (removed.map GroundTriple.toTemplate))
    (isAdded :
      substitute patch.insertions bindings =
        .ok (added.map GroundTriple.toTemplate)) :
    Program.eval backend (applyPatch url patch guard bindings) world =
      (if ∀ triple ∈ removed, triple ∈ world.graphs (graphIri url) then
          .ok .applied
        else
          .ok .deletionMissing,
        (backend.perform world
          (modifyGround (graphIri url) removed added guard)).2) := by
  have updated :
      ∀ before : Bool,
        before = (!removed.isEmpty &&
          removed.all (· ∈ world.graphs (graphIri url))) →
        Program.eval backend
          (do
            StoreProgram.issue .store
              (modifyGround (graphIri url) removed added guard)
            if !(removed.map GroundTriple.toTemplate).isEmpty && !before then
              pure .deletionMissing
            else
              pure .applied : ResourceProgram PatchResult)
          world =
        (if ∀ triple ∈ removed, triple ∈ world.graphs (graphIri url) then
            .ok .applied
          else
            .ok .deletionMissing,
          (backend.perform world
            (modifyGround (graphIri url) removed added guard)).2) := by
    intro before isBefore
    rw [StoreProgram.eval_issue_bind (answer_modifyGround _ _ _ _ _)]
    have asked :
        (!(removed.map GroundTriple.toTemplate).isEmpty && !before) = true ↔
          ¬ ∀ triple ∈ removed, triple ∈ world.graphs (graphIri url) := by
      rw [isBefore]
      cases removed with
      | nil =>
          simp
      | cons first rest =>
          have all :
              (first :: rest).all (· ∈ world.graphs (graphIri url)) = true ↔
                ∀ triple ∈ first :: rest,
                  triple ∈ world.graphs (graphIri url) := by
            simp only [List.all_eq_true, decide_eq_true_eq]
          rw [← all]
          generalize (first :: rest).all
            (· ∈ world.graphs (graphIri url)) = present
          cases present with
          | true =>
              simp
          | false =>
              simp
    by_cases present :
        ∀ triple ∈ removed, triple ∈ world.graphs (graphIri url)
    · rw [if_pos present, if_neg fun missing => asked.mp missing present]
      rfl
    · rw [if_neg present, if_pos (asked.mpr present)]
      rfl
  unfold applyPatch
  rw [isRemoved, isAdded]
  rw [Program.eval_bind_ok (Program.eval_ofExcept _ _ _),
    Program.eval_bind_ok (Program.eval_ofExcept _ _ _)]
  cases removed with
  | nil =>
      cases added with
      | nil =>
          rw [perform_modifyGround, Graph.removeAll_nil, Graph.insertAll_nil,
            Function.update_eq_self, ite_self,
            if_pos fun triple inNone => by cases inNone]
          rfl
      | cons first rest =>
          exact updated false rfl
  | cons first rest =>
      have answered := answer_askTemplate (graphIri url) (first :: rest) world
      have reads :
          (Call.askTemplate (graphIri url)
            ((first :: rest).map GroundTriple.toTemplate)).Reads :=
        ⟨rfl, fun _ => rfl⟩
      exact (StoreProgram.eval_read_bind reads answered).trans (updated _ rfl)

/-- A patch with a pattern that is not substituted fails and writes nothing. -/
theorem eval_applyPatch_unsubstituted
    {bindings : List Solution}
    (unsubstituted :
      ∀ removed added,
        substitute patch.deletions bindings = .ok removed →
          substitute patch.insertions bindings ≠ .ok added) :
    ∃ error,
      Program.eval backend (applyPatch url patch guard bindings) world =
        (.error error, world) := by
  unfold applyPatch
  cases isRemoved : substitute patch.deletions bindings with
  | error error =>
      exact ⟨error, by rw [Program.eval_bind, Program.eval_ofExcept]⟩
  | ok removed =>
      rw [Program.eval_bind_ok (Program.eval_ofExcept _ _ _)]
      cases isAdded : substitute patch.insertions bindings with
      | error error =>
          exact ⟨error, by rw [Program.eval_bind, Program.eval_ofExcept]⟩
      | ok added =>
          exact (unsubstituted removed added isRemoved isAdded).elim

/-- The patterns of a list that is substituted have no triple term. -/
theorem renders_of_substitute
    {patterns : List Pattern} {bindings : List Solution}
    {templates : List TemplateTriple}
    (isSubstituted : substitute patterns bindings = .ok templates) :
    ∀ pattern ∈ patterns, pattern.Renders (bindingsMapping bindings) := by
  intro pattern inPatterns
  obtain ⟨template, isTemplate⟩ := Traversal.ok_of_mem isSubstituted inPatterns
  exact renders_of_substituteOne isTemplate

end Alone

/-! ## The meaning of a patch -/

/-- The conditions of a patch have this mapping and no other. -/
structure Patch.MapsOnly
    (patch : Patch) (graph : Graph GroundTriple) (mapping : Mapping) :
    Prop where
  solves : mapping.Solves patch.conditions graph.triples
  only :
    ∀ other : Mapping,
      other.Solves patch.conditions graph.triples → other = mapping

/-- Under its one mapping every deletion and insertion is a triple. -/
def Patch.WellFormedIn (patch : Patch) (graph : Graph GroundTriple) : Prop :=
  ∀ mapping, patch.MapsOnly graph mapping →
    ∀ pattern ∈ patch.deletions ++ patch.insertions, ∃ triple,
      pattern.instantiate mapping = some triple

/-- Its one mapping makes no object of a deletion or insertion a triple term. -/
def Patch.RendersIn (patch : Patch) (graph : Graph GroundTriple) : Prop :=
  ∀ mapping, patch.MapsOnly graph mapping →
    ∀ pattern ∈ patch.deletions ++ patch.insertions, pattern.Renders mapping

/-- What a patch of one graph does by the N3 patch rules. -/
structure FollowsPatchRules
    (name : Text) (patch : Patch) (before : World)
    (outcome : Except ResourceError PatchResult × World) :
    Prop where
  noMapping :
    (∀ mapping : Mapping,
      ¬ mapping.Solves patch.conditions (before.graphs name).triples) →
    outcome = (.ok .noMapping, before)
  severalMappings :
    ∀ first second : Mapping,
      first.Solves patch.conditions (before.graphs name).triples →
      second.Solves patch.conditions (before.graphs name).triples →
      first ≠ second →
      outcome = (.ok .severalMappings, before)
  deletionMissing :
    ∀ mapping, patch.MapsOnly (before.graphs name) mapping →
    ∀ triple ∈ instances mapping patch.deletions,
      triple ∉ before.graphs name →
      outcome = (.ok .deletionMissing, before)
  applied :
    ∀ mapping, patch.MapsOnly (before.graphs name) mapping →
    (∀ triple ∈ instances mapping patch.deletions,
      triple ∈ before.graphs name) →
    outcome.1 = .ok .applied ∧
    (∀ triple,
      triple ∈ outcome.2.graphs name ↔
        (triple ∈ before.graphs name ∧
          triple ∉ instances mapping patch.deletions) ∨
        triple ∈ instances mapping patch.insertions) ∧
    (∀ other, other ≠ name →
      outcome.2.graphs other = before.graphs other) ∧
    outcome.2.blobs = before.blobs

section Meaning

variable {Url : Type} [GraphUrl Url]
variable {url : Url} {patch : Patch} {guard : Condition Text GroundTriple}
variable {world : World}

/-- How many mappings the conditions have, as the code counts them. -/
inductive Counted (patch : Patch) (graph : Graph GroundTriple) :
    List Solution → Prop where
  | none
      (unsolved :
        ∀ mapping : Mapping,
          ¬ mapping.Solves patch.conditions graph.triples) :
      Counted patch graph []
  | one (solution : Solution)
      (only : patch.MapsOnly graph solution.mapping) :
      Counted patch graph [solution]
  | several (first second : Solution)
      (isFirst : first.mapping.Solves patch.conditions graph.triples)
      (isSecond : second.mapping.Solves patch.conditions graph.triples)
      (different : first.mapping ≠ second.mapping) :
      Counted patch graph [first, second]

/-- Two solutions are enough to count the mappings. -/
theorem counted_take (patch : Patch) (graph : Graph GroundTriple) :
    Counted patch graph
      ((solutionsFrom graph.triples patch.conditions []).take 2) := by
  have distinct :=
    solutionsFrom_distinct graph.nodup patch.conditions []
  have solved (mapping : Mapping) :
      mapping.Solves patch.conditions graph.triples ↔
        ∃ solution ∈ solutionsFrom graph.triples patch.conditions [],
          solution.mapping = mapping :=
    solves_iff_mem_solutions
  cases isList : solutionsFrom graph.triples patch.conditions [] with
  | nil =>
      refine .none fun mapping solves => ?_
      obtain ⟨solution, member, _⟩ := (solved mapping).mp solves
      rw [isList] at member
      cases member
  | cons first rest =>
      rw [isList] at distinct
      have isFirst :=
        (solved first.mapping).mpr ⟨first, by rw [isList]; simp, rfl⟩
      cases rest with
      | nil =>
          refine .one first ⟨isFirst, ?_⟩
          intro other solves
          obtain ⟨solution, member, rfl⟩ := (solved other).mp solves
          rw [isList, List.mem_singleton] at member
          rw [member]
      | cons second rest =>
          have isSecond :=
            (solved second.mapping).mpr ⟨second, by rw [isList]; simp, rfl⟩
          refine .several first second isFirst isSecond ?_
          exact (List.pairwise_cons.mp distinct).1 second List.mem_cons_self

/-- No variable is bound where there is no condition. -/
theorem solves_nil {graph : List GroundTriple} {mapping : Mapping} :
    mapping.Solves [] graph ↔ mapping = fun _ => none := by
  constructor
  · intro solves
    funext index
    by_contra isBound
    obtain ⟨pattern, inNone, _⟩ := (solves.domain index).mp isBound
    cases inNone
  · rintro rfl
    refine ⟨?_, ?_⟩
    · intro index
      constructor
      · intro isBound
        exact (isBound rfl).elim
      · rintro ⟨pattern, inNone, _⟩
        cases inNone
    · intro pattern inNone
      cases inNone

/-- The patch is applied with the one mapping of its conditions. -/
theorem eval_patchGuarded_one
    {mapping : Mapping}
    (only : patch.MapsOnly (world.graphs (graphIri url)) mapping)
    (guard : Condition Text GroundTriple) :
    ∃ bindings,
      bindingsMapping bindings = mapping ∧
      Program.eval backend (patchGuarded url patch guard) world =
        Program.eval backend (applyPatch url patch guard bindings) world := by
  unfold patchGuarded
  split
  next noCondition =>
      rw [List.isEmpty_iff] at noCondition
      have isEmpty := only.solves
      rw [noCondition, solves_nil] at isEmpty
      exact ⟨[], isEmpty.symm, rfl⟩
  next =>
      have counted := counted_take patch (world.graphs (graphIri url))
      rw [StoreProgram.eval_read_bind ⟨rfl, fun _ => rfl⟩ rfl]
      generalize (solutionsFrom (world.graphs (graphIri url)).triples
        patch.conditions []).take 2 = solutions at counted ⊢
      cases counted with
      | none unsolved =>
          exact (unsolved mapping only.solves).elim
      | one solution unique =>
          exact ⟨[solution], only.only _ unique.solves, rfl⟩
      | several first second isFirst isSecond different =>
          have same := (only.only _ isFirst).trans (only.only _ isSecond).symm
          exact (different same).elim

theorem eval_patchGuarded_none
    (unsolved :
      ∀ mapping : Mapping,
        ¬ mapping.Solves patch.conditions
          (world.graphs (graphIri url)).triples)
    (guard : Condition Text GroundTriple) :
    Program.eval backend (patchGuarded url patch guard) world =
      (.ok .noMapping, world) := by
  unfold patchGuarded
  split
  next noCondition =>
      rw [List.isEmpty_iff] at noCondition
      rw [noCondition] at unsolved
      exact (unsolved _ (solves_nil.mpr rfl)).elim
  next =>
      have counted := counted_take patch (world.graphs (graphIri url))
      rw [StoreProgram.eval_read_bind ⟨rfl, fun _ => rfl⟩ rfl]
      generalize (solutionsFrom (world.graphs (graphIri url)).triples
        patch.conditions []).take 2 = solutions at counted ⊢
      cases counted with
      | none unsolved =>
          rfl
      | one solution unique =>
          exact (unsolved _ unique.solves).elim
      | several first second isFirst isSecond different =>
          exact (unsolved _ isFirst).elim

theorem eval_patchGuarded_several
    {first second : Mapping}
    (isFirst :
      first.Solves patch.conditions (world.graphs (graphIri url)).triples)
    (isSecond :
      second.Solves patch.conditions (world.graphs (graphIri url)).triples)
    (different : first ≠ second)
    (guard : Condition Text GroundTriple) :
    Program.eval backend (patchGuarded url patch guard) world =
      (.ok .severalMappings, world) := by
  unfold patchGuarded
  split
  next noCondition =>
      rw [List.isEmpty_iff] at noCondition
      rw [noCondition, solves_nil] at isFirst isSecond
      exact (different (isFirst.trans isSecond.symm)).elim
  next =>
      have counted := counted_take patch (world.graphs (graphIri url))
      rw [StoreProgram.eval_read_bind ⟨rfl, fun _ => rfl⟩ rfl]
      generalize (solutionsFrom (world.graphs (graphIri url)).triples
        patch.conditions []).take 2 = solutions at counted ⊢
      cases counted with
      | none unsolved =>
          exact (unsolved _ isFirst).elim
      | one solution unique =>
          have same :=
            (unique.only _ isFirst).trans (unique.only _ isSecond).symm
          exact (different same).elim
      | several first second isFirst isSecond different =>
          rfl

/-- The conditions have no mapping, one mapping or several. -/
theorem Patch.mappings_cases (patch : Patch) (graph : Graph GroundTriple) :
    (∀ mapping : Mapping,
      ¬ mapping.Solves patch.conditions graph.triples) ∨
    (∃ mapping, patch.MapsOnly graph mapping) ∨
    ∃ first second : Mapping,
      first.Solves patch.conditions graph.triples ∧
      second.Solves patch.conditions graph.triples ∧ first ≠ second := by
  by_cases solved :
      ∃ mapping : Mapping, mapping.Solves patch.conditions graph.triples
  · obtain ⟨mapping, solves⟩ := solved
    by_cases unique :
        ∀ other : Mapping,
          other.Solves patch.conditions graph.triples → other = mapping
    · exact .inr (.inl ⟨mapping, solves, unique⟩)
    · rw [Classical.not_forall] at unique
      obtain ⟨other, different⟩ := unique
      rw [Classical.not_imp] at different
      exact .inr (.inr ⟨other, mapping, different.1, solves, different.2⟩)
  · exact .inl fun mapping solves => solved ⟨mapping, solves⟩

/-- What a patch does with a mapping that makes no triple term. -/
theorem eval_patchGuarded_rendered
    {mapping : Mapping}
    (only : patch.MapsOnly (world.graphs (graphIri url)) mapping)
    (wellFormed :
      ∀ pattern ∈ patch.deletions ++ patch.insertions, ∃ triple,
        pattern.instantiate mapping = some triple)
    (renders :
      ∀ pattern ∈ patch.deletions ++ patch.insertions,
        pattern.Renders mapping)
    (guard : Condition Text GroundTriple) :
    Program.eval backend (patchGuarded url patch guard) world =
      (if ∀ triple ∈ instances mapping patch.deletions,
          triple ∈ world.graphs (graphIri url) then
          .ok .applied
        else
          .ok .deletionMissing,
        (backend.perform world
          (modifyGround (graphIri url) (instances mapping patch.deletions)
            (instances mapping patch.insertions) guard)).2) := by
  obtain ⟨bindings, isMapping, runs⟩ := eval_patchGuarded_one only guard
  rw [runs]
  subst isMapping
  refine eval_applyPatch ?_ ?_
  · exact substitute_of_instantiate
      (fun pattern inDeletions =>
        wellFormed pattern (List.mem_append_left _ inDeletions))
      (fun pattern inDeletions =>
        renders pattern (List.mem_append_left _ inDeletions))
  · exact substitute_of_instantiate
      (fun pattern inInsertions =>
        wellFormed pattern (List.mem_append_right _ inInsertions))
      (fun pattern inInsertions =>
        renders pattern (List.mem_append_right _ inInsertions))

/-- A patch whose mapping makes a triple term fails and writes nothing. -/
theorem eval_patchGuarded_unrendered
    {mapping : Mapping}
    (only : patch.MapsOnly (world.graphs (graphIri url)) mapping)
    (unrendered :
      ¬ ∀ pattern ∈ patch.deletions ++ patch.insertions,
        pattern.Renders mapping)
    (guard : Condition Text GroundTriple) :
    ∃ error,
      Program.eval backend (patchGuarded url patch guard) world =
        (.error error, world) := by
  obtain ⟨bindings, isMapping, runs⟩ := eval_patchGuarded_one only guard
  rw [runs]
  subst isMapping
  apply eval_applyPatch_unsubstituted
  intro removed added isRemoved isAdded
  apply unrendered
  intro pattern inPatterns
  rcases List.mem_append.mp inPatterns with inDeletions | inInsertions
  · exact renders_of_substitute isRemoved pattern inDeletions
  · exact renders_of_substitute isAdded pattern inInsertions

/-- A patch that renders does what the rules say where its guard holds. -/
theorem followsPatchRules_of_renders
    (wellFormed : patch.WellFormedIn (world.graphs (graphIri url)))
    (renders : patch.RendersIn (world.graphs (graphIri url)))
    (holds : world.graphs.satisfies guard = true) :
    FollowsPatchRules (graphIri url) patch world
      (Program.eval backend (patchGuarded url patch guard) world) := by
  have ran {mapping : Mapping}
      (only : patch.MapsOnly (world.graphs (graphIri url)) mapping) :=
    eval_patchGuarded_rendered only (wellFormed mapping only)
      (renders mapping only) guard
  refine ⟨?_, ?_, ?_, ?_⟩
  · intro unsolved
    exact eval_patchGuarded_none unsolved guard
  · intro first second isFirst isSecond different
    exact eval_patchGuarded_several isFirst isSecond different guard
  · intro mapping only triple inDeletions absent
    have missing :
        ¬ ∀ triple ∈ instances mapping patch.deletions,
          triple ∈ world.graphs (graphIri url) :=
      fun present => absent (present triple inDeletions)
    rw [ran only, perform_modifyGround, if_neg missing,
      if_neg fun met => missing met.1]
  · intro mapping only present
    rw [ran only, if_pos present]
    refine ⟨rfl, mem_perform_modifyGround present holds, ?_, rfl⟩
    intro other isOther
    rw [perform_modifyGround, if_pos ⟨present, holds⟩]
    exact Function.update_of_ne isOther _ _

/-- Nothing changes where the guard of a patch does not hold. -/
theorem eval_patchGuarded_unguarded
    (wellFormed : patch.WellFormedIn (world.graphs (graphIri url)))
    (fails : ¬ world.graphs.satisfies guard = true) :
    (Program.eval backend (patchGuarded url patch guard) world).2 = world := by
  rcases patch.mappings_cases (world.graphs (graphIri url)) with
    unsolved | ⟨mapping, only⟩ | ⟨first, second, isFirst, isSecond, different⟩
  · rw [eval_patchGuarded_none unsolved]
  · by_cases renders :
        ∀ pattern ∈ patch.deletions ++ patch.insertions,
          pattern.Renders mapping
    · rw [eval_patchGuarded_rendered only (wellFormed mapping only) renders,
        perform_modifyGround, if_neg fun met => fails met.2]
    · obtain ⟨error, isError⟩ :=
        eval_patchGuarded_unrendered only renders guard
      rw [isError]
  · rw [eval_patchGuarded_several isFirst isSecond different]

end Meaning

/-- The guard of an auxiliary holds where its subject is present. -/
theorem satisfies_subjectPresentGuard
    {space : StorageSpace} (aux : AuxUrl space) (world : World) :
    world.graphs.satisfies (subjectPresentGuard aux) = true ↔
      world.present aux.subject.node = true := by
  rw [Store.satisfies_iff, World.present_iff]
  constructor
  · intro all
    exact all _ (List.mem_singleton.mpr rfl)
  · intro present entry member
    rw [List.mem_singleton.mp member]
    exact present

end Quadpod
