import Quadpod.AtomicProgramInterleaving
import Quadpod.PatchSubstitution

namespace Quadpod

open AtomicProgram
open GraphStore

/-!
# Patches and other writes at once

`patch_guarded` finds the mapping of its conditions in one call and writes in a
later one.  The `WHERE` of the write looks for the deletions again, in the state
that it changes; the conditions are not looked for again, so the mapping holds
there only if no other run has changed what the conditions match.
-/

section Races

variable [IriSyntax] {Url : Type} [GraphUrl Url]
variable {url : Url} {patch : Patch} {guard : Condition Text GroundTriple}

/-! ## What a patch writes -/

/-- What a patch needs of the graph that it changes. -/
def RequirementsMet
    (url : Url) (patch : Patch) (world : World)
    (deletions insertions : List TemplateTriple) : Prop :=
  ∃ mapping,
    patch.MapsOnly (world.graphs (graphIri url)) mapping ∧
      Substituted mapping patch.deletions deletions ∧
      Substituted mapping patch.insertions insertions ∧
      ∀ template ∈ deletions, ∃ triple ∈ world.graphs (graphIri url),
        template.ground = some triple

/-- The update of a patch changes nothing where a deletion is missing. -/
theorem present_of_modify
    {graph : Text} {deletions insertions : List TemplateTriple}
    {world : World}
    (changes :
      (backend.perform world (.modify graph deletions insertions guard)).2 ≠
        world) :
    ∀ template ∈ deletions, ∃ triple ∈ world.graphs graph,
      template.ground = some triple := by
  intro template inDeletions
  by_contra missing
  apply changes
  refine World.eq_of_parts ?_ rfl
  rw [backend_graphs, Call.operations]
  split
  next =>
      cases isRemoved : deletions.mapM TemplateTriple.ground with
      | none =>
          rfl
      | some removed =>
          obtain ⟨triple, inRemoved, isTriple⟩ :=
            Traversal.some_of_mem isRemoved inDeletions
          rw [Store.applyAll_cons, Store.applyAll_nil, Store.apply, if_neg]
          rw [Store.satisfies_iff]
          intro all
          apply missing
          refine ⟨triple, ?_, isTriple⟩
          exact all (graph, triple)
            (List.mem_append_left _ (List.mem_map.mpr ⟨triple, inRemoved, rfl⟩))
  next =>
      rfl

/-! ## The stages of a patch -/

/-- The update of a patch and its answer. -/
def updateStage
    (url : Url) (guard : Condition Text GroundTriple)
    (deletions insertions : List TemplateTriple) (before : Bool) :
    ResourceProgram PatchResult := do
  StoreProgram.issue .store (.modify (graphIri url) deletions insertions guard)
  if !deletions.isEmpty && !before then
    pure .deletionMissing
  else
    pure .applied

/-- What a patch can have left to do, by the mapping that it has found. -/
inductive PatchStage
    (url : Url) (patch : Patch) (guard : Condition Text GroundTriple)
    (mapped : Mapping → Prop) :
    ResourceProgram PatchResult → Prop where
  | reading (hasConditions : patch.conditions.isEmpty = false) :
      PatchStage url patch guard mapped (patchGuarded url patch guard)
  | asking
      (mapping : Mapping) (deletions insertions : List TemplateTriple)
      (isMapped : mapped mapping)
      (removes : Substituted mapping patch.deletions deletions)
      (adds : Substituted mapping patch.insertions insertions) :
      PatchStage url patch guard mapped
        (StoreProgram.issue .store (.askTemplate (graphIri url) deletions) >>=
          updateStage url guard deletions insertions)
  | updating
      (mapping : Mapping) (deletions insertions : List TemplateTriple)
      (before : Bool)
      (isMapped : mapped mapping)
      (removes : Substituted mapping patch.deletions deletions)
      (adds : Substituted mapping patch.insertions insertions) :
      PatchStage url patch guard mapped
        (updateStage url guard deletions insertions before)
  | over (program : ResourceProgram PatchResult)
      (finished : program.Finished) :
      PatchStage url patch guard mapped program

/-- A patch with its mapping asks, updates or is over. -/
theorem patchStage_applyPatch
    {mapped : Mapping → Prop} {bindings : List Solution}
    (isMapped : mapped (bindingsMapping bindings)) :
    PatchStage url patch guard mapped
      (applyPatch url patch guard bindings) := by
  unfold applyPatch
  cases isRemoved : substitute patch.deletions bindings with
  | error error =>
      exact .over _ trivial
  | ok deletions =>
      cases isAdded : substitute patch.insertions bindings with
      | error error =>
          exact .over _ trivial
      | ok insertions =>
          have removes := substituted_of_substitute isRemoved
          have adds := substituted_of_substitute isAdded
          change PatchStage url patch guard mapped (if _ then _ else _)
          split
          next =>
              exact .over _ trivial
          next =>
              by_cases noDeletions : deletions.isEmpty = true
              · rw [if_pos noDeletions]
                exact .updating _ deletions insertions false isMapped removes
                  adds
              · rw [if_neg noDeletions]
                exact .asking _ deletions insertions isMapped removes adds

/-- What follows the query of a patch. -/
def readStage
    (url : Url) (patch : Patch) (guard : Condition Text GroundTriple) :
    Except Text (List Solution) → ResourceProgram PatchResult
  | .error message => .fail (.store (.backend message))
  | .ok [] => pure .noMapping
  | .ok [solution] => applyPatch url patch guard [solution]
  | .ok _ => pure .severalMappings

theorem patchGuarded_eq_call
    (hasConditions : patch.conditions.isEmpty = false) :
    patchGuarded url patch guard =
      .call (.querySolutions (graphIri url) patch.conditions)
        (readStage url patch guard) := by
  unfold patchGuarded
  rw [if_neg (by rw [hasConditions]; exact Bool.false_ne_true)]
  change Program.call _ _ = Program.call _ _
  congr 1
  funext reply
  cases reply with
  | error message =>
      rfl
  | ok solutions =>
      match solutions with
      | [] => rfl
      | [_] => rfl
      | _ :: _ :: _ => rfl

/-- The query leaves the patch with the mapping of the graph that it read. -/
theorem patchStage_readStage (world : World) :
    PatchStage url patch guard
      (patch.MapsOnly (world.graphs (graphIri url)))
      (readStage url patch guard
        (.ok ((solutionsFrom (world.graphs (graphIri url)).triples
          patch.conditions []).take 2))) := by
  have counted := counted_take patch (world.graphs (graphIri url))
  generalize (solutionsFrom (world.graphs (graphIri url)).triples
    patch.conditions []).take 2 = solutions at counted
  cases counted with
  | none unsolved =>
      exact .over _ trivial
  | one solution only =>
      exact patchStage_applyPatch only
  | several first second isFirst isSecond different =>
      exact .over _ trivial

/-- A call that fails ends the patch. -/
theorem PatchStage.fault
    {mapped later : Mapping → Prop} {program : ResourceProgram PatchResult}
    (stage : PatchStage url patch guard mapped program)
    {call : Call} {next : Except Text call.Reply → ResourceProgram PatchResult}
    (isCall : program = .call call next) (fault : Text) :
    PatchStage url patch guard later (next (.error fault)) := by
  cases stage with
  | reading hasConditions =>
      rw [patchGuarded_eq_call hasConditions] at isCall
      cases isCall
      exact .over _ trivial
  | asking mapping deletions insertions isMapped removes adds =>
      cases isCall
      exact .over _ trivial
  | updating mapping deletions insertions before isMapped removes adds =>
      cases isCall
      exact .over _ trivial
  | «over» program finished =>
      rw [isCall] at finished
      exact finished.elim

/-- The patch makes its next call. -/
theorem PatchStage.perform
    {world : World} {program : ResourceProgram PatchResult}
    (stage :
      PatchStage url patch guard
        (patch.MapsOnly (world.graphs (graphIri url))) program)
    {call : Call} {next : Except Text call.Reply → ResourceProgram PatchResult}
    (isCall : program = .call call next) :
    PatchStage url patch guard
      (patch.MapsOnly
        ((backend.perform world call).2.graphs (graphIri url)))
      (next (backend.perform world call).1) := by
  cases stage with
  | reading hasConditions =>
      rw [patchGuarded_eq_call hasConditions] at isCall
      cases isCall
      exact patchStage_readStage world
  | asking mapping deletions insertions isMapped removes adds =>
      cases isCall
      rw [backend_reply]
      cases (Call.askTemplate (graphIri url) deletions).answer world with
      | error message =>
          exact .over _ trivial
      | ok before =>
          exact .updating mapping deletions insertions before isMapped removes
            adds
  | updating mapping deletions insertions before isMapped removes adds =>
      cases isCall
      cases (backend.perform world
        (.modify (graphIri url) deletions insertions guard)).1 with
      | error message =>
          exact .over _ trivial
      | ok reply =>
          refine .over _ ?_
          change Program.Finished (if _ then _ else _)
          split
          · trivial
          · trivial
  | «over» program finished =>
      rw [isCall] at finished
      exact finished.elim

/-- The patch is between its query and its update. -/
def PatchPending
    (config : Config stores ResourceError PatchResult World) : Prop :=
  ∃ call next,
    config.pool[0]? = some (.call call next) ∧
      ∀ graph patterns, call ≠ .querySolutions graph patterns

/--
The turns that do no harm: between the query and the update of the patch, no
other run changes which mappings its conditions have.
-/
def KeepsMappings
    (url : Url) (patch : Patch)
    (config : Config stores ResourceError PatchResult World)
    (turn : Turn stores) : Prop :=
  turn.thread ≠ 0 → PatchPending config →
    ∀ mapping : Mapping,
      mapping.Solves patch.conditions
          ((config.advance backend turn).world.graphs (graphIri url)).triples ↔
        mapping.Solves patch.conditions
          (config.world.graphs (graphIri url)).triples

/-- The only mapping is the only one of every graph with the same mappings. -/
theorem Patch.MapsOnly.congr
    {first second : Graph GroundTriple} {mapping : Mapping}
    (only : patch.MapsOnly first mapping)
    (same :
      ∀ mapping : Mapping,
        mapping.Solves patch.conditions second.triples ↔
          mapping.Solves patch.conditions first.triples) :
    patch.MapsOnly second mapping where
  solves := (same mapping).mpr only.solves
  only other solves := only.only other ((same other).mp solves)

/-- A stage is kept by a step that keeps the mappings while it is pending. -/
theorem PatchStage.keep
    {world later : World} {program : ResourceProgram PatchResult}
    (stage :
      PatchStage url patch guard
        (patch.MapsOnly (world.graphs (graphIri url))) program)
    (same :
      ∀ call next, program = .call call next →
        (∀ graph patterns, call ≠ .querySolutions graph patterns) →
        ∀ mapping : Mapping,
          mapping.Solves patch.conditions
              (later.graphs (graphIri url)).triples ↔
            mapping.Solves patch.conditions
              (world.graphs (graphIri url)).triples) :
    PatchStage url patch guard
      (patch.MapsOnly (later.graphs (graphIri url))) program := by
  cases stage with
  | reading hasConditions =>
      exact .reading hasConditions
  | asking mapping deletions insertions isMapped removes adds =>
      refine .asking mapping deletions insertions ?_ removes adds
      exact isMapped.congr
        (same _ _ rfl fun graph patterns isQuery => by cases isQuery)
  | updating mapping deletions insertions before isMapped removes adds =>
      refine .updating mapping deletions insertions before ?_ removes adds
      exact isMapped.congr
        (same _ _ rfl fun graph patterns isQuery => by cases isQuery)
  | «over» program finished =>
      exact .over program finished

/-- The first program is a patch on its way, with a mapping that still holds. -/
def PatchOnItsWay
    (url : Url) (patch : Patch) (guard : Condition Text GroundTriple)
    (config : Config stores ResourceError PatchResult World) : Prop :=
  ∃ program,
    config.pool[0]? = some program ∧
      PatchStage url patch guard
        (patch.MapsOnly (config.world.graphs (graphIri url))) program

/-- A patch starts on its way. -/
theorem patchOnItsWay_start
    (world : World) (others : List (ResourceProgram PatchResult)) :
    PatchOnItsWay url patch guard
      (Config.start world (patchGuarded url patch guard :: others)) := by
  refine ⟨_, rfl, ?_⟩
  cases hasConditions : patch.conditions.isEmpty with
  | false =>
      exact .reading hasConditions
  | true =>
      unfold patchGuarded
      rw [if_pos hasConditions]
      apply patchStage_applyPatch
      rw [List.isEmpty_iff] at hasConditions
      refine ⟨?_, ?_⟩
      · rw [hasConditions]
        exact solves_nil.mpr rfl
      · intro other solves
        rw [hasConditions] at solves
        exact solves_nil.mp solves

/-- A turn that keeps the mappings keeps the patch on its way. -/
theorem PatchOnItsWay.advance
    {config : Config stores ResourceError PatchResult World}
    {turn : Turn stores}
    (onItsWay : PatchOnItsWay url patch guard config)
    (keeps : KeepsMappings url patch config turn) :
    PatchOnItsWay url patch guard (config.advance backend turn) := by
  obtain ⟨program, isProgram, stage⟩ := onItsWay
  have inPool : 0 < config.pool.length :=
    (List.getElem?_eq_some_iff.mp isProgram).1
  by_cases isPatch : turn.thread = 0
  · rcases Config.advance_cases backend turn config with
      same | ⟨call, next, found, ⟨fault, _, reached⟩ | ⟨_, reached⟩⟩
    · rw [same]
      exact ⟨program, isProgram, stage⟩
    · rw [isPatch, isProgram] at found
      rw [reached, isPatch]
      refine ⟨next (.error fault), by simp [inPool], ?_⟩
      exact stage.fault (Option.some.inj found) fault
    · rw [isPatch, isProgram] at found
      rw [reached, isPatch]
      refine ⟨next (backend.perform config.world call).1, by simp [inPool], ?_⟩
      exact stage.perform (Option.some.inj found)
  · have untouched :
        (config.advance backend turn).pool[0]? = some program :=
      (Config.advance_other backend isPatch).trans isProgram
    refine ⟨program, untouched, stage.keep ?_⟩
    intro call next isCall notQuery
    rw [isCall] at isProgram
    exact keeps isPatch ⟨call, next, isProgram, notQuery⟩

/-- A patch that changes the store is about to update. -/
theorem PatchStage.updates
    {world : World} {program : ResourceProgram PatchResult}
    (stage :
      PatchStage url patch guard
        (patch.MapsOnly (world.graphs (graphIri url))) program)
    {call : Call} {next : Except Text call.Reply → ResourceProgram PatchResult}
    (isCall : program = .call call next)
    (changes : (backend.perform world call).2 ≠ world) :
    ∃ deletions insertions,
      call = .modify (graphIri url) deletions insertions guard ∧
        RequirementsMet url patch world deletions insertions := by
  cases stage with
  | reading hasConditions =>
      rw [patchGuarded_eq_call hasConditions] at isCall
      cases isCall
      exact (changes rfl).elim
  | asking mapping deletions insertions isMapped removes adds =>
      cases isCall
      exact (changes rfl).elim
  | updating mapping deletions insertions before isMapped removes adds =>
      cases isCall
      exact ⟨deletions, insertions, rfl, mapping, isMapped, removes, adds,
        present_of_modify changes⟩
  | «over» program finished =>
      rw [isCall] at finished
      exact finished.elim

/--
In a run in which nobody changes the mappings of the patch under its hands, what
the patch requires holds in the state that it changes.
-/
theorem patch_requirements_met
    (url : Url) (patch : Patch) (guard : Condition Text GroundTriple)
    (world : World) (others : List (ResourceProgram PatchResult))
    (schedule : List (Turn stores)) (turn : Turn stores)
    (undisturbed :
      Config.Admits backend (KeepsMappings url patch) schedule
        (Config.start world (patchGuarded url patch guard :: others)))
    (isPatch : turn.thread = 0) :
    let reached :=
      Config.execute backend schedule
        (Config.start world (patchGuarded url patch guard :: others))
    (reached.advance backend turn).world ≠ reached.world →
      ∃ deletions insertions next,
        reached.pool[0]? =
            some (.call
              (.modify (graphIri url) deletions insertions guard) next) ∧
          RequirementsMet url patch reached.world deletions insertions := by
  intro reached changes
  have onItsWay : PatchOnItsWay url patch guard reached :=
    Config.execute_invariant backend
      (fun config turn onItsWay keeps => onItsWay.advance keeps)
      schedule _ undisturbed (patchOnItsWay_start world others)
  obtain ⟨program, isProgram, stage⟩ := onItsWay
  rcases Config.advance_cases backend turn reached with
    same | ⟨call, next, found, ⟨fault, _, isReached⟩ | ⟨_, isReached⟩⟩
  · rw [same] at changes
    exact (changes rfl).elim
  · rw [isReached] at changes
    exact (changes rfl).elim
  · rw [isReached] at changes
    rw [isPatch] at found
    rw [found] at isProgram
    obtain ⟨deletions, insertions, rfl, met⟩ :=
      stage.updates (Option.some.inj isProgram).symm changes
    exact ⟨deletions, insertions, next, found, met⟩

end Races

end Quadpod

namespace Quadpod.Reference

open AtomicProgram
open GraphStore

/-- The condition that something has the statement `'x'`. -/
def statesX : Pattern :=
  ⟨.var 0, .named plainPredicate, .literal (.simple "x".toList)⟩

/-- A patch that adds a statement to whatever has the statement `'x'`. -/
def addPatch : Patch where
  conditions := [statesX]
  deletions := []
  insertions :=
    [⟨.var 0, .named plainPredicate, .literal (.simple "y".toList)⟩]
  variableCount := 1

/-- A patch that takes the statement `'x'` away. -/
def dropPatch : Patch where
  conditions := [statesX]
  deletions := [statesX]
  insertions := []
  variableCount := 1

/-- The two patches at once on `/note`. -/
def patchRace : Config stores ResourceError PatchResult World :=
  Config.start notedWorld
    (patchGuarded note addPatch [] :: [patchGuarded note dropPatch []])

/-- The other patch reads, and then the first one runs. -/
def readBefore : List (Turn stores) := [⟨1, none⟩, ⟨0, none⟩]

theorem patchRace_changes :
    ((Config.execute backend readBefore patchRace).advance
      backend ⟨0, none⟩).world ≠
    (Config.execute backend readBefore patchRace).world := by
  intro same
  have changed :
      (((Config.execute backend readBefore patchRace).advance
        backend ⟨0, none⟩).world.graphs (graphIri note)).triples.length ≠
      ((Config.execute backend readBefore
        patchRace).world.graphs (graphIri note)).triples.length := by
    decide +kernel
  apply changed
  rw [same]

/-- A query of the other patch before the first one does no harm. -/
theorem addPatch_requirements_met :
    ∃ deletions insertions next,
      (Config.execute backend readBefore patchRace).pool[0]? =
          some (.call
            (.modify (graphIri note) deletions insertions []) next) ∧
        RequirementsMet note addPatch
          (Config.execute backend readBefore patchRace).world
          deletions insertions := by
  refine patch_requirements_met note addPatch [] notedWorld
    [patchGuarded note dropPatch []] readBefore ⟨0, none⟩ ⟨?_, ?_, trivial⟩ rfl
    patchRace_changes
  · rintro _ ⟨call, next, isCall, notQuery⟩
    have isQuery := Option.some.inj isCall
    rw [patchGuarded_eq_call rfl] at isQuery
    cases isQuery
    exact (notQuery _ _ rfl).elim
  · intro isOther
    exact (isOther rfl).elim

/-- The other patch takes the statement away between query and update. -/
def dropBetween : List (Turn stores) :=
  [⟨0, none⟩, ⟨1, none⟩, ⟨1, none⟩, ⟨1, none⟩]

/-- The patch changes a graph in which its condition has no mapping. -/
theorem addPatch_requirements_unmet :
    Reachable podSpace .rdf12 (Provisioned podSpace) anyRequest notedWorld ∧
      ∃ reached : Config stores ResourceError PatchResult World,
        reached = Config.execute backend dropBetween patchRace ∧
        (reached.advance backend ⟨0, none⟩).world ≠ reached.world ∧
        ∀ deletions insertions,
          ¬ RequirementsMet note addPatch reached.world deletions
            insertions := by
  refine ⟨reachable_notedWorld, _, rfl, ?_, ?_⟩
  · intro same
    have changed :
        (((Config.execute backend dropBetween patchRace).advance
          backend ⟨0, none⟩).world.graphs (graphIri note)).triples.length ≠
        ((Config.execute backend dropBetween
          patchRace).world.graphs (graphIri note)).triples.length := by
      decide +kernel
    apply changed
    rw [same]
  · rintro deletions insertions ⟨mapping, only, _⟩
    obtain ⟨solution, member, _⟩ := solves_iff_mem_solutions.mp only.solves
    have none :
        solutionsFrom
          ((Config.execute backend dropBetween patchRace).world.graphs
            (graphIri note)).triples addPatch.conditions [] = [] := by
      decide +kernel
    rw [none] at member
    cases member

end Quadpod.Reference
