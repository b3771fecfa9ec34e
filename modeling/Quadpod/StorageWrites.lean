import Quadpod.NearestAcl
import Quadpod.ReadPrograms

namespace Quadpod

open AtomicProgram
open GraphStore

/-!
# What the storage operations write

Each operation of `resource.rs`, `container.rs` and `aux.rs` that writes reads
what it needs and then issues a fixed list of writing calls.  `StorageWrite`
names these lists, and every operation is shown to perform one of them: all of
it, or a part from the front when a call fails.
-/

variable [IriSyntax] {space : StorageSpace} {mayFail : Prop}

/-! ## The lists -/

/-- The shelves the registry of a resource lists. -/
def World.registered (world : World) (resource : ResourceUrl space) :
    List ShelfKey :=
  (objectNodes (((world.graphs (sysGraphIri resource)).triples.filter
    fun triple =>
      (some resource.node).all (· = triple.subject) &&
        (some sysHasSubgraph).all (· = triple.predicate)).map
          GroundTriple.toTriple)).map ShelfKey.fromRegistry

/-- The call of `ensure_container`. -/
def ensureCall (container : ContainerUrl space) : Call :=
  .update
    [.insertData
      [(graphIri container,
        (containerTypes container).map GroundQuad.toTriple)],
      markPresent container]

/-- The call of `add_containment`. -/
def linkCall (parent : ContainerUrl space) (child : NamedNode) : Call :=
  .update
    [.insertData [(graphIri parent, [containmentTriple parent child])],
      markPresent parent]

/-- The calls of `materialize`. -/
def planCalls (plan : List (ContainerUrl space × Option NamedNode)) :
    List Call :=
  plan.flatMap fun (ancestor, child) =>
    ensureCall ancestor :: child.toList.map (linkCall ancestor)

/-- The call that deletes the object of a resource, if it can have one. -/
def deleteBlobCalls [ObjectPath] (resource : ResourceUrl space) : List Call :=
  (BlobKey.of resource).toList.map Call.blobDelete

/-- The condition a patch carries: that of an auxiliary on its subject. -/
def Target.patchGuard : Target space → Condition Text GroundTriple
  | .aux url => subjectPresentGuard url
  | _ => []

/-- One write of the storage layer. -/
inductive StorageWrite (space : StorageSpace) where
  | dataset
      (url : ResourceUrl space) (dataset : Skolemized) (mediaType : Text)
  | blob
      (url : ResourceUrl space) (key : BlobKey) (bytes : Bytes)
      (mediaType : MediaType)
  | container (url : ContainerUrl space) (triples : List GroundTriple)
  | auxiliary (url : AuxUrl space) (triples : List GroundTriple)
  | patch
      (target : Target space)
      (change : Option (List TemplateTriple × List TemplateTriple))
  | deleteAuxiliary (url : AuxUrl space)
  | deleteSubject (url : ResourceUrl space)
  | nothing

/-- The call that changes a graph by a patch. -/
def modifyCall (target : Target space)
    (change : List TemplateTriple × List TemplateTriple) : Call :=
  .modify (graphIri target) change.1 change.2 target.patchGuard

/-- The calls a write performs, in the world it starts in. -/
def StorageWrite.calls [Sha256] [ObjectPath] (world : World) :
    StorageWrite space → List Call
  | .dataset url body mediaType =>
      .update
          (putDatasetUpdate url (world.registered url)
            (Buckets.of url body) mediaType) ::
        deleteBlobCalls url
  | .blob url key bytes mediaType =>
      [.blobPut key bytes,
        .update (putBlobUpdate url (world.registered url) mediaType)]
  | .container url triples =>
      [.update
          [.drop (graphIri url), .insertData [(graphIri url, triples)],
            markPresent url],
        ensureCall url]
  | .auxiliary url triples =>
      [.update
        [.clearWhere (graphIri url) (subjectPresentGuard url),
          .insertWhere
            [(graphIri url, triples),
              (sysGraphIri url, [presenceMarker url.node])]
            (subjectPresentGuard url)]]
  | .patch target change =>
      change.toList.map (modifyCall target) ++
        match target with
        | .container url => [ensureCall url]
        | _ => []
  | .deleteAuxiliary url =>
      [.update [.drop (graphIri url), .drop (sysGraphIri url)]]
  | .deleteSubject url =>
      .update (deleteSubjectUpdate url (world.registered url)) ::
        deleteBlobCalls url
  | .nothing => []

/-! ## How a run ends -/

/--
A run performed a list of calls: all of them if it succeeded, and otherwise a
part from the front, because a call failed.
-/
structure Carries {ε α : Type}
    (mayFail : Prop) (world : World) (calls : List Call)
    (result : Except ε α) (reached : World) : Prop where
  performs : backend.Performs mayFail world calls reached
  complete :
    ∀ value, result = .ok value → reached = backend.after world calls
  failed : ∀ error, result = .error error → mayFail

theorem Carries.all {ε α : Type}
    (world : World) (calls : List Call) (value : α) :
    Carries mayFail world calls (.ok value : Except ε α)
      (backend.after world calls) where
  performs := backend.performs_all world calls
  complete := fun _ _ => rfl
  failed := by
    intro _ impossible
    cases impossible

theorem Carries.stopped {ε α : Type} {world reached : World}
    {calls : List Call}
    (error : ε)
    (fails : mayFail)
    (performs : backend.Performs mayFail world calls reached) :
    Carries mayFail world calls (.error error : Except ε α) reached where
  performs := performs
  complete := by
    intro _ impossible
    cases impossible
  failed := fun _ _ => fails

theorem ensures_carries_done {ε α : Type} (value : α) (world : World) :
    Program.Ensures backend mayFail (.done value : StoreProgram ε α) world
      (Carries mayFail world []) :=
  Program.ensures_done (Carries.all world [] value)

/-- Sequencing appends the calls. -/
theorem ensures_carries_bind
    {ε α β : Type}
    {program : StoreProgram ε α}
    {next : α → StoreProgram ε β}
    {world : World}
    {first second : List Call}
    (carried :
      Program.Ensures backend mayFail program world
        (Carries mayFail world first))
    (continues :
      ∀ value,
        Program.Ensures backend mayFail (next value)
          (backend.after world first)
          (Carries mayFail (backend.after world first) second)) :
    Program.Ensures backend mayFail (program >>= next) world
      (Carries mayFail world (first ++ second)) := by
  refine carried.bind ?_ ?_
  · intro value reached carries
    obtain rfl := carries.complete value rfl
    refine (continues value).mono fun result final follows => ?_
    refine ⟨follows.performs.append, ?_, follows.failed⟩
    intro final succeeds
    rw [follows.complete final succeeds, Machine.after_append]
  · intro error reached carries
    have fails := carries.failed error rfl
    exact Carries.stopped error fails
      (carries.performs.extend fails second)

theorem ensures_carries_mapError
    {ε ε' α : Type}
    {program : StoreProgram ε α}
    {world : World}
    {calls : List Call}
    (translate : ε → ε')
    (carried :
      Program.Ensures backend mayFail program world
        (Carries mayFail world calls)) :
    Program.Ensures backend mayFail (program.mapError translate) world
      (Carries mayFail world calls) := by
  refine Program.Ensures.mapError (carried.mono ?_)
  intro result reached carries
  cases result with
  | ok value =>
      obtain rfl := carries.complete value rfl
      exact Carries.all world calls value
  | error error =>
      exact Carries.stopped _ (carries.failed error rfl) carries.performs

/-! ## Single calls -/

/-- A read the backend answers: the reply, in the same world. -/
theorem ensures_read_bind
    {ε α : Type}
    {translate : StoreError → ε}
    {call : Call}
    {next : call.Reply → StoreProgram ε α}
    {world : World}
    {post : Except ε α → World → Prop}
    {reply : call.Reply}
    (reads : call.Reads)
    (answered : call.answer world = .ok reply)
    (continues : Program.Ensures backend mayFail (next reply) world post)
    (stops :
      mayFail →
      ∀ message, post (.error (translate (.backend message))) world) :
    Program.Ensures backend mayFail
      (StoreProgram.issue translate call >>= next) world post := by
  refine StoreProgram.ensures_issue_bind ?_ ?_ stops
  · intro value isReply
    rw [answered, Except.ok.injEq] at isReply
    rw [← isReply, reads.perform]
    exact continues
  · intro message isError
    rw [answered] at isError
    cases isError

/-- A write the backend answers. -/
theorem ensures_write
    {ε : Type}
    {translate : StoreError → ε}
    {call : Call}
    {world : World}
    {reply : call.Reply}
    (answered : call.answer world = .ok reply) :
    Program.Ensures backend mayFail (StoreProgram.issue translate call) world
      (Carries mayFail world [call]) := by
  refine Program.ensures_call ?_ ?_
  · rw [backend_reply, answered]
    exact Program.ensures_done (Carries.all world [call] reply)
  · intro fails message
    exact Program.ensures_fail
      (Carries.stopped _ fails (backend.performs_none world _ fails))

/-! ## The operations -/

section Operations

variable (mayFail : Prop)

theorem ensures_ensureContainer
    (container : ContainerUrl space) (world : World) :
    Program.Ensures backend mayFail (ensureContainer container) world
      (Carries mayFail world [ensureCall container]) :=
  ensures_write rfl

theorem ensures_addContainment
    (parent : ContainerUrl space) (child : NamedNode) (world : World) :
    Program.Ensures backend mayFail (addContainment parent child) world
      (Carries mayFail world [linkCall parent child]) :=
  ensures_write rfl

/-- The writes of `materialize` are those of its plan. -/
theorem ensures_performPlan
    (plan : List (ContainerUrl space × Option NamedNode)) (world : World) :
    Program.Ensures backend mayFail (performPlan plan) world
      (Carries mayFail world (planCalls plan)) := by
  induction plan generalizing world with
  | nil =>
      exact ensures_carries_done [] world
  | cons step rest inductionHypothesis =>
      obtain ⟨ancestor, child⟩ := step
      have ensured :=
        ensures_carries_mapError Denial.store
          (ensures_ensureContainer mayFail ancestor world)
      cases child with
      | none =>
          exact ensures_carries_bind ensured fun _ => inductionHypothesis _
      | some child =>
          have linked :=
            ensures_carries_mapError Denial.store
              (ensures_addContainment mayFail ancestor child
                (backend.after world [ensureCall ancestor]))
          have performed :
              planCalls ((ancestor, some child) :: rest) =
                [ensureCall ancestor] ++ ([linkCall ancestor child] ++
                  (planCalls rest ++ [])) := by
            simp [planCalls]
          rw [performed]
          exact ensures_carries_bind ensured fun _ =>
            ensures_carries_bind linked fun _ =>
              ensures_carries_bind (inductionHypothesis _) fun links =>
                ensures_carries_done ((ancestor, child) :: links) _

/-- Reading the registry. -/
theorem ensures_registeredShelves_bind
    {α : Type}
    {resource : ResourceUrl space}
    {next : List ShelfKey → ResourceProgram α}
    {world : World}
    {calls : List Call}
    (continues :
      Program.Ensures backend mayFail (next (world.registered resource)) world
        (Carries mayFail world calls)) :
    Program.Ensures backend mayFail (registeredShelves resource >>= next)
      world (Carries mayFail world calls) := by
  have read :
      Program.Ensures backend mayFail (registeredShelves resource) world
        fun result reached =>
          reached = world ∧
            (result = .ok (world.registered resource) ∨
              (mayFail ∧ ∃ error, result = .error error)) := by
    refine ensures_read_bind ⟨rfl, fun _ => rfl⟩ rfl ?_ ?_
    · exact Program.ensures_done ⟨rfl, Or.inl rfl⟩
    · intro fails message
      exact ⟨rfl, Or.inr ⟨fails, _, rfl⟩⟩
  refine read.bind ?_ ?_
  · rintro keys reached ⟨rfl, isRead⟩
    obtain rfl : keys = reached.registered resource := by
      simpa using isRead
    exact continues
  · rintro error reached ⟨rfl, isRead⟩
    have fails : mayFail := by
      rcases isRead with impossible | ⟨fails, _⟩
      · cases impossible
      · exact fails
    exact Carries.stopped _ fails (backend.performs_none reached _ fails)

theorem ensures_deleteBlob [ObjectPath]
    (resource : ResourceUrl space) (world : World) :
    Program.Ensures backend mayFail (deleteBlob resource) world
      (Carries mayFail world (deleteBlobCalls resource)) := by
  unfold deleteBlob deleteBlobCalls
  cases BlobKey.of resource with
  | none =>
      exact ensures_carries_done () world
  | some key =>
      exact ensures_write rfl

theorem ensures_putDataset [Sha256] [ObjectPath]
    (url : ResourceUrl space) (dataset : Skolemized) (format : Format)
    (world : World) :
    Program.Ensures backend mayFail (putDataset url dataset format) world
      (Carries mayFail world
        ((StorageWrite.dataset url dataset format.mediaType).calls world)) := by
  refine ensures_registeredShelves_bind mayFail ?_
  rw [if_pos (by simp)]
  exact ensures_carries_bind (ensures_write rfl)
    fun _ => ensures_deleteBlob mayFail url _

theorem ensures_putBlob [Sha256] [ObjectPath]
    {url : ResourceUrl space} {key : BlobKey}
    (keyed : BlobKey.of url = some key)
    (bytes : Bytes) (mediaType : MediaType) (world : World) :
    Program.Ensures backend mayFail (putBlob url bytes mediaType) world
      (Carries mayFail world
        ((StorageWrite.blob url key bytes mediaType).calls world)) := by
  unfold putBlob
  rw [keyed]
  refine ensures_registeredShelves_bind mayFail ?_
  exact ensures_carries_bind (ensures_write rfl) fun _ => ensures_write rfl

theorem ensures_writeContainer [Sha256] [ObjectPath]
    (fresh : Nat → Uuid) (container : ContainerUrl space)
    (triples : List Triple) (world : World) :
    Program.Ensures backend mayFail
      (writeContainer fresh container triples) world
      (Carries mayFail world
        ((StorageWrite.container container
          (skolemizedTriples fresh triples)).calls world)) :=
  ensures_carries_bind (ensures_write rfl)
    fun _ => ensures_ensureContainer mayFail container _

/-- A cascade: everything of a subject goes in one update. -/
theorem ensures_deleteSubject [Sha256] [ObjectPath]
    (url : ResourceUrl space) (world : World) :
    Program.Ensures backend mayFail (deleteSubject url) world
      (Carries mayFail world
        ((StorageWrite.deleteSubject url).calls world)) := by
  refine ensures_read_bind ⟨rfl, fun _ => rfl⟩ rfl ?_ ?_
  · refine ensures_registeredShelves_bind mayFail ?_
    have followed :=
      ensures_carries_bind (ensures_deleteBlob mayFail url
        (backend.after world
          [.update (deleteSubjectUpdate url (world.registered url))]))
        fun _ =>
          ensures_carries_done
            (world.graphs.satisfies
              [(sysGraphIri url, presenceMarker url.node)]) _
    rw [List.append_nil] at followed
    exact ensures_carries_bind (ensures_write rfl) fun _ => followed
  · intro fails message
    exact Carries.stopped _ fails (backend.performs_none world _ fails)

theorem ensures_deleteRdf [Sha256] [ObjectPath]
    (url : AuxUrl space) (world : World) :
    Program.Ensures backend mayFail (deleteRdf url) world
      (Carries mayFail world
        ((StorageWrite.deleteAuxiliary url).calls world)) := by
  refine ensures_read_bind ⟨rfl, fun _ => rfl⟩ rfl ?_ ?_
  · exact ensures_carries_bind (ensures_write rfl)
      fun _ => ensures_carries_done _ _
  · intro fails message
    exact Carries.stopped _ fails (backend.performs_none world _ fails)

/-- A write of an auxiliary: one conditional update, unless it is too large. -/
theorem ensures_auxPut [Sha256] [ObjectPath]
    (fresh : Nat → Uuid) (url : AuxUrl space) (triples : List Triple)
    (world : World) :
    Program.Ensures backend mayFail (auxPut fresh url triples) world
      fun _ reached =>
        if triples.length > maxAuxTriples then
          reached = world
        else
          backend.Performs mayFail world
            ((StorageWrite.auxiliary url
              (skolemizedTriples fresh triples)).calls world) reached := by
  unfold auxPut
  split
  · exact Program.ensures_fail rfl
  · refine (ensures_write rfl).bind ?_ ?_
    · intro _ reached carries
      obtain rfl := carries.complete _ rfl
      refine ReadsOnly.ensures_bind (readsOnly_exists url).mapError ?_ ?_
      · intro isPresent
        cases isPresent with
        | true =>
            exact Program.ensures_done (backend.performs_all world _)
        | false =>
            exact Program.ensures_fail (backend.performs_all world _)
      · intro error
        exact backend.performs_all world _
    · intro error reached carries
      exact carries.performs

end Operations

/-! ## Patches -/

/-- The solutions a patch goes on with: the only one, or none to look for. -/
inductive PatchBindings (graph : List GroundTriple) (patch : Patch) :
    List Solution → Prop where
  | unconditional (noConditions : patch.conditions = []) :
      PatchBindings graph patch []
  | only (solution : Solution)
      (isOnly :
        (solutionsFrom graph patch.conditions []).take 2 = [solution]) :
      PatchBindings graph patch [solution]

theorem PatchBindings.solves
    {graph : List GroundTriple} {patch : Patch} {bindings : List Solution}
    (found : PatchBindings graph patch bindings) :
    ∀ solution ∈ bindings,
      solution ∈ solutionsFrom graph patch.conditions [] := by
  cases found with
  | unconditional noConditions =>
      intro solution inNone
      cases inNone
  | only solution isOnly =>
      intro other isSolution
      rw [List.mem_singleton.mp isSolution]
      refine List.mem_of_mem_take (i := 2) ?_
      rw [isOnly]
      exact List.mem_singleton.mpr rfl

/--
The ground triples a patch takes out and puts in: its own with the one solution
of its conditions substituted, or as they are when it has no conditions.
-/
structure PatchChange
    (world : World) (graph : Text) (patch : Patch)
    (change : List TemplateTriple × List TemplateTriple) : Prop where
  substituted :
    ∃ bindings : List Solution,
      PatchBindings (world.graphs graph).triples patch bindings ∧
        substitute patch.deletions bindings = .ok change.1 ∧
        substitute patch.insertions bindings = .ok change.2

/-- A patch the store refuses to parse changes nothing. -/
theorem perform_modify_of_refused
    {graph : Text} {deletions insertions : List TemplateTriple}
    {guard : Condition Text GroundTriple} {world : World} {message : Text}
    (refused :
      (Call.modify graph deletions insertions guard).answer world =
        .error message) :
    (backend.perform world
      (.modify graph deletions insertions guard)).2 = world := by
  have unparsed :
      ¬ (deletions ++ insertions).all TemplateTriple.parses = true := by
    intro parses
    rw [Call.answer, if_pos parses] at refused
    cases refused
  refine Call.Reads.perform ⟨?_, fun _ => rfl⟩ world
  rw [Call.operations, if_neg unparsed]

section Patches

variable {Url : Type} [GraphUrl Url]

/-- What `patch_guarded` leaves: the same world, or one modification of it. -/
def Patched
    (url : Url) (patch : Patch) (guard : Condition Text GroundTriple)
    (world : World)
    (result : Except ResourceError PatchResult) (reached : World) : Prop :=
  reached = world ∨
    ∃ outcome change,
      result = .ok outcome ∧
        PatchChange world (graphIri url) patch change ∧
        reached =
          (backend.perform world
            (.modify (graphIri url) change.1 change.2 guard)).2

theorem ensures_applyPatch
    (url : Url) (patch : Patch) (guard : Condition Text GroundTriple)
    (world : World) {bindings : List Solution}
    (found :
      PatchBindings (world.graphs (graphIri url)).triples patch bindings) :
    Program.Ensures backend mayFail (applyPatch url patch guard bindings)
      world (Patched url patch guard world) := by
  refine Program.ensures_ofExcept_bind ?_ fun _ _ => Or.inl rfl
  intro deletions deleted
  refine Program.ensures_ofExcept_bind ?_ fun _ _ => Or.inl rfl
  intro insertions inserted
  have change : PatchChange world (graphIri url) patch (deletions, insertions) :=
    ⟨bindings, found, deleted, inserted⟩
  have modified :
      ∀ before : Bool,
        Program.Ensures backend mayFail
          (do
            StoreProgram.issue .store
              (.modify (graphIri url) deletions insertions guard)
            if !deletions.isEmpty && !before then
              pure .deletionMissing
            else
              pure .applied : ResourceProgram PatchResult)
          world (Patched url patch guard world) := by
    intro before
    refine StoreProgram.ensures_issue_bind ?_ ?_ ?_
    · intro _ _
      split
      · exact Program.ensures_done (Or.inr ⟨_, _, rfl, change, rfl⟩)
      · exact Program.ensures_done (Or.inr ⟨_, _, rfl, change, rfl⟩)
    · intro message refused
      exact Or.inl (perform_modify_of_refused refused)
    · intro _ _
      exact Or.inl rfl
  split
  · exact Program.ensures_done (Or.inl rfl)
  · dsimp only
    split
    · exact modified false
    · refine ReadsOnly.ensures_bind
        (StoreProgram.uses_issue ⟨rfl, fun _ => rfl⟩) modified ?_
      intro _
      exact Or.inl rfl

theorem ensures_patchGuarded
    (url : Url) (patch : Patch) (guard : Condition Text GroundTriple)
    (world : World) :
    Program.Ensures backend mayFail (patchGuarded url patch guard) world
      (Patched url patch guard world) := by
  unfold patchGuarded
  split
  · next noConditions =>
      exact ensures_applyPatch url patch guard world
        (.unconditional (List.isEmpty_iff.mp noConditions))
  · refine ensures_read_bind ⟨rfl, fun _ => rfl⟩ rfl ?_ fun _ _ => Or.inl rfl
    split
    · exact Program.ensures_done (Or.inl rfl)
    · next solution found =>
        exact ensures_applyPatch url patch guard world (.only solution found)
    · exact Program.ensures_done (Or.inl rfl)

end Patches

end Quadpod
