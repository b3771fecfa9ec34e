import Quadpod.PatchesByValue
import Quadpod.StorageIntegrity

namespace Quadpod

open AtomicProgram
open GraphStore

/-!
# The server's calls on stores that keep values

What the server asserts of its own has no literal but the marker's and plain
strings, so each of its calls with canonical literals is one of its calls again.
Whatever its calls keep on stores that return terms as they were inserted, they
therefore keep on stores that return canonical literals.
-/

variable [IriSyntax] [LiteralForms] {space : StorageSpace}

/-! ## Datasets -/

/-- A quad with canonical literals. -/
def GroundQuad.canonical (quad : GroundQuad) : GroundQuad where
  subject := quad.subject
  predicate := quad.predicate
  object := quad.object.canonical
  graphName := quad.graphName

/-- A dataset with canonical literals. -/
def Skolemized.canonical (dataset : Skolemized) : Skolemized where
  quads := dataset.quads.map GroundQuad.canonical

/-- A shelf with canonical literals. -/
def Shelf.canonical (shelf : Shelf) : Shelf where
  key := shelf.key
  name := shelf.name
  triples := shelf.triples.map GroundTriple.canonical

/-- Buckets with canonical literals. -/
def Buckets.canonical (buckets : Buckets) : Buckets where
  defaultGraph := buckets.defaultGraph.map GroundTriple.canonical
  shelves := buckets.shelves.map Shelf.canonical

theorem addToShelf_canonical
    (key : ShelfKey) (name : NamedNode) (triple : GroundTriple)
    (shelves : List Shelf) :
    addToShelf key name triple.canonical (shelves.map Shelf.canonical) =
      (addToShelf key name triple shelves).map Shelf.canonical := by
  induction shelves with
  | nil =>
      rfl
  | cons shelf rest inductionHypothesis =>
      by_cases same : shelf.key = key
      · have sameCanonical : shelf.canonical.key = key := same
        rw [List.map_cons, addToShelf, addToShelf, if_pos same,
          if_pos sameCanonical, List.map_cons]
        simp [Shelf.canonical]
      · have differs : ¬ shelf.canonical.key = key := same
        rw [List.map_cons, addToShelf, addToShelf, if_neg same,
          if_neg differs, List.map_cons, inductionHypothesis]

section

variable [Sha256]

theorem Buckets.add_canonical
    (url : ResourceUrl space) (buckets : Buckets) (quad : GroundQuad) :
    buckets.canonical.add url quad.canonical =
      (buckets.add url quad).canonical := by
  obtain ⟨subject, predicate, object, graphName⟩ := quad
  cases graphName with
  | defaultGraph =>
      simp only [Buckets.add, GroundQuad.canonical, Buckets.canonical,
        List.map_append]
      rfl
  | namedNode name =>
      simp only [Buckets.add, GroundQuad.canonical, Buckets.canonical]
      exact congrArg (Buckets.mk _)
        (addToShelf_canonical _ name ⟨subject, predicate, object⟩ _)

/-- Splitting a dataset does not look at literals. -/
theorem Buckets.of_canonical
    (url : ResourceUrl space) (dataset : Skolemized) :
    Buckets.of url dataset.canonical =
      (Buckets.of url dataset).canonical := by
  have along :
      ∀ (quads : List GroundQuad) (buckets : Buckets),
        (quads.map GroundQuad.canonical).foldl (Buckets.add url)
            buckets.canonical =
          (quads.foldl (Buckets.add url) buckets).canonical := by
    intro quads
    induction quads with
    | nil =>
        intro buckets
        rfl
    | cons quad rest inductionHypothesis =>
        intro buckets
        rw [List.map_cons, List.foldl_cons, List.foldl_cons,
          Buckets.add_canonical, inductionHypothesis]
  exact along dataset.quads ⟨[], []⟩

end

/-! ## The updates -/

theorem canonical_registryOf
    (url : ResourceUrl space) (mediaType : Text) (shelves : List Shelf) :
    (registryOf url mediaType shelves).map GroundTriple.canonical =
      registryOf url mediaType (shelves.map Shelf.canonical) := by
  simp only [registryOf, List.map_cons, canonical_presenceMarker,
    canonical_simple, List.map_flatMap, List.flatMap_map]
  rfl

theorem canonical_putDatasetUpdate
    (url : ResourceUrl space) (registered : List ShelfKey)
    (buckets : Buckets) (mediaType : Text) :
    (putDatasetUpdate url registered buckets mediaType).map
        (Operation.map GroundTriple.canonical) =
      putDatasetUpdate url registered buckets.canonical mediaType := by
  simp [putDatasetUpdate, Operation.map, Buckets.canonical,
    canonical_registryOf, Function.comp_def, Shelf.canonical]

theorem canonical_putBlobUpdate
    (url : ResourceUrl space) (registered : List ShelfKey)
    (mediaType : MediaType) :
    (putBlobUpdate url registered mediaType).map
        (Operation.map GroundTriple.canonical) =
      putBlobUpdate url registered mediaType := by
  simp [putBlobUpdate, Operation.map, Function.comp_def]

theorem canonical_deleteSubjectUpdate
    (url : ResourceUrl space) (registered : List ShelfKey) :
    (deleteSubjectUpdate url registered).map
        (Operation.map GroundTriple.canonical) =
      deleteSubjectUpdate url registered := by
  cases parent : url.parent with
  | none =>
      simp [deleteSubjectUpdate, Operation.map, Function.comp_def, parent,
        List.map_flatMap]
  | some container =>
      simp [deleteSubjectUpdate, Operation.map, Function.comp_def, parent,
        List.map_flatMap, containmentRemoval, containmentTriple]

/-! ## Programs that read -/

/-- A program that only reads ends in the world it found. -/
theorem ReadsOnly.eval_byValue_world
    {ε α : Type} {program : StoreProgram ε α}
    (reads : ReadsOnly program) (world : World) :
    (Program.eval byValue program world).2 = world := by
  induction program with
  | done value =>
      rfl
  | fail error =>
      rfl
  | call call next inductionHypothesis =>
      obtain ⟨isRead, continues⟩ := reads
      simp only [Program.eval, byValue_world, isRead.canonical.perform]
      exact inductionHypothesis _ (continues _ trivial)

theorem canonicalOnly_exists {Url : Type} [GraphUrl Url] (url : Url) :
    CanonicalOnly (exists? url) :=
  StoreProgram.uses_issue (by simp [Call.canonical])

theorem canonicalOnly_getRdf {Url : Type} [GraphUrl Url] (url : Url) :
    CanonicalOnly (getRdf url) := by
  refine (canonicalOnly_exists url).bind fun present => ?_
  split
  · refine Program.Uses.bind (StoreProgram.uses_issue ?_)
      fun _ => Program.uses_done _
    rfl
  · exact Program.uses_done _

theorem canonicalOnly_probe (agent : Agent) (target : Target space) :
    CanonicalOnly (Guard.probe agent target) := by
  refine Program.Uses.mapError (Program.Uses.bind ?_ fun present =>
    Program.Uses.bind ?_ fun acls => Program.uses_done _)
  · unfold existsMany
    split
    · exact Program.uses_done _
    · refine Program.Uses.bind (StoreProgram.uses_issue ?_)
        fun _ => Program.uses_done _
      rfl
  · unfold loadChainAcls
    dsimp only
    split
    · exact Program.uses_done _
    · refine Program.Uses.bind (StoreProgram.uses_issue ?_)
        fun _ => Program.uses_done _
      rfl

theorem canonicalOnly_allocateChild
    (agent : Agent) (parent : ContainerUrl space) (headers : HeaderMap)
    (draws : Draws) :
    CanonicalOnly (allocateChild agent parent headers draws) := by
  refine (Program.uses_ofExcept _).bind fun child => ?_
  refine (canonicalOnly_probe agent child).mapError.bind fun guard => ?_
  split
  · refine (Program.uses_ofExcept _).bind fun retried => ?_
    exact (canonicalOnly_probe agent retried).mapError.bind
      fun again => Program.uses_done _
  · exact Program.uses_done _

/-! ## The list of calls -/

section Calls

variable [Sha256] [ObjectPath] {regime : Regime space}

omit [Sha256] [ObjectPath] in
theorem canonical_replaceContainerCall
    (container : ContainerUrl space) (triples : List GroundTriple) :
    (replaceContainerCall container triples).canonical =
      replaceContainerCall container
        (triples.map GroundTriple.canonical) := by
  simp [replaceContainerCall, Call.canonical, Operation.map, markPresent]

omit [Sha256] [ObjectPath] in
theorem canonical_ensureCall (container : ContainerUrl space) :
    (ensureCall container).canonical = ensureCall container := by
  simp [ensureCall, Call.canonical, Operation.map, markPresent,
    containerTypes, GroundQuad.toTriple]

/-- A call of the server is one with canonical literals as well. -/
theorem ServerCall.canonical
    {call : Call} (isCall : ServerCall regime call) :
    ServerCall regime call.canonical := by
  cases isCall with
  | read reads =>
      exact .read reads.canonical
  | putObject url leaf key bytes keyed =>
      exact .putObject url leaf key bytes keyed
  | deleteObject key =>
      exact .deleteObject key
  | putDataset url leaf registered shelves body format =>
      rw [Call.canonical, canonical_putDatasetUpdate, ← Buckets.of_canonical]
      exact .putDataset url leaf registered shelves body.canonical format
  | putBlob url leaf registered shelves mediaType =>
      rw [Call.canonical, canonical_putBlobUpdate]
      exact .putBlob url leaf registered shelves mediaType
  | deleteSubject url registered shelves may takes =>
      rw [Call.canonical, canonical_deleteSubjectUpdate]
      exact .deleteSubject url registered shelves may takes
  | patchResource url leaf deletions insertions =>
      exact .patchResource url leaf _ _
  | patchContainer container may deletions insertions unlisted =>
      refine .patchContainer container may _ _ ?_
      intro template member triple isTriple
      obtain ⟨original, inInsertions, rfl⟩ := List.mem_map.mp member
      rw [TemplateTriple.ground_canonical] at isTriple
      obtain ⟨source, isSource, rfl⟩ := Option.map_eq_some_iff.mp isTriple
      exact unlisted original inInsertions source isSource
  | patchAux aux may deletions insertions =>
      rw [Call.canonical, canonical_subjectPresentGuard]
      exact .patchAux aux may _ _
  | putAux aux may triples =>
      have same :
          (replaceAuxCall aux triples).canonical =
            replaceAuxCall aux (triples.map GroundTriple.canonical) := by
        simp [replaceAuxCall, Call.canonical, Operation.map,
          canonical_subjectPresentGuard]
      rw [same]
      exact .putAux aux may _
  | deleteAux aux may =>
      exact .deleteAux aux may
  | replaceContainer container may triples listed =>
      rw [canonical_replaceContainerCall]
      refine .replaceContainer container may _ ?_
      intro triple member isEntry
      obtain ⟨original, inTriples, rfl⟩ := List.mem_map.mp member
      obtain ⟨child, isChild, isEntryOf⟩ := listed original inTriples isEntry
      refine ⟨child, isChild, ?_⟩
      rw [isEntryOf]
      rfl
  | ensure container =>
      rw [canonical_ensureCall]
      exact .ensure container
  | link container child isChild =>
      have same :
          (linkCall container child.node).canonical =
            linkCall container child.node := by
        simp [linkCall, Call.canonical, Operation.map, markPresent,
          containmentTriple]
      rw [same]
      exact .link container child isChild

/-! ## One call -/

/-- Stores that keep values stay intact. -/
theorem World.Intact.performByValue
    {world : World} {call : Call} (intact : world.Intact space)
    (isCall : ServerCall regime call) :
    (byValue.perform world call).2.Intact space := by
  rw [byValue_world]
  exact intact.perform isCall.canonical

/-- What the server relies on about answers is true of them as well. -/
theorem World.Intact.answersByValue
    {world : World} (intact : world.Intact space) (call : Call) :
    RegistryAnswer space call (byValue.perform world call).1 ∧
      ListingAnswer space call (byValue.perform world call).1 := by
  cases call with
  | queryTriples graph subject predicate =>
      exact intact.answers (.queryTriples graph subject predicate)
  | _ =>
      exact ⟨trivial, trivial⟩

theorem sound_anyone :
    (serverRule (anyone space)).Sound byValue (·.Intact space) where
  keeps _ _ intact isCall := intact.performByValue isCall
  truthful _ call intact _ := intact.answersByValue call
  tolerant := answers_of_failed

/-- A program of the server's calls leaves the stores intact. -/
theorem World.Intact.runByValue
    {ε α : Type} {program : StoreProgram ε α} {world : World}
    (intact : world.Intact space)
    (scripted : Scripted (anyone space) program) (faults : Faults) :
    (Program.run byValue program faults world).world.Intact space := by
  have kept :
      Program.Ensures byValue True program world fun result reached =>
        reached.Intact space ∧ True :=
    Program.Obeys.ensures scripted sound_anyone intact
  exact (kept faults (Or.inl trivial)).1

end Calls

/-! ## The pod as a state machine -/

section Runs

variable [Sha256] [ObjectPath] [QuadText]
variable [RdfParser] [RdfSerializer] [ShapeEngine] [N3Parser]

/-- The world a request leaves on stores that keep values. -/
def afterRequestByValue
    (space : StorageSpace) (storeVersion : RdfVersion)
    (request : Request) (faults : Faults) (world : World) : World :=
  (Program.run byValue (handle space storeVersion request) faults world).world

/-- A world `main` starts to listen with on stores that keep values. -/
def ProvisionedByValue (space : StorageSpace) (world : World) : Prop :=
  ∃ (ownerWebId : NamedNode) (reset : Bool) (fresh : Nat → Uuid),
    Program.run byValue (provision space ownerWebId reset fresh) []
      World.empty = ⟨.ok (), world, []⟩

/-- The worlds a sequence of requests leads to on stores that keep values. -/
inductive ReachableByValue
    (space : StorageSpace) (storeVersion : RdfVersion)
    (start : World → Prop)
    (admitted : World → Request → Faults → Prop) : World → Prop where
  | start (world : World) (started : start world) :
      ReachableByValue space storeVersion start admitted world
  | request
      (world : World) (request : Request) (faults : Faults)
      (before : ReachableByValue space storeVersion start admitted world)
      (admits : admitted world request faults) :
      ReachableByValue space storeVersion start admitted
        (afterRequestByValue space storeVersion request faults world)

variable {storeVersion : RdfVersion} {world : World}

/-- What holds at the start and is kept by every admitted request. -/
theorem ReachableByValue.invariant
    {start : World → Prop}
    {admitted : World → Request → Faults → Prop}
    (reachable : ReachableByValue space storeVersion start admitted world)
    (invariant : World → Prop)
    (initially : ∀ world, start world → invariant world)
    (step :
      ∀ world request faults,
        invariant world →
        admitted world request faults →
        invariant
          (afterRequestByValue space storeVersion request faults world)) :
    invariant world := by
  induction reachable with
  | start world started =>
      exact initially world started
  | request world request faults before admits inductionHypothesis =>
      exact step world request faults inductionHypothesis admits

theorem World.Intact.afterRequestByValue
    (intact : world.Intact space) (request : Request) (faults : Faults) :
    (Quadpod.afterRequestByValue space storeVersion request faults
      world).Intact space :=
  intact.runByValue
    (scripted_handle lawful_anyone _ trivial
      (fun _ _ _ _ _ => trivial)
      fun _ => Regime.allocates_of_all (fun _ => trivial) _ _ _) faults

omit [QuadText] [RdfSerializer] [ShapeEngine] [N3Parser] in
theorem ProvisionedByValue.intact
    (provisioned : ProvisionedByValue space world) : world.Intact space := by
  obtain ⟨ownerWebId, reset, fresh, ran⟩ := provisioned
  have scripted :
      Scripted (anyone space) (provision space ownerWebId reset fresh) :=
    scripted_provision trivial ownerWebId reset fresh
  have intact := World.intact_empty.runByValue scripted []
  rw [ran] at intact
  exact intact

/-- The stores of every reachable world are intact. -/
theorem ReachableByValue.intact
    {admitted : World → Request → Faults → Prop}
    (reachable :
      ReachableByValue space storeVersion (ProvisionedByValue space) admitted
        world) :
    world.Intact space :=
  reachable.invariant (·.Intact space) (fun _ => ProvisionedByValue.intact)
    fun _ request faults intact _ =>
      intact.afterRequestByValue request faults

end Runs

end Quadpod
