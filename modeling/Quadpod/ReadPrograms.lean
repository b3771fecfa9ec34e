import Quadpod.HttpWrite

namespace Quadpod

open AtomicProgram

/-!
# Programs that only read

Every handler reads and checks before its first write.  Here each of those
programs is shown to issue queries only, so that a run of it, whatever fails on
the way, leaves both stores as they were.
-/

variable [IriSyntax] {space : StorageSpace} {mayFail : Prop}

/-- A program of the two stores that changes neither. -/
abbrev ReadsOnly {ε α : Type} (program : StoreProgram ε α) : Prop :=
  Program.Uses Call.Reads program

/-- What follows a reading program starts in the same world. -/
theorem ReadsOnly.ensures_bind
    {ε α β : Type}
    {program : StoreProgram ε α}
    {next : α → StoreProgram ε β}
    {world : World}
    {post : Except ε β → World → Prop}
    (reads : ReadsOnly program)
    (continues :
      ∀ value, Program.Ensures backend mayFail (next value) world post)
    (stops : ∀ error, post (.error error) world) :
    Program.Ensures backend mayFail (program >>= next) world post := by
  have unchanged :
      Program.Ensures backend mayFail program world
        fun _ reached => reached = world :=
    Program.Uses.ensures reads (fun _ isRead => isRead.perform) world
  refine unchanged.bind ?_ ?_
  · rintro value reached rfl
    exact continues value
  · rintro error reached rfl
    exact stops error

/-! ## Reading the triple store -/

/-- A query of the triple store. -/
def Call.ReadsGraphs (call : Call) : Prop :=
  call.Reads ∧ ∀ key, call ≠ .blobGet key

/-- A program that only queries the triple store. -/
abbrev ReadsGraphs {ε α : Type} (program : StoreProgram ε α) : Prop :=
  Program.Uses Call.ReadsGraphs program

theorem ReadsGraphs.readsOnly
    {ε α : Type} {program : StoreProgram ε α} (reads : ReadsGraphs program) :
    ReadsOnly program :=
  Program.Uses.obeys reads fun _ isRead => isRead.1

/-- A query is answered from the graphs. -/
theorem Call.ReadsGraphs.answer_congr
    {call : Call} {world other : World}
    (reads : call.ReadsGraphs) (same : other.graphs = world.graphs) :
    call.answer other = call.answer world := by
  cases call with
  | blobGet key =>
      exact (reads.2 key rfl).elim
  | update operations =>
      rfl
  | modify graph deletions insertions guard =>
      rfl
  | blobPut key bytes =>
      rfl
  | blobDelete key =>
      rfl
  | _ =>
      simp only [Call.answer, same]

/-- What a program reads from the graphs does not depend on the objects. -/
theorem ReadsGraphs.eval_congr
    {ε α : Type} {program : StoreProgram ε α} {world other : World}
    (reads : ReadsGraphs program) (same : other.graphs = world.graphs) :
    (Program.eval backend program other).1 =
      (Program.eval backend program world).1 := by
  induction program with
  | done value =>
      rfl
  | fail error =>
      rfl
  | call call next inductionHypothesis =>
      obtain ⟨isRead, continues⟩ := reads
      simp only [Program.eval, isRead.1.perform, backend_reply]
      rw [isRead.answer_congr same]
      exact inductionHypothesis _ (continues _ trivial)

/-- A program that only reads ends in the world it found. -/
theorem ReadsOnly.eval_world
    {ε α : Type} {program : StoreProgram ε α}
    (reads : ReadsOnly program) (world : World) :
    (Program.eval backend program world).2 = world := by
  induction program with
  | done value =>
      rfl
  | fail error =>
      rfl
  | call call next inductionHypothesis =>
      obtain ⟨isRead, continues⟩ := reads
      simp only [Program.eval, isRead.perform]
      exact inductionHypothesis _ (continues _ trivial)

/-! ## Storage -/

section Storage

variable {Url : Type} [GraphUrl Url]

theorem readsGraphs_exists (url : Url) : ReadsGraphs (exists? url) :=
  StoreProgram.uses_issue ⟨⟨rfl, fun _ => rfl⟩, fun _ isGet => by cases isGet⟩

theorem readsOnly_exists (url : Url) : ReadsOnly (exists? url) :=
  (readsGraphs_exists url).readsOnly

theorem readsOnly_existsMany (nodes : List NamedNode) :
    ReadsOnly (existsMany nodes) := by
  unfold existsMany
  split
  · exact Program.uses_done _
  · exact (StoreProgram.uses_issue ⟨rfl, fun _ => rfl⟩).bind
      fun rows => Program.uses_done _

theorem readsGraphs_queryTriples
    {ε : Type} (translate : StoreError → ε) (graph : Text)
    (subject predicate : Option NamedNode) :
    ReadsGraphs
      (StoreProgram.issue translate
        (.queryTriples graph subject predicate)) :=
  StoreProgram.uses_issue ⟨⟨rfl, fun _ => rfl⟩, fun _ isGet => by cases isGet⟩

theorem readsOnly_queryTriples
    {ε : Type} (translate : StoreError → ε) (graph : Text)
    (subject predicate : Option NamedNode) :
    ReadsOnly
      (StoreProgram.issue translate
        (.queryTriples graph subject predicate)) :=
  (readsGraphs_queryTriples _ _ _ _).readsOnly

theorem readsOnly_getRdf (url : Url) : ReadsOnly (getRdf url) := by
  refine (readsOnly_exists url).bind fun present => ?_
  split
  · exact (readsOnly_queryTriples _ _ _ _).bind
      fun triples => Program.uses_done _
  · exact Program.uses_done _

end Storage

theorem readsGraphs_registeredShelves (resource : ResourceUrl space) :
    ReadsGraphs (registeredShelves resource) :=
  (readsGraphs_queryTriples _ _ _ _).bind fun _ => Program.uses_done _

theorem readsOnly_registeredShelves (resource : ResourceUrl space) :
    ReadsOnly (registeredShelves resource) :=
  (readsGraphs_registeredShelves resource).readsOnly

theorem readsGraphs_storedMediaType (resource : ResourceUrl space) :
    ReadsGraphs (storedMediaType resource) :=
  (readsGraphs_queryTriples _ _ _ _).bind fun _ => Program.uses_done _

theorem readsGraphs_kindOf (resource : ResourceUrl space) :
    ReadsGraphs (kindOf resource) := by
  refine (readsGraphs_exists resource).bind fun present => ?_
  split
  · refine (StoreProgram.uses_issue
      ⟨⟨rfl, fun _ => rfl⟩, fun _ isGet => by cases isGet⟩).bind
        fun binary => ?_
    split
    · refine (readsGraphs_storedMediaType resource).bind fun mediaType => ?_
      split
      · exact Program.uses_done _
      · exact Program.uses_fail _
    · exact Program.uses_done _
  · exact Program.uses_done _

theorem readsOnly_kindOf (resource : ResourceUrl space) :
    ReadsOnly (kindOf resource) :=
  (readsGraphs_kindOf resource).readsOnly

theorem readsGraphs_shelfQuads
    (resource : ResourceUrl space) (keys : List ShelfKey) :
    ReadsGraphs (shelfQuads resource keys) := by
  induction keys with
  | nil =>
      exact Program.uses_done _
  | cons key rest inductionHypothesis =>
      refine (readsGraphs_queryTriples _ _ _ _).bind fun names => ?_
      split
      · exact Program.uses_fail _
      · exact (readsGraphs_queryTriples _ _ _ _).bind fun triples =>
          Program.Uses.bind inductionHypothesis
            fun others => Program.uses_done _

theorem readsGraphs_getDataset (resource : ResourceUrl space) :
    ReadsGraphs (getDataset resource) := by
  refine (readsGraphs_exists resource).bind fun present => ?_
  split
  · refine (readsGraphs_queryTriples _ _ _ _).bind fun triples => ?_
    refine (readsGraphs_registeredShelves resource).bind fun keys => ?_
    refine (readsGraphs_shelfQuads resource keys).bind fun shelved => ?_
    dsimp only
    split
    · exact Program.uses_done _
    · exact Program.uses_fail _
  · exact Program.uses_done _

theorem readsOnly_getDataset (resource : ResourceUrl space) :
    ReadsOnly (getDataset resource) :=
  (readsGraphs_getDataset resource).readsOnly

theorem readsOnly_containerIsEmpty (container : ContainerUrl space) :
    ReadsOnly (containerIsEmpty container) :=
  (readsOnly_queryTriples _ _ _ _).bind fun _ => Program.uses_done _

/-! ## Checks of the handlers -/

theorem readsOnly_loadChainAcls
    (chain : List (ResourceUrl space)) (present : List Text) :
    ReadsOnly (loadChainAcls chain present) := by
  unfold loadChainAcls
  dsimp only
  split
  · exact Program.uses_done _
  · exact (StoreProgram.uses_issue ⟨rfl, fun _ => rfl⟩).bind
      fun rows => Program.uses_done _

theorem readsOnly_probe (agent : Agent) (target : Target space) :
    ReadsOnly (Guard.probe agent target) :=
  Program.Uses.mapError ((readsOnly_existsMany _).bind
    fun _ => (readsOnly_loadChainAcls _ _).bind fun _ => Program.uses_done _)

section Shapes

variable [QuadText] [RdfParser] [RdfSerializer]

omit [RdfParser] in
theorem readsOnly_loadShape (container : ContainerUrl space) :
    ReadsOnly (loadShape container) := by
  refine (readsOnly_queryTriples _ _ _ _).bind fun triples => ?_
  refine (Program.uses_ofExcept _).bind fun binding => ?_
  split
  · exact Program.uses_done _
  · refine (Program.uses_ofExcept _).bind fun url => ?_
    refine (readsOnly_kindOf url).mapError.bind fun kind => ?_
    split
    · exact Program.uses_fail _
    · exact Program.uses_fail _
    · refine (readsOnly_getRdf url).mapError.bind fun stored => ?_
      split
      · exact Program.uses_fail _
      · exact (Program.uses_ofExcept _).bind fun shape => Program.uses_done _

theorem readsOnly_enforceShape [ShapeEngine]
    (target : Target space) (dataset : Dataset) :
    ReadsOnly (enforceShape target dataset) := by
  unfold enforceShape
  split
  · exact Program.uses_done _
  · refine (readsOnly_loadShape _).mapError.bind fun shape => ?_
    split
    · exact Program.uses_done _
    · refine (Program.uses_ofExcept _).bind fun report => ?_
      split
      · exact Program.uses_fail _
      · exact Program.uses_done _

omit [RdfParser] in
theorem readsOnly_patchShapeConflict (target : Target space) :
    ReadsOnly (patchShapeConflict target) := by
  unfold patchShapeConflict
  split
  · exact Program.uses_done _
  · refine (readsOnly_loadShape _).mapError.bind fun shape => ?_
    split
    · exact Program.uses_done _
    · exact Program.uses_fail _

end Shapes

section Conditionals

variable [Sha256] [QuadText] [ObjectPath]

theorem readsOnly_currentTags (target : Target space) :
    ReadsOnly (currentTags target) := by
  unfold currentTags
  split
  · refine (readsOnly_kindOf _).bind fun kind => ?_
    split
    · split
      · exact Program.uses_done _
      · exact (StoreProgram.uses_issue ⟨rfl, fun _ => rfl⟩).bind
          fun stored => Program.uses_done _
    · exact (readsOnly_getDataset _).bind fun stored => Program.uses_done _
  · refine (readsOnly_getRdf _).bind fun stored => ?_
    split
    · exact Program.uses_done _
    · split
      · exact Program.uses_done _
      · exact Program.uses_fail _

theorem readsOnly_checkConditionals
    (headers : HeaderMap) (target : Target space) :
    ReadsOnly (checkConditionals headers target) := by
  unfold checkConditionals
  split
  · exact Program.uses_done _
  · refine (readsOnly_currentTags target).mapError.bind fun current => ?_
    dsimp only
    split
    · exact Program.uses_fail _
    · split
      · exact Program.uses_fail _
      · exact Program.uses_done _

end Conditionals

theorem readsOnly_checkExisting
    (target : Target space) (format : Format) (declared : RdfVersion) :
    ReadsOnly (checkExisting target format declared) := by
  unfold checkExisting
  split
  · refine (readsOnly_getDataset _).mapError.bind fun existing => ?_
    dsimp only
    split
    · exact Program.uses_fail _
    · split
      · exact Program.uses_done _
      · refine (readsOnly_getDataset _).mapError.bind fun stored => ?_
        split
        · exact Program.uses_done _
        · split
          · exact Program.uses_fail _
          · exact Program.uses_done _
  · exact Program.uses_done _

theorem readsOnly_refuseBinary (target : Target space) :
    ReadsOnly (refuseBinary target) := by
  unfold refuseBinary
  split
  · refine (readsOnly_kindOf _).mapError.bind fun kind => ?_
    split
    · exact Program.uses_fail _
    · exact Program.uses_done _
  · exact Program.uses_done _

end Quadpod
