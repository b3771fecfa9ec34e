import Quadpod.ContainmentCoherence
import Quadpod.DatasetStore
import Quadpod.ServedRepresentations

namespace Quadpod

open AtomicProgram GraphStore

/-!
# What an accepted PUT leaves behind

A `PUT` of RDF that is answered with success passed every check in the world it
found, and then stored its quads: a resource holds exactly them, and the graph
of an auxiliary or a container exactly their triples, a container's next to its
types and the members it had.
-/

variable [IriSyntax] [Sha256] [ObjectPath] [QuadText]
variable [RdfParser] [RdfSerializer] [ShapeEngine]
variable {space : StorageSpace} {storeVersion : RdfVersion}

omit [Sha256] [ObjectPath] [QuadText] [RdfParser] [RdfSerializer]
  [ShapeEngine] in
theorem isSuccess_withFindings
    (target : Target space) (findings : Option Report)
    (response : Response) :
    (withFindings target findings response).isSuccess =
      response.isSuccess := by
  unfold withFindings
  split
  · unfold Response.reportLink
    split <;> rfl
  · rfl

/-! ## The write of an accepted body -/

/-- The storage write of an RDF body, after the plan was performed. -/
def Target.bodyWrite
    (target : Target space) (started : World) (fresh : Nat → Uuid)
    (dataset : Dataset) (format : Format) : StorageWrite space :=
  match target with
  | .resource url _ =>
      .dataset url (Skolemized.skolemize fresh dataset) format.mediaType
  | .container url =>
      .container url
        (skolemizedTriples fresh
          (dataset.defaultGraphOnly.triplesOf ++ started.keptMembers target))
  | .aux url =>
      .auxiliary url
        (skolemizedTriples fresh dataset.defaultGraphOnly.triplesOf)

/-- What is known of a world an RDF body was accepted in. -/
structure Accepted
    (agent : Agent) (target : Target space) (draws : Draws)
    (dataset : Dataset) (format : Format) (declared : RdfVersion)
    (world after : World) : Prop where
  checked : checkBody target dataset = .ok ()
  existing :
    (Program.eval backend (checkExisting target format declared) world).1 =
      .ok ()
  written :
    ∃ walk,
      (world.guard agent target).authorizeWalk = .ok walk ∧
        after =
          backend.after (backend.after world (planCalls walk.plan))
            ((target.bodyWrite (backend.after world (planCalls walk.plan))
              draws.blank dataset format).calls
                (backend.after world (planCalls walk.plan)))

omit [Sha256] [ObjectPath] [QuadText] [RdfParser] [RdfSerializer]
  [ShapeEngine] in
/-- A guard that materialized performed its whole plan. -/
theorem eval_materializeFor_eq_ok
    {guard : Guard space} {target : Target space} {world reached : World}
    {materialized : Materialized space}
    (succeeds :
      Program.eval backend (materializeFor guard target) world =
        (.ok materialized, reached)) :
    ∃ walk,
      guard.authorizeWalk = .ok walk ∧
        reached = backend.after world (planCalls walk.plan) := by
  have ensures :
      Program.Ensures backend False
        (materializeFor guard target >>= fun value => .done value) world
        fun result reached =>
          ∀ value,
            result = .ok value →
            ∃ walk,
              guard.authorizeWalk = .ok walk ∧
                reached = backend.after world (planCalls walk.plan) := by
    refine ensures_materializeFor_bind ?_ ?_ ?_
    · intro walk value walked
      exact Program.ensures_done fun _ _ => ⟨walk, walked, rfl⟩
    · intro _ _ _ _ impossible
      exact impossible.elim
    · intro response value impossible
      cases impossible
  have holds := ensures.eval
  rw [Program.eval_bind_ok succeeds] at holds
  exact holds materialized rfl

section Written

variable {fresh : Nat → Uuid} {dataset : Dataset} {format : Format}
variable {started after : World} {response : Response}

omit [QuadText] [RdfParser] [RdfSerializer] [ShapeEngine] in
theorem eval_putDataset_after
    {url : ResourceUrl space}
    {leaf : Text.endsWith ['/'] url.path = false}
    (isWritten :
      Program.eval backend
          (respond (.resource url leaf)
            (putDataset url (Skolemized.skolemize fresh dataset) format))
          started =
        (.ok response, after)) :
    after =
      backend.after started
        (((Target.resource url leaf).bodyWrite started fresh dataset
          format).calls started) := by
  have ensured :
      Program.Ensures backend False
        (respond (.resource url leaf)
          (putDataset url (Skolemized.skolemize fresh dataset) format))
        started fun _ reached =>
          backend.Performs False started
            (((Target.resource url leaf).bodyWrite started fresh dataset
              format).calls started) reached :=
    ensures_respond (ensures_putDataset False url _ format started)
  have performs := ensured.eval
  rw [isWritten] at performs
  exact performs.eq_after not_false

omit [QuadText] [RdfParser] [RdfSerializer] [ShapeEngine] in
theorem eval_putContainer_after
    {url : ContainerUrl space}
    (isWritten :
      Program.eval backend
          (putContainer fresh (.container url) url
            dataset.defaultGraphOnly.triplesOf) started =
        (.ok response, after)) :
    after =
      backend.after started
        (((Target.container url).bodyWrite started fresh dataset
          format).calls started) := by
  have ensured :
      Program.Ensures backend False
        (putContainer fresh (.container url) url
          dataset.defaultGraphOnly.triplesOf)
        started fun _ reached =>
          backend.Performs False started
            (((Target.container url).bodyWrite started fresh dataset
              format).calls started) reached :=
    ensures_putContainer fresh (.container url) url _
  have performs := ensured.eval
  rw [isWritten] at performs
  exact performs.eq_after not_false

omit [QuadText] [RdfParser] [RdfSerializer] [ShapeEngine] in
theorem eval_putAux_after
    {url : AuxUrl space}
    (isWritten :
      Program.eval backend
          (putAux fresh (.aux url) url dataset.defaultGraphOnly.triplesOf)
          started =
        (.ok response, after))
    (isSuccess : response.isSuccess = true) :
    after =
      backend.after started
        (((Target.aux url).bodyWrite started fresh dataset format).calls
          started) := by
  have ensured :
      Program.Ensures backend False
        (putAux fresh (.aux url) url dataset.defaultGraphOnly.triplesOf)
        started fun _ reached =>
          if dataset.defaultGraphOnly.triplesOf.length > maxAuxTriples then
            reached = started
          else
            backend.Performs False started
              (((Target.aux url).bodyWrite started fresh dataset
                format).calls started) reached :=
    ensures_putAux fresh (.aux url) url _
  have performs := ensured.eval
  rw [isWritten] at performs
  split at performs
  · next large =>
      unfold putAux auxPut at isWritten
      rw [if_pos large] at isWritten
      cases isWritten
      cases isSuccess
  · exact performs.eq_after not_false

end Written

/-- A `PUT` that comes to an end classified its body. -/
theorem putWrite_classified
    {agent : Agent} {target : Target space} {headers : HeaderMap}
    {body : Bytes} {draws : Draws} {world after : World}
    {answer : Response}
    (succeeds :
      Program.eval backend
          (putWrite storeVersion agent target headers body draws) world =
        (.ok answer, after)) :
    ∃ repr,
      classifyBody headers body target storeVersion = .ok repr ∧
        Program.eval backend
            (match repr with
            | .blob bytes mediaType =>
                putBlobRepr (world.guard agent target) target headers bytes
                  mediaType
            | .rdf dataset format declared =>
                putRdfRepr (world.guard agent target) target headers
                  draws.blank dataset format declared) world =
          (.ok answer, after) := by
  have probed := eval_probeFor world agent target
  unfold putWrite at succeeds
  rw [Program.eval_bind_ok probed] at succeeds
  obtain ⟨decision, grantedWorld, isGranted, succeeds⟩ :=
    Program.eval_bind_eq_ok succeeds
  rw [orDeny, Program.eval_ofExcept] at isGranted
  have sameGranted : world = grantedWorld := congrArg Prod.snd isGranted
  rw [← sameGranted] at succeeds
  obtain ⟨repr, classifiedWorld, isClassified, succeeds⟩ :=
    Program.eval_bind_eq_ok succeeds
  rw [Program.eval_ofExcept] at isClassified
  have sameClassified : world = classifiedWorld :=
    congrArg Prod.snd isClassified
  rw [← sameClassified] at succeeds
  refine ⟨repr, congrArg Prod.fst isClassified, ?_⟩
  cases repr with
  | blob bytes mediaType =>
      exact succeeds
  | rdf dataset format declared =>
      exact succeeds

/-- A `PUT` of RDF that is answered with success was accepted. -/
theorem putWrite_accepted
    {agent : Agent} {target : Target space} {headers : HeaderMap}
    {body : Bytes} {draws : Draws} {world after : World}
    {answer : Response} {dataset : Dataset} {format : Format}
    {declared : RdfVersion}
    (classified :
      classifyBody headers body target storeVersion =
        .ok (.rdf dataset format declared))
    (succeeds :
      Program.eval backend
          (putWrite storeVersion agent target headers body draws) world =
        (.ok answer, after))
    (isSuccess : answer.isSuccess = true) :
    Accepted agent target draws dataset format declared world after := by
  obtain ⟨repr, isRepr, succeeds⟩ := putWrite_classified succeeds
  cases classified.symm.trans isRepr
  dsimp only at succeeds
  unfold putRdfRepr at succeeds
  obtain ⟨_, checkedWorld, isChecked, succeeds⟩ :=
    Program.eval_bind_eq_ok succeeds
  rw [Program.eval_ofExcept] at isChecked
  have sameChecked : world = checkedWorld := congrArg Prod.snd isChecked
  rw [← sameChecked] at succeeds
  obtain ⟨_, existingWorld, isExisting, succeeds⟩ :=
    Program.eval_bind_eq_ok succeeds
  have sameExisting :=
    (readsOnly_checkExisting target format declared).eval_world world
  rw [isExisting] at sameExisting
  dsimp only at sameExisting
  rw [sameExisting] at succeeds
  obtain ⟨_, conditionalWorld, isConditional, succeeds⟩ :=
    Program.eval_bind_eq_ok succeeds
  have sameConditional :=
    (readsOnly_checkConditionals headers target).eval_world world
  rw [isConditional] at sameConditional
  dsimp only at sameConditional
  rw [sameConditional] at succeeds
  obtain ⟨findings, shapedWorld, isShaped, succeeds⟩ :=
    Program.eval_bind_eq_ok succeeds
  have sameShaped := (readsOnly_enforceShape target dataset).eval_world world
  rw [isShaped] at sameShaped
  dsimp only at sameShaped
  rw [sameShaped] at succeeds
  obtain ⟨materialized, started, isMaterialized, succeeds⟩ :=
    Program.eval_bind_eq_ok succeeds
  obtain ⟨walk, walked, rfl⟩ := eval_materializeFor_eq_ok isMaterialized
  refine ⟨congrArg Prod.fst isChecked, congrArg Prod.fst isExisting,
    walk, walked, ?_⟩
  cases target with
  | resource url leaf =>
      obtain ⟨response, reached, isWritten, succeeds⟩ :=
        Program.eval_bind_eq_ok succeeds
      cases succeeds
      exact eval_putDataset_after isWritten
  | container url =>
      obtain ⟨response, reached, isWritten, succeeds⟩ :=
        Program.eval_bind_eq_ok succeeds
      cases succeeds
      exact eval_putContainer_after isWritten
  | aux url =>
      obtain ⟨response, reached, isWritten, succeeds⟩ :=
        Program.eval_bind_eq_ok succeeds
      cases succeeds
      rw [isSuccess_withFindings] at isSuccess
      exact eval_putAux_after isWritten isSuccess

/-! ## What is stored afterwards -/

section Stored

variable {started : World}

omit [QuadText] [RdfParser] [RdfSerializer] [ShapeEngine] in
/-- A resource holds exactly the quads that were written. -/
theorem storedRdf_after_dataset
    (collisionFree : CollisionFree) (url : ResourceUrl space)
    (leaf : Text.endsWith ['/'] url.path = false) (body : Skolemized)
    (mediaType : Text) :
    ∃ returned,
      (backend.after started
          ((StorageWrite.dataset url body mediaType).calls
            started)).storedRdf (.resource url leaf) = some returned ∧
        ∀ quad, quad ∈ returned.quads ↔ quad ∈ body.quads := by
  have isWritten := graphs_after_dataset started url body mediaType
  obtain ⟨returned, isRead, members⟩ :=
    (holds_of_putDataset collisionFree isWritten).eval_getDataset
  refine ⟨returned, ?_, members⟩
  have notBinary :
      (backend.after started
        ((StorageWrite.dataset url body mediaType).calls started)).binary
          url = false :=
    not_binary_putDataset isWritten
  rw [World.storedRdf, notBinary, isRead]
  rfl

section Auxiliary

variable {url : AuxUrl space} {triples : List GroundTriple}

omit [QuadText] [RdfParser] [RdfSerializer] [ShapeEngine] in
/-- The conditional update of an auxiliary, when its subject exists. -/
theorem graphs_after_auxiliary
    (subjectPresent : started.present url.subject.node = true) :
    (backend.after started
        ((StorageWrite.auxiliary url triples).calls started)).graphs =
      Store.insertBlocks
        [(graphIri url, triples),
          (sysGraphIri url, [presenceMarker url.node])]
        (Function.update started.graphs (graphIri url) Graph.empty) := by
  have subjectElsewhere : sysGraphIri url.subject ≠ graphIri url := by
    intro same
    have isSystem : sysGraphOf url.subject.iri = url.iri := same
    exact not_isHttp_sysGraphOf url.subject.iri (isSystem ▸ url.isHttp)
  have guarded :
      started.graphs.satisfies (subjectPresentGuard url) = true := by
    rw [Store.satisfies_iff]
    intro entry isEntry
    obtain rfl := List.mem_singleton.mp isEntry
    exact World.present_iff.mp subjectPresent
  have stillGuarded :
      Store.satisfies
        (Function.update started.graphs (graphIri url) Graph.empty)
        (subjectPresentGuard url) = true := by
    rw [Store.satisfies_iff] at guarded ⊢
    intro entry isEntry
    obtain rfl := List.mem_singleton.mp isEntry
    rw [Function.update_of_ne subjectElsewhere]
    exact guarded _ isEntry
  rw [StorageWrite.calls, Machine.after_cons, Machine.after_nil,
    backend_graphs]
  simp only [Call.operations, Store.applyAll_cons, Store.applyAll_nil,
    Store.apply, guarded, stillGuarded, if_true]

omit [QuadText] [RdfParser] [RdfSerializer] [ShapeEngine] in
theorem present_after_auxiliary
    (subjectPresent : started.present url.subject.node = true) :
    (backend.after started
      ((StorageWrite.auxiliary url triples).calls started)).present
        url.node = true := by
  rw [World.present_iff, graphs_after_auxiliary subjectPresent,
    Store.mem_insertBlocks]
  exact Or.inr ⟨[presenceMarker url.node],
    List.mem_cons_of_mem _ (List.mem_singleton.mpr rfl), by simp⟩

omit [QuadText] [RdfParser] [RdfSerializer] [ShapeEngine] in
/-- The graph of a written auxiliary is what was written. -/
theorem mem_after_auxiliary
    (subjectPresent : started.present url.subject.node = true)
    {triple : GroundTriple} :
    triple ∈
        (backend.after started
          ((StorageWrite.auxiliary url triples).calls started)).graphs
            url.iri ↔
      triple ∈ triples := by
  have selfElsewhere : url.iri ≠ sysGraphIri url := by
    intro same
    have isSystem : IsHttp (sysGraphIri url) := same ▸ url.isHttp
    exact not_isHttp_sysGraphOf url.iri isSystem
  rw [graphs_after_auxiliary subjectPresent, Store.mem_insertBlocks]
  constructor
  · rintro (old | ⟨added, inBlocks, inAdded⟩)
    · have emptied :
          Function.update started.graphs (graphIri url) Graph.empty
              url.iri = Graph.empty :=
        Function.update_self _ _ _
      rw [emptied] at old
      cases old
    · simp only [List.mem_cons, Prod.mk.injEq, List.not_mem_nil,
        or_false] at inBlocks
      rcases inBlocks with ⟨_, rfl⟩ | ⟨isSystem, _⟩
      · exact inAdded
      · exact (selfElsewhere isSystem).elim
  · intro inTriples
    exact Or.inr ⟨triples, List.mem_cons_self, inTriples⟩

end Auxiliary

end Stored

end Quadpod
