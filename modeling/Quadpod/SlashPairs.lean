import Quadpod.GuardWalk
import Quadpod.PodInvariants
import Quadpod.ReferencePod

namespace Quadpod

open AtomicProgram
open GraphStore

/-!
# Slash pairs

A resource and the container whose path only adds a slash never exist together.
Everything a request brings into existence was in the list of creations its walk
checked: no creation has a counterpart that exists, and no two creations are
counterparts of each other, because they are all on one chain.
-/

variable [IriSyntax] {space : StorageSpace} {mayFail : Prop}

/-! ## What a write brings into existence -/

theorem World.present_iff {world : World} {node : NamedNode} :
    world.present node = true ↔
      presenceMarker node ∈ world.graphs (sysGraphOf node.iri) := by
  simp [present]

theorem World.present_congr
    {world other : World} {node : NamedNode}
    (same :
      other.graphs (sysGraphOf node.iri) =
        world.graphs (sysGraphOf node.iri)) :
    other.present node = world.present node := by
  unfold present
  rw [same]

/-- The resource a storage write marks present. -/
def StorageWrite.marks : StorageWrite space → Option (ResourceUrl space)
  | .dataset url _ _ => some url
  | .blob url _ _ _ => some url
  | .container url _ => some url.resource
  | .patch (.container url) _ => some url.resource
  | _ => none

theorem ContainerUrl.Asserts.eq_of_sys
    {container : ContainerUrl space} {url : ResourceUrl space}
    {triple : GroundTriple}
    (asserts : container.Asserts (sysGraphOf url.iri) triple) :
    container.resource = url := by
  rcases asserts with ⟨isGraph, _⟩ | ⟨isGraph, _⟩
  · exact (not_isHttp_sysGraphOf _
      (isGraph ▸ container.resource.isHttp)).elim
  · exact ResourceUrl.iri_injective (sysGraphOf_injective isGraph).symm

/-- A write adds to no system graph of a resource but that of its target. -/
theorem StorageWrite.Adds.marks
    [Sha256]
    {write : StorageWrite space} {url : ResourceUrl space}
    {triple : GroundTriple}
    (adds : write.Adds (sysGraphOf url.iri) triple) :
    write.marks = some url := by
  have same :
      ∀ other : ResourceUrl space,
        sysGraphOf url.iri = sysGraphOf other.iri → some other = some url := by
    intro other isGraph
    rw [ResourceUrl.iri_injective (sysGraphOf_injective isGraph)]
  cases write with
  | dataset other body mediaType =>
      rcases adds with
          ⟨isGraph, _⟩ | ⟨shelf, inShelves, isGraph, _⟩ | ⟨isGraph, _⟩
      · exact (not_isHttp_sysGraphOf _ (isGraph ▸ other.isHttp)).elim
      · rw [Buckets.key_of_mem inShelves] at isGraph
        exact (shelfIri_ne_sysGraphOf _ _ _ isGraph.symm).elim
      · exact same other isGraph
  | blob other key bytes mediaType =>
      exact same other adds.1
  | container other triples =>
      rcases adds with ⟨isGraph, _⟩ | asserts
      · exact (not_isHttp_sysGraphOf _ (isGraph ▸ other.resource.isHttp)).elim
      · exact congrArg some asserts.eq_of_sys
  | auxiliary other triples =>
      rcases adds with ⟨isGraph, _⟩ | ⟨isGraph, _⟩
      · exact (not_isHttp_sysGraphOf _ (isGraph ▸ other.isHttp)).elim
      · exact (url.iri_ne_aux other (sysGraphOf_injective isGraph)).elim
  | patch target change =>
      rcases adds with ⟨isGraph, _⟩ | ⟨container, rfl, asserts⟩
      · exact (not_isHttp_sysGraphOf _ (isGraph ▸ target.isHttp)).elim
      · exact congrArg some asserts.eq_of_sys
  | deleteAuxiliary other =>
      exact adds.elim
  | deleteSubject other =>
      exact adds.elim
  | nothing =>
      exact adds.elim

/-- What a plan brings into existence is a container of the plan. -/
theorem present_of_plan
    {world reached : World} {url : ResourceUrl space}
    {plan : List (ContainerUrl space × Option NamedNode)}
    (performs : backend.Performs mayFail world (planCalls plan) reached)
    (isPresent : reached.present url.node = true) :
    world.present url.node = true ∨
      ∃ step ∈ plan, step.1.resource = url := by
  rw [World.present_iff] at isPresent ⊢
  rcases Performs.mem_graphs performs isPresent with
      old | ⟨call, member, isAdded⟩
  · exact Or.inl old
  · obtain ⟨step, inPlan, rfl | ⟨child, _, rfl⟩⟩ := mem_planCalls.mp member
    · exact Or.inr ⟨step, inPlan, (adds_ensureCall isAdded).eq_of_sys⟩
    · refine Or.inr ⟨step, inPlan, ?_⟩
      rcases adds_linkCall isAdded with ⟨isGraph, _⟩ | ⟨isGraph, _⟩
      · exact (not_isHttp_sysGraphOf _
          (isGraph ▸ step.1.resource.isHttp)).elim
      · exact ResourceUrl.iri_injective (sysGraphOf_injective isGraph).symm

/-- What a storage write brings into existence is what it marks. -/
theorem present_of_write
    [Sha256] [ObjectPath]
    {world reached : World} {url : ResourceUrl space}
    {write : StorageWrite space}
    (performs :
      backend.Performs mayFail world (write.calls world) reached)
    (isPresent : reached.present url.node = true) :
    world.present url.node = true ∨ write.marks = some url := by
  rw [World.present_iff] at isPresent ⊢
  rcases Performs.mem_graphs performs isPresent with
      old | ⟨call, member, isAdded⟩
  · exact Or.inl old
  · exact Or.inr (StorageWrite.calls_add member isAdded).marks

/-! ## What a request brings into existence -/

theorem BodyWrite.marks
    [ObjectPath]
    {fresh : Nat → Uuid} {kept : List Triple} {repr : Repr}
    {target : Target space} {write : StorageWrite space}
    {url : ResourceUrl space}
    (isWrite : BodyWrite fresh kept repr target write) :
    write.marks = some url ↔
      target.isAux = false ∧ target.subject = url := by
  cases isWrite <;>
    simp [StorageWrite.marks, Target.isAux, Target.subject]

theorem PatchWrite.marks
    {fresh : Nat → Uuid} {triples : List Triple}
    {target : Target space} {write : StorageWrite space}
    {url : ResourceUrl space}
    (isWrite : PatchWrite fresh triples target write) :
    write.marks = some url ↔
      target.isAux = false ∧ target.subject = url := by
  cases isWrite <;>
    simp [StorageWrite.marks, Target.isAux, Target.subject]

/-- What a staged write brings into existence is a creation of its walk. -/
theorem Materializes.present_of_staged
    [Sha256] [ObjectPath]
    {world reached : World} {agent : Agent} {target : Target space}
    {walk : Guard.Walk space}
    {admits : World → StorageWrite space → Prop}
    {url : ResourceUrl space}
    (materializes : Materializes world agent target walk)
    (staged : Staged mayFail world walk.plan admits reached)
    (marks :
      ∀ started write url,
        admits started write →
        write.marks = some url →
        target.isAux = false ∧ target.subject = url)
    (isPresent : reached.present url.node = true) :
    world.present url.node = true ∨ url ∈ walk.creations := by
  have planned :
      ∀ middle,
        backend.Performs mayFail world (planCalls walk.plan) middle →
        middle.present url.node = true →
        world.present url.node = true ∨ url ∈ walk.creations := by
    intro middle performs isThere
    rcases present_of_plan performs isThere with old | ⟨step, inPlan, rfl⟩
    · exact Or.inl old
    · exact materializes.settled step inPlan
  rcases staged with ⟨_, performs⟩ | ⟨write, admitted, performs⟩
  · exact planned reached performs isPresent
  · rcases present_of_write performs isPresent with early | isMarked
    · exact planned _ (backend.performs_all world _) early
    · obtain ⟨notAux, rfl⟩ := marks _ write url admitted isMarked
      rcases materializes.targetSettled notAux with old | isCreated
      · rw [Target.node_eq_subject notAux] at old
        exact Or.inl old
      · exact Or.inr isCreated

/--
Everything a request brings into existence was created by a walk that was
checked on the world the request found.
-/
theorem RequestEffect.exists_creations
    [Sha256] [ObjectPath] [RdfParser] [N3Parser]
    {storeVersion : RdfVersion} {world reached : World} {request : Request}
    {target : Target space}
    (effect :
      RequestEffect mayFail storeVersion world request target reached) :
    (∀ url : ResourceUrl space,
        reached.present url.node = true → world.present url.node = true) ∨
      ∃ (on : Target space) (walk : Guard.Walk space),
        Materializes world request.agent on walk ∧
          ∀ url : ResourceUrl space,
            reached.present url.node = true →
            world.present url.node = true ∨ url ∈ walk.creations := by
  have deleted :
      ∀ write : StorageWrite space,
        write.marks = none →
        backend.Performs mayFail world (write.calls world) reached →
        ∀ url : ResourceUrl space,
          reached.present url.node = true → world.present url.node = true := by
    intro write noMark performs url isPresent
    rcases present_of_write performs isPresent with old | isMarked
    · exact old
    · rw [noMark] at isMarked
      cases isMarked
  cases effect with
  | unchanged =>
      exact Or.inl fun _ isPresent => isPresent
  | @put _ decision walk isPut authorized walked staged =>
      refine Or.inr ⟨target, walk, World.materializes walked, ?_⟩
      intro url isPresent
      refine (World.materializes walked).present_of_staged staged ?_ isPresent
      rintro started write url ⟨repr, _, isWrite⟩ marks
      exact isWrite.marks.mp marks
  | @post _ decision walk parent child isPost onContainer authorized allocated
        walked staged =>
      refine Or.inr ⟨child, walk, World.materializes walked, ?_⟩
      intro url isPresent
      refine (World.materializes walked).present_of_staged staged ?_ isPresent
      rintro started write url ⟨repr, _, isWrite⟩ marks
      exact isWrite.marks.mp marks
  | @patch decision patch change _ isPatch authorized parsed granted
        targetPresent contained changes performs =>
      refine Or.inl fun url isPresent => ?_
      rcases present_of_write performs isPresent with old | isMarked
      · exact old
      · cases target with
        | container container =>
            cases isMarked
            exact targetPresent
        | resource other leaf =>
            cases isMarked
        | aux other =>
            cases isMarked
  | @create decision patch triples walk _ isPatch authorized parsed granted
        absent contained ground walked staged =>
      refine Or.inr ⟨target, walk, World.materializes walked, ?_⟩
      intro url isPresent
      refine (World.materializes walked).present_of_staged staged ?_ isPresent
      intro started write url isWrite marks
      exact isWrite.marks.mp marks
  | deleteAux _ _ _ performs =>
      exact Or.inl (deleted _ rfl performs)
  | deleteSubject _ _ _ _ _ _ performs =>
      exact Or.inl (deleted _ rfl performs)

/-! ## The invariant -/

/-- No resource and container differ only in the final slash. -/
def World.NoSlashPair (world : World) (space : StorageSpace) : Prop :=
  ∀ leaf container : ResourceUrl space,
    container.path = leaf.path ++ ['/'] →
    ¬ (world.present leaf.node = true ∧
      world.present container.node = true)

/-- A chain holds no two halves of a pair. -/
theorem ResourceUrl.chain_unpaired
    {url leaf container : ResourceUrl space}
    (pair : container.path = leaf.path ++ ['/'])
    (leafInChain : leaf ∈ url.chain)
    (containerInChain : container ∈ url.chain) :
    False := by
  have noSlash : ¬ ['/'] <:+ leaf.path := by
    have addressable := container.addressable
    rw [pair] at addressable
    exact addressable.not_endsWith_of_slash
  have isUrl : leaf = url := by
    rcases List.mem_cons.mp leafInChain with same | isAncestor
    · exact same
    · obtain ⟨ancestor, _, rfl⟩ := List.mem_map.mp isAncestor
      exact (noSlash (Text.endsWith_iff.mp ancestor.slash)).elim
  subst isUrl
  rcases List.mem_cons.mp containerInChain with same | isAncestor
  · rw [same] at pair
    have lengths := congrArg List.length pair
    simp at lengths
  · obtain ⟨ancestor, isAbove, rfl⟩ := List.mem_map.mp isAncestor
    have shorter := leaf.ancestors_length ancestor isAbove
    rw [pair, List.length_append, List.length_singleton] at shorter
    omega

theorem RequestEffect.noSlashPair
    [Sha256] [ObjectPath] [RdfParser] [N3Parser]
    {storeVersion : RdfVersion} {world reached : World} {request : Request}
    {target : Target space}
    (effect :
      RequestEffect mayFail storeVersion world request target reached)
    (unpaired : world.NoSlashPair space) :
    reached.NoSlashPair space := by
  rintro leaf container pair ⟨leafPresent, containerPresent⟩
  rcases effect.exists_creations with
      onlyOld | ⟨on, walk, materializes, isCreation⟩
  · exact unpaired leaf container pair
      ⟨onlyOld leaf leafPresent, onlyOld container containerPresent⟩
  · have leafPair : leaf.slashCounterpart = some container :=
      ResourceUrl.slashCounterpart_eq_some.mpr (Or.inl pair)
    have containerPair := ResourceUrl.slashCounterpart_symm leafPair
    rcases isCreation leaf leafPresent with leafOld | leafNew
    · rcases isCreation container containerPresent with old | new
      · exact unpaired leaf container pair ⟨leafOld, old⟩
      · have absent :=
          materializes.unpaired container new leaf containerPair
        rw [leafOld] at absent
        cases absent
    · rcases isCreation container containerPresent with old | new
      · have absent := materializes.unpaired leaf leafNew container leafPair
        rw [old] at absent
        cases absent
      · exact ResourceUrl.chain_unpaired pair
          (materializes.created leaf leafNew).1
          (materializes.created container new).1

section Reachable

variable [Sha256] [ObjectPath] [QuadText]
variable [RdfParser] [RdfSerializer] [ShapeEngine] [N3Parser]
variable {storeVersion : RdfVersion}

omit [QuadText] [RdfSerializer] [ShapeEngine] [N3Parser] in
/-- Provisioning marks the root, which is no half of a pair. -/
theorem Provisioned.present_root
    {world : World} (provisioned : Provisioned space world)
    {url : ResourceUrl space}
    (isPresent : world.present url.node = true) :
    url = space.root.resource := by
  refine provisioned.invariant
    (fun world => world.present url.node = true → url = space.root.resource)
    ?_ ?_ isPresent
  · intro impossible
    rw [World.present_iff] at impossible
    cases impossible
  · rintro world call (rfl | ⟨fresh, triples, _, member⟩) before isThere
    · rw [World.present_iff] at isThere
      rcases mem_perform isThere with old | isAdded
      · exact before (World.present_iff.mpr old)
      · exact (adds_ensureCall isAdded).eq_of_sys.symm
    · rw [World.present_iff] at isThere
      rcases mem_perform isThere with old | isAdded
      · exact before (World.present_iff.mpr old)
      · have marks := (StorageWrite.calls_add member isAdded).marks
        cases marks

theorem Reachable.noSlashPair
    {admitted : World → Request → Faults → Prop} {world : World}
    (reachable :
      Reachable space storeVersion (Provisioned space) admitted world) :
    world.NoSlashPair space := by
  refine reachable.invariant (·.NoSlashPair space) ?_ ?_
  · rintro world provisioned leaf container pair ⟨_, containerPresent⟩
    have isRoot := provisioned.present_root containerPresent
    subst isRoot
    have paths : ['/'] = leaf.path ++ ['/'] := pair
    obtain ⟨rest, rooted⟩ := leaf.path_eq_cons
    rw [rooted] at paths
    simp at paths
  · intro world request faults unpaired _
    rcases afterRequest_cases True (Or.inl trivial) with
        same | ⟨target, _, effect⟩
    · rw [same]
      exact unpaired
    · exact effect.noSlashPair unpaired

/--
In every world a provisioned pod reaches, whatever requests were made and
whatever store calls failed on the way, no resource exists beside the container
whose path only adds a slash.
-/
theorem no_slash_pair_reachable
    {world : World}
    (reachable :
      Reachable space storeVersion (Provisioned space) anyRequest world)
    (leaf container : ResourceUrl space)
    (pair : container.path = leaf.path ++ ['/']) :
    ¬ (world.present leaf.node = true ∧
      world.present container.node = true) :=
  reachable.noSlashPair leaf container pair

end Reachable

end Quadpod

namespace Quadpod.Reference

/-- The note exists, so no container exists beside it. -/
theorem no_slash_pair_note :
    notedWorld.present note.node = true ∧
      ¬ (notedWorld.present note.node = true ∧
        notedWorld.present noteFolder.node = true) :=
  ⟨by decide +kernel,
    no_slash_pair_reachable reachable_notedWorld note noteFolder (by decide)⟩

end Quadpod.Reference
