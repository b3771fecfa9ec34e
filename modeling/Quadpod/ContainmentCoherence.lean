import Quadpod.Containment
import Quadpod.ReferencePod

namespace Quadpod

open AtomicProgram
open GraphStore

/-!
# Containment stays coherent

Every request whose store calls are all answered is a step of the hierarchy, so
existence and listings agree in every world such requests lead to.  The one
thing taken on trust is the UUID a `POST` retries with: a version 4 UUID that
was just drawn occurs in no URL that exists.
-/

variable [IriSyntax] {space : StorageSpace}

section Writes

variable [Sha256] [ObjectPath]

/-! ## What a request finds -/

omit [Sha256] [ObjectPath] in
theorem GroundTriple.toTriple_injective :
    Function.Injective (GroundTriple.toTriple : GroundTriple → Triple) := by
  rintro ⟨subject, predicate, object⟩ ⟨subject', predicate', object'⟩ same
  simp only [toTriple, Triple.mk.injEq, NamedOrBlankNode.namedNode.injEq]
    at same
  obtain ⟨rfl, rfl, sameTerm⟩ := same
  have sameObject := congrArg Skolemized.groundOf sameTerm
  rw [Skolemized.groundOf_toTerm, Skolemized.groundOf_toTerm,
    Option.some.injEq] at sameObject
  rw [sameObject]

variable {world : World} {agent : Agent} {target : Target space}
variable {walk : Guard.Walk space}

omit [Sha256] [ObjectPath] in
/-- A plan writes above its target only. -/
theorem Materializes.plan_ne_subject
    (materializes : Materializes world agent target walk)
    {step : ContainerUrl space × Option NamedNode}
    (inPlan : step ∈ walk.plan) :
    step.1.resource ≠ target.subject := by
  intro same
  have shorter :=
    target.subject.ancestors_length step.1 (materializes.above step inPlan)
  rw [same] at shorter
  exact Nat.lt_irrefl _ shorter

omit [Sha256] [ObjectPath] in
/-- A container that does not exist lists nothing, also after the plan. -/
theorem Materializes.no_members
    {url : ContainerUrl space}
    (materializes : Materializes world agent (.container url) walk)
    (coherent :
      ContainmentTree.Coherent (containmentShape space)
        (world.listing space))
    (absent : world.present url.node = false)
    (object : GroundTerm) :
    membership url object ∉
      (backend.after world (planCalls walk.plan)).graphs
        url.resource.iri := by
  rw [membership_after_planCalls]
  rintro (old | ⟨child, inPlan, _⟩)
  · have isAbsent : ¬ (world.listing space).present url.resource :=
      Bool.eq_false_iff.mp absent
    exact coherent.lists_nothing isAbsent object
      (World.lists_container.mpr old)
  · exact materializes.plan_ne_subject inPlan rfl

omit [Sha256] [ObjectPath] in
/-- The entries a `PUT` keeps are those its container has. -/
theorem Materializes.keepsMembers
    (materializes : Materializes world agent target walk)
    (coherent :
      ContainmentTree.Coherent (containmentShape space)
        (world.listing space)) :
    KeepsMembers (backend.after world (planCalls walk.plan))
      ((backend.after world (planCalls walk.plan)).keptMembers target)
      target := by
  constructor
  · intro triple isKept
    cases target with
    | container url =>
        have inGraph := (List.mem_filter.mp isKept).1
        split at inGraph
        · obtain ⟨ground, _, rfl⟩ := List.mem_map.mp inGraph
          exact ⟨ground, rfl⟩
        · cases inGraph
    | resource url leaf =>
        cases isKept
    | aux url =>
        cases isKept
  · rintro url rfl object
    unfold World.keptMembers
    dsimp only
    split
    · rw [Option.getD_some, List.mem_filter]
      constructor
      · rintro ⟨inGraph, _⟩
        obtain ⟨ground, isThere, same⟩ := List.mem_map.mp inGraph
        rw [← GroundTriple.toTriple_injective same]
        exact isThere
      · intro isThere
        exact ⟨List.mem_map_of_mem isThere, beq_self_eq_true _⟩
    · next notPresent =>
        have absent : world.present url.node = false := by
          refine Bool.eq_false_iff.mpr fun isPresent => notPresent ?_
          have stillPresent :
              (backend.after world (planCalls walk.plan)).present
                url.resource.node = true :=
            present_after_planCalls.mpr (Or.inl isPresent)
          exact stillPresent
        simp [materializes.no_members coherent absent object]

/-! ## Requests -/

variable {request : Request} {reached : World}

/-- The UUID a `POST` retries with occurs in no URL that exists. -/
def World.FreshRetry
    (world : World) (space : StorageSpace) (request : Request) : Prop :=
  ∀ url : ResourceUrl space,
    world.present url.node = true →
    ¬ request.draws.retryName.text <:+: url.path

omit [Sha256] [ObjectPath] in
/-- What a `POST` settles on does not exist yet. -/
theorem Allocated.absent
    {parent : ContainerUrl space} {child : Target space}
    (allocated : Allocated world request parent child)
    (fresh : world.FreshRetry space request) :
    world.present child.node = false := by
  cases allocated with
  | first resolves free =>
      rw [← world.guard_targetExists request.agent]
      unfold Guard.isTaken at free
      simp only [Bool.or_eq_false_iff] at free
      exact free.1
  | retry resolves =>
      obtain ⟨url, rfl, _, isPath⟩ :=
        ContainerUrl.resolve_child
          (by simp) (by
            simp [childName_slashFree, uuid_slashFree])
          (childEnding_cases request.headers) resolves
      rw [url.node_toTarget]
      refine Bool.eq_false_iff.mpr fun isPresent => fresh url isPresent ?_
      rw [isPath]
      refine ⟨parent.resource.path ++
        (childName (request.headers.str? .slug) request.draws.childName ++
          ['-']), childEnding request.headers, ?_⟩
      simp

omit [Sha256] [ObjectPath] in
theorem not_containment_of_groundInsertions
    {url : ContainerUrl space} {patch : Patch} {triples : List Triple}
    (contained : refuseContainment patch (.container url) = .ok ())
    (ground : patch.groundInsertions = some triples) :
    ∀ triple ∈ triples, triple.predicate ≠ ldpContains := by
  intro triple member
  unfold Patch.groundInsertions at ground
  split at ground
  · obtain ⟨pattern, isPattern, isTriple⟩ :=
      Traversal.mem_of_some ground member
    obtain ⟨node, isNamed, notContains⟩ :=
      not_containment_of_refuseContainment contained
        (List.mem_append_left _ isPattern)
    unfold Patch.groundInsertion at isTriple
    split at isTriple
    · next isSubject isPredicate isObject =>
        cases isTriple
        cases isNamed.symm.trans isPredicate
        exact notContains
    · next isSubject isPredicate isObject =>
        cases isTriple
        cases isNamed.symm.trans isPredicate
        exact notContains
    · cases isTriple
  · cases ground

variable [RdfParser] [N3Parser] {storeVersion : RdfVersion}

/--
A request whose store calls were all answered creates what did not exist, each
with its entry, or is a `DELETE` that removes one thing with its entry.
-/
theorem RequestEffect.listing
    (effect : RequestEffect False storeVersion world request target reached)
    (owned : world.RegistersOwn space)
    (coherent :
      ContainmentTree.Coherent (containmentShape space)
        (world.listing space))
    (fresh : world.FreshRetry space request) :
    (∃ created,
        (∀ url, created url → world.present url.node = false) ∧
          ContainmentTree.Creates (containmentShape space) created
            (world.listing space) (reached.listing space)) ∨
      (request.method = .delete ∧
        ContainmentTree.Deletes (containmentShape space) target.subject
          (world.listing space) (reached.listing space)) := by
  have planOwned :
      ∀ plan : List (ContainerUrl space × Option NamedNode),
        (backend.after world (planCalls plan)).RegistersOwn space := by
    intro plan
    have performs :
        backend.Performs False world (planCalls plan)
          (backend.after world (planCalls plan)) :=
      backend.performs_all world _
    exact owned.performs performs fun call member =>
      registers_planCalls member
  have nothing :
      ∀ write : StorageWrite space,
        write.Neutral world reached →
        (∀ url, write.marks = some url → world.present url.node = true) →
        ∃ created,
          (∀ url, created url → world.present url.node = false) ∧
            ContainmentTree.Creates (containmentShape space) created
              (world.listing space) (reached.listing space) := by
    intro write neutral marked
    refine ⟨fun _ => False, by simp, ContainmentTree.creates_nothing ?_ ?_⟩
    · intro url
      refine (neutral.present url).trans ⟨?_, Or.inl⟩
      rintro (old | isMarked)
      · exact old
      · exact marked url isMarked
    · intro above object
      refine exists_congr fun container => and_congr Iff.rfl ?_
      exact neutral.lists container object
  cases effect with
  | unchanged =>
      exact Or.inl ⟨fun _ => False, by simp,
        ContainmentTree.creates_nothing (fun _ => Iff.rfl)
          (fun _ _ => Iff.rfl)⟩
  | @put _ decision walk isPut authorized walked staged =>
      have materializes := World.materializes walked
      refine Or.inl ⟨_, fun url isCreated =>
        (materializes.created url isCreated).2,
        staged.creates materializes ?_ ?_⟩
      · rintro started write ⟨repr, _, isWrite⟩ url
        exact isWrite.marks
      · rintro write ⟨repr, _, isWrite⟩ performs
        exact isWrite.neutral (materializes.keepsMembers coherent)
          (planOwned walk.plan) performs
  | @post _ decision walk parent child isPost onContainer authorized allocated
        walked staged =>
      have materializes := World.materializes walked
      have absent := allocated.absent fresh
      refine Or.inl ⟨_, fun url isCreated =>
        (materializes.created url isCreated).2,
        staged.creates materializes ?_ ?_⟩
      · rintro started write ⟨repr, _, isWrite⟩ url
        exact isWrite.marks
      · rintro write ⟨repr, _, isWrite⟩ performs
        refine isWrite.neutral ⟨by simp, ?_⟩ (planOwned walk.plan) performs
        rintro url rfl object
        simp [materializes.no_members coherent absent object]
  | @patch decision patch change _ isPatch authorized parsed granted
        targetPresent contained changes performs =>
      refine Or.inl (nothing _
        (neutral_patch owned targetPresent contained changes performs) ?_)
      intro url isMarked
      cases target with
      | container container =>
          cases isMarked
          exact targetPresent
      | resource other leaf =>
          cases isMarked
      | aux other =>
          cases isMarked
  | @create decision patch triples walk _ isPatch authorized parsed granted
        absent contained ground walked staged =>
      have materializes := World.materializes walked
      refine Or.inl ⟨_, fun url isCreated =>
        (materializes.created url isCreated).2,
        staged.creates materializes ?_ ?_⟩
      · intro started write isWrite url
        exact isWrite.marks
      · intro write isWrite performs
        refine isWrite.neutral ?_ (planOwned walk.plan) performs
        rintro url rfl
        exact ⟨not_containment_of_groundInsertions contained ground,
          materializes.no_members coherent absent⟩
  | @deleteAux decision url _ isDelete onAux authorized performs =>
      refine Or.inl (nothing _
        (StorageWrite.neutral_of_untouched owned performs rfl ?_) ?_)
      · intro other
        exact url.not_owns_resource other
      · intro other isMarked
        cases isMarked
  | deleteSubject isDelete notAux authorized parentAuthorized auxAuthorized
        unused performs =>
      exact Or.inr ⟨isDelete,
        deletes_of_deleteSubject owned notAux unused performs⟩

end Writes

/-! ## Runs -/

section Reachable

variable [Sha256] [ObjectPath] [QuadText]
variable [RdfParser] [RdfSerializer] [ShapeEngine] [N3Parser]
variable {storeVersion : RdfVersion} {world : World}

omit [Sha256] [ObjectPath] [QuadText] [RdfParser] [RdfSerializer]
  [ShapeEngine] [N3Parser] in
theorem containmentShape_root :
    (containmentShape space).parent space.root.resource = none := by
  have noParent : space.root.resource.parent = none :=
    ResourceUrl.parent_eq_none.mpr rfl
  exact congrArg (Option.map ContainerUrl.resource) noParent

/-- A world in which only the root exists and nothing is listed. -/
def World.OnlyRoot (world : World) (space : StorageSpace) : Prop :=
  (∀ url : ResourceUrl space,
      world.present url.node = true ↔ url = space.root.resource) ∧
    ∀ (container : ContainerUrl space) object,
      membership container object ∉ world.graphs container.resource.iri

omit [Sha256] [ObjectPath] [QuadText] [RdfParser] [RdfSerializer]
  [ShapeEngine] [N3Parser] in
/-- The call of `provision_root` on empty stores, or once more. -/
theorem World.onlyRoot_ensureCall
    (before : world = World.empty ∨ world.OnlyRoot space) :
    (backend.perform world (ensureCall space.root)).2.OnlyRoot space := by
  constructor
  · intro url
    rw [World.present_iff, mem_perform_ensureCall, ResourceUrl.node_iri,
      ContainerUrl.asserts_marker]
    constructor
    · rintro (old | rfl)
      · rcases before with rfl | onlyRoot
        · cases old
        · exact (onlyRoot.1 url).mp (World.present_iff.mpr old)
      · rfl
    · rintro rfl
      exact Or.inr rfl
  · intro container object isThere
    rcases mem_perform_ensureCall.mp isThere with old | asserts
    · rcases before with rfl | onlyRoot
      · cases old
      · exact onlyRoot.2 container object old
    · exact ContainerUrl.Asserts.not_membership asserts

omit [QuadText] [RdfParser] [RdfSerializer] [ShapeEngine] [N3Parser] in
theorem World.OnlyRoot.perform_auxiliary
    {aux : AuxUrl space} {triples : List GroundTriple} {call : Call}
    (onlyRoot : world.OnlyRoot space)
    (member : call ∈ (StorageWrite.auxiliary aux triples).calls World.empty) :
    (backend.perform world call).2.OnlyRoot space := by
  have emptyOwned : World.empty.RegistersOwn space := by
    intro url triple inEmpty
    cases inEmpty
  have same :
      ∀ name, ¬ aux.Owns name →
        (backend.perform world call).2.graphs name = world.graphs name := by
    intro name notOwned
    exact perform_graphs_of_not_touched fun touched =>
      notOwned (StorageWrite.calls_touch emptyOwned member touched)
  constructor
  · intro url
    rw [World.present_congr (same _ (aux.not_owns_resource url).2)]
    exact onlyRoot.1 url
  · intro container object
    rw [same _ (aux.not_owns_resource container.resource).1]
    exact onlyRoot.2 container object

omit [QuadText] [RdfSerializer] [ShapeEngine] [N3Parser] in
theorem Provisioned.onlyRoot (provisioned : Provisioned space world) :
    world.OnlyRoot space := by
  obtain ⟨ownerWebId, provisionedFor⟩ := provisioned
  obtain ⟨later, rfl, isLater⟩ := provisionedFor.exists_calls
  rw [Machine.after_cons]
  have performed :
      backend.Performs False _ later (backend.after _ later) :=
    backend.performs_all
      (backend.perform World.empty (ensureCall space.root)).2 later
  refine performed.invariant (·.OnlyRoot space)
    (World.onlyRoot_ensureCall (Or.inl rfl)) ?_
  intro middle call member onlyRoot
  rcases isLater with rfl | ⟨fresh, body, _, _, rfl⟩
  · cases member
  · rcases List.mem_cons.mp member with rfl | isWrite
    · exact World.onlyRoot_ensureCall (Or.inr onlyRoot)
    · exact onlyRoot.perform_auxiliary isWrite

omit [QuadText] [RdfSerializer] [ShapeEngine] [N3Parser] in
/-- A pod that was just provisioned has its root and no members. -/
theorem Provisioned.coherent (provisioned : Provisioned space world) :
    ContainmentTree.Coherent (containmentShape space)
      (world.listing space) := by
  have onlyRoot := provisioned.onlyRoot
  constructor
  · intro url noParent
    refine (onlyRoot.1 url).mpr (ResourceUrl.ext_path ?_)
    exact ResourceUrl.parent_eq_none.mp (Option.map_eq_none_iff.mp noParent)
  · intro url above isPresent isAbove
    obtain rfl := (onlyRoot.1 url).mp isPresent
    rw [containmentShape_root] at isAbove
    cases isAbove
  · rintro above object ⟨container, rfl, isListed⟩
    exact (onlyRoot.2 container object isListed).elim

/-- A request all of whose store calls are answered. -/
def answeredRequest (space : StorageSpace) :
    World → Request → Faults → Prop :=
  fun world request faults =>
    (∀ fault ∈ faults, fault = none) ∧ world.FreshRetry space request

/-- What an answered request does to existence and listings. -/
theorem listing_afterRequest
    {request : Request} {faults : Faults}
    (owned : world.RegistersOwn space)
    (coherent :
      ContainmentTree.Coherent (containmentShape space)
        (world.listing space))
    (answered : answeredRequest space world request faults) :
    (∃ created,
        (∀ url, created url → world.present url.node = false) ∧
          ContainmentTree.Creates (containmentShape space) created
            (world.listing space)
            ((afterRequest space storeVersion request faults
              world).listing space)) ∨
      (request.method = .delete ∧
        ∃ deleted,
          ContainmentTree.Deletes (containmentShape space) deleted
            (world.listing space)
            ((afterRequest space storeVersion request faults
              world).listing space)) := by
  rcases afterRequest_cases False (Or.inr answered.1) with
      same | ⟨target, _, effect⟩
  · rw [same]
    exact Or.inl ⟨fun _ => False, by simp,
      ContainmentTree.creates_nothing (fun _ => Iff.rfl)
        (fun _ _ => Iff.rfl)⟩
  · rcases effect.listing owned coherent answered.2 with
        created | ⟨isDelete, deletes⟩
    · exact Or.inl created
    · exact Or.inr ⟨isDelete, target.subject, deletes⟩

/-- An answered request keeps containment coherent. -/
theorem coherent_afterRequest
    {request : Request} {faults : Faults}
    (owned : world.RegistersOwn space)
    (coherent :
      ContainmentTree.Coherent (containmentShape space)
        (world.listing space))
    (answered : answeredRequest space world request faults) :
    ContainmentTree.Coherent (containmentShape space)
      ((afterRequest space storeVersion request faults world).listing
        space) := by
  rcases listing_afterRequest owned coherent answered with
      ⟨created, _, creates⟩ | ⟨_, deleted, deletes⟩
  · exact coherent.creates creates
  · exact coherent.deletes deletes

theorem Reachable.coherent
    (reachable :
      Reachable space storeVersion (Provisioned space)
        (answeredRequest space) world) :
    ContainmentTree.Coherent (containmentShape space)
      (world.listing space) := by
  have both :
      world.RegistersOwn space ∧
        ContainmentTree.Coherent (containmentShape space)
          (world.listing space) := by
    refine reachable.invariant
      (fun world =>
        world.RegistersOwn space ∧
          ContainmentTree.Coherent (containmentShape space)
            (world.listing space)) ?_ ?_
    · intro world provisioned
      exact ⟨provisioned.registersOwn, provisioned.coherent⟩
    · rintro world request faults ⟨owned, coherent⟩ answered
      exact ⟨registersOwn_afterRequest request faults owned,
        coherent_afterRequest owned coherent answered⟩
  exact both.2

/--
In every world a provisioned pod reaches by requests whose store calls are all
answered: the root exists; whatever else exists has a parent container that
exists and lists it; whatever a container lists is a direct child that exists.
And a `PUT`, `POST` or `PATCH` changes no listing except by the entries of what
it creates, whatever its body or patch says.
-/
theorem containment_coherent_reachable
    (reachable :
      Reachable space storeVersion (Provisioned space)
        (answeredRequest space) world) :
    world.present space.root.node = true ∧
      (∀ url : ResourceUrl space,
        world.present url.node = true →
        url ≠ space.root.resource →
        ∃ container,
          url.parent = some container ∧
            world.present container.node = true ∧
            containmentTriple container url.node ∈
              world.graphs container.resource.iri) ∧
      (∀ (container : ContainerUrl space) object,
        (⟨container.node, ldpContains, object⟩ : GroundTriple) ∈
          world.graphs container.resource.iri →
        ∃ child : ResourceUrl space,
          object = .namedNode child.node ∧
            child.parent = some container ∧
            world.present child.node = true) ∧
      (∀ request faults,
        answeredRequest space world request faults →
        request.method ≠ .delete →
        ∀ (container : ContainerUrl space) object,
          (⟨container.node, ldpContains, object⟩ : GroundTriple) ∈
              (afterRequest space storeVersion request faults world).graphs
                container.resource.iri ↔
            (⟨container.node, ldpContains, object⟩ : GroundTriple) ∈
                world.graphs container.resource.iri ∨
              ∃ child : ResourceUrl space,
                object = .namedNode child.node ∧
                  child.parent = some container ∧
                  world.present child.node = false ∧
                  (afterRequest space storeVersion request faults
                    world).present child.node = true) := by
  have coherent := reachable.coherent
  have owned : world.RegistersOwn space :=
    reachable.registersOwn fun _ provisioned => provisioned.registersOwn
  refine ⟨?_, ?_, ?_, ?_⟩
  · exact coherent.roots space.root.resource containmentShape_root
  · intro url isPresent notRoot
    cases isParent : url.parent with
    | none =>
        refine (notRoot (ResourceUrl.ext_path ?_)).elim
        exact ResourceUrl.parent_eq_none.mp isParent
    | some container =>
        obtain ⟨abovePresent, isListed⟩ :=
          coherent.listed url container.resource isPresent
            (congrArg (Option.map ContainerUrl.resource) isParent)
        exact ⟨container, rfl, abovePresent,
          World.lists_container.mp isListed⟩
  · intro container object isThere
    obtain ⟨child, rfl, isAbove, isPresent⟩ :=
      coherent.direct container.resource object
        (World.lists_container.mpr isThere)
    obtain ⟨parent, isParent, same⟩ := Option.map_eq_some_iff.mp isAbove
    exact ⟨child, rfl, isParent.trans (congrArg some
      (ContainerUrl.ext_resource same)), isPresent⟩
  · intro request faults answered notDelete container object
    rcases listing_afterRequest owned coherent answered with
        ⟨created, wasAbsent, creates⟩ | ⟨isDelete, _⟩
    · have listed := creates.lists container.resource object
      rw [World.lists_container, World.lists_container] at listed
      refine listed.trans (or_congr Iff.rfl ?_)
      constructor
      · rintro ⟨child, isCreated, rfl, isAbove⟩
        obtain ⟨parent, isParent, same⟩ := Option.map_eq_some_iff.mp isAbove
        exact ⟨child, rfl, isParent.trans (congrArg some
          (ContainerUrl.ext_resource same)), wasAbsent child isCreated,
          (creates.present child).mpr (Or.inr isCreated)⟩
      · rintro ⟨child, rfl, isParent, isAbsent, isPresent⟩
        rcases (creates.present child).mp isPresent with old | isCreated
        · exact (Bool.eq_false_iff.mp isAbsent old).elim
        · exact ⟨child, isCreated, rfl,
            congrArg (Option.map ContainerUrl.resource) isParent⟩
    · exact (notDelete isDelete).elim

end Reachable

end Quadpod

namespace Quadpod.Reference

/-- The owner's first request finds only the root, so its UUIDs are new. -/
theorem answeredRequest_putBlank :
    answeredRequest podSpace freshWorld putBlank [] := by
  refine ⟨by simp, ?_⟩
  intro url isPresent
  rw [provisioned_freshWorld.present_root isPresent]
  decide

/-- The note is listed by the root, and the root by nobody. -/
theorem containment_coherent_notedWorld :
    notedWorld.present note.node = true ∧
      notedWorld.present podSpace.root.node = true ∧
      ∀ url : ResourceUrl podSpace,
        notedWorld.present url.node = true →
        url ≠ podSpace.root.resource →
        ∃ container,
          url.parent = some container ∧
            notedWorld.present container.node = true ∧
            containmentTriple container url.node ∈
              notedWorld.graphs container.resource.iri := by
  have reachable :
      Reachable podSpace .rdf12 (Provisioned podSpace)
        (answeredRequest podSpace) notedWorld :=
    .request freshWorld putBlank [] (.start freshWorld provisioned_freshWorld)
      answeredRequest_putBlank
  obtain ⟨root, listed, _⟩ := containment_coherent_reachable reachable
  exact ⟨by decide +kernel, root, listed⟩

end Quadpod.Reference
