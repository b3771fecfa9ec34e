import Quadpod.BlobKeys
import Quadpod.IdleOperations

namespace Quadpod

open AtomicProgram
open GraphStore

/-!
# Worlds left tidy

Requests whose store calls are all answered leave no litter: what does not exist
has nothing in its graphs and no object, and a container that exists carries the
types it was made with.  A patch or a body may take the types of a container
away, but the same request asserts them again before it is done.
-/

variable [IriSyntax] {space : StorageSpace}

/-! ## Resources come and go whole -/

/-- Without its marker a resource has no triples in its two graphs. -/
def ResourceUrl.Whole (url : ResourceUrl space) (world : World) : Prop :=
  world.present url.node = false →
  ∀ name triple,
    name = url.iri ∨ name = sysGraphOf url.iri → triple ∉ world.graphs name

/-- A container that exists has its types. -/
def ContainerUrl.Typed (container : ContainerUrl space) (world : World) :
    Prop :=
  world.present container.node = true →
  ∀ quad ∈ containerTypes container,
    quad.toTriple ∈ world.graphs container.resource.iri

/-- Whatever exists exists whole. -/
structure World.Tidy (world : World) (space : StorageSpace) : Prop where
  whole : ∀ url : ResourceUrl space, url.Whole world
  typed : ∀ container : ContainerUrl space, container.Typed world

theorem ContainerUrl.Asserts.owns
    {container : ContainerUrl space} {name : Text} {triple : GroundTriple}
    (asserts : container.Asserts name triple) : container.Owns name := by
  rcases asserts with ⟨isGraph, _⟩ | ⟨isSystem, _⟩
  · exact Or.inl isGraph
  · exact Or.inr isSystem

theorem ContainerUrl.asserts_types
    {container : ContainerUrl space} {quad : GroundQuad}
    (isType : quad ∈ containerTypes container) :
    container.Asserts container.resource.iri quad.toTriple :=
  Or.inl ⟨rfl, List.mem_map_of_mem isType⟩

theorem World.Tidy.after_planCalls [Sha256]
    {world : World} (tidy : world.Tidy space)
    (plan : List (ContainerUrl space × Option NamedNode)) :
    (backend.after world (planCalls plan)).Tidy space := by
  constructor
  · intro url absent name triple owns isThere
    rw [Bool.eq_false_iff, Ne, present_after_planCalls, not_or] at absent
    rcases mem_after_planCalls.mp isThere with old | ⟨step, inPlan, writes⟩
    · exact tidy.whole url (Bool.eq_false_iff.mpr absent.1) name triple owns
        old
    · have ownsStep : step.1.resource.Owns name := by
        rcases writes with asserts | ⟨child, _, isGraph, _⟩
        · exact asserts.owns.resource
        · exact Or.inl isGraph
      refine absent.2 ⟨step, inPlan, ?_⟩
      rcases owns with rfl | rfl
      · exact ResourceUrl.Owns.eq_of_iri (Or.inl ownsStep)
      · exact ResourceUrl.Owns.eq_of_iri (Or.inr ownsStep)
  · intro container isPresent quad isType
    have marked :
        (backend.after world (planCalls plan)).present
          container.resource.node = true := isPresent
    rw [mem_after_planCalls]
    rcases present_after_planCalls.mp marked with old | ⟨step, inPlan, same⟩
    · exact Or.inl (tidy.typed container old quad isType)
    · obtain rfl := ContainerUrl.ext_resource same
      exact Or.inr ⟨step, inPlan, Or.inl (ContainerUrl.asserts_types isType)⟩

/-! ## Storage writes -/

section Writes

variable [Sha256] [ObjectPath] {started : World}

/-- A write is made where the code makes it. -/
def StorageWrite.Fits (started : World) : StorageWrite space → Prop
  | .dataset url _ _ => Text.endsWith ['/'] url.path = false
  | .blob url _ _ _ => Text.endsWith ['/'] url.path = false
  | .patch on _ => started.present on.node = true
  | _ => True

/-- What a write does not touch is as whole and as typed as before. -/
theorem graphs_after_of_not_touched
    {write : StorageWrite space} {name : Text}
    (owned : started.RegistersOwn space)
    (untouched : ¬ write.Touches name) :
    (backend.after started (write.calls started)).graphs name =
      started.graphs name := by
  have performs :
      backend.Performs False started (write.calls started)
        (backend.after started (write.calls started)) :=
    backend.performs_all started _
  exact Performs.graphs_eq performs fun call member touched =>
    untouched (StorageWrite.calls_touch owned member touched)

theorem ResourceUrl.Whole.after_untouched
    {write : StorageWrite space} {url : ResourceUrl space}
    (whole : url.Whole started)
    (owned : started.RegistersOwn space)
    (untouched :
      ¬ write.Touches url.iri ∧ ¬ write.Touches (sysGraphOf url.iri)) :
    url.Whole (backend.after started (write.calls started)) := by
  have system := graphs_after_of_not_touched owned untouched.2
  intro absent name triple owns
  rw [World.present_congr system] at absent
  rcases owns with rfl | rfl
  · rw [graphs_after_of_not_touched owned untouched.1]
    exact whole absent _ triple (Or.inl rfl)
  · rw [system]
    exact whole absent _ triple (Or.inr rfl)

theorem ContainerUrl.Typed.after_untouched
    {write : StorageWrite space} {container : ContainerUrl space}
    (typed : container.Typed started)
    (owned : started.RegistersOwn space)
    (untouched :
      ¬ write.Touches container.resource.iri ∧
        ¬ write.Touches (sysGraphOf container.resource.iri)) :
    container.Typed (backend.after started (write.calls started)) := by
  intro isPresent quad isType
  have system := graphs_after_of_not_touched owned untouched.2
  rw [graphs_after_of_not_touched owned untouched.1]
  refine typed ?_ quad isType
  rw [← isPresent]
  exact (World.present_congr system).symm

omit [Sha256] [ObjectPath] in
/-- A resource that is there afterwards is whole. -/
theorem ResourceUrl.whole_of_present
    {url : ResourceUrl space} {world : World}
    (isPresent : world.present url.node = true) : url.Whole world := by
  intro absent
  rw [isPresent] at absent
  cases absent

/-- Of what a cascade leaves nothing belongs to its subject. -/
theorem mem_after_deleteSubject
    {url : ResourceUrl space} {name : Text} {triple : GroundTriple} :
    triple ∈
        (backend.after started
          ((StorageWrite.deleteSubject url).calls started)).graphs name ↔
      triple ∈ started.graphs name ∧
        name ∉ cascadeDrops url (started.registered url) ∧
        ∀ parent,
          url.parent = some parent →
          ¬ (name = parent.resource.iri ∧
            triple = containmentTriple parent url.node) := by
  rw [graphs_after_deleteSubject, mem_applyAll_deleteSubject]

theorem World.Tidy.after_deleteSubject
    (tidy : started.Tidy space) (owned : started.RegistersOwn space)
    (url : ResourceUrl space) :
    (backend.after started
      ((StorageWrite.deleteSubject url).calls started)).Tidy space := by
  have markerKept :
      ∀ other : ResourceUrl space,
        other ≠ url →
        ((backend.after started
            ((StorageWrite.deleteSubject url).calls started)).present
              other.node = true ↔
          started.present other.node = true) := by
    intro other notUrl
    rw [World.present_iff, World.present_iff, mem_after_deleteSubject,
      ResourceUrl.node_iri]
    refine ⟨fun holds => holds.1, fun old => ⟨old, ?_, ?_⟩⟩
    · exact fun dropped => notUrl ((mem_cascadeDrops fun _ => owned.owns).2.mp dropped)
    · rintro parent _ ⟨isGraph, _⟩
      exact not_isHttp_sysGraphOf _ (isGraph ▸ parent.resource.isHttp)
  constructor
  · intro other absent name triple owns isThere
    obtain ⟨old, notDropped, _⟩ := mem_after_deleteSubject.mp isThere
    have notUrl : other ≠ url := by
      rintro rfl
      rcases owns with rfl | rfl
      · exact notDropped ((mem_cascadeDrops fun _ => owned.owns).1.mpr rfl)
      · exact notDropped ((mem_cascadeDrops fun _ => owned.owns).2.mpr rfl)
    refine tidy.whole other ?_ name triple owns old
    rw [Bool.eq_false_iff, Ne, markerKept other notUrl] at absent
    exact Bool.eq_false_iff.mpr absent
  · intro container isPresent quad isType
    have marker :
        presenceMarker container.resource.node ∈
          (backend.after started
            ((StorageWrite.deleteSubject url).calls started)).graphs
              (sysGraphOf container.resource.iri) :=
      World.present_iff.mp isPresent
    obtain ⟨_, notDropped, _⟩ := mem_after_deleteSubject.mp marker
    have notUrl : container.resource ≠ url := by
      rintro rfl
      exact notDropped ((mem_cascadeDrops fun _ => owned.owns).2.mpr rfl)
    refine mem_after_deleteSubject.mpr ⟨?_, ?_, ?_⟩
    · exact tidy.typed container ((markerKept _ notUrl).mp isPresent) quad
        isType
    · exact fun dropped => notUrl ((mem_cascadeDrops fun _ => owned.owns).1.mp dropped)
    · rintro parent _ ⟨_, isEntry⟩
      have asserts := ContainerUrl.asserts_types isType
      rw [isEntry] at asserts
      exact ContainerUrl.Asserts.not_membership asserts

/-- A write inside what a leaf owns, after which the leaf is there. -/
theorem World.Tidy.after_leaf
    {write : StorageWrite space} {url : ResourceUrl space}
    (tidy : started.Tidy space) (owned : started.RegistersOwn space)
    (leaf : Text.endsWith ['/'] url.path = false)
    (inside : ∀ name, write.Touches name → url.Owns name)
    (isPresent :
      (backend.after started (write.calls started)).present url.node =
        true) :
    (backend.after started (write.calls started)).Tidy space := by
  have elsewhere :
      ∀ other : ResourceUrl space,
        other ≠ url →
        ¬ write.Touches other.iri ∧
          ¬ write.Touches (sysGraphOf other.iri) := by
    intro other notUrl
    constructor
    · exact fun touched =>
        notUrl (ResourceUrl.Owns.eq_of_iri (Or.inl (inside _ touched))).symm
    · exact fun touched =>
        notUrl (ResourceUrl.Owns.eq_of_iri (Or.inr (inside _ touched))).symm
  constructor
  · intro other
    by_cases isUrl : other = url
    · subst isUrl
      exact ResourceUrl.whole_of_present isPresent
    · exact (tidy.whole other).after_untouched owned (elsewhere other isUrl)
  · intro container
    refine (tidy.typed container).after_untouched owned
      (elsewhere container.resource ?_)
    rintro rfl
    rw [container.slash] at leaf
    cases leaf

/-- A write inside a container's graphs that ends by asserting its types. -/
theorem World.Tidy.after_ensured
    {write : StorageWrite space} {url : ContainerUrl space}
    {calls : List Call}
    (tidy : started.Tidy space) (owned : started.RegistersOwn space)
    (inside : ∀ name, write.Touches name → url.Owns name)
    (ends : write.calls started = calls ++ [ensureCall url]) :
    (backend.after started (write.calls started)).Tidy space := by
  have asserted :
      ∀ name triple,
        url.Asserts name triple →
        triple ∈
          (backend.after started (write.calls started)).graphs name := by
    intro name triple asserts
    rw [ends, Machine.after_append, Machine.after_cons, Machine.after_nil,
      mem_perform_ensureCall]
    exact Or.inr asserts
  have elsewhere :
      ∀ other : ResourceUrl space,
        other ≠ url.resource →
        ¬ write.Touches other.iri ∧
          ¬ write.Touches (sysGraphOf other.iri) := by
    intro other notUrl
    constructor
    · exact fun touched => notUrl (ResourceUrl.Owns.eq_of_iri
        (Or.inl (inside _ touched).resource)).symm
    · exact fun touched => notUrl (ResourceUrl.Owns.eq_of_iri
        (Or.inr (inside _ touched).resource)).symm
  constructor
  · intro other
    by_cases isUrl : other = url.resource
    · subst isUrl
      exact ResourceUrl.whole_of_present
        (World.present_iff.mpr (asserted _ _ (Or.inr ⟨rfl, rfl⟩)))
    · exact (tidy.whole other).after_untouched owned (elsewhere other isUrl)
  · intro container
    by_cases isUrl : container.resource = url.resource
    · obtain rfl := ContainerUrl.ext_resource isUrl
      exact fun _ quad isType =>
        asserted _ _ (ContainerUrl.asserts_types isType)
    · exact (tidy.typed container).after_untouched owned
        (elsewhere container.resource isUrl)

/-- A write that touches no graph of a resource. -/
theorem World.Tidy.after_elsewhere
    {write : StorageWrite space}
    (tidy : started.Tidy space) (owned : started.RegistersOwn space)
    (untouched :
      ∀ url : ResourceUrl space,
        ¬ write.Touches url.iri ∧ ¬ write.Touches (sysGraphOf url.iri)) :
    (backend.after started (write.calls started)).Tidy space where
  whole := fun url =>
    (tidy.whole url).after_untouched owned (untouched url)
  typed := fun container =>
    (tidy.typed container).after_untouched owned
      (untouched container.resource)

/-- Every storage write, performed to its end, leaves the world tidy. -/
theorem World.Tidy.after_calls
    {write : StorageWrite space} (tidy : started.Tidy space)
    (owned : started.RegistersOwn space) (fits : write.Fits started) :
    (backend.after started (write.calls started)).Tidy space := by
  cases write with
  | dataset url body mediaType =>
      exact tidy.after_leaf owned fits (fun _ owns => owns)
        (present_after_dataset started url body mediaType)
  | blob url key bytes mediaType =>
      exact tidy.after_leaf owned fits (fun _ owns => owns)
        (present_after_blob started url key bytes mediaType)
  | container url triples =>
      have ends :
          (StorageWrite.container url triples).calls started =
            [.update
              [.drop (graphIri url), .insertData [(graphIri url, triples)],
                markPresent url]] ++ [ensureCall url] :=
        rfl
      exact tidy.after_ensured owned (fun _ owns => owns) ends
  | auxiliary url triples =>
      exact tidy.after_elsewhere owned url.not_owns_resource
  | patch on change =>
      cases on with
      | resource url leaf =>
          refine tidy.after_leaf owned leaf (fun _ isUrl => Or.inl isUrl) ?_
          have unmarked :
              ¬ (StorageWrite.patch (.resource url leaf) change).Touches
                (sysGraphOf url.iri) := fun isUrl =>
            not_isHttp_sysGraphOf _ (isUrl ▸ url.isHttp)
          rw [World.present_congr
            (graphs_after_of_not_touched owned unmarked)]
          exact fits
      | container url =>
          exact tidy.after_ensured owned (fun _ owns => owns) rfl
      | aux url =>
          refine tidy.after_elsewhere owned fun other => ?_
          have apart := url.not_owns_resource other
          exact ⟨fun isUrl => apart.1 (Or.inl isUrl),
            fun isUrl => apart.2 (Or.inl isUrl)⟩
  | deleteAuxiliary url =>
      exact tidy.after_elsewhere owned url.not_owns_resource
  | deleteSubject url =>
      exact tidy.after_deleteSubject owned url
  | nothing =>
      exact tidy

end Writes

/-! ## Requests -/

section Requests

variable [Sha256] [ObjectPath] [QuadText]
variable [RdfParser] [RdfSerializer] [ShapeEngine] [N3Parser]
variable {storeVersion : RdfVersion} {world reached : World}
variable {request : Request} {target : Target space}

omit [Sha256] [QuadText] [RdfParser] [RdfSerializer] [ShapeEngine]
  [N3Parser] in
theorem BodyWrite.fits
    {fresh : Nat → Uuid} {kept : List Triple} {repr : Repr}
    {on : Target space} {write : StorageWrite space} {started : World}
    (isWrite : BodyWrite fresh kept repr on write) : write.Fits started := by
  cases isWrite with
  | blob url leaf key bytes mediaType keyed =>
      exact leaf
  | dataset url leaf body format declared checked =>
      exact leaf
  | container url body format declared checked =>
      trivial
  | auxiliary url body format declared checked small =>
      trivial
  | oversized url body format declared large =>
      trivial

omit [Sha256] [ObjectPath] [QuadText] [RdfParser] [RdfSerializer]
  [ShapeEngine] [N3Parser] in
theorem PatchWrite.fits
    {fresh : Nat → Uuid} {triples : List Triple} {on : Target space}
    {write : StorageWrite space} {started : World}
    (isWrite : PatchWrite fresh triples on write) : write.Fits started := by
  cases isWrite with
  | dataset url leaf body grounded =>
      exact leaf
  | container url =>
      trivial

omit [QuadText] [RdfSerializer] [ShapeEngine] in
/-- What plans and fitting writes keep, an answered request keeps. -/
theorem RequestEffect.invariant_of_fits
    (effect : RequestEffect False storeVersion world request target reached)
    (invariant : World → Prop)
    (holds : invariant world)
    (plans :
      ∀ started plan,
        invariant started →
        invariant
          (backend.after started
            (planCalls
              (plan : List (ContainerUrl space × Option NamedNode)))))
    (writes :
      ∀ (started : World) (write : StorageWrite space),
        write.Fits started →
        invariant started →
        invariant (backend.after started (write.calls started))) :
    invariant reached := by
  have staged :
      ∀ (plan : List (ContainerUrl space × Option NamedNode)) admits,
        (∀ started write, admits started write → write.Fits started) →
        Staged False world plan admits reached → invariant reached := by
    rintro plan admits fits (⟨impossible, _⟩ | ⟨write, admitted, performs⟩)
    · exact impossible.elim
    · rw [performs.eq_after not_false]
      exact writes _ write (fits _ write admitted) (plans world plan holds)
  cases effect with
  | unchanged =>
      exact holds
  | put isPut authorized walked isStaged =>
      refine staged _ _ ?_ isStaged
      rintro started write ⟨repr, _, isWrite⟩
      exact isWrite.fits
  | post isPost onContainer authorized allocated walked isStaged =>
      refine staged _ _ ?_ isStaged
      rintro started write ⟨repr, _, isWrite⟩
      exact isWrite.fits
  | patch isPatch authorized parsed granted targetPresent contained changes
        performs =>
      rw [performs.eq_after not_false]
      exact writes world (.patch target _) targetPresent holds
  | create isPatch authorized parsed granted absent contained ground walked
        isStaged =>
      exact staged _ _ (fun _ _ isWrite => isWrite.fits) isStaged
  | deleteAux isDelete onAux authorized performs =>
      rw [performs.eq_after not_false]
      exact writes world (.deleteAuxiliary _) trivial holds
  | deleteSubject isDelete notAux authorized parentAuthorized auxAuthorized
        unused performs =>
      rw [performs.eq_after not_false]
      exact writes world (.deleteSubject _) trivial holds

omit [QuadText] [RdfSerializer] [ShapeEngine] in
theorem RequestEffect.tidy
    (effect : RequestEffect False storeVersion world request target reached)
    (owned : world.RegistersOwn space) (tidy : world.Tidy space) :
    reached.Tidy space := by
  have both : reached.RegistersOwn space ∧ reached.Tidy space := by
    refine effect.invariant_of_fits
      (fun world => world.RegistersOwn space ∧ world.Tidy space)
      ⟨owned, tidy⟩ ?_ ?_
    · rintro started plan ⟨startedOwned, startedTidy⟩
      have performs :
          backend.Performs False started (planCalls plan)
            (backend.after started (planCalls plan)) :=
        backend.performs_all started _
      exact ⟨startedOwned.performs performs fun call member =>
        registers_planCalls member, startedTidy.after_planCalls plan⟩
    · rintro started write fits ⟨startedOwned, startedTidy⟩
      have performs :
          backend.Performs False started (write.calls started)
            (backend.after started (write.calls started)) :=
        backend.performs_all started _
      exact ⟨startedOwned.performs performs fun call member =>
        registers_calls member, startedTidy.after_calls startedOwned fits⟩
  exact both.2

omit [QuadText] [RdfSerializer] [ShapeEngine] [N3Parser] in
/-- A pod that was just provisioned is tidy. -/
theorem Provisioned.tidy (provisioned : Provisioned space world) :
    world.Tidy space := by
  have both : world.RegistersOwn space ∧ world.Tidy space := by
    refine provisioned.invariant
      (fun world => world.RegistersOwn space ∧ world.Tidy space) ?_ ?_
    · refine ⟨fun url triple inEmpty => ?_, fun url _ name triple _ inEmpty => ?_,
        fun container isPresent => ?_⟩
      · cases inEmpty
      · cases inEmpty
      · rw [World.present_iff] at isPresent
        cases isPresent
    · rintro world call (rfl | ⟨fresh, triples, _, member⟩) ⟨owned, tidy⟩
      · refine ⟨owned.perform ?_, ?_⟩
        · have listed :
              ensureCall space.root ∈ planCalls [(space.root, none)] := by
            simp [planCalls]
          exact registers_planCalls listed
        · exact tidy.after_planCalls [(space.root, none)]
      · refine ⟨owned.perform (registers_calls member), ?_⟩
        obtain rfl := List.mem_singleton.mp member
        have written :
            (backend.after world
              ((StorageWrite.auxiliary space.root.resource.acl
                (skolemizedTriples fresh triples)).calls world)).Tidy
                  space :=
          tidy.after_calls owned trivial
        exact written
  exact both.2

theorem Reachable.tidy
    (reachable :
      Reachable space storeVersion (Provisioned space)
        (answeredRequest space) world) :
    world.Tidy space := by
  have both : world.RegistersOwn space ∧ world.Tidy space := by
    refine reachable.invariant
      (fun world => world.RegistersOwn space ∧ world.Tidy space) ?_ ?_
    · intro world provisioned
      exact ⟨provisioned.registersOwn, provisioned.tidy⟩
    · rintro world request faults ⟨owned, tidy⟩ answered
      refine ⟨registersOwn_afterRequest request faults owned, ?_⟩
      rcases afterRequest_cases False (Or.inr answered.1) with
          same | ⟨target, _, effect⟩
      · rw [same]
        exact tidy
      · exact effect.tidy owned tidy
  exact both.2

end Requests

end Quadpod
