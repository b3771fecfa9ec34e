import Quadpod.CallsByValue
import Quadpod.ReadModifyWrite
import Quadpod.ShapeEnforcement

namespace Quadpod

open AtomicProgram GraphStore

/-!
# What a client wrote into a container

A container's graph holds what a client wrote into it, and what this pod adds:
its types and its members.  An accepted `PUT` or `POST` leaves the client's part
as it was sent, with every literal in the form the store returns, and no request
that is not directed at the container itself changes that part, whatever it
creates or deletes below.
-/

variable [IriSyntax] {space : StorageSpace} {mayFail : Prop}

/-! ## The two parts of a container's graph -/

/-- The triples this pod adds to a container's graph. -/
def ContainerUrl.Manages
    (container : ContainerUrl space) (triple : GroundTriple) : Prop :=
  triple.predicate = ldpContains ∨
    triple ∈ (containerTypes container).map GroundQuad.toTriple

/-- A container that holds some triples next to what is managed. -/
structure World.HoldsBody
    (world : World) (container : ContainerUrl space)
    (triples : List GroundTriple) : Prop where
  present : world.present container.node = true
  content :
    ∀ triple,
      ¬ container.Manages triple →
        (triple ∈ world.graphs container.resource.iri ↔ triple ∈ triples)

section Calls

variable {world reached : World} {container : ContainerUrl space}
variable {triples : List GroundTriple}

theorem World.HoldsBody.congr
    (holds : world.HoldsBody container triples)
    (sameGraph :
      reached.graphs container.resource.iri =
        world.graphs container.resource.iri)
    (sameMarker :
      reached.graphs (sysGraphOf container.resource.iri) =
        world.graphs (sysGraphOf container.resource.iri)) :
    reached.HoldsBody container triples := by
  constructor
  · have isPresent :
        reached.present container.node = world.present container.node :=
      World.present_congr sameMarker
    rw [isPresent]
    exact holds.present
  · intro triple unmanaged
    rw [sameGraph]
    exact holds.content triple unmanaged

/-- A call that only adds what is managed. -/
theorem World.HoldsBody.of_additions
    (holds : world.HoldsBody container triples)
    (kept :
      ∀ name triple,
        triple ∈ world.graphs name → triple ∈ reached.graphs name)
    (added :
      ∀ triple,
        triple ∈ reached.graphs container.resource.iri →
          triple ∈ world.graphs container.resource.iri ∨
            container.Manages triple) :
    reached.HoldsBody container triples := by
  constructor
  · exact World.present_iff.mpr
      (kept _ _ (World.present_iff.mp holds.present))
  · intro triple unmanaged
    rw [← holds.content triple unmanaged]
    constructor
    · intro member
      exact (added triple member).resolve_right unmanaged
    · exact kept _ triple

/-- A call that changes no graph of the container. -/
theorem World.HoldsBody.of_untouched
    (holds : world.HoldsBody container triples) {call : Call}
    (untouched : ∀ name, container.Owns name → name ∉ call.touches) :
    (backend.perform world call).2.HoldsBody container triples :=
  holds.congr
    (perform_graphs_of_not_touched (untouched _ (Or.inl rfl)))
    (perform_graphs_of_not_touched (untouched _ (Or.inr rfl)))

variable [Sha256]

omit [Sha256] in
/-- Asserting that some container is one adds types to it. -/
theorem World.HoldsBody.perform_ensure
    (holds : world.HoldsBody container triples) (other : ContainerUrl space) :
    (backend.perform world (ensureCall other)).2.HoldsBody container
      triples := by
  refine holds.of_additions
    (fun name triple old => mem_perform_ensureCall.mpr (Or.inl old)) ?_
  intro triple isThere
  obtain old | asserts := mem_perform_ensureCall.mp isThere
  · exact Or.inl old
  · obtain ⟨isGraph, isType⟩ | ⟨isGraph, _⟩ := asserts
    · have same : container = other :=
        ContainerUrl.ext_resource (ResourceUrl.iri_injective isGraph)
      exact Or.inr (Or.inr (same ▸ isType))
    · exact (not_isHttp_sysGraphOf _
        (isGraph ▸ container.resource.isHttp)).elim

omit [Sha256] in
/-- Recording a member of some container adds an entry to it. -/
theorem World.HoldsBody.perform_link
    (holds : world.HoldsBody container triples) (other : ContainerUrl space)
    (child : NamedNode) :
    (backend.perform world (linkCall other child)).2.HoldsBody container
      triples := by
  refine holds.of_additions
    (fun name triple old => mem_perform_linkCall.mpr (Or.inl old)) ?_
  intro triple isThere
  obtain old | ⟨_, rfl⟩ | ⟨isGraph, _⟩ := mem_perform_linkCall.mp isThere
  · exact Or.inl old
  · exact Or.inr (Or.inl rfl)
  · exact (not_isHttp_sysGraphOf _
      (isGraph ▸ container.resource.isHttp)).elim

/-- Deleting something else takes at most an entry from the container. -/
theorem World.HoldsBody.perform_deleteSubject
    (holds : world.HoldsBody container triples)
    {url : ResourceUrl space} {registered : List ShelfKey}
    (shelves : ShelvesOf url registered) (other : url ≠ container.resource) :
    (backend.perform world
      (.update (deleteSubjectUpdate url registered))).2.HoldsBody container
        triples := by
  have kept :
      container.resource.iri ∉ cascadeDrops url registered ∧
        sysGraphOf container.resource.iri ∉ cascadeDrops url registered := by
    rw [(mem_cascadeDrops shelves.owns).1, (mem_cascadeDrops shelves.owns).2]
    exact ⟨other.symm, other.symm⟩
  have same :
      ∀ name triple,
        name ∉ cascadeDrops url registered →
        (∀ parent : ContainerUrl space,
          ¬ (name = parent.resource.iri ∧
            triple = containmentTriple parent url.node)) →
        (triple ∈ (backend.perform world
            (.update (deleteSubjectUpdate url registered))).2.graphs name ↔
          triple ∈ world.graphs name) := by
    intro name triple isKept notLink
    rw [backend_graphs]
    refine mem_applyAll_deleteSubject.trans ⟨And.left, fun old => ?_⟩
    exact ⟨old, isKept, fun parent _ => notLink parent⟩
  constructor
  · refine World.present_iff.mpr
      ((same _ _ kept.2 ?_).mpr (World.present_iff.mp holds.present))
    rintro parent ⟨isGraph, _⟩
    exact not_isHttp_sysGraphOf _ (isGraph ▸ parent.resource.isHttp)
  · intro triple unmanaged
    rw [← holds.content triple unmanaged]
    refine same _ _ kept.1 ?_
    rintro parent ⟨_, rfl⟩
    exact unmanaged (Or.inl rfl)

/-- What another resource owns is nothing of the container. -/
theorem ContainerUrl.eq_of_owns
    {url : ResourceUrl space} {name : Text}
    (owns : container.Owns name) (other : url.Owns name) :
    url = container.resource := by
  rcases owns with rfl | rfl
  · exact ResourceUrl.Owns.eq_of_iri (Or.inl other)
  · exact ResourceUrl.Owns.eq_of_iri (Or.inr other)

variable [ObjectPath] {regime : Regime space}

/-- A call that may not rewrite the container leaves the client's part. -/
theorem ServerCall.holdsBody
    {call : Call} (isCall : ServerCall regime call)
    (spared : ¬ regime.rewrites container)
    (holds : world.HoldsBody container triples) :
    (backend.perform world call).2.HoldsBody container triples := by
  have ofLeaf {url : ResourceUrl space}
      (leaf : Text.endsWith ['/'] url.path = false)
      (touches : ∀ name ∈ call.touches, url.Owns name) :
      (backend.perform world call).2.HoldsBody container triples := by
    refine holds.of_untouched fun name owns touched => ?_
    have same := ContainerUrl.eq_of_owns owns (touches name touched)
    rw [same, container.slash] at leaf
    cases leaf
  have ofContainer {other : ContainerUrl space}
      (may : regime.rewrites other)
      (touches : ∀ name ∈ call.touches, other.Owns name) :
      (backend.perform world call).2.HoldsBody container triples := by
    refine holds.of_untouched fun name owns touched => spared ?_
    have same :=
      ContainerUrl.eq_of_owns owns (touches name touched).resource
    rw [← ContainerUrl.ext_resource same]
    exact may
  have ofAux {aux : AuxUrl space}
      (touches : ∀ name ∈ call.touches, aux.Owns name) :
      (backend.perform world call).2.HoldsBody container triples := by
    refine holds.of_untouched fun name owns touched => ?_
    exact ResourceUrl.not_owns_of_aux (touches name touched) owns.resource
  cases isCall with
  | read reads =>
      rw [reads.perform]
      exact holds
  | putObject url leaf key bytes keyed =>
      exact holds.congr rfl rfl
  | deleteObject key =>
      exact holds.congr rfl rfl
  | putDataset url leaf registered shelves body format =>
      exact ofLeaf leaf fun _ => touches_putDataset shelves.owns
  | putBlob url leaf registered shelves mediaType =>
      exact ofLeaf leaf fun _ => touches_putBlob shelves.owns
  | deleteSubject url registered shelves may takes =>
      exact holds.perform_deleteSubject shelves fun same =>
        spared (takes container same)
  | patchResource url leaf deletions insertions =>
      exact ofLeaf leaf fun _ touched => Or.inl (touches_modify touched)
  | patchContainer other may deletions insertions unlisted =>
      exact ofContainer may fun _ touched => Or.inl (touches_modify touched)
  | patchAux aux may deletions insertions =>
      exact ofAux fun _ touched => Or.inl (touches_modify touched)
  | putAux aux may added =>
      exact ofAux fun _ => touches_putAux
  | deleteAux aux may =>
      exact ofAux fun _ => touches_deleteAux
  | replaceContainer other may added listed =>
      refine ofContainer may fun _ touched => ?_
      exact StorageWrite.calls_touch World.registersOwn_empty
        (mem_calls_replaceContainer other _) touched
  | ensure other =>
      exact holds.perform_ensure other
  | link other child isChild =>
      exact holds.perform_link other child.node

end Calls

/-! ## Requests that leave a container alone -/

section Requests

variable [LiteralForms] [Sha256] [ObjectPath]
variable {world : World} {container : ContainerUrl space}
variable {triples : List GroundTriple}

/-- Whoever asks for the container's marker is told that it is there. -/
def PresenceAnswer (container : ContainerUrl space) :
    (call : Call) → Except Text call.Reply → Prop
  | .queryPresent candidates, reply =>
      ∀ nodes,
        reply = .ok nodes →
        (sysGraphOf container.resource.iri, container.node) ∈ candidates →
        container.node ∈ nodes
  | _, _ => True

/-- Any agents, whose requests leave one container alone. -/
def sparing (container : ContainerUrl space) : Regime space where
  agents _ := True
  writes _ := True
  drops _ := True
  rewrites other := other ≠ container
  answers call reply :=
    (RegistryAnswer space call reply ∧ ListingAnswer space call reply) ∧
      PresenceAnswer container call reply

omit [LiteralForms] in
theorem lawful_sparing : (sparing container).Lawful where
  registry _ _ answered := answered.1.1
  listing _ _ answered := answered.1.2
  probed agent target _ :=
    (ReadsOnly.scripted (readsOnly_probe agent target)).mono
      fun _ _ _ _ => ⟨fun _ _ _ _ _ => trivial, fun _ _ _ => trivial⟩

omit [Sha256] [ObjectPath] in
/-- The marker of a container that holds a body is found. -/
theorem World.HoldsBody.presenceAnswer
    (holds : world.HoldsBody container triples) (call : Call) :
    PresenceAnswer container call (byValue.perform world call).1 := by
  cases call with
  | queryPresent candidates =>
      rintro nodes isReply isCandidate
      cases isReply
      refine List.mem_map.mpr ⟨_, List.mem_filter.mpr ⟨isCandidate, ?_⟩, rfl⟩
      exact decide_eq_true (World.present_iff.mp holds.present)
  | _ =>
      trivial

/-- Intact stores in which the container holds a body stay such. -/
theorem sound_sparing :
    (serverRule (sparing container)).Sound byValue fun world =>
      world.Intact space ∧ world.HoldsBody container triples where
  keeps _ _ := by
    rintro ⟨intact, holds⟩ isCall
    refine ⟨intact.performByValue isCall, ?_⟩
    rw [byValue_world]
    exact isCall.canonical.holdsBody (fun differs => differs rfl) holds
  truthful _ call := by
    rintro ⟨intact, holds⟩ _
    exact ⟨intact.answersByValue call, holds.presenceAnswer call⟩
  tolerant call fault := by
    refine ⟨answers_of_failed call fault, ?_⟩
    cases call with
    | queryPresent candidates =>
        rintro nodes isReply
        cases isReply
    | _ =>
        trivial

omit [LiteralForms] in
/-- A probe of the container finds that the name is taken. -/
theorem probe_finds_container (agent : Agent) :
    (probeFor agent (.container container : Target space)).Obeys
      (serverRule (sparing container)) fun result =>
        ∀ guard, result = .ok guard → guard.isTaken = true := by
  have isCandidate :
      container.node ∈
        Guard.candidates (Target.container container).subject :=
    World.node_mem_candidates (.container container) List.mem_cons_self
  have asked :
      (existsMany
        (Guard.candidates (Target.container container).subject)).Obeys
          (serverRule (sparing container)) fun result =>
        ∀ present,
          result = .ok present →
          present.contains container.resource.iri = true := by
    unfold existsMany
    rw [if_neg (by simp [Guard.candidates, ResourceUrl.chain])]
    refine ⟨.read ⟨rfl, fun _ => rfl⟩, fun answer answered => ?_⟩
    cases answer with
    | error message =>
        rintro present isPresent
        cases isPresent
    | ok rows =>
        rintro present isPresent
        cases isPresent
        have found :=
          answered.2 rows rfl (List.mem_map.mpr ⟨_, isCandidate, rfl⟩)
        exact List.contains_iff_mem.mpr (List.mem_map.mpr ⟨_, found, rfl⟩)
  refine Program.Obeys.mapError (Program.Obeys.mapError (asked.bind ?_ ?_))
  · intro present found
    refine Program.Obeys.bind
      (ReadsOnly.scripted (readsOnly_loadChainAcls _ _))
      (fun acls _ => ?_) fun error _ guard isGuard => ?_
    · rintro guard isGuard
      cases isGuard
      have isThere := found present rfl
      rw [Guard.isTaken, Guard.targetExists]
      exact Bool.or_eq_true_iff.mpr (Or.inl isThere)
    · cases isGuard
  · rintro error _ guard isGuard
    cases isGuard

omit [LiteralForms] in
/-- A `POST` settles on no container that is there, with a UUID of its own. -/
theorem allocates_sparing
    {draws : Draws}
    (unretried : ¬ draws.retryName.text <:+: container.resource.path)
    (agent : Agent) (headers : HeaderMap) :
    (sparing container).Allocates agent headers draws := by
  intro parent
  have failed (response : Response) :
      ∀ settled : Guard space × Target space,
        Except.error response = .ok settled →
        (sparing container).Takes settled.2 :=
    fun settled impossible => by cases impossible
  unfold allocateChild
  dsimp only
  cases classify space _ with
  | error response =>
      exact failed response
  | ok child =>
      have probed :
          (probeFor agent child).Obeys (serverRule (sparing container))
            fun result =>
              ∀ guard,
                result = .ok guard →
                child = .container container → guard.isTaken = true := by
        by_cases isOwn : child = .container container
        · subst isOwn
          exact (probe_finds_container agent).mono
            fun result taken guard isGuard _ => taken guard isGuard
        · exact (ReadsOnly.scripted (readsOnly_probeFor agent child)).mono
            fun result _ guard _ isContainer => (isOwn isContainer).elim
      change Program.Obeys _ (probeFor agent child >>= _) _
      refine Program.Obeys.bind probed (fun guard finds => ?_)
        fun response _ => failed response
      split
      · cases resolves : classify space
            (parent.resource.path ++ (childName (headers.str? .slug)
              draws.childName ++ '-' :: draws.retryName.text ++ _)) with
        | error response =>
            exact failed response
        | ok retried =>
            change Program.Obeys _ (probeFor agent retried >>= _) _
            refine Program.Obeys.bind
              (ReadsOnly.scripted (readsOnly_probeFor agent retried))
              (fun again _ => ?_) fun response _ => failed response
            rintro settled isSettled other isOther rfl
            cases isSettled
            obtain ⟨url, isTarget, _, isPath⟩ :=
              ContainerUrl.resolve_child (by simp)
                (by simp [childName_slashFree, uuid_slashFree])
                (childEnding_cases headers) resolves
            have isUrl : url = other.resource := by
              have same : url.toTarget = .container other :=
                isTarget.symm.trans isOther
              rw [← url.subject_toTarget, same]
              rfl
            refine unretried ?_
            rw [← isUrl, isPath]
            refine ⟨parent.resource.path ++
              (childName (headers.str? .slug) draws.childName ++ ['-']),
                childEnding headers, ?_⟩
            simp
      · next free =>
          rintro settled isSettled other isOther rfl
          cases isSettled
          exact free (finds guard rfl isOther)

/--
Requests that may create and delete whatever they like, except that none is a
`PUT`, `PATCH` or `DELETE` of the container itself.
-/
def leavesContainer (container : ContainerUrl space) :
    World → Request → Faults → Prop :=
  fun world request _ =>
    (request.method ≠ .post →
        classify space request.path ≠ .ok (.container container)) ∧
      (request.method = .post → world.FreshRetry space request)

variable [QuadText] [RdfParser] [RdfSerializer] [ShapeEngine] [N3Parser]
variable {storeVersion : RdfVersion} {request : Request} {faults : Faults}

/-- Whatever happens elsewhere, a container keeps what a client wrote. -/
theorem World.HoldsBody.afterRequest
    (holds : world.HoldsBody container triples)
    (intact : world.Intact space)
    (leaves : leavesContainer container world request faults) :
    (afterRequestByValue space storeVersion request faults world).HoldsBody
      container triples := by
  have scripted :
      Scripted (sparing container) (handle space storeVersion request) := by
    refine scripted_handle lawful_sparing _ trivial ?_ fun isPost => ?_
    · rintro target classified notPost other rfl same
      exact leaves.1 notPost (same ▸ classified)
    · exact allocates_sparing
        (leaves.2 isPost container.resource holds.present) _ _
  have kept :
      Program.Ensures byValue True (handle space storeVersion request) world
        fun _ reached =>
          (reached.Intact space ∧ reached.HoldsBody container triples) ∧
            True :=
    Program.Obeys.ensures scripted sound_sparing ⟨intact, holds⟩
  exact (kept faults (Or.inl trivial)).1.2

theorem ReachableByValue.holdsBody
    {final : World}
    (reachable :
      ReachableByValue space storeVersion (· = world)
        (leavesContainer container) final)
    (holds : world.HoldsBody container triples)
    (intact : world.Intact space) :
    final.HoldsBody container triples := by
  have both :
      final.HoldsBody container triples ∧ final.Intact space := by
    refine reachable.invariant
      (fun world =>
        world.HoldsBody container triples ∧ world.Intact space) ?_ ?_
    · rintro _ rfl
      exact ⟨holds, intact⟩
    · rintro middle request faults ⟨middleHolds, middleIntact⟩ leaves
      exact ⟨middleHolds.afterRequest middleIntact leaves,
        middleIntact.afterRequestByValue request faults⟩
  exact both.1

end Requests

/-! ## What an accepted body leaves -/

section Accepted

variable [LiteralForms] [Sha256] [ObjectPath]
variable {world started after : World} {container : ContainerUrl space}
variable {dataset : Dataset} {fresh : Nat → Uuid}

/-- A container's write leaves the body, next to types and members. -/
theorem holdsBody_after_container
    {triples kept : List Triple}
    (members : ∀ triple ∈ kept, triple.predicate.iri = ldpContainsIri) :
    (byValue.after started
        ((StorageWrite.container container
          (skolemizedTriples fresh (triples ++ kept))).calls
            started)).HoldsBody container
      ((skolemizedTriples fresh triples).map GroundTriple.canonical) := by
  have written (name : Text) (triple : GroundTriple) :
      triple ∈
          (byValue.after started
            ((StorageWrite.container container
              (skolemizedTriples fresh (triples ++ kept))).calls
                started)).graphs name ↔
        (triple ∈ started.graphs name ∧ name ≠ container.resource.iri) ∨
          (name = container.resource.iri ∧
            triple ∈ (skolemizedTriples fresh (triples ++ kept)).map
              GroundTriple.canonical) ∨
            container.Asserts name triple := by
    have sameCalls :
        ((StorageWrite.container container
            (skolemizedTriples fresh (triples ++ kept))).calls started).map
              Call.canonical =
          (StorageWrite.container container
            ((skolemizedTriples fresh (triples ++ kept)).map
              GroundTriple.canonical)).calls started := by
      simp only [StorageWrite.calls, List.map_cons, List.map_nil,
        canonical_replaceContainerCall, canonical_ensureCall]
    rw [byValue_after, sameCalls]
    exact mem_after_container
  constructor
  · refine World.present_iff.mpr ((written _ _).mpr ?_)
    exact Or.inr (Or.inr (Or.inr ⟨rfl, rfl⟩))
  · intro triple unmanaged
    have whole :
        asQuads (triples ++ kept) = asQuads triples ++ asQuads kept :=
      List.map_append
    have inWhole :
        triple ∈ (skolemizedTriples fresh (triples ++ kept)).map
            GroundTriple.canonical ↔
          triple ∈ (skolemizedTriples fresh triples).map
            GroundTriple.canonical := by
      simp only [skolemizedTriples, Skolemized.skolemize, whole,
        Skolemized.groundQuads_append, List.map_append, List.mem_append]
      refine or_iff_left fun inKept => unmanaged (Or.inl ?_)
      obtain ⟨stored, isStored, rfl⟩ := List.mem_map.mp inKept
      obtain ⟨ground, isGround, rfl⟩ := List.mem_map.mp isStored
      obtain ⟨original, isOriginal, reached, rfl⟩ :=
        Skolemized.mem_groundQuads isGround
      obtain ⟨member, isMember, rfl⟩ := List.mem_map.mp isOriginal
      exact NamedNode.ext_iri (members member isMember)
    rw [written, ← inWhole]
    constructor
    · rintro (⟨_, elsewhere⟩ | ⟨_, inTriples⟩ | ⟨_, isType⟩ | ⟨isGraph, _⟩)
      · exact (elsewhere rfl).elim
      · exact inTriples
      · exact (unmanaged (Or.inr isType)).elim
      · exact (not_isHttp_sysGraphOf _
          (isGraph ▸ container.resource.isHttp)).elim
    · intro inTriples
      exact Or.inr (Or.inl ⟨rfl, inTriples⟩)

variable [QuadText] [RdfParser] [RdfSerializer] [ShapeEngine] [N3Parser]
variable {storeVersion : RdfVersion} {request : Request}
variable {format : Format} {declared : RdfVersion} {answer : Response}

/-- A checked body was the last that was written, next to members kept. -/
structure World.Wrote
    (world : World) (container : ContainerUrl space) (fresh : Nat → Uuid)
    (dataset : Dataset) : Prop where
  checked : checkBody (.container container) dataset = .ok ()
  written :
    ∃ (started : World) (kept : List Triple),
      (∀ triple ∈ kept, triple.predicate.iri = ldpContainsIri) ∧
        world =
          byValue.after started
            ((StorageWrite.container container
              (skolemizedTriples fresh
                (dataset.defaultGraphOnly.triplesOf ++ kept))).calls started)

omit [QuadText] [RdfParser] [RdfSerializer] [ShapeEngine] [N3Parser] in
/-- The write of a container succeeds with its two calls. -/
theorem eval_writeContainer {triples : List Triple} :
    Program.eval byValue
        (respond (.container container)
          (writeContainer fresh container triples)) started =
      (.ok (.created (.container container)),
        byValue.after started
          ((StorageWrite.container container
            (skolemizedTriples fresh triples)).calls started)) :=
  rfl

omit [QuadText] [RdfParser] [RdfSerializer] [ShapeEngine] [N3Parser] in
/-- A container `PUT` keeps members, whatever it reads. -/
theorem wrote_of_putContainer
    (checked : checkBody (.container container) dataset = .ok ())
    (succeeds :
      Program.eval byValue
          (putContainer fresh (.container container) container
            dataset.defaultGraphOnly.triplesOf) started =
        (.ok answer, after)) :
    after.Wrote container fresh dataset := by
  obtain ⟨existing, middle, _, succeeds⟩ := Program.eval_bind_eq_ok succeeds
  rw [eval_writeContainer] at succeeds
  cases succeeds
  refine ⟨checked, middle, _, fun triple isKept => ?_, rfl⟩
  exact beq_iff_eq.mp (List.mem_filter.mp isKept).2

omit [N3Parser] in
/-- An RDF body of a `PUT` for a container, when it is answered. -/
theorem wrote_of_putRdfRepr
    {guard : Guard space} {headers : HeaderMap}
    (succeeds :
      Program.eval byValue
          (putRdfRepr guard (.container container) headers fresh dataset
            format declared) world =
        (.ok answer, after)) :
    after.Wrote container fresh dataset := by
  obtain ⟨_, _, isChecked, succeeds⟩ := Program.eval_bind_eq_ok succeeds
  rw [Program.eval_ofExcept] at isChecked
  have checked : checkBody (.container container) dataset = .ok () :=
    congrArg Prod.fst isChecked
  obtain ⟨_, _, _, succeeds⟩ := Program.eval_bind_eq_ok succeeds
  obtain ⟨_, _, _, succeeds⟩ := Program.eval_bind_eq_ok succeeds
  obtain ⟨_, _, _, succeeds⟩ := Program.eval_bind_eq_ok succeeds
  obtain ⟨_, _, _, succeeds⟩ := Program.eval_bind_eq_ok succeeds
  obtain ⟨response, reached, isWritten, succeeds⟩ :=
    Program.eval_bind_eq_ok succeeds
  cases succeeds
  exact wrote_of_putContainer checked isWritten

omit [N3Parser] in
/-- An RDF body of a `POST` for a container, when it is answered. -/
theorem wrote_of_postRdfRepr
    {guard : Guard space}
    (succeeds :
      Program.eval byValue
          (postRdfRepr guard (.container container) fresh dataset format)
          world =
        (.ok answer, after)) :
    after.Wrote container fresh dataset := by
  obtain ⟨_, _, isChecked, succeeds⟩ := Program.eval_bind_eq_ok succeeds
  rw [Program.eval_ofExcept] at isChecked
  have checked : checkBody (.container container) dataset = .ok () :=
    congrArg Prod.fst isChecked
  obtain ⟨_, _, _, succeeds⟩ := Program.eval_bind_eq_ok succeeds
  obtain ⟨_, middle, _, succeeds⟩ := Program.eval_bind_eq_ok succeeds
  obtain ⟨response, reached, isWritten, succeeds⟩ :=
    Program.eval_bind_eq_ok succeeds
  cases succeeds
  rw [eval_writeContainer] at isWritten
  cases isWritten
  refine ⟨checked, middle, [], by simp, ?_⟩
  rw [List.append_nil]

/-- An accepted `PUT` or `POST` of RDF that writes a container. -/
structure AcceptsContainer
    (storeVersion : RdfVersion) (world : World) (request : Request)
    (container : ContainerUrl space) (dataset : Dataset) (after : World) :
    Prop where
  sends : request.method = .put ∨ request.method = .post
  writes : world.writtenTarget space request = .ok (.container container)
  classified :
    ∃ format declared,
      classifyBody request.headers request.body (.container container)
        storeVersion = .ok (.rdf dataset format declared)
  answered :
    ∃ answer,
      Program.eval byValue (handle space storeVersion request) world =
          (.ok answer, after) ∧
        answer.isSuccess = true

/-- An accepted body was checked and written, next to the members kept. -/
theorem AcceptsContainer.wrote
    (accepts :
      AcceptsContainer storeVersion world request container dataset after) :
    after.Wrote container request.draws.blank dataset := by
  obtain ⟨sends, writes, ⟨format, declared, classified⟩, answer, succeeds,
    isSuccess⟩ := accepts
  obtain ⟨target, middle, resolves, succeeds⟩ :=
    Program.eval_bind_eq_ok succeeds
  rw [Program.eval_ofExcept] at resolves
  obtain rfl : world = middle := congrArg Prod.snd resolves
  have isTarget : classify space request.path = .ok target :=
    congrArg Prod.fst resolves
  unfold World.writtenTarget at writes
  rw [isTarget] at writes
  unfold handleTarget at succeeds
  rcases sends with isPut | isPost
  · rw [isPut] at writes succeeds
    cases writes
    obtain ⟨guard, middle, _, succeeds⟩ := Program.eval_bind_eq_ok succeeds
    obtain ⟨decision, middle, _, succeeds⟩ := Program.eval_bind_eq_ok succeeds
    obtain ⟨repr, middle, isClassified, succeeds⟩ :=
      Program.eval_bind_eq_ok succeeds
    rw [Program.eval_ofExcept] at isClassified
    cases classified.symm.trans (congrArg Prod.fst isClassified)
    exact wrote_of_putRdfRepr succeeds
  · rw [isPost] at writes succeeds
    unfold postImpl at succeeds
    obtain ⟨parentGuard, probed, isProbed, succeeds⟩ :=
      Program.eval_bind_eq_ok succeeds
    have sameProbed :=
      (readsOnly_probeFor request.agent target).eval_byValue_world world
    rw [isProbed] at sameProbed
    obtain rfl : world = probed := sameProbed.symm
    obtain ⟨decision, middle, isGranted, succeeds⟩ :=
      Program.eval_bind_eq_ok succeeds
    rw [orDeny, Program.eval_ofExcept] at isGranted
    obtain rfl : world = middle := congrArg Prod.snd isGranted
    cases target with
    | resource url leaf =>
        cases succeeds
    | aux url =>
        cases succeeds
    | container parent =>
        obtain ⟨⟨guard, child⟩, middle, isAllocated, succeeds⟩ :=
          Program.eval_bind_eq_ok succeeds
        rw [(canonicalOnly_allocateChild _ _ _ _).eval_byValue]
          at isAllocated
        have ensured :
            Program.Ensures backend True
              (allocateChild request.agent parent request.headers
                request.draws)
              world _ :=
          ensures_allocateChild_settled request parent
        have settled := ensured.eval
        rw [isAllocated] at settled
        dsimp only at settled succeeds
        obtain ⟨_, isChild⟩ := settled
        cases (isChild _ rfl).symm.trans writes
        obtain ⟨repr, classifiedWorld, isClassified, succeeds⟩ :=
          Program.eval_bind_eq_ok succeeds
        rw [Program.eval_ofExcept] at isClassified
        cases classified.symm.trans (congrArg Prod.fst isClassified)
        exact wrote_of_postRdfRepr succeeds

/-- An accepted body is what its container holds of a client. -/
theorem AcceptsContainer.holdsBody
    (accepts :
      AcceptsContainer storeVersion world request container dataset after)
    (intact : world.Intact space) :
    after.HoldsBody container
        ((skolemizedTriples request.draws.blank
          dataset.defaultGraphOnly.triplesOf).map GroundTriple.canonical) ∧
      after.Intact space := by
  obtain ⟨started, kept, members, isAfter⟩ := accepts.wrote.written
  obtain ⟨answer, succeeds, _⟩ := accepts.answered
  have ran :
      afterRequestByValue space storeVersion request [] world = after := by
    rw [afterRequestByValue, Program.run_nil, succeeds]
  constructor
  · rw [isAfter]
    exact holdsBody_after_container members
  · rw [← ran]
    exact intact.afterRequestByValue request []

end Accepted

end Quadpod
