import Quadpod.ReferencePod
import Quadpod.Traversal
import Quadpod.WholeAuxiliaries

namespace Quadpod

open AtomicProgram
open GraphStore

/-!
# No change without a grant

Every graph and object a request changes belongs to a resource or an auxiliary
on which the agent was granted the mode the change calls for, by the nearest ACL
of the world the request found.  The grants are listed by what the request does:
a method, its target, and how what changed is related to the target.
-/

variable [IriSyntax] {space : StorageSpace} {mayFail : Prop}

/-! ## Grants -/

/-- The nearest ACL grants an agent a mode on a resource. -/
def World.Grants
    (world : World) (agent : Agent) (url : ResourceUrl space)
    (mode : Mode) : Prop :=
  ∃ decision, world.decision agent url mode = .ok decision

/-- Whether a set of required modes holds one. -/
def RequiredModes.demands (required : RequiredModes) : Mode → Bool
  | .read => required.read
  | .append => required.append
  | .write => required.write
  | .control => false

/-- A decision made for one mode grants every mode it lists. -/
theorem World.nearestDecision_of_user
    {world : World} {agent : Agent} {mode other : Mode} {inherited : Bool}
    {chain : List (ResourceUrl space)} {decision : Decision}
    (decided :
      world.nearestDecision agent mode inherited chain = .ok decision)
    (allowed : decision.user.allows other = true) :
    world.nearestDecision agent other inherited chain = .ok decision := by
  induction chain generalizing inherited with
  | nil =>
      cases decided
  | cons element above inductionHypothesis =>
      rw [nearestDecision] at decided ⊢
      split at decided
      · next isPresent =>
          rw [if_pos isPresent]
          unfold judge at decided ⊢
          dsimp only at decided ⊢
          split at decided
          · cases decided
            rw [if_pos allowed]
          · cases decided
      · next isAbsent =>
          rw [if_neg isAbsent]
          exact inductionHypothesis decided

/-- A patch that may be applied has all the modes it requires. -/
theorem World.grants_of_satisfied
    {world : World} {agent : Agent} {url : ResourceUrl space} {mode : Mode}
    {decision : Decision} {required : RequiredModes}
    (decided : world.decision agent url mode = .ok decision)
    (satisfied : required.satisfiedBy decision.user = true)
    {other : Mode} (demanded : required.demands other = true) :
    world.Grants agent url other := by
  refine ⟨decision, World.nearestDecision_of_user decided ?_⟩
  obtain ⟨read, append, write⟩ := required
  simp only [RequiredModes.satisfiedBy, Bool.and_eq_true, Bool.or_eq_true,
    Bool.not_eq_true'] at satisfied
  obtain ⟨⟨mayRead, mayAppend⟩, mayWrite⟩ := satisfied
  cases other with
  | read =>
      exact mayRead.resolve_left (ne_false_of_eq_true demanded)
  | append =>
      exact mayAppend.resolve_left (ne_false_of_eq_true demanded)
  | write =>
      exact mayWrite.resolve_left (ne_false_of_eq_true demanded)
  | control =>
      cases demanded

/-- The resources a request was granted to change, and by which mode. -/
inductive GrantedResource [N3Parser]
    (world : World) (request : Request) (target : Target space) :
    ResourceUrl space → Prop where
  | putTarget
      (isPut : request.method = .put)
      (notAux : target.isAux = false)
      (granted : world.Grants request.agent target.subject .write) :
      GrantedResource world request target target.subject
  | putAncestor (container : ContainerUrl space)
      (isPut : request.method = .put)
      (isAncestor : container ∈ target.subject.ancestors)
      (granted : world.Grants request.agent container.resource .append) :
      GrantedResource world request target container.resource
  | postedChild (parent : ContainerUrl space) (child : ResourceUrl space)
      (isPost : request.method = .post)
      (onContainer : target = .container parent)
      (isChild : child.parent = some parent)
      (granted : world.Grants request.agent parent.resource .append) :
      GrantedResource world request target child
  | postAncestor (parent container : ContainerUrl space)
      (isPost : request.method = .post)
      (onContainer : target = .container parent)
      (isAncestor : container.resource ∈ parent.resource.chain)
      (granted : world.Grants request.agent container.resource .append) :
      GrantedResource world request target container.resource
  | patchTarget (patch : Patch)
      (isPatch : request.method = .patch)
      (notAux : target.isAux = false)
      (parsed : parsePatch request.body target = .ok patch)
      (appends : world.Grants request.agent target.subject .append)
      (granted :
        ∀ mode,
          patch.requiredModes.demands mode = true →
          world.Grants request.agent target.subject mode) :
      GrantedResource world request target target.subject
  | patchAncestor (container : ContainerUrl space)
      (isPatch : request.method = .patch)
      (isAncestor : container ∈ target.subject.ancestors)
      (granted : world.Grants request.agent container.resource .append) :
      GrantedResource world request target container.resource
  | deleteTarget
      (isDelete : request.method = .delete)
      (notAux : target.isAux = false)
      (granted : world.Grants request.agent target.subject .write) :
      GrantedResource world request target target.subject
  | deleteParent (parent : ContainerUrl space)
      (isDelete : request.method = .delete)
      (notAux : target.isAux = false)
      (isParent : target.subject.parent = some parent)
      (granted : world.Grants request.agent parent.resource .write) :
      GrantedResource world request target parent.resource

/-- The auxiliaries a request was granted to change, by control of the subject. -/
inductive GrantedAux
    (world : World) (request : Request) (target : Target space) :
    AuxUrl space → Prop where
  | written (aux : AuxUrl space)
      (onAux : target = .aux aux)
      (granted : world.Grants request.agent aux.subject .control) :
      GrantedAux world request target aux
  | cascaded (kind : AuxKind)
      (isDelete : request.method = .delete)
      (notAux : target.isAux = false)
      (granted : world.Grants request.agent target.subject .control) :
      GrantedAux world request target (target.subject.aux kind)

/-- A graph belongs to something a request was granted to change. -/
def GrantedGraph [Sha256] [N3Parser]
    (world : World) (request : Request) (target : Target space)
    (name : Text) : Prop :=
  (∃ url, GrantedResource world request target url ∧ url.Owns name) ∨
    ∃ aux, GrantedAux world request target aux ∧ aux.Owns name

/-- An object belongs to something a request was granted to change. -/
def GrantedObject [ObjectPath] [N3Parser]
    (world : World) (request : Request) (target : Target space)
    (key : BlobKey) : Prop :=
  ∃ url,
    GrantedResource world request target url ∧ BlobKey.of url = some key

/-! ## What each write belongs to -/

section Writes

variable [Sha256] [ObjectPath]

/-- The graphs of a target. -/
def Target.Owns (target : Target space) (name : Text) : Prop :=
  match target with
  | .resource url _ => url.Owns name
  | .container url => url.resource.Owns name
  | .aux url => url.Owns name

/-- A write to a target: it stays inside the target's graphs and object. -/
structure StorageWrite.Inside
    (write : StorageWrite space) (target : Target space) : Prop where
  graphs : ∀ name, write.Touches name → target.Owns name
  owner :
    ∀ url,
      write.objectOwner = some url →
      target.isAux = false ∧ target.subject = url
  keyed :
    ∀ url key bytes mediaType,
      write = .blob url key bytes mediaType → BlobKey.of url = some key

theorem BodyWrite.inside
    {fresh : Nat → Uuid} {kept : List Triple} {repr : Repr}
    {target : Target space} {write : StorageWrite space}
    (isWrite : BodyWrite fresh kept repr target write) :
    write.Inside target := by
  cases isWrite with
  | blob url leaf key bytes mediaType keyed =>
      refine ⟨fun _ owns => owns, ?_, ?_⟩
      · rintro other same
        cases same
        exact ⟨rfl, rfl⟩
      · rintro other given body media same
        cases same
        exact keyed
  | dataset url leaf body format declared checked =>
      refine ⟨fun _ owns => owns, ?_, ?_⟩
      · rintro other same
        cases same
        exact ⟨rfl, rfl⟩
      · rintro other given body media same
        cases same
  | container url body format declared checked =>
      refine ⟨fun _ owns => ContainerUrl.Owns.resource owns, ?_, ?_⟩
      · rintro other same
        cases same
      · rintro other given body media same
        cases same
  | auxiliary url body format declared checked small =>
      refine ⟨fun _ owns => owns, ?_, ?_⟩
      · rintro other same
        cases same
      · rintro other given body media same
        cases same
  | oversized url body format declared large =>
      refine ⟨fun _ impossible => impossible.elim, ?_, ?_⟩
      · rintro other same
        cases same
      · rintro other given body media same
        cases same

omit [ObjectPath] in
theorem PatchWrite.touches_inside
    {fresh : Nat → Uuid} {triples : List Triple}
    {target : Target space} {write : StorageWrite space}
    (isWrite : PatchWrite fresh triples target write)
    {name : Text} (touches : write.Touches name) :
    target.Owns name := by
  cases isWrite with
  | dataset url leaf body grounded =>
      exact touches
  | container url =>
      exact ContainerUrl.Owns.resource touches

theorem PatchWrite.inside
    {fresh : Nat → Uuid} {triples : List Triple}
    {target : Target space} {write : StorageWrite space}
    (isWrite : PatchWrite fresh triples target write) :
    write.Inside target := by
  refine ⟨fun _ touches => isWrite.touches_inside touches, ?_, ?_⟩
  · intro url isOwner
    cases isWrite with
    | dataset other leaf body grounded =>
        cases isOwner
        exact ⟨rfl, rfl⟩
    | container other =>
        cases isOwner
  · rintro url key bytes mediaType rfl
    cases isWrite

omit [ObjectPath] in
theorem Target.owns_of_patch
    {target : Target space} {name : Text}
    {change : Option (List TemplateTriple × List TemplateTriple)}
    (touches : (StorageWrite.patch target change).Touches name) :
    target.Owns name := by
  cases target with
  | resource url leaf =>
      exact Or.inl touches
  | container url =>
      exact ContainerUrl.Owns.resource touches
  | aux url =>
      exact Or.inl touches

/-! ## Requests -/

variable [N3Parser]
variable {world reached : World} {request : Request} {target : Target space}

omit [ObjectPath] in
/-- The graphs of a target, once its resource or its auxiliary is granted. -/
theorem Target.Owns.granted
    {on : Target space} {name : Text}
    (owns : on.Owns name)
    (resource :
      on.isAux = false → GrantedResource world request target on.subject)
    (auxiliary :
      ∀ aux, on = .aux aux → GrantedAux world request target aux) :
    GrantedGraph world request target name := by
  cases on with
  | resource url leaf =>
      exact Or.inl ⟨url, resource rfl, owns⟩
  | container url =>
      exact Or.inl ⟨url.resource, resource rfl, owns⟩
  | aux url =>
      exact Or.inr ⟨url, auxiliary url rfl, owns⟩

omit [N3Parser] in
/-- A staged write changes its target and the containers of its plan. -/
theorem Staged.changed
    (on : Target space)
    {plan : List (ContainerUrl space × Option NamedNode)}
    {admits : World → StorageWrite space → Prop}
    (staged : Staged mayFail world plan admits reached)
    (owned : world.RegistersOwn space)
    (inside : ∀ started write, admits started write → write.Inside on) :
    (∀ name,
        reached.graphs name ≠ world.graphs name →
        on.Owns name ∨ ∃ step ∈ plan, step.1.resource.Owns name) ∧
      ∀ key,
        reached.blobs key ≠ world.blobs key →
        on.isAux = false ∧ BlobKey.of on.subject = some key := by
  have planGraphs :
      ∀ middle name,
        backend.Performs mayFail world (planCalls plan) middle →
        (¬ ∃ step ∈ plan, step.1.resource.Owns name) →
        middle.graphs name = world.graphs name := by
    intro middle name performs notPlanned
    refine Performs.graphs_eq performs fun call member touched => ?_
    obtain ⟨step, inPlan, owns⟩ := touches_planCalls member touched
    exact notPlanned ⟨step, inPlan, owns.resource⟩
  have planObjects :
      ∀ middle key,
        backend.Performs mayFail world (planCalls plan) middle →
        middle.blobs key = world.blobs key := by
    intro middle key performs
    refine Performs.blobs_eq performs fun call member changed => ?_
    rw [keys_planCalls member] at changed
    cases changed
  have planPerforms :
      backend.Performs mayFail world (planCalls plan)
        (backend.after world (planCalls plan)) :=
    backend.performs_all world _
  have planOwned :
      (backend.after world (planCalls plan)).RegistersOwn space :=
    owned.performs planPerforms fun call member => registers_planCalls member
  rcases staged with ⟨_, performs⟩ | ⟨write, admitted, performs⟩
  · constructor
    · intro name changed
      by_contra untouched
      rw [not_or] at untouched
      exact changed (planGraphs reached name performs untouched.2)
    · intro key changed
      exact (changed (planObjects reached key performs)).elim
  · have within := inside _ write admitted
    constructor
    · intro name changed
      by_contra untouched
      rw [not_or] at untouched
      refine changed
        (Eq.trans ?_ (planGraphs _ name planPerforms untouched.2))
      refine Performs.graphs_eq performs fun call member touched => ?_
      exact untouched.1
        (within.graphs name (StorageWrite.calls_touch planOwned member touched))
    · intro key changed
      by_contra notKeyed
      refine changed (Eq.trans ?_ (planObjects _ key planPerforms))
      refine Performs.blobs_eq performs fun call member isKey => ?_
      obtain ⟨url, isOwner, keyed⟩ :=
        StorageWrite.calls_keys within.keyed member isKey
      obtain ⟨notAux, rfl⟩ := within.owner url isOwner
      exact notKeyed ⟨notAux, keyed⟩

/-- Whatever a staged write changes is granted with its plan and its target. -/
theorem Staged.granted
    (on : Target space)
    {plan : List (ContainerUrl space × Option NamedNode)}
    {admits : World → StorageWrite space → Prop}
    (staged : Staged mayFail world plan admits reached)
    (owned : world.RegistersOwn space)
    (inside : ∀ started write, admits started write → write.Inside on)
    (planned :
      ∀ step ∈ plan, GrantedResource world request target step.1.resource)
    (resource :
      on.isAux = false → GrantedResource world request target on.subject)
    (auxiliary :
      ∀ aux, on = .aux aux → GrantedAux world request target aux) :
    (∀ name,
        reached.graphs name ≠ world.graphs name →
        GrantedGraph world request target name) ∧
      ∀ key,
        reached.blobs key ≠ world.blobs key →
        GrantedObject world request target key := by
  obtain ⟨graphs, objects⟩ := staged.changed on owned inside
  constructor
  · intro name changed
    rcases graphs name changed with owns | ⟨step, inPlan, owns⟩
    · exact owns.granted resource auxiliary
    · exact Or.inl ⟨_, planned step inPlan, owns⟩
  · intro key changed
    obtain ⟨notAux, keyed⟩ := objects key changed
    exact ⟨_, resource notAux, keyed⟩

omit [Sha256] [ObjectPath] [N3Parser] in
theorem World.grants_of_authorization
    {agent : Agent} {mode : Mode} {decision : Decision}
    (authorized : world.authorization agent target mode = .ok decision)
    (notAux : target.isAux = false) :
    world.decision agent target.subject mode = .ok decision := by
  cases target with
  | resource url leaf =>
      exact authorized
  | container url =>
      exact authorized
  | aux url =>
      cases notAux

omit [Sha256] [ObjectPath] [N3Parser] in
theorem World.grants_control_of_authorization
    {agent : Agent} {mode : Mode} {decision : Decision} {aux : AuxUrl space}
    (authorized :
      world.authorization agent (.aux aux) mode = .ok decision) :
    world.Grants agent aux.subject .control :=
  ⟨decision, authorized⟩

omit [Sha256] [ObjectPath] [N3Parser] in
/-- An auxiliary that a cascade removes and that exists takes control. -/
theorem World.grants_control_of_present
    {agent : Agent} {decisions : List (Option Decision)} {kind : AuxKind}
    (authorized :
      AuxKind.all.mapM (world.guard agent target).authorizeAux =
        .ok decisions)
    (isPresent : world.present (target.subject.aux kind).node = true) :
    world.Grants agent target.subject .control := by
  have probed :
      (world.guard agent target).present.contains
          ((world.guard agent target).target.subject.aux kind).iri =
        true := by
    rw [← isPresent]
    exact world.guard_present agent target
      (World.aux_mem_candidates target (World.subject_mem_chain target) kind)
  obtain ⟨result, isResult⟩ := Traversal.ok_of_mem authorized kind.mem_all
  have position :
      target.subject.chain.drop 0 = target.subject.chain :=
    List.drop_zero
  rw [Guard.authorizeAux, if_pos probed,
    World.guard_decideFrom_chain position] at isResult
  cases decided :
      world.decision agent target.subject (requiredModeForAux kind) with
  | error denial =>
      rw [decided] at isResult
      cases isResult
  | ok decision =>
      cases kind with
      | acl =>
          exact ⟨decision, decided⟩

omit [Sha256] [ObjectPath] [N3Parser] in
/-- The parent of what is deleted takes write. -/
theorem World.grants_of_authorizeParent
    {agent : Agent} {mode : Mode} {result : Option Decision}
    {parent : ContainerUrl space}
    (authorized :
      (world.guard agent target).authorizeParent mode = .ok result)
    (isParent : target.subject.parent = some parent) :
    world.Grants agent parent.resource mode := by
  have chained := ResourceUrl.chain_of_parent isParent
  have position :
      target.subject.chain.drop 1 = parent.resource.chain := by
    rw [chained]
    rfl
  have isLong : ¬ (world.guard agent target).chain.length < 2 := by
    rw [World.guard_chain, chained, ResourceUrl.chain]
    simp
  rw [Guard.authorizeParent, if_neg isLong,
    World.guard_decideFrom_chain position] at authorized
  cases decided : world.decision agent parent.resource mode with
  | error denial =>
      rw [decided] at authorized
      cases authorized
  | ok decision =>
      exact ⟨decision, decided⟩

omit [N3Parser] in
theorem StorageWrite.blobs_eq
    {write : StorageWrite space}
    (noOwner : write.objectOwner = none)
    (performs :
      backend.Performs mayFail world (write.calls world) reached)
    (key : BlobKey) :
    reached.blobs key = world.blobs key := by
  refine Performs.blobs_eq performs fun call member changed => ?_
  obtain ⟨url, isOwner, _⟩ :=
    StorageWrite.calls_keys
      (by
        rintro url given bytes mediaType rfl
        cases noOwner)
      member changed
  rw [noOwner] at isOwner
  cases isOwner

omit [N3Parser] in
/-- A deletion changes its subject, the auxiliaries there were and the parent. -/
theorem changed_deleteSubject
    {subject : ResourceUrl space}
    (owned : world.RegistersOwn space)
    (whole : world.AuxWhole space)
    (performs :
      backend.Performs mayFail world
        ((StorageWrite.deleteSubject subject).calls world) reached) :
    (∀ name,
        reached.graphs name ≠ world.graphs name →
        subject.Owns name ∨
          (∃ kind,
            world.present (subject.aux kind).node = true ∧
              (subject.aux kind).Owns name) ∨
          ∃ parent,
            subject.parent = some parent ∧ name = parent.resource.iri) ∧
      ∀ key,
        reached.blobs key ≠ world.blobs key →
        BlobKey.of subject = some key := by
  constructor
  · intro name changed
    by_contra untouched
    refine changed (Performs.graphs_eq performs ?_)
    intro call member touched
    rcases StorageWrite.calls_touch owned member touched with
        owns | ⟨kind, owns⟩ | ⟨parent, isParent, isGraph⟩
    · exact untouched (Or.inl owns)
    · by_cases isPresent : world.present (subject.aux kind).node = true
      · exact untouched (Or.inr (Or.inl ⟨kind, isPresent, owns⟩))
      · have wasEmpty :=
          whole _ (Bool.eq_false_iff.mpr isPresent) name
        refine changed ?_
        rw [Graph.eq_empty fun triple => wasEmpty triple owns]
        refine Graph.eq_empty fun triple isThere => ?_
        rcases Performs.mem_graphs performs isThere with
            old | ⟨other, inCalls, isAdded⟩
        · exact wasEmpty triple owns old
        · exact StorageWrite.calls_add inCalls isAdded
    · exact untouched (Or.inr (Or.inr ⟨parent, isParent, isGraph⟩))
  · intro key changed
    by_contra notKeyed
    refine changed (Performs.blobs_eq performs ?_)
    intro call member isKey
    obtain ⟨url, isOwner, keyed⟩ :=
      StorageWrite.calls_keys
        (fun _ _ _ _ impossible => by cases impossible) member isKey
    cases isOwner
    exact notKeyed keyed

/-- What a deletion changes is what its cascade was granted. -/
theorem granted_deleteSubject
    {decision : Decision} {parentDecision : Option Decision}
    {auxDecisions : List (Option Decision)}
    (owned : world.RegistersOwn space)
    (whole : world.AuxWhole space)
    (isDelete : request.method = .delete)
    (notAux : target.isAux = false)
    (authorized :
      world.authorization request.agent target .write = .ok decision)
    (parentAuthorized :
      (world.guard request.agent target).authorizeParent .write =
        .ok parentDecision)
    (auxAuthorized :
      AuxKind.all.mapM (world.guard request.agent target).authorizeAux =
        .ok auxDecisions)
    (performs :
      backend.Performs mayFail world
        ((StorageWrite.deleteSubject target.subject).calls world)
        reached) :
    (∀ name,
        reached.graphs name ≠ world.graphs name →
        GrantedGraph world request target name) ∧
      ∀ key,
        reached.blobs key ≠ world.blobs key →
        GrantedObject world request target key := by
  have resource : GrantedResource world request target target.subject :=
    .deleteTarget isDelete notAux
      ⟨decision, World.grants_of_authorization authorized notAux⟩
  obtain ⟨graphs, objects⟩ := changed_deleteSubject owned whole performs
  constructor
  · intro name changed
    rcases graphs name changed with
        owns | ⟨kind, isPresent, owns⟩ | ⟨parent, isParent, isGraph⟩
    · exact Or.inl ⟨_, resource, owns⟩
    · exact Or.inr ⟨_, .cascaded kind isDelete notAux
        (World.grants_control_of_present auxAuthorized isPresent), owns⟩
    · refine Or.inl ⟨parent.resource, ?_, Or.inl isGraph⟩
      exact .deleteParent parent isDelete notAux isParent
        (World.grants_of_authorizeParent parentAuthorized isParent)
  · intro key changed
    exact ⟨_, resource, objects key changed⟩

/-- Whatever a request changes, it was granted to change. -/
theorem RequestEffect.granted
    [RdfParser] {storeVersion : RdfVersion}
    (effect :
      RequestEffect mayFail storeVersion world request target reached)
    (owned : world.RegistersOwn space)
    (whole : world.AuxWhole space) :
    (∀ name,
        reached.graphs name ≠ world.graphs name →
        GrantedGraph world request target name) ∧
      ∀ key,
        reached.blobs key ≠ world.blobs key →
        GrantedObject world request target key := by
  cases effect with
  | unchanged =>
      exact ⟨fun _ changed => (changed rfl).elim,
        fun _ changed => (changed rfl).elim⟩
  | @put _ decision walk isPut authorized walked staged =>
      have materializes := World.materializes walked
      refine staged.granted target owned
        (fun started write admitted => ?_) (fun step inPlan => ?_)
        (fun notAux => ?_) (fun aux onAux => ?_)
      · obtain ⟨repr, _, isWrite⟩ := admitted
        exact isWrite.inside
      · exact .putAncestor step.1 isPut (materializes.above step inPlan)
          (materializes.authorized step inPlan)
      · exact .putTarget isPut notAux
          ⟨decision, World.grants_of_authorization authorized notAux⟩
      · subst onAux
        exact .written aux rfl
          (World.grants_control_of_authorization authorized)
  | @post _ decision walk parent child isPost onContainer authorized allocated
        walked staged =>
      subst onContainer
      have materializes := World.materializes walked
      obtain ⟨url, rfl, isParent⟩ := allocated.exists_url
      have above := ResourceUrl.ancestors_of_parent isParent
      rw [← url.subject_toTarget] at isParent above
      refine staged.granted url.toTarget owned
        (fun started write admitted => ?_) (fun step inPlan => ?_)
        (fun notAux => ?_) (fun aux onAux => ?_)
      · obtain ⟨repr, _, isWrite⟩ := admitted
        exact isWrite.inside
      · refine .postAncestor parent step.1 isPost rfl ?_
          (materializes.authorized step inPlan)
        have isAbove := materializes.above step inPlan
        rw [above] at isAbove
        exact List.mem_map_of_mem isAbove
      · exact .postedChild parent _ isPost rfl isParent ⟨decision, authorized⟩
      · exact (url.toTarget_ne_aux aux onAux).elim
  | @patch decision patch change _ isPatch authorized parsed granted
        targetPresent contained changes performs =>
      refine ⟨fun name changed => ?_, fun key changed =>
        (changed (StorageWrite.blobs_eq rfl performs key)).elim⟩
      by_contra notGranted
      refine changed (Performs.graphs_eq performs ?_)
      intro call member touched
      have owns :=
        Target.owns_of_patch (StorageWrite.calls_touch owned member touched)
      refine notGranted (owns.granted (fun notAux => ?_) (fun aux onAux => ?_))
      · have decided := World.grants_of_authorization authorized notAux
        exact .patchTarget patch isPatch notAux parsed ⟨decision, decided⟩
          fun mode demanded =>
            World.grants_of_satisfied decided (granted notAux) demanded
      · subst onAux
        exact .written aux rfl
          (World.grants_control_of_authorization authorized)
  | @create decision patch triples walk _ isPatch authorized parsed granted
        absent contained ground walked staged =>
      have materializes := World.materializes walked
      refine staged.granted target owned
        (fun started write admitted => ?_) (fun step inPlan => ?_)
        (fun notAux => ?_) (fun aux onAux => ?_)
      · exact admitted.inside
      · exact .patchAncestor step.1 isPatch (materializes.above step inPlan)
          (materializes.authorized step inPlan)
      · have decided := World.grants_of_authorization authorized notAux
        exact .patchTarget patch isPatch notAux parsed ⟨decision, decided⟩
          fun mode demanded =>
            World.grants_of_satisfied decided granted demanded
      · subst onAux
        exact .written aux rfl
          (World.grants_control_of_authorization authorized)
  | @deleteAux decision url _ isDelete onAux authorized performs =>
      subst onAux
      refine ⟨fun name changed => ?_, fun key changed =>
        (changed (StorageWrite.blobs_eq rfl performs key)).elim⟩
      by_contra notGranted
      refine changed (Performs.graphs_eq performs ?_)
      intro call member touched
      refine notGranted (Or.inr ⟨url, .written url rfl
        (World.grants_control_of_authorization authorized), ?_⟩)
      exact StorageWrite.calls_touch owned member touched
  | deleteSubject isDelete notAux authorized parentAuthorized auxAuthorized _
        performs =>
      exact granted_deleteSubject owned whole isDelete notAux authorized
        parentAuthorized auxAuthorized performs

end Writes

/-! ## Runs -/

section Reachable

variable [Sha256] [ObjectPath] [QuadText]
variable [RdfParser] [RdfSerializer] [ShapeEngine] [N3Parser]
variable {storeVersion : RdfVersion}

/-- A resource differs in its triples, its system graph or its object. -/
def ResourceUrl.Differs
    (url : ResourceUrl space) (world reached : World) : Prop :=
  reached.graphs url.iri ≠ world.graphs url.iri ∨
    reached.graphs (sysGraphOf url.iri) ≠
      world.graphs (sysGraphOf url.iri) ∨
    ∃ key,
      BlobKey.of url = some key ∧ reached.blobs key ≠ world.blobs key

/-- An auxiliary differs in its triples or its system graph. -/
def AuxUrl.Differs
    (url : AuxUrl space) (world reached : World) : Prop :=
  reached.graphs url.iri ≠ world.graphs url.iri ∨
    reached.graphs (sysGraphOf url.iri) ≠ world.graphs (sysGraphOf url.iri)

/-- Everything a request changed was granted on the world it found. -/
structure ChangesGranted
    (world reached : World) (request : Request) (target : Target space) :
    Prop where
  resources :
    ∀ url : ResourceUrl space,
      url.Differs world reached → GrantedResource world request target url
  auxiliaries :
    ∀ aux : AuxUrl space,
      aux.Differs world reached → GrantedAux world request target aux
  graphs :
    ∀ name,
      reached.graphs name ≠ world.graphs name →
      GrantedGraph world request target name
  objects :
    ∀ key,
      reached.blobs key ≠ world.blobs key →
      GrantedObject world request target key

omit [ObjectPath] [QuadText] [RdfParser] [RdfSerializer] [ShapeEngine] in
theorem GrantedGraph.resource
    {world : World} {request : Request} {target : Target space}
    {url : ResourceUrl space} {name : Text}
    (granted : GrantedGraph world request target name)
    (isOwn : name = url.iri ∨ name = sysGraphOf url.iri) :
    GrantedResource world request target url := by
  rcases granted with ⟨other, isGranted, owns⟩ | ⟨aux, _, owns⟩
  · have same : other = url := by
      refine ResourceUrl.Owns.eq_of_iri ?_
      rcases isOwn with rfl | rfl
      · exact Or.inl owns
      · exact Or.inr owns
    exact same ▸ isGranted
  · rcases isOwn with rfl | rfl
    · exact ((aux.not_owns_resource url).1 owns).elim
    · exact ((aux.not_owns_resource url).2 owns).elim

omit [ObjectPath] [QuadText] [RdfParser] [RdfSerializer] [ShapeEngine] in
theorem GrantedGraph.auxiliary
    {world : World} {request : Request} {target : Target space}
    {aux : AuxUrl space} {name : Text}
    (granted : GrantedGraph world request target name)
    (isOwn : aux.Owns name) :
    GrantedAux world request target aux := by
  rcases granted with ⟨url, _, owns⟩ | ⟨other, isGranted, owns⟩
  · exact (ResourceUrl.not_owns_of_aux isOwn owns).elim
  · exact AuxUrl.eq_of_owns owns isOwn ▸ isGranted

/--
In every world a provisioned pod reaches, whatever a request by any agent
changes, with whatever store calls failing: it changes nothing, or its path
names a target and each resource, auxiliary, graph and object that differs
afterwards was covered by the nearest-ACL decision of the world it found.
-/
theorem changes_granted_reachable
    {world : World}
    (reachable :
      Reachable space storeVersion (Provisioned space) anyRequest world)
    (request : Request) (faults : Faults) :
    afterRequest space storeVersion request faults world = world ∨
      ∃ target : Target space,
        classify space request.path = .ok target ∧
          ChangesGranted world
            (afterRequest space storeVersion request faults world)
            request target := by
  have owned : world.RegistersOwn space :=
    reachable.registersOwn fun _ provisioned => provisioned.registersOwn
  have whole : world.AuxWhole space := reachable.auxWhole
  rcases afterRequest_cases True (Or.inl trivial) with
      same | ⟨target, classified, effect⟩
  · exact Or.inl same
  · obtain ⟨graphs, objects⟩ := effect.granted owned whole
    refine Or.inr ⟨target, classified, ?_, ?_, graphs, objects⟩
    · rintro url (changed | changed | ⟨key, keyed, changed⟩)
      · exact (graphs _ changed).resource (Or.inl rfl)
      · exact (graphs _ changed).resource (Or.inr rfl)
      · obtain ⟨other, granted, otherKeyed⟩ := objects key changed
        exact BlobKey.of_injective otherKeyed keyed ▸ granted
    · rintro aux (changed | changed)
      · exact (graphs _ changed).auxiliary (Or.inl rfl)
      · exact (graphs _ changed).auxiliary (Or.inr rfl)

end Reachable

end Quadpod

namespace Quadpod.Reference

/-- The owner's patch changes only what the root ACL grants. -/
theorem changes_granted_patchPredicate :
    afterRequest podSpace .rdf12 patchPredicate [] notedWorld = notedWorld ∨
      ∃ target : Target podSpace,
        classify podSpace patchPredicate.path = .ok target ∧
          ChangesGranted notedWorld
            (afterRequest podSpace .rdf12 patchPredicate [] notedWorld)
            patchPredicate target :=
  changes_granted_reachable reachable_notedWorld patchPredicate []

end Quadpod.Reference
