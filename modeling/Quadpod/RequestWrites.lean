import Quadpod.ChildUrls
import Quadpod.StorageWrites

namespace Quadpod

open AtomicProgram
open GraphStore

/-!
# What a request writes

One statement of everything a write request can do to the two stores.  Whatever
it reads and whatever fails, a request leaves the world as it was, or it was
authorized on the world it found and performed the writes of its plan followed
by one storage write of its target, or a part of these when a call failed.  The
invariants of the pod are proved from this statement alone.
-/

variable [IriSyntax] [Sha256] [ObjectPath]
variable {space : StorageSpace}

/-! ## The shape of a request's writes -/

/-- The members a container's `PUT` keeps. -/
def World.keptMembers (world : World) (target : Target space) :
    List Triple :=
  match target with
  | .container container =>
      ((if world.present container.node then
          some (world.triplesOf (graphIri container))
        else
          none).getD []).filter
        fun triple => triple.predicate.iri == ldpContainsIri
  | _ => []

/-- The storage write a body calls for on its target. -/
inductive BodyWrite (fresh : Nat → Uuid) (kept : List Triple) :
    Repr → Target space → StorageWrite space → Prop where
  | blob
      (url : ResourceUrl space) (leaf) (key : BlobKey) (bytes : Bytes)
      (mediaType : MediaType)
      (keyed : BlobKey.of url = some key) :
      BodyWrite fresh kept (.blob bytes mediaType) (.resource url leaf)
        (.blob url key bytes mediaType)
  | dataset
      (url : ResourceUrl space) (leaf) (body : Dataset) (format : Format)
      (declared : RdfVersion)
      (checked : checkBody (.resource url leaf) body = .ok ()) :
      BodyWrite fresh kept (.rdf body format declared) (.resource url leaf)
        (.dataset url (Skolemized.skolemize fresh body) format.mediaType)
  | container
      (url : ContainerUrl space) (body : Dataset) (format : Format)
      (declared : RdfVersion)
      (checked : checkBody (.container url) body = .ok ()) :
      BodyWrite fresh kept (.rdf body format declared) (.container url)
        (.container url
          (skolemizedTriples fresh
            (body.defaultGraphOnly.triplesOf ++ kept)))
  | auxiliary
      (url : AuxUrl space) (body : Dataset) (format : Format)
      (declared : RdfVersion)
      (checked : checkBody (.aux url) body = .ok ())
      (small : body.defaultGraphOnly.triplesOf.length ≤ maxAuxTriples) :
      BodyWrite fresh kept (.rdf body format declared) (.aux url)
        (.auxiliary url
          (skolemizedTriples fresh body.defaultGraphOnly.triplesOf))
  | oversized
      (url : AuxUrl space) (body : Dataset) (format : Format)
      (declared : RdfVersion)
      (large : maxAuxTriples < body.defaultGraphOnly.triplesOf.length) :
      BodyWrite fresh kept (.rdf body format declared) (.aux url) .nothing

/-- The storage write that creates a target by a patch. -/
inductive PatchWrite (fresh : Nat → Uuid) (triples : List Triple) :
    Target space → StorageWrite space → Prop where
  | dataset
      (url : ResourceUrl space) (leaf) (body : Skolemized)
      (grounded : groundDataset triples = some body) :
      PatchWrite fresh triples (.resource url leaf)
        (.dataset url body Format.turtle.mediaType)
  | container (url : ContainerUrl space) :
      PatchWrite fresh triples (.container url)
        (.container url (skolemizedTriples fresh triples))

/-- A plan and then one storage write, or a part of them. -/
def Staged
    (mayFail : Prop) (world : World)
    (plan : List (ContainerUrl space × Option NamedNode))
    (admits : World → StorageWrite space → Prop)
    (reached : World) : Prop :=
  (mayFail ∧ backend.Performs mayFail world (planCalls plan) reached) ∨
    ∃ write,
      admits (backend.after world (planCalls plan)) write ∧
        backend.Performs mayFail (backend.after world (planCalls plan))
          (write.calls (backend.after world (planCalls plan))) reached

theorem Staged.mono
    {mayFail : Prop} {world reached : World}
    {plan : List (ContainerUrl space × Option NamedNode)}
    {admits looser : World → StorageWrite space → Prop}
    (staged : Staged mayFail world plan admits reached)
    (implies : ∀ started write, admits started write → looser started write) :
    Staged mayFail world plan looser reached := by
  rcases staged with stopped | ⟨write, admitted, performs⟩
  · exact Or.inl stopped
  · exact Or.inr ⟨write, implies _ write admitted, performs⟩

/-- The ending of a child's path: a slash for a requested container. -/
def childEnding (headers : HeaderMap) : Text :=
  if typeLinkRequestsContainer (headerStr headers .link) then ['/'] else []

omit [IriSyntax] [Sha256] [ObjectPath] in
theorem childEnding_cases (headers : HeaderMap) :
    childEnding headers = [] ∨ childEnding headers = ['/'] := by
  unfold childEnding
  split
  · exact Or.inr rfl
  · exact Or.inl rfl

/-- The child a `POST` settles on in a world. -/
inductive Allocated
    (world : World) (request : Request) (parent : ContainerUrl space) :
    Target space → Prop where
  | first (child : Target space)
      (resolves :
        classify space
          (parent.resource.path ++
            childName (request.headers.str? .slug) request.draws.childName ++
            childEnding request.headers) = .ok child)
      (free : (world.guard request.agent child).isTaken = false) :
      Allocated world request parent child
  | retry (child : Target space)
      (resolves :
        classify space
          (parent.resource.path ++
            (childName (request.headers.str? .slug)
                request.draws.childName ++
              '-' :: request.draws.retryName.text ++
              childEnding request.headers)) = .ok child) :
      Allocated world request parent child

/-- Everything a write request can do to the world it finds. -/
inductive RequestEffect [RdfParser] [N3Parser]
    (mayFail : Prop) (storeVersion : RdfVersion) (world : World)
    (request : Request) (target : Target space) : World → Prop where
  | unchanged : RequestEffect mayFail storeVersion world request target world
  | put
      {reached : World} {decision : Decision} {walk : Guard.Walk space}
      (isPut : request.method = .put)
      (authorized :
        world.authorization request.agent target .write = .ok decision)
      (walked :
        (world.guard request.agent target).authorizeWalk = .ok walk)
      (staged :
        Staged mayFail world walk.plan
          (fun started write =>
            ∃ repr,
              classifyBody request.headers request.body target
                storeVersion = .ok repr ∧
              BodyWrite request.draws.blank (started.keptMembers target)
                repr target write)
          reached) :
      RequestEffect mayFail storeVersion world request target reached
  | post
      {reached : World} {decision : Decision} {walk : Guard.Walk space}
      {parent : ContainerUrl space} {child : Target space}
      (isPost : request.method = .post)
      (onContainer : target = .container parent)
      (authorized :
        world.authorization request.agent target .append = .ok decision)
      (allocated : Allocated world request parent child)
      (walked :
        (world.guard request.agent child).authorizeWalk = .ok walk)
      (staged :
        Staged mayFail world walk.plan
          (fun _ write =>
            ∃ repr,
              classifyBody request.headers request.body child
                storeVersion = .ok repr ∧
              BodyWrite request.draws.blank [] repr child write)
          reached) :
      RequestEffect mayFail storeVersion world request target reached
  | patch
      {decision : Decision} {patch : Patch}
      {change : Option (List TemplateTriple × List TemplateTriple)}
      {reached : World}
      (isPatch : request.method = .patch)
      (authorized :
        world.authorization request.agent target .append = .ok decision)
      (parsed : parsePatch request.body target = .ok patch)
      (granted :
        target.isAux = false →
        patch.requiredModes.satisfiedBy decision.user = true)
      (targetPresent : world.present target.node = true)
      (contained : refuseContainment patch target = .ok ())
      (changes :
        ∀ given ∈ change, PatchChange world (graphIri target) patch given)
      (performs :
        backend.Performs mayFail world
          ((StorageWrite.patch target change).calls world) reached) :
      RequestEffect mayFail storeVersion world request target reached
  | create
      {decision : Decision} {patch : Patch} {triples : List Triple}
      {walk : Guard.Walk space} {reached : World}
      (isPatch : request.method = .patch)
      (authorized :
        world.authorization request.agent target .append = .ok decision)
      (parsed : parsePatch request.body target = .ok patch)
      (granted : patch.requiredModes.satisfiedBy decision.user = true)
      (absent : world.present target.node = false)
      (contained : refuseContainment patch target = .ok ())
      (ground : patch.groundInsertions = some triples)
      (walked :
        (world.guard request.agent target).authorizeWalk = .ok walk)
      (staged :
        Staged mayFail world walk.plan
          (fun _ write => PatchWrite request.draws.blank triples target write)
          reached) :
      RequestEffect mayFail storeVersion world request target reached
  | deleteAux
      {decision : Decision} {url : AuxUrl space} {reached : World}
      (isDelete : request.method = .delete)
      (onAux : target = .aux url)
      (authorized :
        world.authorization request.agent target .write = .ok decision)
      (performs :
        backend.Performs mayFail world
          ((StorageWrite.deleteAuxiliary url).calls world) reached) :
      RequestEffect mayFail storeVersion world request target reached
  | deleteSubject
      {decision : Decision} {parentDecision : Option Decision}
      {auxDecisions : List (Option Decision)} {reached : World}
      (isDelete : request.method = .delete)
      (notAux : target.isAux = false)
      (authorized :
        world.authorization request.agent target .write = .ok decision)
      (parentAuthorized :
        (world.guard request.agent target).authorizeParent .write =
          .ok parentDecision)
      (auxAuthorized :
        AuxKind.all.mapM (world.guard request.agent target).authorizeAux =
          .ok auxDecisions)
      (unused :
        ∀ container,
          target = .container container →
          container.resource.parent.isSome = true ∧
            ∀ child,
              (⟨container.node, ldpContains, child⟩ : GroundTriple) ∉
                world.graphs (graphIri container))
      (performs :
        backend.Performs mayFail world
          ((StorageWrite.deleteSubject target.subject).calls world)
          reached) :
      RequestEffect mayFail storeVersion world request target reached

/-! ## The guard at the edge -/

section Edge

variable {mayFail : Prop} {world : World}

omit [Sha256] [ObjectPath] in
/-- After a probe the handler works with the guard of the world it found. -/
theorem ensures_probeFor_bind
    {α : Type}
    {agent : Agent} {target : Target space}
    {next : Guard space → HttpProgram α}
    {post : Except Response α → World → Prop}
    (continues :
      Program.Ensures backend mayFail (next (world.guard agent target)) world
        post)
    (stops : ∀ response, post (.error response) world) :
    Program.Ensures backend mayFail (probeFor agent target >>= next) world
      post := by
  have probed :
      Program.Ensures backend mayFail (probeFor agent target) world
        fun result reached =>
          reached = world ∧
            (result = .ok (world.guard agent target) ∨
              ∃ response, result = .error response) := by
    refine Program.Ensures.mapError
      ((ensures_probe world agent target).mono ?_)
    rintro result reached ⟨same, rfl | ⟨error, rfl⟩⟩
    · exact ⟨same, Or.inl rfl⟩
    · exact ⟨same, Or.inr ⟨_, rfl⟩⟩
  refine probed.bind ?_ ?_
  · rintro guard reached ⟨rfl, isProbed⟩
    obtain rfl : guard = reached.guard agent target := by
      simpa using isProbed
    exact continues
  · rintro response reached ⟨rfl, _⟩
    exact stops response

omit [Sha256] [ObjectPath] in
/-- A decision is taken or ends the request. -/
theorem ensures_orDeny_bind
    {α β : Type}
    {target : Target space} {decision : Except Denial α}
    {next : α → HttpProgram β}
    {post : Except Response β → World → Prop}
    (continues :
      ∀ value,
        decision = .ok value →
        Program.Ensures backend mayFail (next value) world post)
    (stops : ∀ response, post (.error response) world) :
    Program.Ensures backend mayFail (orDeny target decision >>= next) world
      post := by
  refine Program.ensures_ofExcept_bind ?_ fun response _ => stops response
  intro value decided
  cases decision with
  | ok granted =>
      cases decided
      exact continues value rfl
  | error denial =>
      cases decided

omit [Sha256] [ObjectPath] in
/-- `materialize` denies without a write, stops in its plan, or completes it. -/
theorem ensures_materializeFor_bind
    {α : Type}
    {guard : Guard space} {target : Target space}
    {next : Materialized space → HttpProgram α}
    {post : Except Response α → World → Prop}
    (continues :
      ∀ walk materialized,
        guard.authorizeWalk = .ok walk →
        Program.Ensures backend mayFail (next materialized)
          (backend.after world (planCalls walk.plan)) post)
    (interrupted :
      ∀ walk response reached,
        guard.authorizeWalk = .ok walk →
        mayFail →
        backend.Performs mayFail world (planCalls walk.plan) reached →
        post (.error response) reached)
    (stops : ∀ response, post (.error response) world) :
    Program.Ensures backend mayFail (materializeFor guard target >>= next)
      world post := by
  have materialized :
      Program.Ensures backend mayFail (materializeFor guard target) world
        fun result reached =>
          (∃ walk,
            guard.authorizeWalk = .ok walk ∧
              Carries mayFail world (planCalls walk.plan) result reached) ∨
            (reached = world ∧ ∃ response, result = .error response) := by
    refine Program.Ensures.mapError (Program.ensures_ofExcept_bind ?_ ?_)
    · intro walk walked
      have performed :=
        ensures_carries_mapError
          (fun denial : Denial => denial.toResponse.withAuxLinks target)
          (ensures_carries_bind
            (ensures_performPlan mayFail walk.plan world)
            fun linked =>
              ensures_carries_done
                (⟨walk.creations, linked⟩ : Materialized space) _)
      rw [List.append_nil] at performed
      intro faults plays
      have carries := performed faults plays
      rw [Program.run_mapError] at carries
      exact Or.inl ⟨walk, walked, carries⟩
    · intro denial denied
      exact Or.inr ⟨rfl, _, rfl⟩
  refine materialized.bind ?_ ?_
  · rintro value reached (⟨walk, walked, carries⟩ | ⟨_, response, impossible⟩)
    · obtain rfl := carries.complete value rfl
      exact continues walk value walked
    · cases impossible
  · rintro response reached (⟨walk, walked, carries⟩ | ⟨rfl, _⟩)
    · exact interrupted walk response reached walked
        (carries.failed response rfl) carries.performs
    · exact stops response

omit [Sha256] [ObjectPath] in
/-- Answering a write: what was performed is what the write performed. -/
theorem ensures_attempt_carries
    {ε α β : Type}
    {write : StoreProgram ε α} {answer : Except ε α → HttpProgram β}
    {calls : List Call}
    (carried :
      Program.Ensures backend mayFail write world
        (Carries mayFail world calls))
    (answers :
      ∀ result, ∃ response, answer result = .done response) :
    Program.Ensures backend mayFail (write.attempt >>= answer) world
      fun _ reached => backend.Performs mayFail world calls reached := by
  have attempted :
      Program.Ensures backend mayFail
        (write.attempt : HttpProgram (Except ε α)) world
        fun _ reached => backend.Performs mayFail world calls reached :=
    Program.Ensures.attempt (carried.mono fun _ _ carries => carries.performs)
  refine attempted.bind ?_ fun _ _ performs => performs
  intro result reached performs
  obtain ⟨response, isDone⟩ := answers result
  rw [isDone]
  exact Program.ensures_done performs

omit [Sha256] [ObjectPath] in
theorem ensures_respond
    {target : Target space} {write : ResourceProgram Unit}
    {calls : List Call}
    (carried :
      Program.Ensures backend mayFail write world
        (Carries mayFail world calls)) :
    Program.Ensures backend mayFail (respond target write) world
      fun _ reached => backend.Performs mayFail world calls reached := by
  refine ensures_attempt_carries carried ?_
  rintro (error | ⟨⟩)
  · exact ⟨_, rfl⟩
  · exact ⟨_, rfl⟩

omit [Sha256] [ObjectPath] in
theorem ensures_respondBlob
    {target : Target space} {write : ResourceProgram Unit}
    {calls : List Call}
    (carried :
      Program.Ensures backend mayFail write world
        (Carries mayFail world calls)) :
    Program.Ensures backend mayFail (respondBlob target write) world
      fun _ reached => backend.Performs mayFail world calls reached := by
  refine ensures_attempt_carries carried ?_
  rintro (error | ⟨⟩)
  · cases error <;> exact ⟨_, rfl⟩
  · exact ⟨_, rfl⟩

/-- The write of an auxiliary's body, answered. -/
theorem ensures_putAux
    (fresh : Nat → Uuid) (target : Target space) (url : AuxUrl space)
    (triples : List Triple) :
    Program.Ensures backend mayFail (putAux fresh target url triples) world
      fun _ reached =>
        if triples.length > maxAuxTriples then
          reached = world
        else
          backend.Performs mayFail world
            ((StorageWrite.auxiliary url
              (skolemizedTriples fresh triples)).calls world) reached := by
  have attempted :
      Program.Ensures backend mayFail
        ((auxPut fresh url triples).attempt :
          HttpProgram (Except AuxError Unit))
        world
        fun _ reached =>
          if triples.length > maxAuxTriples then
            reached = world
          else
            backend.Performs mayFail world
              ((StorageWrite.auxiliary url
                (skolemizedTriples fresh triples)).calls world) reached :=
    Program.Ensures.attempt (ensures_auxPut mayFail fresh url triples world)
  refine attempted.bind ?_ ?_
  · intro result reached performs
    rcases result with (_ | _ | _ | _) | ⟨⟩
    all_goals exact Program.ensures_done performs
  · intro response reached performs
    exact performs

/-- A container's `PUT` keeps the members its graph records. -/
theorem ensures_putContainer
    (fresh : Nat → Uuid) (target : Target space)
    (container : ContainerUrl space) (triples : List Triple) :
    Program.Ensures backend mayFail
      (putContainer fresh target container triples) world
      fun _ reached =>
        backend.Performs mayFail world
          ((StorageWrite.container container
            (skolemizedTriples fresh
              (triples ++ world.keptMembers (.container container)))).calls
                world) reached := by
  have read :
      Program.Ensures backend mayFail
        (Program.mapError putError (getRdf container)) world
        fun result reached =>
          reached = world ∧
            (result =
                .ok (if world.present container.node then
                  some (world.triplesOf (graphIri container))
                else
                  none) ∨
              mayFail ∧ ∃ response, result = .error response) := by
    refine Program.Ensures.mapError
      (ensures_read_bind ⟨rfl, fun _ => rfl⟩ rfl ?_ ?_)
    · have marked :
          world.graphs.satisfies
              [(sysGraphIri container,
                presenceMarker (GraphUrl.graphNode container))] =
            world.present container.node := by
        simp [Store.satisfies, World.present]
        rfl
      rw [marked]
      split
      · refine ensures_read_bind ⟨rfl, fun _ => rfl⟩ rfl ?_ ?_
        · refine Program.ensures_done ⟨rfl, Or.inl ?_⟩
          simp [World.triplesOf, Except.mapError]
        · intro fails message
          exact ⟨rfl, Or.inr ⟨fails, _, rfl⟩⟩
      · refine Program.ensures_done ⟨rfl, Or.inl ?_⟩
        simp [Except.mapError]
    · intro fails message
      exact ⟨rfl, Or.inr ⟨fails, _, rfl⟩⟩
  refine read.bind ?_ ?_
  · rintro existing reached ⟨rfl, isRead⟩
    obtain rfl : existing = _ := by
      simpa using isRead
    exact ensures_respond
      (ensures_writeContainer mayFail fresh container _ reached)
  · rintro response reached ⟨rfl, isRead⟩
    rcases isRead with impossible | ⟨fails, _⟩
    · cases impossible
    · exact backend.performs_none reached _ fails

end Edge

/-! ## The handlers -/

section Handlers

variable [QuadText] [RdfParser] [RdfSerializer] [ShapeEngine] [N3Parser]
variable {mayFail : Prop} {world : World} {storeVersion : RdfVersion}

omit [RdfSerializer] [ShapeEngine] [RdfParser] [N3Parser] in
/-- A body of bytes: checks, the plan, and the write of the object. -/
theorem ensures_putBlobRepr
    {guard : Guard space} {target : Target space} {headers : HeaderMap}
    {bytes : Bytes} {mediaType : MediaType}
    {post : World → Prop}
    (unchanged : post world)
    (staged :
      ∀ walk reached,
        guard.authorizeWalk = .ok walk →
        Staged mayFail world walk.plan
          (fun _ write =>
            ∀ fresh kept,
              BodyWrite fresh kept (.blob bytes mediaType) target write)
          reached →
        post reached) :
    Program.Ensures backend mayFail
      (putBlobRepr guard target headers bytes mediaType) world
      fun _ reached => post reached := by
  unfold putBlobRepr
  split
  · next url leaf =>
      cases keyed : BlobKey.of url with
      | none =>
          exact Program.ensures_fail unchanged
      | some key =>
          refine ReadsOnly.ensures_bind
            (readsOnly_checkConditionals headers (.resource url leaf))
            (fun _ => ?_) fun _ => unchanged
          refine ensures_materializeFor_bind ?_ ?_ fun _ => unchanged
          · intro walk _ walked
            refine (ensures_respondBlob
              (ensures_putBlob mayFail keyed bytes mediaType _)).mono ?_
            intro _ reached performs
            exact staged walk reached walked
              (Or.inr ⟨_, fun _ _ => .blob url leaf key bytes mediaType keyed,
                performs⟩)
          · intro walk _ reached walked fails performs
            exact staged walk reached walked (Or.inl ⟨fails, performs⟩)
  · exact Program.ensures_fail unchanged

omit [N3Parser] in
/-- An RDF body of a `PUT`: checks, the plan, and the write of the target. -/
theorem ensures_putRdfRepr
    {guard : Guard space} {target : Target space} {headers : HeaderMap}
    {fresh : Nat → Uuid} {body : Dataset} {format : Format}
    {declared : RdfVersion}
    {post : World → Prop}
    (unchanged : post world)
    (staged :
      ∀ walk reached,
        guard.authorizeWalk = .ok walk →
        Staged mayFail world walk.plan
          (fun started write =>
            BodyWrite fresh (started.keptMembers target)
              (.rdf body format declared) target write)
          reached →
        post reached) :
    Program.Ensures backend mayFail
      (putRdfRepr guard target headers fresh body format declared) world
      fun _ reached => post reached := by
  refine Program.ensures_ofExcept_bind (fun _ checked => ?_)
    fun _ _ => unchanged
  refine ReadsOnly.ensures_bind
    (readsOnly_checkExisting target format declared) (fun _ => ?_)
    fun _ => unchanged
  refine ReadsOnly.ensures_bind (readsOnly_checkConditionals headers target)
    (fun _ => ?_) fun _ => unchanged
  refine ReadsOnly.ensures_bind (readsOnly_enforceShape target body)
    (fun findings => ?_) fun _ => unchanged
  refine ensures_materializeFor_bind ?_ ?_ fun _ => unchanged
  · intro walk _ walked
    dsimp only
    cases target with
    | resource url leaf =>
        refine Program.Ensures.bind_done ((ensures_respond
          (ensures_putDataset mayFail url _ format _)).mono ?_) _
        intro response reached performs
        exact staged walk reached walked
          (Or.inr ⟨_, .dataset url leaf body format declared checked,
            performs⟩)
    | container url =>
        refine Program.Ensures.bind_done
          ((ensures_putContainer fresh (.container url) url _).mono ?_) _
        intro response reached performs
        exact staged walk reached walked
          (Or.inr ⟨_, .container url body format declared checked, performs⟩)
    | aux url =>
        refine Program.Ensures.bind_done
          ((ensures_putAux fresh (.aux url) url _).mono ?_) _
        intro response reached performs
        refine staged walk reached walked (Or.inr ?_)
        split at performs
        · next large =>
            subst performs
            exact ⟨_, .oversized url body format declared large,
              backend.performs_all _ []⟩
        · next small =>
            exact ⟨_, .auxiliary url body format declared checked
              (Nat.le_of_not_gt small), performs⟩
  · intro walk _ reached walked fails performs
    exact staged walk reached walked (Or.inl ⟨fails, performs⟩)

theorem ensures_putWrite
    {request : Request} {target : Target space}
    (isPut : request.method = .put) :
    Program.Ensures backend mayFail
      (putWrite storeVersion request.agent target request.headers
        request.body request.draws)
      world
      fun _ reached =>
        RequestEffect mayFail storeVersion world request target reached := by
  refine ensures_probeFor_bind ?_ fun _ => .unchanged
  refine ensures_orDeny_bind (fun decision decided => ?_)
    fun _ => .unchanged
  rw [world.guard_authorize] at decided
  refine Program.ensures_ofExcept_bind (fun repr classified => ?_)
    fun _ _ => .unchanged
  cases repr with
  | blob bytes mediaType =>
      refine ensures_putBlobRepr .unchanged fun walk reached walked staged => ?_
      refine .put isPut decided walked ?_
      exact staged.mono fun started write isWrite =>
        ⟨_, classified, isWrite _ _⟩
  | rdf body format declared =>
      refine ensures_putRdfRepr .unchanged fun walk reached walked staged => ?_
      refine .put isPut decided walked ?_
      exact staged.mono fun started write isWrite =>
        ⟨_, classified, isWrite⟩

omit [Sha256] [ObjectPath] [QuadText] [RdfParser] [RdfSerializer]
  [ShapeEngine] [N3Parser] in
/-- The child of a `POST` is allocated in the world the request found. -/
theorem ensures_allocateChild_bind
    {α : Type}
    {request : Request} {parent : ContainerUrl space}
    {next : Guard space × Target space → HttpProgram α}
    {post : Except Response α → World → Prop}
    (continues :
      ∀ child,
        Allocated world request parent child →
        Program.Ensures backend mayFail
          (next (world.guard request.agent child, child)) world post)
    (stops : ∀ response, post (.error response) world) :
    Program.Ensures backend mayFail
      (allocateChild request.agent parent request.headers request.draws >>=
        next)
      world post := by
  have allocated :
      Program.Ensures backend mayFail
        (allocateChild request.agent parent request.headers request.draws)
        world
        fun result reached =>
          reached = world ∧
            ∀ given,
              result = .ok given →
              given.1 = world.guard request.agent given.2 ∧
                Allocated world request parent given.2 := by
    have stopped :
        ∀ response : Response,
          world = world ∧
            ∀ given : Guard space × Target space,
              (.error response : Except Response _) = .ok given →
              given.1 = world.guard request.agent given.2 ∧
                Allocated world request parent given.2 :=
      fun response => ⟨rfl, fun given impossible => by cases impossible⟩
    refine Program.ensures_ofExcept_bind (fun child resolves => ?_)
      fun response _ => stopped response
    refine ensures_probeFor_bind ?_ stopped
    split
    · refine Program.ensures_ofExcept_bind (fun child resolves => ?_)
        fun response _ => stopped response
      refine ensures_probeFor_bind ?_ stopped
      refine Program.ensures_done ⟨rfl, ?_⟩
      rintro given ⟨⟩
      exact ⟨rfl, .retry child resolves⟩
    · next free =>
        refine Program.ensures_done ⟨rfl, ?_⟩
        rintro given ⟨⟩
        exact ⟨rfl, .first child resolves (Bool.eq_false_iff.mpr free)⟩
  refine allocated.bind ?_ ?_
  · rintro ⟨guard, child⟩ reached ⟨rfl, isAllocated⟩
    obtain ⟨isGuard, allocated⟩ := isAllocated _ rfl
    obtain rfl : guard = reached.guard request.agent child := isGuard
    exact continues child allocated
  · rintro response reached ⟨rfl, _⟩
    exact stops response

omit [QuadText] [RdfParser] [RdfSerializer] [ShapeEngine] [N3Parser] in
theorem ensures_postBlobRepr
    {guard : Guard space} {child : Target space}
    {bytes : Bytes} {mediaType : MediaType}
    {post : World → Prop}
    (unchanged : post world)
    (staged :
      ∀ walk reached,
        guard.authorizeWalk = .ok walk →
        Staged mayFail world walk.plan
          (fun _ write =>
            ∀ fresh kept,
              BodyWrite fresh kept (.blob bytes mediaType) child write)
          reached →
        post reached) :
    Program.Ensures backend mayFail
      (postBlobRepr guard child bytes mediaType) world
      fun _ reached => post reached := by
  unfold postBlobRepr
  split
  · next url leaf =>
      cases keyed : BlobKey.of url with
      | none =>
          exact Program.ensures_fail unchanged
      | some key =>
          refine ensures_materializeFor_bind ?_ ?_ fun _ => unchanged
          · intro walk _ walked
            refine (ensures_respondBlob
              (ensures_putBlob mayFail keyed bytes mediaType _)).mono ?_
            intro _ reached performs
            exact staged walk reached walked
              (Or.inr ⟨_, fun _ _ => .blob url leaf key bytes mediaType keyed,
                performs⟩)
          · intro walk _ reached walked fails performs
            exact staged walk reached walked (Or.inl ⟨fails, performs⟩)
  · exact Program.ensures_fail unchanged

omit [N3Parser] in
/-- An RDF body of a `POST`, for a child that is no auxiliary. -/
theorem ensures_postRdfRepr
    {guard : Guard space} {url : ResourceUrl space}
    {fresh : Nat → Uuid} {body : Dataset} {format : Format}
    {post : World → Prop}
    (unchanged : post world)
    (staged :
      ∀ walk reached,
        guard.authorizeWalk = .ok walk →
        Staged mayFail world walk.plan
          (fun _ write =>
            ∀ declared,
              BodyWrite fresh [] (.rdf body format declared) url.toTarget
                write)
          reached →
        post reached) :
    Program.Ensures backend mayFail
      (postRdfRepr guard url.toTarget fresh body format) world
      fun _ reached => post reached := by
  refine Program.ensures_ofExcept_bind (fun _ checked => ?_)
    fun _ _ => unchanged
  refine ReadsOnly.ensures_bind (readsOnly_enforceShape url.toTarget body)
    (fun findings => ?_) fun _ => unchanged
  refine ensures_materializeFor_bind ?_ ?_ fun _ => unchanged
  · intro walk _ walked
    unfold ResourceUrl.toTarget at staged checked ⊢
    split
    · next slash =>
        rw [dif_pos slash] at staged checked
        refine Program.Ensures.bind_done ((ensures_respond
          (ensures_writeContainer mayFail fresh ⟨url, slash⟩ _ _)).mono ?_) _
        intro response reached performs
        refine staged walk reached walked (Or.inr ⟨_, fun declared => ?_,
          performs⟩)
        have written :
            BodyWrite fresh [] (.rdf body format declared)
              (.container ⟨url, slash⟩) _ :=
          .container ⟨url, slash⟩ body format declared checked
        rwa [List.append_nil] at written
    · next slash =>
        rw [dif_neg slash] at staged checked
        refine Program.Ensures.bind_done ((ensures_respond
          (ensures_putDataset mayFail url _ format _)).mono ?_) _
        intro response reached performs
        exact staged walk reached walked (Or.inr ⟨_, fun declared =>
          .dataset url _ body format declared checked, performs⟩)
  · intro walk _ reached walked fails performs
    exact staged walk reached walked (Or.inl ⟨fails, performs⟩)

omit [Sha256] [ObjectPath] [QuadText] [RdfParser] [RdfSerializer]
  [ShapeEngine] [N3Parser] in
/-- What a `POST` allocates is a direct member of its container. -/
theorem Allocated.exists_url
    {request : Request} {parent : ContainerUrl space} {child : Target space}
    (allocated : Allocated world request parent child) :
    ∃ url : ResourceUrl space,
      child = url.toTarget ∧ url.parent = some parent := by
  have isEnding := childEnding_cases request.headers
  cases allocated with
  | first resolves _ =>
      rw [List.append_assoc] at resolves
      obtain ⟨url, isTarget, isParent, _⟩ :=
        ContainerUrl.resolve_child (childName_nonempty _ _)
          (childName_slashFree _ _) isEnding resolves
      exact ⟨url, isTarget, isParent⟩
  | retry resolves =>
      obtain ⟨url, isTarget, isParent, _⟩ :=
        ContainerUrl.resolve_child
          (by simp) (by
            simp [childName_slashFree, uuid_slashFree])
          isEnding resolves
      exact ⟨url, isTarget, isParent⟩

theorem ensures_postImpl
    {request : Request} {target : Target space}
    (isPost : request.method = .post) :
    Program.Ensures backend mayFail
      (postImpl storeVersion request.agent target request.headers
        request.body request.draws)
      world
      fun _ reached =>
        RequestEffect mayFail storeVersion world request target reached := by
  refine ensures_probeFor_bind ?_ fun _ => .unchanged
  refine ensures_orDeny_bind (fun decision decided => ?_)
    fun _ => .unchanged
  rw [world.guard_authorize] at decided
  cases target with
  | resource url leaf =>
      exact Program.ensures_fail .unchanged
  | aux url =>
      exact Program.ensures_fail .unchanged
  | container parent =>
      refine ensures_allocateChild_bind (fun child allocated => ?_)
        fun _ => .unchanged
      refine Program.ensures_ofExcept_bind (fun repr classified => ?_)
        fun _ _ => .unchanged
      cases repr with
      | blob bytes mediaType =>
          refine ensures_postBlobRepr .unchanged
            fun walk reached walked staged => ?_
          refine .post isPost rfl decided allocated walked ?_
          exact staged.mono fun started write isWrite =>
            ⟨_, classified, isWrite _ _⟩
      | rdf body format declared =>
          obtain ⟨url, rfl, _⟩ := allocated.exists_url
          refine ensures_postRdfRepr .unchanged
            fun walk reached walked staged => ?_
          refine .post isPost rfl decided allocated walked ?_
          exact staged.mono fun started write isWrite =>
            ⟨_, classified, isWrite _⟩

omit [RdfParser] [RdfSerializer] [ShapeEngine] [N3Parser] in
/-- A patch of an auxiliary modifies its graph only while it exists. -/
theorem ensures_patchAux
    {url : AuxUrl space} {patch : Patch} {post : World → Prop}
    (unchanged : post world)
    (patched :
      ∀ change reached,
        world.present url.node = true →
        PatchChange world (graphIri url) patch change →
        backend.Performs mayFail world
          ((StorageWrite.patch (.aux url) (some change)).calls world)
          reached →
        post reached) :
    Program.Ensures backend mayFail (patchAux url patch) world
      fun _ reached => post reached := by
  have run :
      Program.Ensures backend mayFail (auxPatch url patch) world
        fun _ reached => post reached := by
    have marked :
        world.graphs.satisfies
            [(sysGraphIri url, presenceMarker (GraphUrl.graphNode url))] =
          world.present url.node := by
      simp [Store.satisfies, World.present]
      rfl
    have existing :
        Program.Ensures backend mayFail
          (AuxProgram.ofResource (exists? url)) world
          fun result reached =>
            reached = world ∧
              ∀ isPresent,
                result = .ok isPresent → isPresent = world.present url.node := by
      refine Program.Ensures.mapError (Program.ensures_call ?_ ?_)
      · refine Program.ensures_done ⟨rfl, ?_⟩
        rintro isPresent ⟨⟩
        exact marked
      · intro _ message
        refine Program.ensures_fail ⟨rfl, ?_⟩
        rintro isPresent ⟨⟩
    refine existing.bind ?_ ?_
    · rintro isPresent reached ⟨rfl, isRead⟩
      have same := isRead isPresent rfl
      cases isPresent with
      | false =>
          refine ReadsOnly.ensures_bind
            (readsOnly_exists url.subject).mapError (fun subjectPresent => ?_)
            fun _ => unchanged
          cases subjectPresent with
          | true =>
              exact Program.ensures_fail unchanged
          | false =>
              exact Program.ensures_fail unchanged
      | true =>
          have modified :
              Program.Ensures backend mayFail
                (AuxProgram.ofResource
                  (patchGuarded url patch (subjectPresentGuard url))) reached
                fun _ final => post final := by
            refine Program.Ensures.mapError
              ((ensures_patchGuarded url patch _ reached).mono ?_)
            rintro result final (rfl | ⟨outcome, change, _, isChange, rfl⟩)
            · exact unchanged
            · exact patched change _ same.symm isChange
                (backend.performs_all reached _)
          refine modified.bind ?_ fun _ _ holds => holds
          intro result final holds
          refine ReadsOnly.ensures_bind (readsOnly_exists url).mapError
            (fun stillPresent => ?_) fun _ => holds
          cases stillPresent with
          | true =>
              exact Program.ensures_done holds
          | false =>
              exact Program.ensures_fail holds
    · rintro error reached ⟨rfl, _⟩
      exact unchanged
  have attempted :
      Program.Ensures backend mayFail
        ((auxPatch url patch).attempt :
          HttpProgram (Except AuxError PatchResult))
        world fun _ reached => post reached :=
    Program.Ensures.attempt run
  refine attempted.bind ?_ fun _ _ holds => holds
  intro result reached holds
  rcases result with (_ | _ | _ | _) | _
  all_goals exact Program.ensures_done holds

omit [Sha256] [ObjectPath] [QuadText] [RdfParser] [RdfSerializer]
  [ShapeEngine] [N3Parser] in
/-- Ground insertions hold no blank node, so they can be stored as they are. -/
theorem Patch.exists_groundDataset
    {patch : Patch} {triples : List Triple}
    (ground : patch.groundInsertions = some triples) :
    ∃ body, groundDataset triples = some body := by
  have each :
      ∀ (patterns : List Pattern) (triples : List Triple),
        patterns.mapM Patch.groundInsertion = some triples →
        ∃ quads, (asQuads triples).mapM Skolemized.groundQuadOf = some quads := by
    intro patterns
    induction patterns with
    | nil =>
        rintro triples ⟨⟩
        exact ⟨[], rfl⟩
    | cons pattern rest inductionHypothesis =>
        intro triples collected
        simp only [List.mapM_cons, Option.pure_def, Option.bind_eq_bind,
          Option.bind_eq_some_iff, Option.some.injEq] at collected
        obtain ⟨first, isFirst, others, isOthers, rfl⟩ := collected
        obtain ⟨quads, areQuads⟩ := inductionHypothesis others isOthers
        have grounded :
            ∃ quad,
              Skolemized.groundQuadOf
                ⟨first.subject, first.predicate, first.object,
                  .defaultGraph⟩ = some quad := by
          unfold Patch.groundInsertion at isFirst
          split at isFirst
          · cases isFirst
            exact ⟨_, rfl⟩
          · cases isFirst
            exact ⟨_, rfl⟩
          · cases isFirst
        obtain ⟨quad, isQuad⟩ := grounded
        refine ⟨quad :: quads, ?_⟩
        rw [asQuads] at areQuads
        simp [asQuads, isQuad, areQuads]
  unfold groundInsertions at ground
  split at ground
  · obtain ⟨quads, areQuads⟩ := each _ _ ground
    exact ⟨⟨quads⟩, by simp [groundDataset, Skolemized.fromStore, areQuads]⟩
  · cases ground

omit [RdfParser] [RdfSerializer] [ShapeEngine] [N3Parser] in
/-- A patch of a resource or container that exists. -/
theorem ensures_patchExisting
    {target : Target space} {patch : Patch} {post : World → Prop}
    (notAux : target.isAux = false)
    (unchanged : post world)
    (patched :
      ∀ (change : Option (List TemplateTriple × List TemplateTriple)) reached,
        (∀ given ∈ change,
          PatchChange world (graphIri target) patch given) →
        backend.Performs mayFail world
          ((StorageWrite.patch target change).calls world) reached →
        post reached) :
    Program.Ensures backend mayFail (patchExisting target patch) world
      fun _ reached => post reached := by
  have attempted :
      Program.Ensures backend mayFail
        ((patchDataset target.subject patch).attempt :
          HttpProgram (Except ResourceError PatchResult))
        world
        fun result reached =>
          ∃ outcome,
            result = .ok outcome ∧
              Patched target.subject patch [] world outcome reached :=
    Program.Ensures.attempt
      ((ensures_patchGuarded target.subject patch [] world).mono
        fun result reached holds => ⟨result, rfl, holds⟩)
  have performed :
      ∀ result reached,
        Patched target.subject patch [] world (.ok result) reached →
        ∃ change : Option (List TemplateTriple × List TemplateTriple),
          (∀ given ∈ change,
            PatchChange world (graphIri target) patch given) ∧
          reached =
            backend.after world (change.toList.map (modifyCall target)) := by
    rintro result reached (rfl | ⟨outcome, change, _, isChange, rfl⟩)
    · exact ⟨none, by simp, rfl⟩
    · refine ⟨some change, ?_, ?_⟩
      · cases target with
        | resource url leaf =>
            rintro given ⟨⟩
            exact isChange
        | container url =>
            rintro given ⟨⟩
            exact isChange
        | aux url =>
            cases notAux
      · cases target with
        | resource url leaf =>
            rfl
        | container url =>
            rfl
        | aux url =>
            cases notAux
  refine attempted.bind ?_ ?_
  · rintro result reached ⟨outcome, isOutcome, holds⟩
    rw [Except.ok.injEq] at isOutcome
    subst isOutcome
    cases result with
    | error error =>
        rcases holds with rfl | ⟨_, _, impossible, _⟩
        · exact Program.ensures_done unchanged
        · cases impossible
    | ok value =>
        obtain ⟨change, changes, rfl⟩ := performed value reached holds
        cases target with
        | resource url leaf =>
            refine Program.ensures_done (patched change _ changes ?_)
            simpa [StorageWrite.calls] using backend.performs_all world _
        | aux url =>
            cases notAux
        | container url =>
            refine (ensures_attempt_carries
              (ensures_ensureContainer mayFail url _) ?_).mono ?_
            · rintro (error | ⟨⟩)
              · exact ⟨_, rfl⟩
              · exact ⟨_, rfl⟩
            · intro _ final performs
              exact patched change final changes performs.append
  · rintro response reached ⟨outcome, impossible, _⟩
    cases impossible

omit [RdfParser] [RdfSerializer] [ShapeEngine] [N3Parser] in
/-- Creating a resource or container by a patch. -/
theorem ensures_createByPatch
    {guard : Guard space} {target : Target space} {patch : Patch}
    {fresh : Nat → Uuid} {post : World → Prop}
    (notAux : target.isAux = false)
    (unchanged : post world)
    (created :
      ∀ triples walk reached,
        patch.groundInsertions = some triples →
        guard.authorizeWalk = .ok walk →
        Staged mayFail world walk.plan
          (fun _ write => PatchWrite fresh triples target write) reached →
        post reached) :
    Program.Ensures backend mayFail (createByPatch guard target patch fresh)
      world fun _ reached => post reached := by
  unfold createByPatch
  cases ground : patch.groundInsertions with
  | none =>
      exact Program.ensures_fail unchanged
  | some triples =>
      dsimp only
      split
      · exact Program.ensures_fail unchanged
      · refine ensures_materializeFor_bind ?_ ?_ fun _ => unchanged
        · intro walk _ walked
          obtain ⟨body, grounded⟩ := patch.exists_groundDataset ground
          cases target with
          | resource url leaf =>
              dsimp only
              rw [grounded]
              refine (ensures_respond
                (ensures_putDataset mayFail url body .turtle _)).mono ?_
              intro _ reached performs
              exact created triples walk reached ground walked
                (Or.inr ⟨_, .dataset url leaf body grounded, performs⟩)
          | container url =>
              refine (ensures_respond
                (ensures_writeContainer mayFail fresh url triples _)).mono ?_
              intro _ reached performs
              exact created triples walk reached ground walked
                (Or.inr ⟨_, .container url, performs⟩)
          | aux url =>
              cases notAux
        · intro walk _ reached walked fails performs
          exact created triples walk reached ground walked
            (Or.inl ⟨fails, performs⟩)

omit [ShapeEngine] in
theorem ensures_patchImpl
    {request : Request} {target : Target space}
    (isPatch : request.method = .patch) :
    Program.Ensures backend mayFail
      (patchImpl request.agent target request.headers request.body
        request.draws)
      world
      fun _ reached =>
        RequestEffect mayFail storeVersion world request target reached := by
  refine ensures_probeFor_bind ?_ fun _ => .unchanged
  refine ensures_orDeny_bind (fun decision decided => ?_)
    fun _ => .unchanged
  rw [world.guard_authorize] at decided
  refine Program.ensures_ofExcept_bind (fun _ _ => ?_) fun _ _ => .unchanged
  refine Program.ensures_ofExcept_bind (fun patch parsed => ?_)
    fun _ _ => .unchanged
  split
  · exact Program.ensures_fail .unchanged
  · next allowed =>
      have granted :
          target.isAux = false →
          patch.requiredModes.satisfiedBy decision.user = true := by
        intro notAux
        simpa [notAux] using allowed
      refine ReadsOnly.ensures_bind (readsOnly_refuseBinary target)
        (fun _ => ?_) fun _ => .unchanged
      refine ReadsOnly.ensures_bind (readsOnly_patchShapeConflict target)
        (fun _ => ?_) fun _ => .unchanged
      refine Program.ensures_ofExcept_bind (fun _ contained => ?_)
        fun _ _ => .unchanged
      refine ReadsOnly.ensures_bind
        (readsOnly_checkConditionals request.headers target) (fun _ => ?_)
        fun _ => .unchanged
      have written :
          target.isAux = false →
          Program.Ensures backend mayFail
            (if (world.guard request.agent target).targetExists then
              patchExisting target patch
            else
              createByPatch (world.guard request.agent target) target patch
                request.draws.blank)
            world
            fun _ reached =>
              RequestEffect mayFail storeVersion world request target
                reached := by
        intro notAux
        rw [world.guard_targetExists]
        split
        · next isPresent =>
            refine ensures_patchExisting notAux .unchanged ?_
            intro change reached changes performs
            exact .patch isPatch decided parsed granted isPresent contained
              changes performs
        · next isAbsent =>
            refine ensures_createByPatch notAux .unchanged ?_
            intro triples walk reached ground walked staged
            exact .create isPatch decided parsed (granted notAux)
              (Bool.eq_false_iff.mpr isAbsent) contained ground walked staged
      cases target with
      | resource url leaf =>
          exact written rfl
      | container url =>
          exact written rfl
      | aux url =>
          refine ensures_patchAux .unchanged ?_
          intro change reached isPresent isChange performs
          refine .patch isPatch decided parsed granted isPresent contained
            ?_ performs
          rintro given ⟨⟩
          exact isChange

omit [Sha256] [ObjectPath] [QuadText] [RdfParser] [RdfSerializer]
  [ShapeEngine] [N3Parser] in
/-- A container that may be deleted is not the root and records no member. -/
theorem ensures_refuseDelete (target : Target space) :
    Program.Ensures backend mayFail (refuseDelete target) world
      fun result reached =>
        reached = world ∧
          (result = .ok () →
            ∀ container,
              target = .container container →
              container.resource.parent.isSome = true ∧
                ∀ child,
                  (⟨container.node, ldpContains, child⟩ : GroundTriple) ∉
                    world.graphs (graphIri container)) := by
  cases target with
  | resource url leaf =>
      exact Program.ensures_done ⟨rfl, fun _ _ impossible => by
        cases impossible⟩
  | aux url =>
      exact Program.ensures_done ⟨rfl, fun _ _ impossible => by
        cases impossible⟩
  | container container =>
      unfold refuseDelete
      dsimp only
      split
      · exact Program.ensures_fail ⟨rfl, fun impossible => by
          cases impossible⟩
      · next hasParent =>
          have checked :
              Program.Ensures backend mayFail
                ((containerIsEmpty container).attempt :
                  HttpProgram (Except ResourceError Bool))
                world
                fun result reached =>
                  reached = world ∧
                    (result = .ok (.ok true) →
                      ∀ child,
                        (⟨container.node, ldpContains, child⟩ :
                          GroundTriple) ∉
                            world.graphs (graphIri container)) := by
            refine Program.Ensures.attempt
              (ensures_read_bind ⟨rfl, fun _ => rfl⟩ rfl ?_ ?_)
            · refine Program.ensures_done ⟨rfl, ?_⟩
              intro isEmpty child member
              rw [Except.ok.injEq, Except.ok.injEq, List.isEmpty_iff,
                List.map_eq_nil_iff, List.filter_eq_nil_iff] at isEmpty
              have refuted := isEmpty _ member
              simp at refuted
            · intro _ message
              refine ⟨rfl, ?_⟩
              intro impossible
              cases impossible
          refine checked.bind ?_ ?_
          · rintro result reached ⟨rfl, isEmpty⟩
            rcases result with error | (_ | _)
            · exact Program.ensures_fail ⟨rfl, fun impossible => by
                cases impossible⟩
            · exact Program.ensures_fail ⟨rfl, fun impossible => by
                cases impossible⟩
            · refine Program.ensures_done ⟨rfl, ?_⟩
              rintro _ _ ⟨⟩
              refine ⟨?_, isEmpty rfl⟩
              simpa [Option.isSome_iff_ne_none] using hasParent
          · rintro response reached ⟨rfl, _⟩
            exact ⟨rfl, fun impossible => by cases impossible⟩

omit [QuadText] [RdfSerializer] [ShapeEngine] in
theorem ensures_deleteImpl
    {request : Request} {target : Target space}
    (isDelete : request.method = .delete) :
    Program.Ensures backend mayFail (deleteImpl request.agent target) world
      fun _ reached =>
        RequestEffect mayFail storeVersion world request target reached := by
  refine ensures_probeFor_bind ?_ fun _ => .unchanged
  refine ensures_orDeny_bind (fun decision decided => ?_)
    fun _ => .unchanged
  rw [world.guard_authorize] at decided
  have cascade :
      target.isAux = false →
      Program.Ensures backend mayFail
        (do
          let _ ←
            orDeny target
              ((world.guard request.agent target).authorizeParent .write)
          let _ ←
            orDeny target
              (AuxKind.all.mapM
                (world.guard request.agent target).authorizeAux)
          refuseDelete target
          deleteCascade target)
        world
        fun _ reached =>
          RequestEffect mayFail storeVersion world request target
            reached := by
    intro notAux
    refine ensures_orDeny_bind (fun parentDecision parentDecided => ?_)
      fun _ => .unchanged
    refine ensures_orDeny_bind (fun auxDecisions auxDecided => ?_)
      fun _ => .unchanged
    refine (ensures_refuseDelete target).bind ?_ ?_
    · rintro _ reached ⟨rfl, unused⟩
      refine (ensures_attempt_carries
        (ensures_deleteSubject mayFail target.subject reached) ?_).mono ?_
      · rintro (_ | _ | _)
        · exact ⟨_, rfl⟩
        · exact ⟨_, rfl⟩
        · exact ⟨_, rfl⟩
      · intro _ final performs
        exact .deleteSubject isDelete notAux decided parentDecided auxDecided
          (unused rfl) performs
    · rintro response reached ⟨rfl, _⟩
      exact .unchanged
  cases target with
  | resource url leaf =>
      exact cascade rfl
  | container url =>
      exact cascade rfl
  | aux url =>
      refine (ensures_attempt_carries
        (ensures_deleteRdf mayFail url world) ?_).mono ?_
      · rintro (_ | _ | _)
        · exact ⟨_, rfl⟩
        · exact ⟨_, rfl⟩
        · exact ⟨_, rfl⟩
      · intro _ final performs
        exact .deleteAux isDelete rfl decided performs

/-- Everything a request can do, whatever its method and target. -/
theorem ensures_handle
    (space : StorageSpace) (storeVersion : RdfVersion) (request : Request)
    (world : World) :
    Program.Ensures backend mayFail (handle space storeVersion request) world
      fun _ reached =>
        reached = world ∨
          ∃ target : Target space,
            classify space request.path = .ok target ∧
              RequestEffect mayFail storeVersion world request target
                reached := by
  refine Program.ensures_ofExcept_bind (fun target classified => ?_)
    fun _ _ => Or.inl rfl
  have handled :
      Program.Ensures backend mayFail
        (handleTarget storeVersion request target) world
        fun _ reached =>
          RequestEffect mayFail storeVersion world request target
            reached := by
    unfold handleTarget
    cases method : request.method with
    | put =>
        exact ensures_putWrite method
    | post =>
        exact ensures_postImpl method
    | patch =>
        exact ensures_patchImpl method
    | delete =>
        exact ensures_deleteImpl method
  exact handled.mono fun _ _ effect => Or.inr ⟨target, classified, effect⟩

end Handlers

end Quadpod
