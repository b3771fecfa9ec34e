import Quadpod.AuthSoundness
import Quadpod.EntityTags
import Quadpod.GrantedChanges
import Quadpod.HttpServer
import Quadpod.ReadPrograms

namespace Quadpod

open AtomicProgram

/-!
# Runs of the server

The server takes requests off the wire one after another, each to its end, with
any of its store calls failing.  Its runs refine those of the pod: what a request
does to the stores is what one write request of the pod does, made by the agent
the middleware proved, and a request that is no write does nothing to them.
-/

variable [IriSyntax]

/-! ## Reading handlers -/

section Reads

variable {space : StorageSpace}

theorem readsOnly_probeFor (agent : Agent) (target : Target space) :
    ReadsOnly (probeFor agent target) :=
  (readsOnly_probe agent target).mapError

theorem readsOnly_orDeny {α : Type}
    (target : Target space) (decision : Except Denial α) :
    ReadsOnly (orDeny target decision) :=
  Program.uses_ofExcept _

variable [Sha256] [ObjectPath] [QuadText] [RdfSerializer] [Quality]

omit [QuadText] [RdfSerializer] in
theorem readsOnly_blobRead
    (storeVersion : RdfVersion) (target : Target space)
    (url : ResourceUrl space) (headers : HeaderMap) (mediaType : MediaType) :
    ReadsOnly (blobRead storeVersion target url headers mediaType) := by
  have getReads :
      ∀ key,
        ReadsOnly (StoreProgram.issue ResourceError.blob (.blobGet key)) :=
    fun key => StoreProgram.uses_issue ⟨rfl, fun _ => rfl⟩
  unfold blobRead
  split
  · exact Program.uses_done _
  · split
    · exact Program.uses_done _
    · next key _ =>
        refine (getReads key).attempt.bind fun answer => ?_
        split
        · exact Program.uses_done _
        · exact Program.uses_done _
        · dsimp only
          split <;> exact Program.uses_done _

omit [ObjectPath] in
theorem readsOnly_legacyGraphRead
    (storeVersion : RdfVersion) (decision : Decision) (target : Target space)
    (headers : HeaderMap) :
    ReadsOnly (legacyGraphRead storeVersion decision target headers) := by
  unfold legacyGraphRead
  split
  · exact Program.uses_done _
  · refine (readsOnly_getRdf target).attempt.bind fun answer => ?_
    split
    · split <;> exact Program.uses_done _
    · exact Program.uses_done _
    · exact Program.uses_done _
    · exact Program.uses_done _

omit [ObjectPath] in
theorem readsOnly_resourceRead
    (storeVersion : RdfVersion) (target : Target space)
    (url : ResourceUrl space) (decision : Decision) (headers : HeaderMap) :
    ReadsOnly (resourceRead storeVersion target url decision headers) := by
  refine (readsOnly_getDataset url).attempt.bind fun answer => ?_
  split
  · refine (readsGraphs_storedMediaType url).readsOnly.attempt.bind
      fun mediaType => ?_
    split <;> exact Program.uses_done _
  · exact Program.uses_done _
  · exact Program.uses_done _
  · exact Program.uses_done _

theorem readsOnly_getImpl
    (storeVersion : RdfVersion) (agent : Agent) (target : Target space)
    (headers : HeaderMap) :
    ReadsOnly (getImpl storeVersion agent target headers) := by
  refine (readsOnly_probeFor agent target).bind fun guard => ?_
  refine (readsOnly_orDeny target _).bind fun decision => ?_
  split
  · refine (readsOnly_kindOf _).attempt.bind fun kind => ?_
    split
    · exact readsOnly_blobRead _ _ _ _ _
    · exact readsOnly_resourceRead _ _ _ _ _
    · exact Program.uses_done _
    · exact Program.uses_done _
    · exact Program.uses_done _
  · exact readsOnly_legacyGraphRead _ _ _ _

variable [RdfParser] [ShapeEngine]

omit [Sha256] [ObjectPath] [QuadText] [RdfSerializer] [Quality] [RdfParser]
  [ShapeEngine] in
theorem readsOnly_validatedContent (target : Target space) :
    ReadsOnly (validatedContent target) := by
  unfold validatedContent
  split
  · exact Program.uses_fail _
  · refine (readsOnly_getRdf _).mapError.bind fun stored => ?_
    split
    · split
      · exact Program.uses_done _
      · exact Program.uses_fail _
    · exact Program.uses_fail _
  · refine (readsOnly_kindOf _).attempt.bind fun kind => ?_
    split
    · exact Program.uses_fail _
    · refine (readsOnly_getDataset _).mapError.bind fun stored => ?_
      split
      · exact Program.uses_done _
      · exact Program.uses_fail _

omit [Sha256] [ObjectPath] in
theorem readsOnly_validateView
    (agent : Agent) (target : Target space) (headers : HeaderMap) :
    ReadsOnly (validateView agent target headers) := by
  refine (readsOnly_probeFor agent target).bind fun guard => ?_
  refine (readsOnly_orDeny target _).bind fun decision => ?_
  split
  · exact Program.uses_done _
  · refine (readsOnly_loadShape _).mapError.bind fun shape => ?_
    split
    · exact Program.uses_done _
    · refine (readsOnly_validatedContent target).bind fun dataset => ?_
      refine (Program.uses_ofExcept _).bind fun report => ?_
      split
      · exact Program.uses_done _
      · split <;> exact Program.uses_done _

theorem readsOnly_handleGet
    (space : StorageSpace) (storeVersion : RdfVersion) (path : Text)
    (query : Option Text) (agent : Agent) (headers : HeaderMap) :
    ReadsOnly (handleGet space storeVersion path query agent headers) := by
  refine (Program.uses_ofExcept _).bind fun target => ?_
  split
  · exact readsOnly_validateView _ _ _
  · exact readsOnly_getImpl _ _ _ _

end Reads

/-! ## Where a request goes -/

omit [IriSyntax] in
/-- The path the handler of a request is given, where one is. -/
def HttpRequest.path? (request : HttpRequest) : Option Text :=
  match routeOf request.path with
  | some .root => some ['/']
  | some (.path wire) => handlerPath wire
  | _ => none

/-- The write request of the pod that a request on the wire amounts to. -/
def HttpRequest.asWrite
    (request : HttpRequest) (method : Method) (path : Text) (agent : Agent)
    (draws : Draws) : Request where
  method := method
  path := path
  agent := agent
  headers := request.fields
  body := request.body
  draws := draws

variable [Sha256] [ObjectPath] [QuadText]
variable [RdfParser] [RdfSerializer] [ShapeEngine] [N3Parser] [Quality]
variable [WireFormats] [Josekit] [JoseSigning]

/-- The router answers a request itself, or hands it to a handler. -/
theorem dispatch_cases
    (app : AppState) (agent : Agent) (request : HttpRequest) (draws : Draws) :
    (∃ result,
        dispatch app agent request draws = Program.ofExcept result) ∨
      ∃ verb path,
        Verb.ofText request.method = some verb ∧
          request.path? = some path ∧
          dispatch app agent request draws =
            handlePath app agent verb request draws path := by
  unfold dispatch HttpRequest.path?
  cases routeOf request.path with
  | none =>
      exact Or.inl ⟨.error _, rfl⟩
  | some route =>
      cases isVerb : Verb.ofText request.method with
      | none =>
          exact Or.inl ⟨.error (.ofStatus 405), by cases route <;> rfl⟩
      | some verb =>
          cases route with
          | root =>
              exact Or.inr ⟨verb, ['/'], rfl, rfl, rfl⟩
          | path wire =>
              cases given : handlerPath wire with
              | none =>
                  exact Or.inl ⟨.error (.ofStatus 400), by simp only [given]; rfl⟩
              | some path =>
                  exact Or.inr ⟨verb, path, rfl, given, by simp only [given]⟩
          | wellKnown rest =>
              left
              dsimp only
              split
              · split
                · exact ⟨.ok _, rfl⟩
                · exact ⟨.ok _, rfl⟩
                · exact ⟨.error _, rfl⟩
              · exact ⟨.error _, rfl⟩

omit [WireFormats] [JoseSigning] in
/-- A write is refused for the size of its body, or is a request of the pod. -/
theorem handlePath_write
    (app : AppState) (agent : Agent) (method : Method) (request : HttpRequest)
    (draws : Draws) (path : Text) :
    handlePath app agent (.write method) request draws path =
        .fail (.ofStatus 413) ∨
      handlePath app agent (.write method) request draws path =
        handle app.space app.storeVersion
          (request.asWrite method path agent draws) := by
  unfold handlePath
  dsimp only
  split
  · exact Or.inl rfl
  · exact Or.inr rfl

omit [WireFormats] [JoseSigning] in
/-- A request that writes nothing only reads. -/
theorem readsOnly_handlePath
    (app : AppState) (agent : Agent) (verb : Verb) (request : HttpRequest)
    (draws : Draws) (path : Text)
    (safe : ∀ method, verb ≠ .write method) :
    ReadsOnly (handlePath app agent verb request draws path) := by
  cases verb with
  | get =>
      exact readsOnly_handleGet _ _ _ _ _ _
  | head =>
      exact readsOnly_handleGet _ _ _ _ _ _
  | options =>
      exact (Program.uses_ofExcept _).bind fun target => Program.uses_done _
  | write method =>
      exact (safe method rfl).elim

/-! ## Runs -/

variable [DpopVerifierCrate] [UrlParser] {State : Type}

/-- The states a sequence of requests on the wire leads to. -/
inductive ServerReaches
    (app : AppState) (start : World → Prop) : State → World → Prop where
  | start (state : State) (world : World) (started : start world) :
      ServerReaches app start state world
  | served
      (state : State) (world : World) (arrival : Arrival State)
      (before : ServerReaches app start state world) :
      ServerReaches app start (serve app arrival state world).state
        (serve app arrival state world).world

/--
What an agent has shown by a request: an anonymous one brought no credential
that can be read, and a WebID was proved by those it brought.
-/
def Arrival.Shows
    (app : AppState) (arrival : Arrival State) (state : State)
    (agent : Agent) : Prop :=
  let presented :=
    arrival.request.presented app.space arrival.now arrival.wallClock
  match agent with
  | .anonymous => presented.authHeader = none ∧ presented.dpopHeader = none
  | .webId webid =>
      ∃ token proof claims resolved authorized last,
        claims.webid = webid ∧
          Proves arrival.deps presented token proof claims state resolved
            authorized last

omit [Sha256] [ObjectPath] [QuadText] [RdfParser] [RdfSerializer]
  [ShapeEngine] [N3Parser] [Quality] [JoseSigning] in
/-- The middleware lets a request through for an agent that was shown only. -/
theorem shows_of_forwards
    {app : AppState} {arrival : Arrival State} {state : State} {agent : Agent}
    (forwards :
      (authLayer app.space arrival.deps arrival.request.toWireRequest
        arrival.now arrival.wallClock state).1 = .forwards agent) :
    arrival.Shows app state agent := by
  unfold authLayer at forwards
  split at forwards
  · next found last outcome =>
      obtain rfl : found = agent := Passage.forwards.inj forwards
      by_cases present :
          (arrival.request.presented app.space arrival.now
              arrival.wallClock).authHeader ≠ none ∨
            (arrival.request.presented app.space arrival.now
              arrival.wallClock).dpopHeader ≠ none
      · obtain ⟨token, proof, claims, resolved, authorized, rfl, proves⟩ :=
          proves_of_authenticate present outcome
        exact ⟨token, proof, claims, resolved, authorized, last, rfl, proves⟩
      · rw [not_or, not_not, not_not] at present
        have bare :
            authenticate arrival.deps
                (arrival.request.presented app.space arrival.now
                  arrival.wallClock) = pure .anonymous := by
          unfold authenticate
          rw [present.1, present.2]
          rfl
        rw [bare] at outcome
        cases outcome
        exact present
  · cases forwards

/-- What a request on the wire is to the pod: nothing, or a write by the agent
the middleware let through. -/
inductive WritesAs
    (app : AppState) (arrival : Arrival State) (state : State)
    (world : World) : World → Prop where
  | nothing : WritesAs app arrival state world world
  | write
      (method : Method) (path : Text) (agent : Agent)
      (isWrite : Verb.ofText arrival.request.method = some (.write method))
      (routed : arrival.request.path? = some path)
      (shown : arrival.Shows app state agent) :
      WritesAs app arrival state world
        (afterRequest app.space app.storeVersion
          (arrival.request.asWrite method path agent arrival.draws)
          arrival.faults world)

theorem serve_writesAs
    (app : AppState) (arrival : Arrival State) (state : State)
    (world : World) :
    WritesAs app arrival state world
      (serve app arrival state world).world := by
  unfold serve
  dsimp only
  split
  · exact .nothing
  · next agent forwards =>
      have shown := shows_of_forwards forwards
      have unchanged :
          ∀ program : HttpProgram Response,
            ReadsOnly program →
            (Program.run backend program arrival.faults world).world =
              world := by
        intro program reads
        have ensured :
            Program.Ensures backend True program world fun _ reached =>
              reached = world :=
          Program.Uses.ensures reads (fun _ isRead => isRead.perform) world
        exact ensured arrival.faults (Or.inl trivial)
      dsimp only
      rcases dispatch_cases app agent arrival.request arrival.draws with
          ⟨result, same⟩ | ⟨verb, path, isVerb, routed, same⟩
      · rw [same, unchanged _ (Program.uses_ofExcept _)]
        exact .nothing
      · by_cases safe : ∀ method, verb ≠ .write method
        · rw [same, unchanged _ (readsOnly_handlePath _ _ _ _ _ _ safe)]
          exact .nothing
        · obtain ⟨method, rfl⟩ : ∃ method, verb = .write method := by
            by_contra none
            exact safe fun method isWrite => none ⟨method, isWrite⟩
          rcases handlePath_write app agent method arrival.request
              arrival.draws path with tooLarge | handled
          · rw [same, tooLarge]
            exact .nothing
          · rw [same, handled]
            exact .write method path agent isVerb routed shown

/-- The server goes only where the pod goes, with agents that were shown. -/
theorem ServerReaches.reachable
    {app : AppState} {start : World → Prop} {state : State} {world : World}
    (reached : ServerReaches app start state world) :
    Reachable app.space app.storeVersion start
      (fun _ request _ =>
        ∃ (arrival : Arrival State) (before : State),
          arrival.Shows app before request.agent)
      world := by
  induction reached with
  | start state world started =>
      exact .start world started
  | served state world arrival before inductionHypothesis =>
      have step := serve_writesAs app arrival state world
      generalize (serve app arrival state world).world = reached at step
      cases step with
      | nothing =>
          exact inductionHypothesis
      | write method path agent isWrite routed shown =>
          exact .request world _ arrival.faults inductionHypothesis
            ⟨arrival, state, shown⟩

/-- A change of the stores by an agent that was shown and granted it. -/
structure GrantedWrite
    (app : AppState) (arrival : Arrival State) (state : State)
    (world left : World) (method : Method) (path : Text) (agent : Agent)
    (target : Target app.space) : Prop where
  isWrite : Verb.ofText arrival.request.method = some (.write method)
  routed : arrival.request.path? = some path
  classified : classify app.space path = .ok target
  shown : arrival.Shows app state agent
  graphs :
    ∀ name,
      left.graphs name ≠ world.graphs name →
      GrantedGraph world
        (arrival.request.asWrite method path agent arrival.draws) target name
  objects :
    ∀ key,
      left.blobs key ≠ world.blobs key →
      GrantedObject world
        (arrival.request.asWrite method path agent arrival.draws) target key

omit [Quality] [JoseSigning] in
/-- A write changes what its agent was granted. -/
theorem WritesAs.granted
    {app : AppState} {arrival : Arrival State} {state : State}
    {world left : World}
    (writes : WritesAs app arrival state world left)
    (owned : world.RegistersOwn app.space)
    (whole : world.AuxWhole app.space) :
    left = world ∨
      ∃ method path agent target,
        GrantedWrite app arrival state world left method path agent target := by
  cases writes with
  | nothing =>
      exact Or.inl rfl
  | write method path agent isWrite routed shown =>
      rcases afterRequest_cases True (Or.inl trivial) with
          same | ⟨target, classified, effect⟩
      · exact Or.inl same
      · obtain ⟨graphs, objects⟩ := effect.granted owned whole
        exact Or.inr ⟨method, path, agent, target,
          { isWrite := isWrite
            routed := routed
            classified := classified
            shown := shown
            graphs := graphs
            objects := objects }⟩

/--
Whatever requests a provisioned server has taken off the wire, and whatever the
next one is: if it changes the stores, it is a write whose path names a target,
made by an agent that is anonymous without a readable credential or whose WebID
its own credentials proved, and every graph and object that differs afterwards
was granted to that agent by the nearest ACL of the world it found.
-/
theorem served_changes_granted
    {app : AppState} {state : State} {world : World}
    (reached : ServerReaches app (Provisioned app.space) state world)
    (arrival : Arrival State) :
    (serve app arrival state world).world = world ∨
      ∃ method path agent target,
        GrantedWrite app arrival state world
          (serve app arrival state world).world method path agent target := by
  have reachable := reached.reachable
  exact (serve_writesAs app arrival state world).granted
    (reachable.registersOwn fun _ provisioned => provisioned.registersOwn)
    reachable.auxWhole

end Quadpod

namespace Quadpod.Reference

/-- No key of the pod's own is used here. -/
scoped instance : JoseSigning where
  Signer := Empty
  generateEcKey _ := .error "no random numbers".toList
  algorithm key := keyMember key "alg"
  parameter key name := key.lookup name
  setKeyId key value := ("kid".toList, .string value) :: key
  setAlgorithm key value := ("alg".toList, .string value) :: key
  toPublicKey key := .ok (key.filter fun member => member.1 ≠ "d".toList)
  toMap key := key
  es256Signer _ := .error "no signer".toList
  rs256Signer _ := .error "no signer".toList
  acceptsClaim _ _ := true
  encodeWithSigner _ _ signer := nomatch signer

/-- The pod as it serves requests, without an OP. -/
def podApp : AppState where
  space := podSpace
  storeVersion := .rdf12
  maxBodyBytes := 64 * 1024 * 1024
  opKeys := none

/-- A field value, with a check that every byte is allowed. -/
def fieldOf (text : Text)
    (checked :
      ((Text.utf8 text).all fun byte =>
        (decide (32 ≤ byte) && decide (byte ≠ 127)) ||
          decide (byte = 9)) = true) :
    HeaderValue where
  bytes := Text.utf8 text
  legal := by
    simpa using List.all_eq_true.mp checked

/-- The media type of a Turtle document, as a field value. -/
def turtleField : HeaderValue :=
  fieldOf "text/turtle".toList (by decide)

/-- A request without credentials, with every store call answered. -/
def strange (request : HttpRequest) : Arrival AuthState where
  request := request
  deps := (attemptAt unreachable [] 0).deps strictConfig
  now := .clamp 0
  wallClock := 0
  draws := draws
  faults := []

/-- A stranger sends a statement for `/note`. -/
def strangePut : HttpRequest where
  method := "PUT".toList
  path := "/note".toList
  headers := [("content-type".toList, turtleField)]
  query := none
  body := Text.utf8 blankTurtle

/-- A request with the owner's credentials, with every store call answered. -/
def owners (request : HttpRequest) : Arrival AuthState where
  request := request
  deps := (attemptAt reachable [] 1000).deps strictConfig
  now := .clamp 1000
  wallClock := 1000
  draws := draws
  faults := []

/-- The owner's token, as a field value. -/
def tokenField : HeaderValue :=
  fieldOf ("DPoP ".toList ++ accessToken) (by decide +kernel)

/-- The owner sends a statement for `/note`. -/
def ownerPut : HttpRequest where
  method := "PUT".toList
  path := "/note".toList
  headers :=
    [("content-type".toList, turtleField),
      ("authorization".toList, tokenField),
      ("dpop".toList, fieldOf putProof (by decide +kernel))]
  query := none
  body := Text.utf8 blankTurtle

theorem reached_freshWorld :
    ServerReaches podApp (Provisioned podApp.space) AuthState.new freshWorld :=
  .start _ _ provisioned_freshWorld

/-- The owner creates `/note`, as the root ACL grants it. -/
theorem served_changes_granted_ownerPut :
    (serve podApp (owners ownerPut) AuthState.new freshWorld).world ≠
        freshWorld ∧
      ∃ method path agent target,
        GrantedWrite podApp (owners ownerPut) AuthState.new freshWorld
          (serve podApp (owners ownerPut) AuthState.new freshWorld).world
          method path agent target := by
  have created :
      freshWorld.present note.node = false ∧
        (serve podApp (owners ownerPut) AuthState.new
          freshWorld).world.present note.node = true := by
    decide +kernel
  have changed :
      (serve podApp (owners ownerPut) AuthState.new freshWorld).world ≠
        freshWorld := by
    intro same
    rw [same, created.1] at created
    cases created.2
  refine ⟨changed, ?_⟩
  exact (served_changes_granted reached_freshWorld
    (owners ownerPut)).resolve_left changed

end Quadpod.Reference
