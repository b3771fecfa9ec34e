import Quadpod.ServedRepresentations
import Quadpod.ServerRuns

namespace Quadpod

open AtomicProgram

/-!
# What a refused request learns

A handler probes its target and asks for one mode before it looks at anything
else.  An agent without that mode is sent the refusal, which depends on the agent
and the target alone: a pod that holds nothing at all sends the same.
-/

variable [IriSyntax]

/-! ## The gate of every handler -/

section Gate

variable {space : StorageSpace}

/-- What follows once a mode was granted on a target. -/
def admitting {α : Type}
    (agent : Agent) (target : Target space) (mode : Mode)
    (next : Guard space → Decision → HttpProgram α) : HttpProgram α := do
  let guard ← probeFor agent target
  let decision ← orDeny target (guard.authorize mode)
  next guard decision

/-- The mode a method demands of its target. -/
def Verb.demands : Verb → Option Mode
  | .get => some .read
  | .head => some .read
  | .options => none
  | .write .put => some .write
  | .write .post => some .append
  | .write .patch => some .append
  | .write .delete => some .write

/-- The response to an agent that is refused. -/
def refusal (agent : Agent) (target : Target space) : Response :=
  (deny agent).toResponse.withAuxLinks target

/-- The response to a request whose probe fails. -/
def probeFailure (target : Target space) : Response :=
  Response.internalError.withAuxLinks target

/-- A walk that grants nothing ends in the agent's own denial. -/
theorem World.nearestDecision_eq_error
    {world : World} {agent : Agent} {mode : Mode} {inherited : Bool}
    {chain : List (ResourceUrl space)} {denial : Denial}
    (refused :
      world.nearestDecision agent mode inherited chain = .error denial) :
    denial = deny agent := by
  induction chain generalizing inherited with
  | nil =>
      exact (Except.error.inj refused).symm
  | cons element above inductionHypothesis =>
      rw [nearestDecision] at refused
      split at refused
      · unfold judge at refused
        dsimp only at refused
        split at refused
        · cases refused
        · exact (Except.error.inj refused).symm
      · exact inductionHypothesis refused

/-- The gate stays closed to an agent that is refused. -/
theorem run_admitting_refused {α : Type}
    {world : World} {agent : Agent} {target : Target space} {mode : Mode}
    (refused : ∃ denial, world.authorization agent target mode = .error denial)
    (next : Guard space → Decision → HttpProgram α) (faults : Faults) :
    let outcome :=
      Program.run backend (admitting agent target mode next) faults world
    outcome.world = world ∧
      (outcome.result = .error (refusal agent target) ∨
        outcome.result = .error (probeFailure target)) := by
  obtain ⟨denial, refused⟩ := refused
  obtain rfl : denial = deny agent := World.nearestDecision_eq_error refused
  have gated :
      Program.Ensures backend True (admitting agent target mode next) world
        fun result reached =>
          reached = world ∧
            (result = .error (refusal agent target) ∨
              result = .error (probeFailure target)) := by
    have probed :
        Program.Ensures backend True (probeFor agent target) world
          fun result reached =>
            reached = world ∧
              (result = .ok (world.guard agent target) ∨
                result = .error (probeFailure target)) := by
      refine Program.Ensures.mapError
        ((ensures_probe world agent target).mono ?_)
      rintro result reached ⟨same, rfl | ⟨error, rfl⟩⟩
      · exact ⟨same, Or.inl rfl⟩
      · exact ⟨same, Or.inr rfl⟩
    refine probed.bind ?_ ?_
    · rintro guard reached ⟨rfl, isProbed⟩
      obtain rfl : guard = reached.guard agent target := by
        simpa using isProbed
      rw [World.guard_authorize, refused]
      exact Program.ensures_fail ⟨rfl, Or.inl rfl⟩
    · rintro response reached ⟨rfl, failed⟩
      have isFailure : response = probeFailure target := by
        simpa using failed
      exact ⟨rfl, Or.inr (congrArg Except.error isFailure)⟩
  exact gated faults (Or.inl trivial)

/-- With every call answered the refusal is what is sent. -/
theorem eval_admitting_refused {α : Type}
    {world : World} {agent : Agent} {target : Target space} {mode : Mode}
    (refused : ∃ denial, world.authorization agent target mode = .error denial)
    (next : Guard space → Decision → HttpProgram α) :
    Program.eval backend (admitting agent target mode next) world =
      (.error (refusal agent target), world) := by
  obtain ⟨denial, refused⟩ := refused
  obtain rfl : denial = deny agent := World.nearestDecision_eq_error refused
  rw [admitting, Program.eval_bind_ok (eval_probeFor world agent target),
    World.guard_authorize, refused]
  rfl

/-- A pod that holds nothing refuses every agent everything. -/
theorem World.authorization_empty
    (agent : Agent) (target : Target space) (mode : Mode) :
    World.empty.authorization agent target mode = .error (deny agent) := by
  have nothing :
      ∀ inherited (chain : List (ResourceUrl space)),
        World.empty.nearestDecision agent (target.requiredMode mode) inherited
            chain = .error (deny agent) := by
    intro inherited chain
    induction chain generalizing inherited with
    | nil =>
        rfl
    | cons element above inductionHypothesis =>
        have isAbsent : World.empty.present element.acl.node = false := rfl
        rw [nearestDecision, isAbsent]
        exact inductionHypothesis true
  exact nothing false _

end Gate

variable [Sha256] [ObjectPath] [QuadText]
variable [RdfParser] [RdfSerializer] [ShapeEngine] [N3Parser] [Quality]
variable [WireFormats] [Josekit] [JoseSigning]

omit [WireFormats] [JoseSigning] in
/-- Behind its path every handler that demands a mode starts with the gate. -/
theorem handlePath_eq_admitting
    (agent : Agent) (request : HttpRequest) (draws : Draws)
    {app : AppState} {verb : Verb} {path : Text} {target : Target app.space}
    {mode : Mode}
    (classified : classify app.space path = .ok target)
    (demands : verb.demands = some mode) :
    handlePath app agent verb request draws path = .fail (.ofStatus 413) ∨
      ∃ next,
        handlePath app agent verb request draws path =
          admitting agent target mode next := by
  have isRead :
      ∀ query headers,
        ∃ next,
          handleGet app.space app.storeVersion path query agent headers =
            admitting agent target .read next := by
    intro query headers
    unfold handleGet
    rw [classified]
    change ∃ next,
      (if wantsValidation query then validateView agent target headers
        else getImpl app.storeVersion agent target headers) = _
    split
    · exact ⟨_, rfl⟩
    · exact ⟨_, rfl⟩
  cases verb with
  | get =>
      cases demands
      exact Or.inr (isRead _ _)
  | head =>
      cases demands
      exact Or.inr (isRead _ _)
  | options =>
      cases demands
  | write method =>
      rcases handlePath_write app agent method request draws path with
          tooLarge | handled
      · exact Or.inl tooLarge
      · right
        rw [handled, handle]
        simp only [HttpRequest.asWrite, classified]
        cases method with
        | put =>
            cases demands
            exact ⟨_, rfl⟩
        | post =>
            cases demands
            exact ⟨_, rfl⟩
        | patch =>
            cases demands
            exact ⟨_, rfl⟩
        | delete =>
            cases demands
            exact ⟨_, rfl⟩

/-! ## Refused requests -/

/-- The nearest ACL grants an agent nothing of what a request demands. -/
def World.Refuses
    (world : World) (app : AppState) (agent : Agent)
    (request : HttpRequest) : Prop :=
  ∀ verb path (target : Target app.space) mode,
    Verb.ofText request.method = some verb →
    request.path? = some path →
    classify app.space path = .ok target →
    verb.demands = some mode →
    ∃ denial, world.authorization agent target mode = .error denial

/-- What the router makes of a request without asking a store, or a failed
probe of its target. -/
structure AnsweredBlindly
    (app : AppState) (program blank : HttpProgram Response) (world : World) :
    Prop where
  eval :
    Program.eval backend program world =
      ((Program.eval backend blank World.empty).1, world)
  run :
    ∀ faults,
      (Program.run backend program faults world).world = world ∧
        ((Program.run backend program faults world).result =
            (Program.eval backend blank World.empty).1 ∨
          ∃ target : Target app.space,
            (Program.run backend program faults world).result =
              .error (probeFailure target))

omit [Sha256] [ObjectPath] [QuadText] [RdfParser] [RdfSerializer]
  [ShapeEngine] [N3Parser] [Quality] [WireFormats] [JoseSigning] in
theorem AnsweredBlindly.constant
    (app : AppState) (result : Except Response Response) (world : World) :
    AnsweredBlindly app (Program.ofExcept result) (Program.ofExcept result)
      world := by
  cases result with
  | ok response =>
      exact ⟨rfl, fun _ => ⟨rfl, Or.inl rfl⟩⟩
  | error response =>
      exact ⟨rfl, fun _ => ⟨rfl, Or.inl rfl⟩⟩

/-- A refused request is answered without a look at what the pod holds. -/
theorem World.Refuses.answeredBlindly
    {world : World} {app : AppState} {agent : Agent} {request : HttpRequest}
    (refuses : world.Refuses app agent request) (draws : Draws) :
    AnsweredBlindly app (dispatch app agent request draws)
      (dispatch app agent request draws) world := by
  rcases dispatch_cases app agent request draws with
      ⟨result, same⟩ | ⟨verb, path, isVerb, routed, same⟩
  · rw [same]
    exact .constant app result world
  rw [same]
  cases classified : classify app.space path with
  | error response =>
      have isRefused :
          ∃ result : Except Response Response,
            handlePath app agent verb request draws path =
              Program.ofExcept result := by
        have stopped :
            ∀ (α : Type) (next : Target app.space → HttpProgram α),
              (Program.ofExcept (classify app.space path) >>= next) =
                .fail response := by
          intro α next
          rw [classified]
          rfl
        cases verb with
        | get =>
            exact ⟨.error response, stopped _ _⟩
        | head =>
            exact ⟨.error response, stopped _ _⟩
        | options =>
            exact ⟨.error response, stopped _ _⟩
        | write method =>
            rcases handlePath_write app agent method request draws path with
                tooLarge | handled
            · exact ⟨.error (.ofStatus 413), tooLarge⟩
            · exact ⟨.error response, handled.trans (stopped _ _)⟩
      obtain ⟨result, constant⟩ := isRefused
      rw [constant]
      exact .constant app result world
  | ok target =>
      cases demands : verb.demands with
      | none =>
          have isOptions : verb = .options := by
            cases verb with
            | options => rfl
            | get => cases demands
            | head => cases demands
            | write method => cases method <;> cases demands
          have constant :
              handlePath app agent verb request draws path =
                Program.ofExcept
                  (.ok (optionsImpl app.storeVersion target request)) := by
            rw [isOptions, handlePath, handleOptions, classified]
            rfl
          rw [constant]
          exact .constant app _ world
      | some mode =>
          rcases handlePath_eq_admitting agent request draws classified
              demands with tooLarge | ⟨next, gated⟩
          · rw [tooLarge]
            exact .constant app (.error (.ofStatus 413)) world
          · have refused := refuses verb path target mode isVerb routed
              classified demands
            have blank :
                (Program.eval backend (admitting agent target mode next)
                  World.empty).1 = .error (refusal agent target) := by
              rw [eval_admitting_refused
                ⟨_, World.authorization_empty agent target mode⟩]
            rw [gated]
            refine ⟨?_, fun faults => ?_⟩
            · rw [blank, eval_admitting_refused refused]
            · rw [blank]
              obtain ⟨unchanged, result⟩ :=
                run_admitting_refused refused next faults
              exact ⟨unchanged, result.imp_right fun failed => ⟨target, failed⟩⟩

/-! ## The server -/

variable [DpopVerifierCrate] [UrlParser] {State : Type}

omit [IriSyntax] [Sha256] [ObjectPath] [QuadText] [RdfParser]
  [RdfSerializer] [ShapeEngine] [N3Parser] [Quality] [JoseSigning] in
/-- A response as the outermost layer sends it. -/
def Arrival.sends (arrival : Arrival State) (response : Response) : Response :=
  corsLayer ((arrival.request.get "origin").map HeaderValue.text)
    (response.forMethod arrival.request.method)

/-- The agent the middleware lets a request through for is refused by a pod. -/
def Arrival.RefusedBy
    (arrival : Arrival State) (app : AppState) (state : State)
    (world : World) : Prop :=
  ∀ agent,
    (authLayer app.space arrival.deps arrival.request.toWireRequest
        arrival.now arrival.wallClock state).1 = .forwards agent →
    world.Refuses app agent arrival.request

/--
A request its agent is not allowed, by whatever method and on whatever path,
leaves the stores as they are and is answered as by a pod that holds nothing: the
response tells nothing of what is stored, not even whether the target exists.
Where store calls fail it may be the response to a failed probe instead.
-/
theorem refused_as_by_empty_pod
    {app : AppState} {arrival : Arrival State} {state : State} {world : World}
    (refused : arrival.RefusedBy app state world) :
    let handled := serve app arrival state world
    let blank := serve app { arrival with faults := [] } state World.empty
    handled.world = world ∧
      handled.state = blank.state ∧
      (handled.response = blank.response ∨
        ∃ target : Target app.space,
          handled.response = arrival.sends (probeFailure target)) ∧
      (arrival.faults = [] → handled.response = blank.response) := by
  unfold serve
  dsimp only
  cases passed :
      (authLayer app.space arrival.deps arrival.request.toWireRequest
        arrival.now arrival.wallClock state).1 with
  | answers status =>
      exact ⟨rfl, rfl, Or.inl rfl, fun _ => rfl⟩
  | forwards agent =>
      have blindly := (refused agent passed).answeredBlindly arrival.draws
      dsimp only
      rw [Program.run_nil backend
        (dispatch app agent arrival.request arrival.draws) World.empty]
      obtain ⟨unchanged, result⟩ := blindly.run arrival.faults
      refine ⟨unchanged, rfl, ?_, fun noFaults => ?_⟩
      · rcases result with same | ⟨target, failed⟩
        · exact Or.inl (by rw [same])
        · exact Or.inr ⟨target, by rw [failed]; rfl⟩
      · rw [noFaults, Program.run_nil, blindly.eval]

end Quadpod

namespace Quadpod.Reference

/-- A stranger may not write `/note` of a fresh pod. -/
theorem refused_stranger :
    ∃ denial,
      freshWorld.authorization .anonymous
        (.resource note (by decide) : Target podSpace) .write =
          .error denial := by
  have isRefused :
      (freshWorld.authorization .anonymous
        (.resource note (by decide) : Target podSpace) .write).toOption.isNone =
          true := by
    decide +kernel
  cases decided :
      freshWorld.authorization .anonymous
        (.resource note (by decide) : Target podSpace) .write with
  | ok decision =>
      rw [decided] at isRefused
      cases isRefused
  | error denial =>
      exact ⟨denial, rfl⟩

theorem refused_strangePut :
    (strange strangePut).RefusedBy podApp .new freshWorld := by
  intro agent passed verb path target mode isVerb routed classified demands
  obtain rfl : agent = .anonymous :=
    (Passage.forwards.inj (Eq.trans rfl passed)).symm
  obtain rfl : verb = .write .put :=
    (Option.some.inj (Eq.trans (by decide) isVerb)).symm
  obtain rfl : path = "/note".toList :=
    (Option.some.inj (Eq.trans (by decide) routed)).symm
  obtain rfl : target = .resource note (by decide) :=
    (Except.ok.inj (Eq.trans (by decide) classified)).symm
  cases demands
  exact refused_stranger

/-- A stranger's `PUT` learns nothing of a fresh pod. -/
theorem refused_as_by_empty_pod_strangePut :
    let handled := serve podApp (strange strangePut) .new freshWorld
    let blank := serve podApp (strange strangePut) .new World.empty
    handled.world = freshWorld ∧
      handled.state = blank.state ∧
      (handled.response = blank.response ∨
        ∃ target : Target podSpace,
          handled.response =
            (strange strangePut).sends (probeFailure target)) ∧
      ((strange strangePut).faults = [] →
        handled.response = blank.response) :=
  refused_as_by_empty_pod refused_strangePut

end Quadpod.Reference
