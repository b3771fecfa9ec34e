import Quadpod.AtomicProgramSections
import Quadpod.AuxiliaryReports
import Quadpod.BlobRoundTrip
import Quadpod.WritePreconditions

namespace Quadpod

open AtomicProgram GraphStore

/-!
# Conditional writes at once

`put_write` reads the tags of its target, compares them with `If-Match`, and
replaces the target in later calls.  Two writes with one tag can therefore both
find it.  Only where neither changes the stores between the other's check and
its answer does the check of the later one see what the earlier one has left.
-/

variable [IriSyntax] [Sha256] [ObjectPath] [QuadText]
variable [RdfParser] [RdfSerializer] [ShapeEngine]
variable {space : StorageSpace} {storeVersion : RdfVersion}

/-! ## From the check on -/

/-- What `put_write` does with a body of bytes from its check on. -/
def blobSection
    (guard : Guard space) (target : Target space) (url : ResourceUrl space)
    (request : Request) (bytes : Bytes) (mediaType : MediaType) :
    HttpProgram Response := do
  checkConditionals request.headers target
  let _ ← materializeFor guard target
  respondBlob target (putBlob url bytes mediaType)

/-- What `put_write` does with an RDF body from its check on. -/
def rdfSection
    (guard : Guard space) (target : Target space) (request : Request)
    (dataset : Dataset) (format : Format) : HttpProgram Response := do
  checkConditionals request.headers target
  let findings ← enforceShape target dataset
  let _ ← materializeFor guard target
  let triples := dataset.defaultGraphOnly.triplesOf
  let response ←
    match target with
    | .aux aux => putAux request.draws.blank target aux triples
    | .container container =>
        putContainer request.draws.blank target container triples
    | .resource url _ =>
        respond target
          (putDataset url (Skolemized.skolemize request.draws.blank dataset)
            format)
  pure (withFindings target findings response)

/-- What a `PUT` has left to do when it comes to its check. -/
inductive PutSection
    (storeVersion : RdfVersion) (target : Target space) (request : Request) :
    HttpProgram Response → Prop where
  | blob
      (guard : Guard space) (url : ResourceUrl space)
      (leaf : Text.endsWith ['/'] url.path = false) (key : BlobKey)
      (bytes : Bytes) (mediaType : MediaType)
      (onResource : target = .resource url leaf)
      (keyed : BlobKey.of url = some key)
      (classified :
        classifyBody request.headers request.body target storeVersion =
          .ok (.blob bytes mediaType)) :
      PutSection storeVersion target request
        (blobSection guard target url request bytes mediaType)
  | rdf
      (guard : Guard space) (dataset : Dataset) (format : Format)
      (declared : RdfVersion)
      (checked : checkBody target dataset = .ok ())
      (classified :
        classifyBody request.headers request.body target storeVersion =
          .ok (.rdf dataset format declared)) :
      PutSection storeVersion target request
        (rdfSection guard target request dataset format)

omit [Sha256] [ObjectPath] [QuadText] [RdfParser] [RdfSerializer]
  [ShapeEngine] in
/-- A program that reads changes nothing on its way. -/
theorem ReadsOnly.keeps
    {ε α : Type} {program : StoreProgram ε α} (reads : ReadsOnly program) :
    program.Uses backend.Keeps :=
  Program.Uses.obeys reads fun _ isRead => isRead.perform

/-- A `PUT` only reads until it comes to its check. -/
theorem approaches_put
    [N3Parser] {target : Target space} {request : Request}
    {sections : HttpProgram Response → Prop}
    (isPut : request.method = .put)
    (arrives :
      ∀ program,
        PutSection storeVersion target request program → sections program) :
    (handleTarget storeVersion request target).Approaches backend sections := by
  unfold handleTarget
  rw [isPut]
  dsimp only
  unfold putWrite
  refine (ReadsOnly.keeps (readsOnly_probe request.agent target).mapError
    ).approaches_bind fun guard => ?_
  refine Program.approaches_ofExcept_bind fun decision _ => ?_
  refine Program.approaches_ofExcept_bind fun repr classified => ?_
  cases repr with
  | blob bytes mediaType =>
      dsimp only
      unfold putBlobRepr
      cases target with
      | resource url leaf =>
          dsimp only
          cases keyed : BlobKey.of url with
          | none =>
              exact .failed _
          | some key =>
              refine .arrived (arrives _ ?_)
              exact .blob guard url leaf key bytes mediaType rfl keyed
                classified
      | container url =>
          exact .failed _
      | aux url =>
          exact .failed _
  | rdf dataset format declared =>
      dsimp only
      unfold putRdfRepr
      refine Program.approaches_ofExcept_bind fun _ checked => ?_
      refine (ReadsOnly.keeps (readsOnly_checkExisting target format declared)
        ).approaches_bind fun _ => ?_
      refine .arrived (arrives _ ?_)
      exact .rdf guard dataset format declared checked classified

/-! ## The check -/

/-- A target without the tag, and whose tags can be read. -/
def World.LacksTag (world : World) (target : Target space) (tag : Text) :
    Prop :=
  ∃ state, world.InState target state ∧ ¬ state.HasTag tag

omit [RdfParser] [RdfSerializer] [ShapeEngine] in
/-- States of one target in one world have the same tags. -/
theorem World.InState.tags_eq
    {world : World} {target : Target space} {state other : TargetState}
    (inState : world.InState target state)
    (inOther : world.InState target other) :
    state.tags = other.tags := by
  have read := eval_currentTags_inState inState
  rw [eval_currentTags_inState inOther] at read
  exact (Except.ok.inj (congrArg Prod.fst read)).symm

omit [RdfParser] [RdfSerializer] [ShapeEngine] in
/-- Without the tag, a write that is conditional on it is refused. -/
theorem refused_of_lacksTag
    {world : World} {target : Target space} {headers : HeaderMap} {tag : Text}
    {next : Unit → HttpProgram Response}
    (lacks : world.LacksTag target tag)
    (ifMatch : headers.str? .ifMatch = some tag) :
    (Program.eval backend (checkConditionals headers target >>= next)
      world).1 = .error (.ofStatus 412) := by
  obtain ⟨state, inState, isMissing⟩ := lacks
  have refused :=
    (checkConditionals_refuses_iff inState headers).mpr
      (Or.inl ⟨tag, ifMatch, isMissing⟩)
  rw [Program.eval_bind]
  generalize Program.eval backend (checkConditionals headers target) world =
    checked at refused
  obtain ⟨result, reached⟩ := checked
  dsimp only at refused
  rw [refused]

/-! ## The write -/

/-- What is known of the world for a target, and kept by every call on it. -/
def World.SoundFor (world : World) (target : Target space) : Prop :=
  target.isAux = true → world.AuxSound space

/--
No write of the body leaves the target with the tag, whatever it found, where it
found the subject of an auxiliary.
-/
def Request.Replaces
    (storeVersion : RdfVersion) (target : Target space) (tag : Text)
    (request : Request) : Prop :=
  ∀ (started : World) (repr : Repr) (write : StorageWrite space)
    (state : TargetState),
    classifyBody request.headers request.body target storeVersion = .ok repr →
    BodyWrite request.draws.blank (started.keptMembers target) repr target
      write →
    write ≠ .nothing →
    (target.isAux = true →
      started.present target.subject.node = true) →
    (backend.after started (write.calls started)).InState target state →
    ¬ state.HasTag tag

/-- A world that a write has left, with a state that can be read. -/
structure Replaced
    (storeVersion : RdfVersion) (target : Target space) (request : Request)
    (after : World) : Prop where
  written :
    ∃ (started : World) (repr : Repr) (write : StorageWrite space),
      classifyBody request.headers request.body target storeVersion =
          .ok repr ∧
        BodyWrite request.draws.blank (started.keptMembers target) repr target
          write ∧
        write ≠ .nothing ∧
        (target.isAux = true →
          started.present target.subject.node = true) ∧
        after = backend.after started (write.calls started)
  readable : ∃ state, after.InState target state

omit [QuadText] [RdfSerializer] [ShapeEngine] in
theorem Replaced.lacksTag
    [QuadText]
    {target : Target space} {request : Request} {after : World} {tag : Text}
    (replaced : Replaced storeVersion target request after)
    (replaces : request.Replaces storeVersion target tag) :
    after.LacksTag target tag := by
  obtain ⟨⟨started, repr, write, classified, isWrite, isSome, subject, rfl⟩,
    state, inState⟩ := replaced
  exact ⟨state, inState,
    replaces started repr write state classified isWrite isSome subject
      inState⟩

omit [ObjectPath] [QuadText] [RdfParser] [RdfSerializer] [ShapeEngine] in
/-- A plan keeps what is known of the world. -/
theorem World.SoundFor.perform_plan
    {world : World} {target : Target space}
    (sound : world.SoundFor target)
    (plan : List (ContainerUrl space × Option NamedNode)) :
    (backend.after world (planCalls plan)).SoundFor target := by
  intro isAux
  have performs :
      backend.Performs False world (planCalls plan)
        (backend.after world (planCalls plan)) :=
    Machine.performs_all backend world (planCalls plan)
  exact performs.invariant (·.AuxSound space) (sound isAux)
    fun world call member holds => keepsAux_planCalls member world holds

omit [ObjectPath] [QuadText] [RdfParser] [RdfSerializer] [ShapeEngine] in
/-- A `PUT` of an auxiliary that succeeds has found its subject. -/
theorem putAux_success
    {fresh : Nat → Uuid} {url : AuxUrl space} {triples : List Triple}
    {started after : World} {response : Response}
    (sound : started.AuxSound space)
    (isWritten :
      Program.eval backend (putAux fresh (.aux url) url triples) started =
        (.ok response, after))
    (isSuccess : response.isSuccess = true) :
    triples.length ≤ maxAuxTriples ∧
      started.present url.subject.node = true := by
  by_cases large : triples.length > maxAuxTriples
  · unfold putAux auxPut at isWritten
    rw [if_pos large] at isWritten
    cases isWritten
    cases isSuccess
  · refine ⟨Nat.not_lt.mp large, ?_⟩
    cases isPresent : started.present url.subject.node with
    | true => rfl
    | false =>
        have auxAbsent : started.present url.node = false := by
          cases found : started.present url.node with
          | false => rfl
          | true =>
              rw [sound.noOrphan url found] at isPresent
              cases isPresent
        have missing :
            Program.eval backend (auxPut fresh url triples) started =
              (.error .subjectMissing, started) := by
          unfold auxPut
          rw [if_neg large, StoreProgram.eval_issue_bind rfl,
            perform_auxPut_absent isPresent]
          have look :
              Program.eval backend (AuxProgram.ofResource (exists? url))
                  started =
                (.ok false, started) := by
            rw [AuxProgram.ofResource, Program.eval_mapError,
              eval_existsAt started url]
            exact congrArg (fun present => (Except.ok present, started))
              auxAbsent
          rw [Program.eval_bind_ok look]
          rfl
        unfold putAux at isWritten
        rw [Program.eval_bind, Program.eval_attempt, missing] at isWritten
        cases isWritten
        cases isSuccess

section Written

variable {guard : Guard space} {request : Request} {world after : World}
variable {response : Response}

omit [QuadText] [RdfSerializer] [ShapeEngine] in
/-- A body of bytes that is stored has replaced what was there. -/
theorem replaced_of_respondBlob
    {target : Target space} {url : ResourceUrl space}
    {leaf : Text.endsWith ['/'] url.path = false} {key : BlobKey}
    {bytes : Bytes} {mediaType : MediaType}
    (onResource : target = .resource url leaf)
    (keyed : BlobKey.of url = some key)
    (classified :
      classifyBody request.headers request.body target storeVersion =
        .ok (.blob bytes mediaType))
    (isWritten :
      Program.eval backend (respondBlob target (putBlob url bytes mediaType))
          world =
        (.ok response, after)) :
    Replaced storeVersion target request after := by
  subst onResource
  have stored := eval_putBlob world keyed bytes mediaType
  unfold respondBlob at isWritten
  rw [Program.eval_bind, Program.eval_attempt, stored] at isWritten
  cases isWritten
  refine ⟨⟨world, _, _, classified, .blob url leaf key bytes mediaType keyed,
    by simp, (fun impossible => by cases impossible), rfl⟩, .binary bytes, ?_⟩
  exact .binary (kindOf_withBlob world url key bytes mediaType) keyed
    (Function.update_self key _ _)

omit [QuadText] [RdfSerializer] [ShapeEngine] in
/-- An RDF body that is stored has replaced what was there. -/
theorem replaced_of_written
    (collisionFree : CollisionFree)
    {target : Target space} {dataset : Dataset} {format : Format}
    {declared : RdfVersion}
    (checked : checkBody target dataset = .ok ())
    (classified :
      classifyBody request.headers request.body target storeVersion =
        .ok (.rdf dataset format declared))
    (sound : world.SoundFor target)
    (isWritten :
      Program.eval backend
          (match target with
          | .aux aux =>
              putAux request.draws.blank target aux
                dataset.defaultGraphOnly.triplesOf
          | .container container =>
              putContainer request.draws.blank target container
                dataset.defaultGraphOnly.triplesOf
          | .resource url _ =>
              respond target
                (putDataset url
                  (Skolemized.skolemize request.draws.blank dataset) format))
          world =
        (.ok response, after))
    (isSuccess : response.isSuccess = true) :
    Replaced storeVersion target request after := by
  cases target with
  | resource url leaf =>
      obtain rfl := eval_putDataset_after isWritten
      have stored :
          ∃ kept,
            (backend.after world
              (((Target.resource url leaf).bodyWrite world request.draws.blank
                dataset format).calls world)).storedRdf (.resource url leaf) =
                  some kept :=
        (storedRdf_after_dataset collisionFree url leaf _ _).imp
          fun _ stored => stored.1
      obtain ⟨kept, isStored⟩ := stored
      exact ⟨⟨world, _, _, classified,
        .dataset url leaf dataset format declared checked, by simp,
        (fun impossible => by cases impossible), rfl⟩, .rdf kept, .rdf isStored⟩
  | container url =>
      have isAfter :
          after =
            backend.after world
              (((Target.container url).bodyWrite world request.draws.blank
                dataset format).calls world) :=
        eval_putContainer_after isWritten
      subst isAfter
      refine ⟨⟨world, _, _, classified,
        .container url dataset format declared checked, by simp,
        (fun impossible => by cases impossible), rfl⟩, .rdf _, .rdf (if_pos ?_)⟩
      refine World.present_iff.mpr (mem_after_container.mpr ?_)
      exact Or.inr (Or.inr (Or.inr ⟨rfl, rfl⟩))
  | aux url =>
      obtain ⟨small, subject⟩ := putAux_success (sound rfl) isWritten isSuccess
      have isAfter :
          after =
            backend.after world
              (((Target.aux url).bodyWrite world request.draws.blank dataset
                format).calls world) :=
        eval_putAux_after isWritten isSuccess
      subst isAfter
      refine ⟨⟨world, _, _, classified,
        .auxiliary url dataset format declared checked small, by simp,
        fun _ => subject, rfl⟩, .rdf _, .rdf (if_pos ?_)⟩
      exact present_after_auxiliary subject

end Written

/-! ## Every call of a section -/

section Calls

variable {target : Target space} {request : Request}

/-- The calls that keep what is known of the world for a target. -/
def Call.KeepsFor (target : Target space) : stores.Call → Prop :=
  backend.Preserves fun world => world.SoundFor target

omit [ObjectPath] [QuadText] [RdfParser] [RdfSerializer] [ShapeEngine] in
theorem Call.KeepsAux.keepsFor {call : Call} (keeps : call.KeepsAux space) :
    Call.KeepsFor target call :=
  fun world sound isAux => keeps world (sound isAux)

omit [ObjectPath] [QuadText] [RdfParser] [RdfSerializer] [ShapeEngine] in
theorem ReadsOnly.keepsFor
    {ε α : Type} {program : StoreProgram ε α} (reads : ReadsOnly program) :
    program.Uses (Call.KeepsFor target) :=
  Program.Uses.obeys reads fun _ isRead =>
    (Call.KeepsAux.of_reads isRead).keepsFor

omit [Sha256] [ObjectPath] [QuadText] [RdfParser] [RdfSerializer]
  [ShapeEngine] in
/-- The calls of a plan are all that performing it issues. -/
theorem uses_performPlan
    {allowed : stores.Call → Prop}
    (plan : List (ContainerUrl space × Option NamedNode))
    (allows : ∀ call ∈ planCalls plan, allowed call) :
    (performPlan plan).Uses allowed := by
  induction plan with
  | nil =>
      exact Program.uses_done _
  | cons step rest inductionHypothesis =>
      obtain ⟨ancestor, child⟩ := step
      have ensures : allowed (ensureCall ancestor) :=
        allows _ (by simp [planCalls])
      have later : (performPlan rest).Uses allowed :=
        inductionHypothesis fun call member =>
          allows call (by
            rw [planCalls, List.flatMap_cons]
            exact List.mem_append_right _ member)
      refine (StoreProgram.uses_issue ensures).mapError.bind fun _ => ?_
      cases child with
      | none =>
          exact later
      | some child =>
          have links : allowed (linkCall ancestor child) :=
            allows _ (by simp [planCalls])
          refine (StoreProgram.uses_issue links).mapError.bind fun _ => ?_
          exact later.bind fun _ => Program.uses_done _

omit [ObjectPath] [QuadText] [RdfParser] [RdfSerializer] [ShapeEngine] in
theorem keepsFor_materializeFor (guard : Guard space) :
    (materializeFor guard target).Uses (Call.KeepsFor target) := by
  refine Program.Uses.mapError ((Program.uses_ofExcept _).bind fun walk => ?_)
  refine (uses_performPlan walk.plan fun call member => ?_).bind
    fun _ => Program.uses_done _
  exact (keepsAux_planCalls member).keepsFor

omit [ObjectPath] [QuadText] [RdfParser] [RdfSerializer] [ShapeEngine] in
theorem keepsFor_putAux
    (fresh : Nat → Uuid) (url : AuxUrl space) (triples : List Triple) :
    (putAux fresh target url triples).Uses (Call.KeepsFor target) := by
  have written : (auxPut fresh url triples).Uses (Call.KeepsFor target) := by
    unfold auxPut
    split
    · exact Program.uses_fail _
    · refine (StoreProgram.uses_issue
        (keepsAux_auxPut fresh url triples).keepsFor).bind fun _ => ?_
      refine (ReadsOnly.keepsFor (readsOnly_exists url).mapError).bind
        fun isPresent => ?_
      cases isPresent
      · exact Program.uses_fail _
      · exact Program.uses_done _
  refine written.attempt.bind fun result => ?_
  rcases result with (_ | _ | _ | _) | ⟨⟩ <;> exact Program.uses_done _

/-- Every call of a `PUT` on an auxiliary keeps what is known of the world. -/
theorem PutSection.keepsFor
    {program : HttpProgram Response}
    (isSection : PutSection storeVersion target request program) :
    program.Uses (Call.KeepsFor target) := by
  cases isAux : target.isAux with
  | false =>
      refine Program.uses_of_forall (fun call world _ impossible => ?_) program
      rw [isAux] at impossible
      cases impossible
  | true =>
      cases isSection with
      | blob guard url leaf key bytes mediaType onResource =>
          rw [onResource] at isAux
          cases isAux
      | rdf guard dataset format declared =>
          unfold rdfSection
          refine (ReadsOnly.keepsFor
            (readsOnly_checkConditionals request.headers target)).bind
              fun _ => ?_
          refine (ReadsOnly.keepsFor
            (readsOnly_enforceShape target dataset)).bind fun findings => ?_
          refine (keepsFor_materializeFor guard).bind fun _ => ?_
          cases target with
          | aux url =>
              exact (keepsFor_putAux _ url _).bind fun _ => Program.uses_done _
          | resource url leaf =>
              cases isAux
          | container url =>
              cases isAux

end Calls

/-! ## A section compares and sets -/

/-- A section that ends in a success has replaced the target. -/
theorem PutSection.replaced
    (collisionFree : CollisionFree)
    {target : Target space} {request : Request}
    {program : HttpProgram Response} {world after : World}
    {response : Response}
    (isSection : PutSection storeVersion target request program)
    (sound : world.SoundFor target)
    (evaluated : Program.eval backend program world = (.ok response, after))
    (isSuccess : response.isSuccess = true) :
    Replaced storeVersion target request after := by
  cases isSection with
  | blob guard url leaf key bytes mediaType onResource keyed classified =>
      obtain ⟨_, _, _, evaluated⟩ := Program.eval_bind_eq_ok evaluated
      obtain ⟨_, _, _, evaluated⟩ := Program.eval_bind_eq_ok evaluated
      exact replaced_of_respondBlob onResource keyed classified evaluated
  | rdf guard dataset format declared checked classified =>
      obtain ⟨_, checkedWorld, isChecked, evaluated⟩ :=
        Program.eval_bind_eq_ok evaluated
      have sameChecked :=
        (readsOnly_checkConditionals request.headers target).eval_world world
      rw [isChecked] at sameChecked
      dsimp only at sameChecked
      rw [sameChecked] at evaluated
      obtain ⟨findings, shapedWorld, isShaped, evaluated⟩ :=
        Program.eval_bind_eq_ok evaluated
      have sameShaped :=
        (readsOnly_enforceShape target dataset).eval_world world
      rw [isShaped] at sameShaped
      dsimp only at sameShaped
      rw [sameShaped] at evaluated
      obtain ⟨_, started, isMaterialized, evaluated⟩ :=
        Program.eval_bind_eq_ok evaluated
      obtain ⟨walk, walked, rfl⟩ := eval_materializeFor_eq_ok isMaterialized
      have startedSound := sound.perform_plan walk.plan
      cases target with
      | resource url leaf =>
          obtain ⟨answer, reached, isWritten, evaluated⟩ :=
            Program.eval_bind_eq_ok evaluated
          cases evaluated
          rw [isSuccess_withFindings] at isSuccess
          exact replaced_of_written collisionFree checked classified
            startedSound isWritten isSuccess
      | container url =>
          obtain ⟨answer, reached, isWritten, evaluated⟩ :=
            Program.eval_bind_eq_ok evaluated
          cases evaluated
          rw [isSuccess_withFindings] at isSuccess
          exact replaced_of_written collisionFree checked classified
            startedSound isWritten isSuccess
      | aux url =>
          obtain ⟨answer, reached, isWritten, evaluated⟩ :=
            Program.eval_bind_eq_ok evaluated
          cases evaluated
          rw [isSuccess_withFindings] at isSuccess
          exact replaced_of_written collisionFree checked classified
            startedSound isWritten isSuccess

/-- Every section of a `PUT` that replaces the tag compares and sets. -/
theorem PutSection.comparesAndSets
    (collisionFree : CollisionFree)
    {target : Target space} {request : Request} {tag : Text}
    {program : HttpProgram Response}
    (isSection : PutSection storeVersion target request program)
    (ifMatch : request.headers.str? .ifMatch = some tag)
    (replaces : request.Replaces storeVersion target tag) :
    program.ComparesAndSets backend (fun world => world.SoundFor target)
      (fun response => response.isSuccess = true)
      (fun world => world.LacksTag target tag) (.ofStatus 412) where
  keeps := isSection.keepsFor
  refuses := by
    intro world lacks
    cases isSection with
    | blob guard url leaf key bytes mediaType onResource keyed classified =>
        exact refused_of_lacksTag lacks ifMatch
    | rdf guard dataset format declared checked classified =>
        exact refused_of_lacksTag lacks ifMatch
  replaces := by
    intro world response sound result isSuccess
    have evaluated :
        Program.eval backend program world =
          (.ok response, (Program.eval backend program world).2) :=
      Prod.ext result rfl
    generalize (Program.eval backend program world).2 = after at evaluated ⊢
    exact (isSection.replaced collisionFree sound evaluated isSuccess).lacksTag
      replaces

omit [RdfSerializer] [ShapeEngine] in
/-- A body of bytes replaces every tag but the one of the bytes. -/
theorem Request.replaces_bytes_iff
    {url : ResourceUrl space} {leaf : Text.endsWith ['/'] url.path = false}
    {request : Request} {bytes : Bytes} {mediaType : MediaType} {tag : Text}
    {key : BlobKey} (keyed : BlobKey.of url = some key)
    (classified :
      classifyBody request.headers request.body (.resource url leaf)
          storeVersion =
        .ok (.blob bytes mediaType)) :
    request.Replaces storeVersion (.resource url leaf) tag ↔
      tag ≠ blobEtag bytes := by
  have stored (started : World) (key : BlobKey)
      (keyed : BlobKey.of url = some key) :
      (backend.after started
        ((StorageWrite.blob url key bytes mediaType).calls started)).InState
          (.resource url leaf) (.binary bytes) :=
    .binary (kindOf_withBlob started url key bytes mediaType) keyed
      (Function.update_self key _ _)
  constructor
  · rintro replaces rfl
    exact replaces World.empty _ _ _ classified
      (.blob url leaf key bytes mediaType keyed) (by simp)
      (fun impossible => by cases impossible) (stored World.empty key keyed)
      ⟨_, rfl, List.mem_singleton_self _⟩
  · rintro different started repr write state isRepr isWrite _ _ inState
      ⟨tags, isTags, member⟩
    rw [classified] at isRepr
    cases isRepr
    cases isWrite with
    | blob _ _ other _ _ isKey =>
        rw [inState.tags_eq (stored started other isKey)] at isTags
        cases isTags
        exact different (List.mem_singleton.mp member)

/-! ## Two writes with one tag -/

/-- The sections of two requests. -/
def SectionOfEither
    (storeVersion : RdfVersion) (target : Target space)
    (first second : Request) (program : HttpProgram Response) : Prop :=
  PutSection storeVersion target first program ∨
    PutSection storeVersion target second program

/-- Two requests on one target that are about to share a world. -/
def conditionalRace
    [N3Parser] (storeVersion : RdfVersion) (target : Target space)
    (first second : Request) (world : World) :
    Config stores Response Response World :=
  Config.start world
    [handleTarget storeVersion first target,
      handleTarget storeVersion second target]

/-- Before they run, both requests only read on their way to a section. -/
theorem approaches_conditionalRace
    [N3Parser] {target : Target space} {first second : Request} {world : World}
    (firstPut : first.method = .put) (secondPut : second.method = .put)
    {program : HttpProgram Response}
    (member :
      program ∈ (conditionalRace storeVersion target first second world).pool) :
    program.Approaches backend
      (SectionOfEither storeVersion target first second) := by
  rcases List.mem_cons.mp member with rfl | isSecond
  · exact approaches_put firstPut fun _ isSection => Or.inl isSection
  · obtain rfl := List.mem_singleton.mp isSecond
    exact approaches_put secondPut fun _ isSection => Or.inr isSection

/--
Of two `PUT`s with one `If-Match` tag at most one succeeds, and the other one is
answered `412` if it comes to its check after that: in every run in which
neither changes the stores between the other's check and its answer, if neither
body leaves the tag in place.
-/
theorem conditional_puts_one_wins
    [N3Parser] (collisionFree : CollisionFree)
    {target : Target space} {tag : Text} {first second : Request}
    {world : World}
    (reachable :
      Reachable space storeVersion (Provisioned space) anyRequest world)
    (firstPut : first.method = .put) (secondPut : second.method = .put)
    (firstTag : first.headers.str? .ifMatch = some tag)
    (secondTag : second.headers.str? .ifMatch = some tag)
    (firstReplaces : first.Replaces storeVersion target tag)
    (secondReplaces : second.Replaces storeVersion target tag)
    (schedule : List (Turn stores))
    (undisturbed :
      Config.Admits backend
        (Config.Undisturbed backend
          (SectionOfEither storeVersion target first second))
        schedule (conditionalRace storeVersion target first second world)) :
    (Config.execute backend schedule
      (conditionalRace storeVersion target first second world)).OneWins backend
        (SectionOfEither storeVersion target first second)
        (fun response => response.isSuccess = true) (.ofStatus 412) := by
  have comparesAndSets :
      ∀ program,
        SectionOfEither storeVersion target first second program →
        program.ComparesAndSets backend (fun world => world.SoundFor target)
          (fun response => response.isSuccess = true)
          (fun world => world.LacksTag target tag) (.ofStatus 412) := by
    rintro program (isFirst | isSecond)
    · exact isFirst.comparesAndSets collisionFree firstTag firstReplaces
    · exact isSecond.comparesAndSets collisionFree secondTag secondReplaces
  have approaches
      {program : HttpProgram Response}
      (member :
        program ∈
          (conditionalRace storeVersion target first second world).pool) :
      program.Approaches backend
        (SectionOfEither storeVersion target first second) :=
    approaches_conditionalRace firstPut secondPut member
  exact Config.execute_one_wins comparesAndSets
    (approaches List.mem_cons_self)
    (approaches (List.mem_cons_of_mem _ (List.mem_singleton_self _)))
    (fun _ => reachable.auxSound) schedule undisturbed

end Quadpod

namespace Quadpod.Reference

open AtomicProgram

/-- The owner stores bytes under `/note`. -/
def putPlain (headers : HeaderMap) (bytes : Bytes) : Request where
  method := .put
  path := "/note".toList
  agent := ownerAgent
  headers := (.contentType, some "text/plain".toList) :: headers
  body := bytes
  draws := draws

/-- The world after bytes were stored. -/
def taggedWorld : World :=
  afterRequest podSpace .rdf12 (putPlain [] [3]) [] freshWorld

theorem reachable_taggedWorld :
    Reachable podSpace .rdf12 (Provisioned podSpace) anyRequest taggedWorld :=
  .request freshWorld (putPlain [] [3]) []
    (.start freshWorld provisioned_freshWorld) trivial

/-- The tag of the stored bytes. -/
def bytesTag : Text := blobEtag [3]

/-- The owner stores bytes, if the tag is still that of the stored ones. -/
def replaceBytes (bytes : Bytes) : Request :=
  putPlain [(.ifMatch, some bytesTag)] bytes

/-- Two such requests. -/
def bytesRace (first second : Bytes) : Config stores Response Response World :=
  conditionalRace .rdf12 noteTarget (replaceBytes first) (replaceBytes second)
    taggedWorld

/-- Whether a program has ended in a success. -/
def hasWon (program : HttpProgram Response) : Bool :=
  match program with
  | .done response => response.isSuccess
  | _ => false

theorem won_of_hasWon
    {config : Config stores Response Response World} {thread : Nat}
    (isWon : (config.pool[thread]?.any hasWon) = true) :
    ∃ response,
      config.pool[thread]? = some (.done response) ∧
        response.isSuccess = true := by
  cases found : config.pool[thread]? with
  | none =>
      rw [found] at isWon
      cases isWon
  | some program =>
      rw [found] at isWon
      cases program with
      | done response =>
          exact ⟨response, rfl, isWon⟩
      | fail response =>
          cases isWon
      | call call next =>
          cases isWon

/-- Beside a program that has succeeded the second one is alone. -/
theorem outside_of_won
    {config : Config stores Response Response World}
    {sections : HttpProgram Response → Prop}
    (firstWon : (config.pool[0]?.any hasWon) = true)
    (isPair : config.pool.length = 2)
    {other : Nat} {program : HttpProgram Response} (different : other ≠ 1)
    (isProgram : config.pool[other]? = some program) :
    ¬ program.Inside backend sections := by
  intro inside
  have inPool := (List.getElem?_eq_some_iff.mp isProgram).1
  obtain rfl : other = 0 := by omega
  obtain ⟨response, isDone, _⟩ := won_of_hasWon firstWon
  rw [isDone] at isProgram
  cases isProgram
  exact inside.1 trivial

theorem classified_replaceBytes (bytes : Bytes) :
    classifyBody (replaceBytes bytes).headers (replaceBytes bytes).body
        noteTarget .rdf12 =
      .ok (.blob bytes plainText) :=
  rfl

theorem replaces_replaceBytes :
    (replaceBytes [1]).Replaces .rdf12 noteTarget bytesTag ∧
      (replaceBytes [2]).Replaces .rdf12 noteTarget bytesTag := by
  have keyed : BlobKey.of note = some ⟨"note".toList⟩ := by
    decide
  have different :
      bytesTag ≠ blobEtag [1] ∧ bytesTag ≠ blobEtag [2] := by
    decide
  exact
    ⟨(Request.replaces_bytes_iff keyed (classified_replaceBytes [1])).mpr
        different.1,
      (Request.replaces_bytes_iff keyed (classified_replaceBytes [2])).mpr
        different.2⟩

/-- The first request runs alone, and then the second one does. -/
def oneByOne : List (Turn stores) :=
  List.replicate 9 ⟨0, none⟩ ++ List.replicate 9 ⟨1, none⟩

/-- Both requests make their checks before the first of them writes. -/
def checksFirst : List (Turn stores) :=
  List.replicate 7 ⟨0, none⟩ ++ List.replicate 7 ⟨1, none⟩ ++
    List.replicate 2 ⟨0, none⟩ ++ List.replicate 2 ⟨1, none⟩

/-- How the runs end: alone, one by one, and with both checks first. -/
theorem run_bytesRace :
    (((Config.execute backend (List.replicate 9 ⟨0, none⟩)
          (bytesRace [1] [2])).pool[0]?.any hasWon) = true ∧
        (Config.execute backend (List.replicate 9 ⟨0, none⟩)
          (bytesRace [1] [2])).pool.length = 2) ∧
      (((Config.execute backend oneByOne
          (bytesRace [1] [2])).pool[0]?.any hasWon) = true ∧
        ((Config.execute backend oneByOne
          (bytesRace [1] [2])).pool[1]?.any hasWon) = false) ∧
      (((Config.execute backend checksFirst
          (bytesRace [1] [2])).pool[0]?.any hasWon) = true ∧
        ((Config.execute backend checksFirst
          (bytesRace [1] [2])).pool[1]?.any hasWon) = true ∧
        (Config.execute backend checksFirst
          (bytesRace [1] [2])).world.blobs ⟨"note".toList⟩ = some [2]) ∧
      ((Config.execute backend oneByOne
          (bytesRace [3] [2])).pool[0]?.any hasWon) = true ∧
      ((Config.execute backend oneByOne
          (bytesRace [3] [2])).pool[1]?.any hasWon) = true := by
  decide +kernel

theorem undisturbed_oneByOne :
    Config.Admits backend
      (Config.Undisturbed backend
        (SectionOfEither .rdf12 noteTarget (replaceBytes [1])
          (replaceBytes [2])))
      oneByOne (bytesRace [1] [2]) := by
  obtain ⟨firstWon, isPair⟩ := run_bytesRace.1
  refine Config.admits_append (Config.admits_alone 9 ?_)
    (Config.admits_alone 9 ?_)
  · intro other program different isProgram inside
    exact inside.2
      (approaches_conditionalRace rfl rfl (List.mem_of_getElem? isProgram))
  · intro other program different isProgram
    exact outside_of_won firstWon isPair different isProgram

/-- The first one succeeds, and the second one does not. -/
theorem one_replaceBytes_wins :
    let reached := Config.execute backend oneByOne (bytesRace [1] [2])
    reached.OneWins backend
        (SectionOfEither .rdf12 noteTarget (replaceBytes [1])
          (replaceBytes [2]))
        (fun response => response.isSuccess = true) (.ofStatus 412) ∧
      (reached.pool[0]?.any hasWon) = true ∧
      (reached.pool[1]?.any hasWon) = false := by
  intro reached
  refine ⟨?_, run_bytesRace.2.1⟩
  exact conditional_puts_one_wins collisionFree reachable_taggedWorld rfl rfl
    (rfl : (replaceBytes [1]).headers.str? .ifMatch = some bytesTag) rfl
    replaces_replaceBytes.1 replaces_replaceBytes.2 oneByOne
    undisturbed_oneByOne

/--
Both succeed when both check first, and what the first one has stored is lost.
They also succeed one after the other, when the first one stores what was there.
-/
theorem both_replaceBytes_succeed :
    Reachable podSpace .rdf12 (Provisioned podSpace) anyRequest taggedWorld ∧
      (∀ bytes,
        (replaceBytes bytes).method = .put ∧
          (replaceBytes bytes).body = bytes ∧
          (replaceBytes bytes).headers.str? .ifMatch = some bytesTag) ∧
      ((checksFirst ++ oneByOne).all fun turn => turn.fault.isNone) = true ∧
      (∃ first second,
        let reached := Config.execute backend checksFirst (bytesRace [1] [2])
        reached.pool[0]? = some (.done first) ∧
          reached.pool[1]? = some (.done second) ∧
          first.isSuccess = true ∧ second.isSuccess = true ∧
          reached.world.blobs ⟨"note".toList⟩ = some [2]) ∧
      ∃ first second,
        let reached := Config.execute backend oneByOne (bytesRace [3] [2])
        reached.pool[0]? = some (.done first) ∧
          reached.pool[1]? = some (.done second) ∧
          first.isSuccess = true ∧ second.isSuccess = true := by
  obtain ⟨_, _, interleaved, sequential⟩ := run_bytesRace
  obtain ⟨first, isFirst, firstSuccess⟩ := won_of_hasWon interleaved.1
  obtain ⟨second, isSecond, secondSuccess⟩ := won_of_hasWon interleaved.2.1
  obtain ⟨third, isThird, thirdSuccess⟩ := won_of_hasWon sequential.1
  obtain ⟨fourth, isFourth, fourthSuccess⟩ := won_of_hasWon sequential.2
  exact ⟨reachable_taggedWorld, fun _ => ⟨rfl, rfl, rfl⟩, by decide,
    ⟨first, second, isFirst, isSecond, firstSuccess, secondSuccess,
      interleaved.2.2⟩,
    third, fourth, isThird, isFourth, thirdSuccess, fourthSuccess⟩

end Quadpod.Reference
