import Quadpod.NotificationBus
import Quadpod.ReportedWrites
import Quadpod.WritePreconditions

namespace Quadpod

open AtomicProgram

/-!
# The change events of a write

`notify.rs` from `emit_put` to `state_of`.  An emit reads the state of every
topic it speaks about after the write, and publishes on those that are live; it
writes nothing.  What it publishes is returned here, in order.
-/

/-! ## Live topics -/

namespace Bus

/-- Whether a topic has a channel that somebody reads. -/
def isLive (bus : Bus) (topic : Topic) : Bool :=
  (bus.channels topic).isSome && !bus.idle topic

/-- What a call of `live` returns. -/
def live (bus : Bus) (topics : List Topic) : List Topic :=
  topics.filter bus.isLive

theorem live_singleton (bus : Bus) (topic : Topic) :
    (bus.live [topic]).isEmpty = !bus.isLive topic := by
  unfold live
  cases isLive : bus.isLive topic with
  | false =>
      simp [isLive]
  | true =>
      simp [isLive]

end Bus

variable [IriSyntax] [Sha256] [ObjectPath] [QuadText]
variable [RdfParser] [RdfSerializer] [ShapeEngine]
variable {space : StorageSpace}

/-! ## States -/

/-- `etag_of` -/
def etagOf (stored : Skolemized) : Text :=
  stored.etag .nQuads stored.deskolemize.rdfVersion

/-- `state_of` -/
def stateOf (target : Target space) : HttpProgram (Option Text) :=
  match target with
  | .resource url _ => do
      match ← (kindOf url).attempt with
      | .error _ => pure none
      | .ok (some (.binary _)) =>
          match BlobKey.of url with
          | none => pure none
          | some key => do
              let bytes : ResourceProgram (Option Bytes) :=
                StoreProgram.issue .blob (.blobGet key)
              match ← bytes.attempt with
              | .ok stored => pure (stored.map blobEtag)
              | .error _ => pure none
      | .ok _ => do
          match ← (getDataset url).attempt with
          | .ok stored => pure (stored.map etagOf)
          | .error _ => pure none
  | other => do
      match ← (getRdf other).attempt with
      | .ok (some triples) =>
          match groundDataset triples with
          | some ground => pure (some (etagOf ground))
          | none => .fail .internalError
      | _ => pure none

/-! ## Emits -/

section Emits

variable (bus : Bus)

/-- The state an event of an activity carries. -/
def stateFor (target : Target space) (activity : Activity) :
    HttpProgram (Option Text) :=
  match activity with
  | .delete => pure none
  | _ => stateOf target

/-- `publish_own` -/
def publishOwn (target : Target space) (activity : Activity) :
    HttpProgram (List Event) :=
  let topic := Topic.of target
  if (bus.live [topic]).isEmpty then
    pure []
  else do
    let state ← stateFor target activity
    pure [⟨topic, activity, topic.iri, none, state⟩]

/-- The `Add` or `Remove` on a container whose membership changed. -/
def publishMember
    (container : ContainerUrl space) (activity : Activity) (member : Text) :
    HttpProgram (List Event) :=
  let topic := Topic.of (.container container)
  if (bus.live [topic]).isEmpty then
    pure []
  else do
    let state ← stateOf (.container container)
    pure [⟨topic, activity, member, some (graphIri container), state⟩]

/-- What a loop publishes, one item after the other. -/
def publishEach {α : Type} (publish : α → HttpProgram (List Event)) :
    List α → HttpProgram (List Event)
  | [] => pure []
  | item :: rest => do
      let events ← publish item
      let others ← publishEach publish rest
      pure (events ++ others)

/-- The `Create` of a URL that was brought into existence above the target. -/
def publishCreated (targetIri : Text) (created : ResourceUrl space) :
    HttpProgram (List Event) :=
  if created.iri = targetIri then
    pure []
  else
    match created.asContainer with
    | none => pure []
    | some container => publishOwn bus (.container container) .create

/-- `publish_containment` -/
def publishContainment
    (targetIri : Text) (materialized : Materialized space) :
    HttpProgram (List Event) := do
  let created ←
    publishEach (publishCreated bus targetIri) materialized.created
  let linked ←
    publishEach (fun link => publishMember bus link.1 .add link.2.iri)
      materialized.linked
  pure (created ++ linked)

/-- An event of the target and those of the containers above it. -/
def publishWrite
    (target : Target space) (activity : Activity)
    (materialized : Materialized space) : HttpProgram (List Event) := do
  let own ← publishOwn bus target activity
  let others ← publishContainment bus (graphIri target) materialized
  pure (own ++ others)

/-- The activity an existence decides. -/
def Existence.activity : Existence → Activity
  | .existed => .update
  | .absent => .create

/-- The container a deletion removes its target from. -/
def deletedFrom : Target space → Option (ContainerUrl space)
  | .resource url _ => url.parent
  | .container url => url.resource.parent
  | .aux _ => none

/-- The `Remove` on the container a deletion removes its target from. -/
def publishRemoved (target : Target space) : HttpProgram (List Event) :=
  match deletedFrom target with
  | none => pure []
  | some parent => publishMember bus parent .remove (graphIri target)

/-- What a deletion publishes of the auxiliaries and of the container above. -/
def publishCascade
    (target : Target space) (auxiliaries : List (AuxUrl space)) :
    HttpProgram (List Event) := do
  let auxes ←
    publishEach (fun aux => publishOwn bus (.aux aux) .delete) auxiliaries
  let removed ← publishRemoved bus target
  pure (auxes ++ removed)

/-- `emit_delete` -/
def emitDelete (target : Target space) (auxiliaries : List (AuxUrl space)) :
    HttpProgram (List Event) := do
  let own ← publishOwn bus target .delete
  let others ← publishCascade bus target auxiliaries
  pure (own ++ others)

/-- `emit_put`, `emit_post`, `emit_patch` and `emit_delete`. -/
def emit (report : WriteReport space) (response : Response) :
    HttpProgram (List Event) :=
  if !response.isSuccess then
    pure []
  else
    match report with
    | .put target existence materialized =>
        publishWrite bus target existence.activity materialized
    | .post child materialized => publishWrite bus child .create materialized
    | .patch target existence materialized =>
        publishWrite bus target existence.activity materialized
    | .delete target auxiliaries => emitDelete bus target auxiliaries

/-- A write request, with the events it publishes. -/
def handlePublished [N3Parser]
    (space : StorageSpace) (storeVersion : RdfVersion) (request : Request) :
    HttpProgram (Response × List Event) := do
  let target : Target space ← Program.ofExcept (classify space request.path)
  let (response, report) ← targetReported storeVersion request target
  let events ← emit bus report response
  pure (response, events)

end Emits

/-! ## The validator of a topic -/

/-- The validator an event carries of a target. -/
def World.validator (world : World) (target : Target space) : Option Text :=
  match target with
  | .resource url leaf =>
      match world.kindOf url with
      | .error _ => none
      | .ok (some (.binary _)) =>
          ((BlobKey.of url).bind world.blobs).map blobEtag
      | .ok _ => (world.storedRdf (.resource url leaf)).map etagOf
  | other => (world.storedRdf other).map etagOf

omit [Sha256] [ObjectPath] [QuadText] [RdfParser] [RdfSerializer]
  [ShapeEngine] in
/-- What a resource that is not binary holds is what reading it returns. -/
theorem World.storedRdf_of_kindOf
    {world : World} {url : ResourceUrl space} {kind : Option Kind}
    (leaf : Text.endsWith ['/'] url.path = false)
    (isKind : world.kindOf url = .ok kind)
    (notBinary : ∀ mediaType, kind ≠ some (.binary mediaType)) :
    world.storedRdf (.resource url leaf) =
      match (Program.eval backend (getDataset url) world).1 with
      | .ok stored => stored
      | .error _ => none := by
  unfold World.storedRdf World.kindOf at *
  dsimp only at *
  split
  · next isBinary =>
      rw [if_pos isBinary] at isKind
      split at isKind
      · split at isKind
        · cases isKind
          exact (notBinary _ rfl).elim
        · cases isKind
      · next isAbsent =>
          rw [eval_getDataset_absent (Bool.eq_false_iff.mpr isAbsent)]
  · rfl

omit [RdfParser] [RdfSerializer] [ShapeEngine] in
/-- `state_of` reads the validator. -/
theorem eval_stateOf (world : World) (target : Target space) :
    Program.eval backend (stateOf target) world =
      (.ok (world.validator target), world) := by
  have ofGraph :
      ∀ target : Target space,
        (Program.eval backend
          (do
            match ← (getRdf target).attempt with
            | .ok (some triples) =>
                match groundDataset triples with
                | some ground => pure (some (etagOf ground))
                | none => .fail .internalError
            | _ => pure none : HttpProgram (Option Text)) world) =
          (.ok ((if world.present target.node then
              some (world.graphQuads (graphIri target))
            else
              none).map etagOf), world) := by
    intro target
    have read := eval_getRdf world target
    rw [Program.eval_bind, Program.eval_attempt, read]
    cases world.present target.node with
    | false =>
        rfl
    | true =>
        dsimp only
        rw [if_pos rfl, if_pos rfl]
        dsimp only
        rw [groundDataset_triplesOf]
        rfl
  have ofDataset :
      ∀ {url : ResourceUrl space}
        (leaf : Text.endsWith ['/'] url.path = false) {kind : Option Kind},
        world.kindOf url = .ok kind →
        (∀ mediaType, kind ≠ some (.binary mediaType)) →
        Program.eval backend
            (do
              match ← (getDataset url).attempt with
              | .ok stored => pure (stored.map etagOf)
              | .error _ => pure none : HttpProgram (Option Text)) world =
          (.ok ((world.storedRdf (.resource url leaf)).map etagOf),
            world) := by
    intro url leaf kind isKind notBinary
    have same := (readsOnly_getDataset url).eval_world world
    rw [World.storedRdf_of_kindOf leaf isKind notBinary, Program.eval_bind,
      Program.eval_attempt, same]
    cases (Program.eval backend (getDataset url) world).1 with
    | ok stored =>
        rfl
    | error error =>
        rfl
  cases target with
  | container url =>
      exact ofGraph (.container url)
  | aux url =>
      exact ofGraph (.aux url)
  | resource url leaf =>
      unfold stateOf World.validator
      dsimp only
      rw [Program.eval_bind, Program.eval_attempt, eval_kindOf]
      dsimp only
      cases isKind : world.kindOf url with
      | error error =>
          rfl
      | ok kind =>
          rcases kind with _ | (_ | mediaType)
          · exact ofDataset leaf isKind (by simp)
          · exact ofDataset leaf isKind (by simp)
          · dsimp only
            cases BlobKey.of url with
            | none =>
                rfl
            | some key =>
                rfl

/-- A tag a conditional write on a target would be matched with. -/
def World.CurrentTag
    (world : World) (target : Target space) (tag : Text) : Prop :=
  ∃ tags,
    (Program.eval backend (currentTags target) world).1 = .ok (some tags) ∧
      tag ∈ tags

omit [ObjectPath] [RdfParser] [RdfSerializer] [ShapeEngine] in
theorem etagOf_mem_candidates (stored : Skolemized) :
    etagOf stored ∈ etagCandidates stored := by
  unfold etagCandidates
  dsimp only
  refine List.mem_flatMap.mpr ⟨.nQuads, by decide, ?_⟩
  refine List.mem_map.mpr ⟨stored.deskolemize.rdfVersion, ?_, rfl⟩
  split
  · next isPlain =>
      rw [isPlain]
      exact List.mem_singleton_self _
  · simp

omit [RdfParser] [RdfSerializer] [ShapeEngine] in
/-- A validator is a tag a conditional write would be matched with. -/
theorem World.currentTag_of_validator
    {world : World} {target : Target space} {tag : Text}
    (isValidator : world.validator target = some tag) :
    world.CurrentTag target tag := by
  have ofStored :
      (world.storedRdf target).map etagOf = some tag →
      world.CurrentTag target tag := by
    intro isTag
    obtain ⟨stored, isStored, rfl⟩ := Option.map_eq_some_iff.mp isTag
    exact ⟨_, congrArg Prod.fst (eval_currentTags isStored),
      etagOf_mem_candidates stored⟩
  cases target with
  | container url =>
      exact ofStored isValidator
  | aux url =>
      exact ofStored isValidator
  | resource url leaf =>
      unfold World.validator at isValidator
      dsimp only at isValidator
      split at isValidator
      · cases isValidator
      · next mediaType isBinary =>
          obtain ⟨bytes, isThere, rfl⟩ := Option.map_eq_some_iff.mp isValidator
          refine ⟨[blobEtag bytes], ?_, List.mem_singleton_self _⟩
          rw [eval_currentTags_binary isBinary, isThere]
          rfl
      · exact ofStored isValidator

/-! ## What is published -/

/-- An event that carries no state but the validator of its topic. -/
def Event.Current (space : StorageSpace) (world : World) (event : Event) :
    Prop :=
  ∀ tag,
    event.state = some tag →
    ∃ target : Target space,
      event.topic = Topic.of target ∧ world.validator target = some tag

/-- A program that publishes current events, on every live topic of some. -/
def Publishes
    (space : StorageSpace) (bus : Bus) (world : World)
    (program : HttpProgram (List Event)) (topics : List Topic) : Prop :=
  ∃ events,
    Program.eval backend program world = (.ok events, world) ∧
      (∀ topic ∈ topics,
        bus.isLive topic = true → ∃ event ∈ events, event.topic = topic) ∧
      ∀ event ∈ events, event.Current space world

section Published

variable {bus : Bus} {world : World}

omit [RdfParser] [RdfSerializer] [ShapeEngine] in
theorem publishes_none : Publishes space bus world (pure []) [] :=
  ⟨[], rfl, by simp, by simp⟩

omit [RdfParser] [RdfSerializer] [ShapeEngine] in
/-- What publishes one program after the other publishes on both topics. -/
theorem Publishes.append
    {program other : HttpProgram (List Event)} {topics others : List Topic}
    (first : Publishes space bus world program topics)
    (second : Publishes space bus world other others) :
    Publishes space bus world
      (do
        let events ← program
        let more ← other
        pure (events ++ more))
      (topics ++ others) := by
  obtain ⟨events, isFirst, firstLive, firstCurrent⟩ := first
  obtain ⟨more, isSecond, secondLive, secondCurrent⟩ := second
  refine ⟨events ++ more, ?_, ?_, ?_⟩
  · rw [Program.eval_bind_ok isFirst, Program.eval_bind_ok isSecond]
    rfl
  · intro topic member isLive
    rcases List.mem_append.mp member with inFirst | inSecond
    · obtain ⟨event, isEvent, onTopic⟩ := firstLive topic inFirst isLive
      exact ⟨event, List.mem_append_left _ isEvent, onTopic⟩
    · obtain ⟨event, isEvent, onTopic⟩ := secondLive topic inSecond isLive
      exact ⟨event, List.mem_append_right _ isEvent, onTopic⟩
  · intro event member
    rcases List.mem_append.mp member with inFirst | inSecond
    · exact firstCurrent event inFirst
    · exact secondCurrent event inSecond

omit [RdfParser] [RdfSerializer] [ShapeEngine] in
/-- A loop publishes on the topics of its items. -/
theorem publishes_each
    {α : Type} {publish : α → HttpProgram (List Event)}
    {topics : α → List Topic}
    (each : ∀ item, Publishes space bus world (publish item) (topics item))
    (items : List α) :
    Publishes space bus world (publishEach publish items)
      (items.flatMap topics) := by
  induction items with
  | nil =>
      exact publishes_none
  | cons item rest inductionHypothesis =>
      exact (each item).append inductionHypothesis

omit [RdfParser] [RdfSerializer] [ShapeEngine] in
/-- One event on a topic, if it is live. -/
theorem publishes_one
    {target : Target space} (event : Option Text → Event)
    {read : HttpProgram (Option Text)} {state : Option Text}
    (isRead : Program.eval backend read world = (.ok state, world))
    (isState : state = none ∨ state = world.validator target)
    (onTopic : ∀ state, (event state).topic = Topic.of target)
    (carries : ∀ state, (event state).state = state) :
    Publishes space bus world
      (if (bus.live [Topic.of target]).isEmpty then
        pure []
      else do
        let state ← read
        pure [event state])
      [Topic.of target] := by
  rw [Bus.live_singleton]
  cases isLive : bus.isLive (Topic.of target) with
  | false =>
      refine ⟨[], rfl, ?_, by simp⟩
      intro topic member impossible
      obtain rfl := List.mem_singleton.mp member
      rw [isLive] at impossible
      cases impossible
  | true =>
      refine ⟨[event state], ?_, ?_, ?_⟩
      · rw [if_neg (by simp), Program.eval_bind_ok isRead]
        rfl
      · intro topic member _
        obtain rfl := List.mem_singleton.mp member
        exact ⟨_, List.mem_singleton_self _, onTopic state⟩
      · intro published member tag isTag
        obtain rfl := List.mem_singleton.mp member
        refine ⟨target, onTopic state, ?_⟩
        rw [carries] at isTag
        rcases isState with rfl | rfl
        · cases isTag
        · exact isTag

omit [RdfParser] [RdfSerializer] [ShapeEngine] in
theorem publishes_own (target : Target space) (activity : Activity) :
    Publishes space bus world (publishOwn bus target activity)
      [Topic.of target] := by
  have isRead :
      ∃ state,
        Program.eval backend (stateFor target activity) world =
            (.ok state, world) ∧
          (state = none ∨ state = world.validator target) := by
    have read := eval_stateOf world target
    cases activity with
    | delete =>
        exact ⟨none, rfl, Or.inl rfl⟩
    | create =>
        exact ⟨_, read, Or.inr rfl⟩
    | update =>
        exact ⟨_, read, Or.inr rfl⟩
    | add =>
        exact ⟨_, read, Or.inr rfl⟩
    | remove =>
        exact ⟨_, read, Or.inr rfl⟩
  obtain ⟨state, isRead, isState⟩ := isRead
  exact publishes_one
    (fun state =>
      ⟨Topic.of target, activity, (Topic.of target).iri, none, state⟩)
    isRead isState (fun _ => rfl) fun _ => rfl

omit [RdfParser] [RdfSerializer] [ShapeEngine] in
theorem publishes_member
    (container : ContainerUrl space) (activity : Activity) (member : Text) :
    Publishes space bus world (publishMember bus container activity member)
      [Topic.of (.container container)] :=
  publishes_one
    (fun state =>
      ⟨Topic.of (.container container), activity, member,
        some (graphIri container), state⟩)
    (eval_stateOf world (.container container)) (Or.inr rfl) (fun _ => rfl)
    fun _ => rfl

/-- The topic of a container. -/
def ContainerUrl.topic (container : ContainerUrl space) : Topic :=
  Topic.of (.container container)

/-- The topics a walk is published on, above the target. -/
def Materialized.topics
    (materialized : Materialized space) (targetIri : Text) : List Topic :=
  (materialized.created.flatMap fun url =>
      if url.iri = targetIri then
        []
      else
        url.asContainer.toList.map ContainerUrl.topic) ++
    materialized.linked.flatMap fun link => [link.1.topic]

/-- The topics a report is published on. -/
def WriteReport.topics : WriteReport space → List Topic
  | .put target _ materialized =>
      [Topic.of target] ++ materialized.topics (graphIri target)
  | .post child materialized =>
      [Topic.of child] ++ materialized.topics (graphIri child)
  | .patch target _ materialized =>
      [Topic.of target] ++ materialized.topics (graphIri target)
  | .delete target auxiliaries =>
      [Topic.of target] ++
        ((auxiliaries.flatMap fun aux => [Topic.of (.aux aux)]) ++
          (deletedFrom target).toList.map ContainerUrl.topic)

omit [RdfParser] [RdfSerializer] [ShapeEngine] in
theorem publishes_created (targetIri : Text) (url : ResourceUrl space) :
    Publishes space bus world (publishCreated bus targetIri url)
      (if url.iri = targetIri then
        []
      else
        url.asContainer.toList.map ContainerUrl.topic) := by
  unfold publishCreated
  split
  · exact publishes_none
  · cases url.asContainer with
    | none =>
        exact publishes_none
    | some container =>
        exact publishes_own (.container container) .create

omit [RdfParser] [RdfSerializer] [ShapeEngine] in
theorem publishes_write
    (target : Target space) (activity : Activity)
    (materialized : Materialized space) :
    Publishes space bus world (publishWrite bus target activity materialized)
      ([Topic.of target] ++ materialized.topics (graphIri target)) := by
  refine (publishes_own target activity).append ?_
  refine Publishes.append ?_ ?_
  · exact publishes_each (publishes_created _) materialized.created
  · exact publishes_each
      (fun link => publishes_member link.1 .add link.2.iri)
      materialized.linked

omit [RdfParser] [RdfSerializer] [ShapeEngine] in
theorem publishes_removed (target : Target space) :
    Publishes space bus world (publishRemoved bus target)
      ((deletedFrom target).toList.map ContainerUrl.topic) := by
  unfold publishRemoved
  cases deletedFrom target with
  | none =>
      exact publishes_none
  | some parent =>
      exact publishes_member parent .remove (graphIri target)

omit [RdfParser] [RdfSerializer] [ShapeEngine] in
theorem publishes_delete
    (target : Target space) (auxiliaries : List (AuxUrl space)) :
    Publishes space bus world (emitDelete bus target auxiliaries)
      (WriteReport.delete target auxiliaries).topics := by
  refine (publishes_own target .delete).append ?_
  refine Publishes.append ?_ (publishes_removed target)
  exact publishes_each (fun aux => publishes_own (.aux aux) .delete)
    auxiliaries

omit [RdfParser] [RdfSerializer] [ShapeEngine] in
/-- The emit of a write that succeeded publishes on the topics of its report. -/
theorem publishes_emit
    (report : WriteReport space) {response : Response}
    (isSuccess : response.isSuccess = true) :
    Publishes space bus world (emit bus report response) report.topics := by
  unfold emit
  rw [isSuccess, if_neg (by simp)]
  cases report with
  | put target existence materialized =>
      exact publishes_write target existence.activity materialized
  | post child materialized =>
      exact publishes_write child .create materialized
  | patch target existence materialized =>
      exact publishes_write target existence.activity materialized
  | delete target auxiliaries =>
      exact publishes_delete target auxiliaries

end Published

end Quadpod
