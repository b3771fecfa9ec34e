import Quadpod.ChangeEvents
import Quadpod.GrantedChanges
import Quadpod.ShapeEnforcement

namespace Quadpod

open AtomicProgram
open GraphStore

/-!
# Every change is reported

Whatever a write changes belongs to its target, to a container above it that the
walk created or linked into, to an auxiliary the deletion took, or to the
container the target was removed from; and each of these is a topic of what the
handler reports.  So no change is written and not published.
-/

variable [IriSyntax] {space : StorageSpace}

/-! ## Walks -/

/-- A container the walk does not link into is one it creates. -/
theorem Guard.created_of_unlinked
    {guard : Guard space} {ancestors : List (ContainerUrl space)}
    {index : Nat} {child : NamedNode} {record : Bool}
    {walk : Guard.Walk space}
    (walked : guard.walk ancestors index child record = .ok walk)
    {container : ContainerUrl space}
    (unlinked : (container, none) ∈ walk.plan) :
    container.resource ∈ walk.creations := by
  induction ancestors generalizing index child record walk with
  | nil =>
      cases walked
      cases unlinked
  | cons ancestor rest inductionHypothesis =>
      rw [Guard.walk] at walked
      dsimp only at walked
      split at walked
      · cases walked
        cases unlinked
      · next goesOn =>
          cases decided : guard.decideFrom (index + 1) .append with
          | error denial =>
              rw [decided] at walked
              cases walked
          | ok decision =>
              rw [decided] at walked
              dsimp only [bind, Except.bind] at walked
              split at walked
              · next existed =>
                  cases walked
                  have isRecorded : record = true := by
                    simp only [existed, Bool.true_and, Bool.not_eq_true',
                      Bool.not_eq_false] at goesOn
                    exact goesOn
                  rw [List.mem_singleton, isRecorded, if_pos rfl] at unlinked
                  cases unlinked
              · cases recursion :
                    guard.walk rest (index + 1) ancestor.node true with
                | error denial =>
                    rw [recursion] at walked
                    cases walked
                | ok above =>
                    rw [recursion] at walked
                    cases walked
                    rcases List.mem_cons.mp unlinked with isFirst | inRest
                    · obtain ⟨rfl, _⟩ := Prod.mk.inj isFirst
                      exact List.mem_cons_self
                    · exact List.mem_cons_of_mem _
                        (inductionHypothesis recursion inRest)

/-- Every container of a plan is created or linked into. -/
theorem Guard.created_of_authorized
    {guard : Guard space} {walk : Guard.Walk space}
    (walked : guard.authorizeWalk = .ok walk)
    {container : ContainerUrl space}
    (unlinked : (container, none) ∈ walk.plan) :
    container.resource ∈ walk.creations := by
  obtain ⟨rest, climbed, samePlan, creations, _⟩ :=
    Guard.authorizeWalk_eq_ok walked
  rw [samePlan] at unlinked
  have isCreated := Guard.created_of_unlinked climbed unlinked
  rw [creations]
  split
  · exact List.mem_cons_of_mem _ isCreated
  · exact isCreated

theorem ContainerUrl.asContainer_resource (container : ContainerUrl space) :
    container.resource.asContainer = some container := by
  unfold ResourceUrl.asContainer
  rw [dif_pos container.slash]

/-- Every container of a plan is a topic of what its walk brought about. -/
theorem mem_topics_of_planned
    {guard : Guard space} {walk : Guard.Walk space}
    (walked : guard.authorizeWalk = .ok walk)
    {step : ContainerUrl space × Option NamedNode}
    (inPlan : step ∈ walk.plan) (target : Target space) :
    step.1.topic ∈
      [Topic.of target] ++ walk.materialized.topics (graphIri target) := by
  obtain ⟨container, child⟩ := step
  cases child with
  | some child =>
      refine List.mem_append_right _ (List.mem_append_right _ ?_)
      refine List.mem_flatMap.mpr ⟨(container, child), ?_, by simp⟩
      exact List.mem_filterMap.mpr ⟨_, inPlan, rfl⟩
  | none =>
      have isCreated := Guard.created_of_authorized walked inPlan
      by_cases isTarget : container.resource.iri = graphIri target
      · refine List.mem_append_left _ (List.mem_singleton.mpr ?_)
        exact congrArg Topic.mk isTarget
      · refine List.mem_append_right _ (List.mem_append_left _ ?_)
        refine List.mem_flatMap.mpr ⟨_, isCreated, ?_⟩
        rw [if_neg isTarget, ContainerUrl.asContainer_resource]
        exact List.mem_singleton_self _

/-- An auxiliary that exists is one a deletion reports. -/
theorem mem_presentAuxes
    {world : World} {agent : Agent} {target : Target space}
    {decisions : List (Option Decision)}
    (authorized :
      AuxKind.all.mapM (world.guard agent target).authorizeAux =
        .ok decisions)
    {kind : AuxKind}
    (isPresent : world.present (target.subject.aux kind).node = true) :
    target.subject.aux kind ∈ presentAuxes target.subject decisions := by
  have probed :
      (world.guard agent target).present.contains
          ((world.guard agent target).target.subject.aux kind).iri =
        true := by
    rw [← isPresent]
    exact world.guard_present agent target
      (World.aux_mem_candidates target (World.subject_mem_chain target) kind)
  obtain ⟨result, isResult, paired⟩ :=
    Traversal.mem_zip_of_ok authorized kind.mem_all
  rw [Guard.authorizeAux, if_pos probed] at isResult
  refine List.mem_filterMap.mpr ⟨(kind, result), paired, ?_⟩
  cases decided :
      (world.guard agent target).decideFrom 0 (requiredModeForAux kind) with
  | error denial =>
      rw [decided] at isResult
      cases isResult
  | ok decision =>
      rw [decided] at isResult
      cases isResult
      rfl

/-! ## Covered changes -/

variable [Sha256] [ObjectPath]

/-- Each change between two worlds belongs to a target of one of some topics. -/
structure CoversChanges
    (space : StorageSpace) (topics : List Topic) (world reached : World) :
    Prop where
  graphs :
    ∀ name,
      reached.graphs name ≠ world.graphs name →
      ∃ target : Target space,
        target.Owns name ∧ Topic.of target ∈ topics
  objects :
    ∀ key,
      reached.blobs key ≠ world.blobs key →
      ∃ target : Target space,
        target.isAux = false ∧ BlobKey.of target.subject = some key ∧
          Topic.of target ∈ topics

theorem covers_unchanged (topics : List Topic) (world : World) :
    CoversChanges space topics world world where
  graphs _ changed := (changed rfl).elim
  objects _ changed := (changed rfl).elim

variable {world reached : World} {target : Target space}

/-- What a walk and the write after it change is covered by its report. -/
theorem covers_of_staged
    {guard : Guard space} {walk : Guard.Walk space}
    {admits : World → StorageWrite space → Prop}
    (walked : guard.authorizeWalk = .ok walk)
    (staged : Staged False world walk.plan admits reached)
    (owned : world.RegistersOwn space)
    (inside : ∀ started write, admits started write → write.Inside target) :
    CoversChanges space
      ([Topic.of target] ++ walk.materialized.topics (graphIri target))
      world reached := by
  obtain ⟨graphs, objects⟩ := staged.changed target owned inside
  have isTopic :
      Topic.of target ∈
        [Topic.of target] ++ walk.materialized.topics (graphIri target) :=
    List.mem_append_left _ (List.mem_singleton_self _)
  constructor
  · intro name changed
    rcases graphs name changed with owns | ⟨step, inPlan, owns⟩
    · exact ⟨target, owns, isTopic⟩
    · exact ⟨.container step.1, owns,
        mem_topics_of_planned walked inPlan target⟩
  · intro key changed
    obtain ⟨notAux, keyed⟩ := objects key changed
    exact ⟨target, notAux, keyed, isTopic⟩

/-- What stays inside the graphs of a target is covered by its topic. -/
theorem covers_of_inside
    {calls : List Call} {topics : List Topic}
    (isTopic : Topic.of target ∈ topics)
    (performs : backend.Performs False world calls reached)
    (owns : ∀ call ∈ calls, ∀ name ∈ call.touches, target.Owns name)
    (objects : reached.blobs = world.blobs) :
    CoversChanges space topics world reached where
  graphs := by
    intro name changed
    by_contra notOwned
    refine changed (Performs.graphs_eq performs ?_)
    intro call member touched
    exact notOwned ⟨target, owns call member name touched, isTopic⟩
  objects key changed := (changed (congrFun objects key)).elim

omit [ObjectPath] in
theorem Target.owns_of_subject
    (notAux : target.isAux = false) {name : Text}
    (owns : target.subject.Owns name) : target.Owns name := by
  cases target with
  | resource url leaf =>
      exact owns
  | container url =>
      exact owns
  | aux url =>
      cases notAux

omit [Sha256] [ObjectPath] in
theorem deletedFrom_of_parent
    (notAux : target.isAux = false) {parent : ContainerUrl space}
    (isParent : target.subject.parent = some parent) :
    deletedFrom target = some parent := by
  cases target with
  | resource url leaf =>
      exact isParent
  | container url =>
      exact isParent
  | aux url =>
      cases notAux

/-- What a deletion changes is covered by its report. -/
theorem covers_of_deleted
    {agent : Agent} {decisions : List (Option Decision)}
    (owned : world.RegistersOwn space)
    (whole : world.AuxWhole space)
    (notAux : target.isAux = false)
    (auxAuthorized :
      AuxKind.all.mapM (world.guard agent target).authorizeAux =
        .ok decisions)
    (performs :
      backend.Performs False world
        ((StorageWrite.deleteSubject target.subject).calls world) reached) :
    CoversChanges space
      (WriteReport.delete target
        (presentAuxes target.subject decisions)).topics world reached := by
  obtain ⟨graphs, objects⟩ := changed_deleteSubject owned whole performs
  have own :
      Topic.of target ∈
        (WriteReport.delete target
          (presentAuxes target.subject decisions)).topics :=
    List.mem_append_left _ (List.mem_singleton_self _)
  constructor
  · intro name changed
    rcases graphs name changed with
        owns | ⟨kind, isPresent, owns⟩ | ⟨parent, isParent, isGraph⟩
    · exact ⟨target, Target.owns_of_subject notAux owns, own⟩
    · refine ⟨.aux (target.subject.aux kind), owns, ?_⟩
      refine List.mem_append_right _ (List.mem_append_left _ ?_)
      exact List.mem_flatMap.mpr
        ⟨_, mem_presentAuxes auxAuthorized isPresent,
          List.mem_singleton_self _⟩
    · refine ⟨.container parent, Or.inl isGraph, ?_⟩
      refine List.mem_append_right _ (List.mem_append_right _ ?_)
      rw [deletedFrom_of_parent notAux isParent]
      exact List.mem_singleton_self _
  · intro key changed
    exact ⟨target, notAux, objects key changed, own⟩

/-! ## Handlers -/

section Handlers

variable [QuadText] [RdfParser] [RdfSerializer] [ShapeEngine] [N3Parser]
variable {storeVersion : RdfVersion} {request : Request}
variable {response : Response} {report : WriteReport space}

omit [ObjectPath] [QuadText] [RdfParser] [RdfSerializer] [ShapeEngine]
  [N3Parser] [Sha256] in
/-- What follows a probe that is answered. -/
theorem yields_after_probe
    {α : Type} {agent : Agent} {next : Guard space → HttpProgram α}
    {value : α} (allowed : α → Prop)
    (yields : (next (world.guard agent target)).Yields allowed)
    (succeeds :
      Program.eval backend (probeFor agent target >>= next) world =
        (.ok value, reached)) :
    allowed value := by
  rw [Program.eval_bind_ok (eval_probeFor world agent target)] at succeeds
  exact yields.eval succeeds

omit [ObjectPath] [QuadText] [RdfParser] [RdfSerializer] [ShapeEngine]
  [N3Parser] [Sha256] in
theorem yields_orDeny {α : Type} (decision : Except Denial α) :
    (orDeny target decision).Yields fun value => decision = .ok value := by
  refine (Program.yields_ofExcept _).mono fun value same => ?_
  cases decision with
  | ok granted =>
      cases same
      rfl
  | error denial =>
      cases same

omit [N3Parser] in
/-- A `PUT` reports the walk of the guard it was probed with. -/
theorem putReported_reports
    {agent : Agent} {headers : HeaderMap} {body : Bytes} {draws : Draws}
    (succeeds :
      Program.eval backend
          (putReported storeVersion agent target headers body draws) world =
        (.ok (response, report), reached)) :
    ∃ existence materialized,
      report = .put target existence materialized ∧
        (world.guard agent target).Reports materialized := by
  refine yields_after_probe
    (fun reported =>
      ∃ existence materialized,
        reported.2 = .put target existence materialized ∧
          (world.guard agent target).Reports materialized) ?_ succeeds
  refine Program.yields_bind fun _ => Program.yields_bind fun repr => ?_
  refine (yields_putReprReported _ target headers draws.blank repr).bind
    fun reported reports => ?_
  exact Program.yields_done ⟨_, _, rfl, reports⟩

/-- Every change of a `PUT` is reported. -/
theorem covers_putReported
    (owned : world.RegistersOwn space)
    (isPut : request.method = .put)
    (succeeds :
      Program.eval backend
          (putReported storeVersion request.agent target request.headers
            request.body request.draws) world =
        (.ok (response, report), reached)) :
    CoversChanges space report.topics world reached := by
  obtain ⟨existence, materialized, rfl, walk, walked, rfl⟩ :=
    putReported_reports succeeds
  have answered := Program.eval_of_eval_done succeeds Prod.fst
  rw [putReported_response] at answered
  have ensured :
      Program.Ensures backend False
        (putWrite storeVersion request.agent target request.headers
          request.body request.draws) world fun _ reached =>
            RequestEffect False storeVersion world request target reached :=
    ensures_putWrite isPut
  have effect := ensured.eval
  rw [answered] at effect
  cases effect with
  | unchanged =>
      exact covers_unchanged _ _
  | put _ _ sameWalk staged =>
      rw [walked] at sameWalk
      cases sameWalk
      refine covers_of_staged walked staged owned
        fun started write admitted => ?_
      obtain ⟨repr, _, isWrite⟩ := admitted
      exact isWrite.inside
  | post isPost =>
      rw [isPut] at isPost
      cases isPost
  | patch isPatch =>
      rw [isPut] at isPatch
      cases isPatch
  | create isPatch =>
      rw [isPut] at isPatch
      cases isPatch
  | deleteAux isDelete =>
      rw [isPut] at isDelete
      cases isDelete
  | deleteSubject isDelete =>
      rw [isPut] at isDelete
      cases isDelete

omit [N3Parser] in
/-- Every change a `POST` makes for its child is reported. -/
theorem covers_postChildReported
    {guard : Guard space} {url : ResourceUrl space} {fresh : Nat → Uuid}
    {repr : Repr} {materialized : Materialized space}
    (owned : world.RegistersOwn space)
    (succeeds :
      Program.eval backend (postChildReported guard url.toTarget fresh repr)
          world =
        (.ok (response, materialized), reached)) :
    CoversChanges space (WriteReport.post url.toTarget materialized).topics
      world reached := by
  obtain ⟨walk, walked, isMaterialized⟩ :=
    (yields_postChildReported guard url.toTarget fresh repr).eval succeeds
  obtain rfl : materialized = walk.materialized := isMaterialized
  have answered := Program.eval_of_eval_done succeeds Prod.fst
  have covered :
      ∀ {admits : World → StorageWrite space → Prop} {other reached},
        guard.authorizeWalk = .ok other →
        Staged False world other.plan admits reached →
        (∀ started write,
          admits started write → write.Inside url.toTarget) →
        CoversChanges space
          (WriteReport.post url.toTarget walk.materialized).topics world
          reached := by
    intro admits other reached sameWalk staged inside
    rw [walked] at sameWalk
    cases sameWalk
    exact covers_of_staged walked staged owned inside
  cases repr with
  | blob bytes mediaType =>
      have same :=
        postBlobReported_response guard url.toTarget bytes mediaType
      unfold postChildReported at answered
      dsimp only at answered
      rw [same] at answered
      have ensured :
          Program.Ensures backend False
            (postBlobRepr guard url.toTarget bytes mediaType) world
            fun _ reached =>
              CoversChanges space
                (WriteReport.post url.toTarget walk.materialized).topics
                world reached :=
        ensures_postBlobRepr (covers_unchanged _ _)
          fun other reached sameWalk staged =>
            covered sameWalk staged fun started write admitted =>
              (admitted fresh []).inside
      have covers := ensured.eval
      rw [answered] at covers
      exact covers
  | rdf dataset format declared =>
      have same :=
        postRdfReported_response guard url.toTarget fresh dataset format
      unfold postChildReported at answered
      dsimp only at answered
      rw [same] at answered
      have ensured :
          Program.Ensures backend False
            (postRdfRepr guard url.toTarget fresh dataset format) world
            fun _ reached =>
              CoversChanges space
                (WriteReport.post url.toTarget walk.materialized).topics
                world reached :=
        ensures_postRdfRepr (covers_unchanged _ _)
          fun other reached sameWalk staged =>
            covered sameWalk staged fun started write admitted =>
              (admitted declared).inside
      have covers := ensured.eval
      rw [answered] at covers
      exact covers

omit [N3Parser] in
/-- Every change of a `POST` is reported. -/
theorem covers_postReported
    (owned : world.RegistersOwn space)
    (succeeds :
      Program.eval backend
          (postReported storeVersion request.agent target request.headers
            request.body request.draws) world =
        (.ok (response, report), reached)) :
    CoversChanges space report.topics world reached := by
  unfold postReported at succeeds
  rw [Program.eval_bind_ok (eval_probeFor world request.agent target)]
    at succeeds
  obtain ⟨decision, decidedWorld, isDecided, succeeds⟩ :=
    Program.eval_bind_eq_ok succeeds
  rw [orDeny, Program.eval_ofExcept] at isDecided
  obtain rfl : world = decidedWorld := congrArg Prod.snd isDecided
  cases target with
  | resource url leaf =>
      cases succeeds
  | aux url =>
      cases succeeds
  | container parent =>
      obtain ⟨⟨guard, child⟩, allocatedWorld, isAllocated, succeeds⟩ :=
        Program.eval_bind_eq_ok succeeds
      have ensured :
          Program.Ensures backend False
            (allocateChild request.agent parent request.headers
                request.draws >>= fun given => .done given) world
            fun result reached =>
              ∀ given,
                result = .ok given →
                reached = world ∧ Allocated world request parent given.2 := by
        refine ensures_allocateChild_bind (fun child allocated => ?_) ?_
        · refine Program.ensures_done ?_
          rintro given ⟨⟩
          exact ⟨rfl, allocated⟩
        · intro response given impossible
          cases impossible
      have settled := ensured.eval
      rw [Program.bind_done, isAllocated] at settled
      obtain ⟨sameAllocated, allocated⟩ := settled _ rfl
      have isWorld : allocatedWorld = world := sameAllocated
      subst isWorld
      obtain ⟨url, isChild, _⟩ := allocated.exists_url
      have isTarget : child = url.toTarget := isChild
      subst isTarget
      dsimp only at succeeds
      obtain ⟨repr, classifiedWorld, isClassified, succeeds⟩ :=
        Program.eval_bind_eq_ok succeeds
      rw [Program.eval_ofExcept] at isClassified
      obtain rfl : allocatedWorld = classifiedWorld :=
        congrArg Prod.snd isClassified
      obtain ⟨⟨answer, materialized⟩, childWorld, isWritten, succeeds⟩ :=
        Program.eval_bind_eq_ok succeeds
      cases succeeds
      exact covers_postChildReported owned isWritten

omit [N3Parser] [RdfParser] [RdfSerializer] [ShapeEngine] in
/-- What the write of a patch reports. -/
theorem yields_patchWriteReported
    (guard : Guard space) (target : Target space) (patch : Patch)
    (fresh : Nat → Uuid) :
    (patchWriteReported guard target patch fresh).Yields fun reported =>
      ∃ existence materialized,
        reported.2 = .patch target existence materialized ∧
          (target.isAux = false →
            guard.targetExists = false →
            reported.1.isSuccess = true →
            guard.Reports materialized) := by
  have written :
      (if guard.targetExists then do
          let response ← patchExisting target patch
          pure (response, WriteReport.patch target .existed .default)
        else do
          let reported ← createByPatchReported guard target patch fresh
          pure (reported.1, .patch target .absent reported.2) :
        HttpProgram (Response × WriteReport space)).Yields fun reported =>
          ∃ existence materialized,
            reported.2 = .patch target existence materialized ∧
              (target.isAux = false →
                guard.targetExists = false →
                reported.1.isSuccess = true →
                guard.Reports materialized) := by
    split
    · next exists_ =>
        refine Program.yields_bind fun response => Program.yields_done ?_
        refine ⟨_, _, rfl, fun _ absent => ?_⟩
        rw [exists_] at absent
        cases absent
    · refine (yields_createByPatchReported guard target patch fresh).bind
        fun reported reports => Program.yields_done ?_
      exact ⟨_, _, rfl, fun _ _ => reports⟩
  cases target with
  | resource url leaf =>
      exact written
  | container url =>
      exact written
  | aux url =>
      refine Program.yields_bind fun response => Program.yields_done ?_
      exact ⟨_, _, rfl, fun impossible => by cases impossible⟩

omit [RdfParser] [ShapeEngine] in
/-- A patch that creates its target reports the walk of its guard. -/
theorem patchReported_reports
    {agent : Agent} {headers : HeaderMap} {body : Bytes} {draws : Draws}
    (succeeds :
      Program.eval backend (patchReported agent target headers body draws)
          world =
        (.ok (response, report), reached)) :
    ∃ existence materialized,
      report = .patch target existence materialized ∧
        (target.isAux = false →
          (world.guard agent target).targetExists = false →
          response.isSuccess = true →
          (world.guard agent target).Reports materialized) := by
  refine yields_after_probe
    (fun reported =>
      ∃ existence materialized,
        reported.2 = .patch target existence materialized ∧
          (target.isAux = false →
            (world.guard agent target).targetExists = false →
            reported.1.isSuccess = true →
            (world.guard agent target).Reports materialized)) ?_ succeeds
  refine Program.yields_bind fun decision => Program.yields_bind fun _ =>
    Program.yields_bind fun patch => ?_
  split
  · exact Program.yields_fail _
  · exact Program.yields_bind fun _ => Program.yields_bind fun _ =>
      Program.yields_bind fun _ => Program.yields_bind fun _ =>
        yields_patchWriteReported _ target patch draws.blank

omit [ShapeEngine] in
/-- Every change of a `PATCH` that succeeds is reported. -/
theorem covers_patchReported
    (owned : world.RegistersOwn space)
    (isPatch : request.method = .patch)
    (isSuccess : response.isSuccess = true)
    (succeeds :
      Program.eval backend
          (patchReported request.agent target request.headers request.body
            request.draws) world =
        (.ok (response, report), reached)) :
    CoversChanges space report.topics world reached := by
  obtain ⟨existence, materialized, rfl, reports⟩ :=
    patchReported_reports succeeds
  have answered := Program.eval_of_eval_done succeeds Prod.fst
  rw [patchReported_response] at answered
  have ensured :
      Program.Ensures backend False
        (patchImpl request.agent target request.headers request.body
          request.draws) world fun _ reached =>
            RequestEffect False .rdf12 world request target reached :=
    ensures_patchImpl isPatch
  have effect := ensured.eval
  rw [answered] at effect
  cases effect with
  | unchanged =>
      exact covers_unchanged _ _
  | patch _ _ _ _ _ _ _ performs =>
      refine covers_of_inside
        (List.mem_append_left _ (List.mem_singleton_self _)) performs ?_
        (funext fun key => StorageWrite.blobs_eq rfl performs key)
      intro call member name touched
      exact Target.owns_of_patch (StorageWrite.calls_touch owned member touched)
  | create _ _ _ _ absent _ _ sameWalk staged =>
      have notAux : target.isAux = false := by
        rcases staged with ⟨impossible, _⟩ | ⟨write, admitted, _⟩
        · exact impossible.elim
        · cases admitted with
          | dataset url leaf body grounded =>
              rfl
          | container url =>
              rfl
      rw [world.guard_targetExists] at reports
      obtain ⟨walk, walked, rfl⟩ := reports notAux absent isSuccess
      rw [walked] at sameWalk
      cases sameWalk
      exact covers_of_staged walked staged owned fun started write admitted =>
        admitted.inside
  | put isPut =>
      rw [isPatch] at isPut
      cases isPut
  | post isPost =>
      rw [isPatch] at isPost
      cases isPost
  | deleteAux isDelete =>
      rw [isPatch] at isDelete
      cases isDelete
  | deleteSubject isDelete =>
      rw [isPatch] at isDelete
      cases isDelete

omit [RdfParser] [RdfSerializer] [ShapeEngine] [N3Parser] [QuadText]
  [Sha256] in
/-- A deletion reports the auxiliaries its guard found present. -/
theorem deleteReported_reports
    {agent : Agent}
    (succeeds :
      Program.eval backend (deleteReported agent target) world =
        (.ok (response, report), reached)) :
    ∃ auxiliaries,
      report = .delete target auxiliaries ∧
        (target.isAux = false →
          ∃ decisions,
            AuxKind.all.mapM (world.guard agent target).authorizeAux =
                .ok decisions ∧
              auxiliaries = presentAuxes target.subject decisions) := by
  refine yields_after_probe
    (fun reported =>
      ∃ auxiliaries,
        reported.2 = .delete target auxiliaries ∧
          (target.isAux = false →
            ∃ decisions,
              AuxKind.all.mapM (world.guard agent target).authorizeAux =
                  .ok decisions ∧
                auxiliaries = presentAuxes target.subject decisions))
    ?_ succeeds
  refine Program.yields_bind fun _ => ?_
  cases target with
  | resource url leaf =>
      refine Program.yields_bind fun _ => (yields_orDeny _).bind
        fun decisions authorized => Program.yields_bind fun _ =>
          Program.yields_bind fun response => Program.yields_done ?_
      exact ⟨_, rfl, fun _ => ⟨decisions, authorized, rfl⟩⟩
  | container url =>
      refine Program.yields_bind fun _ => (yields_orDeny _).bind
        fun decisions authorized => Program.yields_bind fun _ =>
          Program.yields_bind fun response => Program.yields_done ?_
      exact ⟨_, rfl, fun _ => ⟨decisions, authorized, rfl⟩⟩
  | aux url =>
      refine Program.yields_bind fun response => Program.yields_done ?_
      exact ⟨_, rfl, fun impossible => by cases impossible⟩

omit [QuadText] [RdfSerializer] [ShapeEngine] in
/-- Every change of a `DELETE` is reported. -/
theorem covers_deleteReported
    (owned : world.RegistersOwn space)
    (whole : world.AuxWhole space)
    (isDelete : request.method = .delete)
    (succeeds :
      Program.eval backend (deleteReported request.agent target) world =
        (.ok (response, report), reached)) :
    CoversChanges space report.topics world reached := by
  obtain ⟨auxiliaries, rfl, reports⟩ := deleteReported_reports succeeds
  have answered := Program.eval_of_eval_done succeeds Prod.fst
  rw [deleteReported_response] at answered
  have ensured :
      Program.Ensures backend False (deleteImpl request.agent target) world
        fun _ reached =>
          RequestEffect False .rdf12 world request target reached :=
    ensures_deleteImpl isDelete
  have effect := ensured.eval
  rw [answered] at effect
  cases effect with
  | unchanged =>
      exact covers_unchanged _ _
  | deleteAux _ onAux _ performs =>
      subst onAux
      refine covers_of_inside
        (List.mem_append_left _ (List.mem_singleton_self _)) performs ?_
        (funext fun key => StorageWrite.blobs_eq rfl performs key)
      intro call member name touched
      exact StorageWrite.calls_touch owned member touched
  | deleteSubject _ notAux _ _ auxAuthorized _ performs =>
      obtain ⟨decisions, authorized, rfl⟩ := reports notAux
      exact covers_of_deleted owned whole notAux authorized performs
  | put isPut =>
      rw [isDelete] at isPut
      cases isPut
  | post isPost =>
      rw [isDelete] at isPost
      cases isPost
  | patch isPatch =>
      rw [isDelete] at isPatch
      cases isPatch
  | create isPatch =>
      rw [isDelete] at isPatch
      cases isPatch

/-- Every change of a request that succeeds is reported. -/
theorem covers_targetReported
    (owned : world.RegistersOwn space)
    (whole : world.AuxWhole space)
    (isSuccess : response.isSuccess = true)
    (succeeds :
      Program.eval backend (targetReported storeVersion request target) world =
        (.ok (response, report), reached)) :
    CoversChanges space report.topics world reached := by
  unfold targetReported at succeeds
  cases method : request.method with
  | put =>
      rw [method] at succeeds
      exact covers_putReported owned method succeeds
  | post =>
      rw [method] at succeeds
      exact covers_postReported owned succeeds
  | patch =>
      rw [method] at succeeds
      exact covers_patchReported owned method isSuccess succeeds
  | delete =>
      rw [method] at succeeds
      exact covers_deleteReported owned whole method succeeds

end Handlers

/-! ## Completeness -/

variable [QuadText]

/-- An event is published on a topic, if somebody reads it. -/
def Announced (bus : Bus) (events : List Event) (target : Target space) :
    Prop :=
  bus.isLive (Topic.of target) = true →
  ∃ event ∈ events, event.topic = Topic.of target

/-- Every change is announced, and every state is the validator of its topic. -/
structure CompleteEvents
    (space : StorageSpace) (bus : Bus) (world reached : World)
    (events : List Event) : Prop where
  resources :
    ∀ url : ResourceUrl space,
      url.Differs world reached → Announced bus events url.toTarget
  auxiliaries :
    ∀ aux : AuxUrl space,
      aux.Differs world reached →
      Announced bus events (Target.aux aux)
  graphs :
    ∀ name,
      reached.graphs name ≠ world.graphs name →
      ∃ target : Target space,
        target.Owns name ∧ Announced bus events target
  objects :
    ∀ key,
      reached.blobs key ≠ world.blobs key →
      ∃ url : ResourceUrl space,
        BlobKey.of url = some key ∧ Announced bus events url.toTarget
  states :
    ∀ event ∈ events,
      ∀ tag,
        event.state = some tag →
        ∃ target : Target space,
          event.topic = Topic.of target ∧
            reached.validator target = some tag ∧
            reached.CurrentTag target tag

omit [Sha256] [ObjectPath] [QuadText] in
theorem Topic.of_toTarget (url : ResourceUrl space) :
    Topic.of url.toTarget = ⟨url.iri⟩ := by
  unfold Topic.of graphIri
  exact congrArg Topic.mk (congrArg NamedNode.iri url.node_toTarget)

omit [Sha256] [ObjectPath] [QuadText] in
theorem Topic.of_subject
    {target : Target space} (notAux : target.isAux = false) :
    Topic.of target = Topic.of target.subject.toTarget := by
  rw [Topic.of_toTarget]
  exact congrArg Topic.mk
    (congrArg NamedNode.iri (Target.node_eq_subject notAux))

omit [ObjectPath] [QuadText] in
/-- The graphs of a resource are owned by targets of its topic only. -/
theorem Target.Owns.topic
    {target : Target space} {url : ResourceUrl space} {name : Text}
    (owns : target.Owns name)
    (isOwn : name = url.iri ∨ name = sysGraphOf url.iri) :
    Topic.of target = Topic.of url.toTarget := by
  have sameUrl :
      ∀ other : ResourceUrl space, other.Owns name → other = url := by
    intro other otherOwns
    refine ResourceUrl.Owns.eq_of_iri ?_
    rcases isOwn with rfl | rfl
    · exact Or.inl otherOwns
    · exact Or.inr otherOwns
  cases target with
  | resource other leaf =>
      rw [Topic.of_subject rfl]
      exact congrArg (fun url => Topic.of url.toTarget) (sameUrl other owns)
  | container other =>
      rw [Topic.of_subject rfl]
      exact congrArg (fun url => Topic.of url.toTarget)
        (sameUrl other.resource owns)
  | aux aux =>
      rcases isOwn with rfl | rfl
      · exact ((aux.not_owns_resource url).1 owns).elim
      · exact ((aux.not_owns_resource url).2 owns).elim

omit [ObjectPath] [QuadText] in
/-- The graphs of an auxiliary are owned by it only. -/
theorem Target.Owns.topic_aux
    {target : Target space} {aux : AuxUrl space} {name : Text}
    (owns : target.Owns name) (isOwn : aux.Owns name) :
    Topic.of target = Topic.of (.aux aux) := by
  cases target with
  | resource url leaf =>
      exact (ResourceUrl.not_owns_of_aux isOwn owns).elim
  | container url =>
      exact (ResourceUrl.not_owns_of_aux isOwn owns).elim
  | aux other =>
      rw [AuxUrl.eq_of_owns owns isOwn]

/-- What covers all changes and is published on is complete. -/
theorem CoversChanges.complete
    {bus : Bus} {world reached : World} {topics : List Topic}
    {events : List Event}
    (covers : CoversChanges space topics world reached)
    (published :
      ∀ topic ∈ topics,
        bus.isLive topic = true → ∃ event ∈ events, event.topic = topic)
    (current : ∀ event ∈ events, event.Current space reached) :
    CompleteEvents space bus world reached events where
  resources := by
    rintro url (changed | changed | ⟨key, keyed, changed⟩)
    · obtain ⟨target, owns, isTopic⟩ := covers.graphs _ changed
      rw [owns.topic (Or.inl rfl)] at isTopic
      exact published _ isTopic
    · obtain ⟨target, owns, isTopic⟩ := covers.graphs _ changed
      rw [owns.topic (Or.inr rfl)] at isTopic
      exact published _ isTopic
    · obtain ⟨target, notAux, otherKeyed, isTopic⟩ :=
        covers.objects key changed
      rw [Topic.of_subject notAux,
        BlobKey.of_injective otherKeyed keyed] at isTopic
      exact published _ isTopic
  auxiliaries := by
    rintro aux (changed | changed)
    · obtain ⟨target, owns, isTopic⟩ := covers.graphs _ changed
      rw [owns.topic_aux (Or.inl rfl)] at isTopic
      exact published _ isTopic
    · obtain ⟨target, owns, isTopic⟩ := covers.graphs _ changed
      rw [owns.topic_aux (Or.inr rfl)] at isTopic
      exact published _ isTopic
  graphs := by
    intro name changed
    obtain ⟨target, owns, isTopic⟩ := covers.graphs name changed
    exact ⟨target, owns, published _ isTopic⟩
  objects := by
    intro key changed
    obtain ⟨target, notAux, keyed, isTopic⟩ := covers.objects key changed
    rw [Topic.of_subject notAux] at isTopic
    exact ⟨target.subject, keyed, published _ isTopic⟩
  states := by
    intro event member tag isTag
    obtain ⟨target, onTopic, isValidator⟩ := current event member tag isTag
    exact ⟨target, onTopic, isValidator,
      World.currentTag_of_validator isValidator⟩

variable [RdfParser] [RdfSerializer] [ShapeEngine] [N3Parser]

omit [N3Parser] [Sha256] [ObjectPath] [QuadText] [RdfParser] [RdfSerializer]
  [ShapeEngine] in
/-- A success is answered at the end of a handler. -/
theorem eq_ok_of_sentResponse
    {program : HttpProgram Response} (refusing : Refusing program)
    {world : World}
    (isSuccess :
      (sentResponse (Program.eval backend program world).1).isSuccess =
        true) :
    ∃ response,
      (Program.eval backend program world).1 = .ok response ∧
        response.isSuccess = true := by
  cases ends : (Program.eval backend program world).1 with
  | ok response =>
      rw [ends] at isSuccess
      exact ⟨response, rfl, isSuccess⟩
  | error response =>
      rw [ends] at isSuccess
      have refused : (Program.run backend program [] world).result =
          .error response := by
        rw [Program.run_nil]
        exact ends
      have noSuccess : response.isSuccess = false := refusing.run refused
      exact absurd (noSuccess.symm.trans isSuccess) Bool.false_ne_true

/--
In every world a provisioned pod reaches, a write request that is answered with
success, alone and with no store call failing, publishes an event on the topic
of every resource and auxiliary that differs afterwards and of the owner of
every graph and object that differs, as far as somebody reads the topic; and
every state it publishes is the validator its topic has after the write.
-/
theorem write_events_complete
    {storeVersion : RdfVersion} {world : World}
    (reachable :
      Reachable space storeVersion (Provisioned space) anyRequest world)
    (request : Request) (bus : Bus)
    (isSuccess :
      (sentResponse
        (Program.eval backend (handle space storeVersion request)
          world).1).isSuccess = true) :
    ∃ response events,
      Program.eval backend (handlePublished bus space storeVersion request)
          world =
        (.ok (response, events),
          afterRequest space storeVersion request [] world) ∧
      CompleteEvents space bus world
        (afterRequest space storeVersion request [] world) events := by
  have owned : world.RegistersOwn space :=
    reachable.registersOwn fun _ provisioned => provisioned.registersOwn
  have whole : world.AuxWhole space := reachable.auxWhole
  obtain ⟨response, answered, isSuccess⟩ :=
    eq_ok_of_sentResponse (refusing_handle storeVersion request) isSuccess
  have ran :
      Program.eval backend (handle space storeVersion request) world =
        (.ok response, afterRequest space storeVersion request [] world) := by
    refine Prod.ext answered ?_
    rw [afterRequest, Program.run_nil]
  obtain ⟨target, targetWorld, isTarget, handled⟩ :=
    Program.eval_bind_eq_ok ran
  rw [← targetReported_response] at handled
  obtain ⟨⟨answer, report⟩, reached, reported, finished⟩ :=
    Program.eval_bind_eq_ok handled
  obtain ⟨isAnswer, isReached⟩ := Prod.mk.inj finished
  have sameAnswer : answer = response := Except.ok.inj isAnswer
  subst sameAnswer
  have sameWorld : world = targetWorld := by
    rw [Program.eval_ofExcept] at isTarget
    exact congrArg Prod.snd isTarget
  subst sameWorld
  have covers := covers_targetReported owned whole isSuccess reported
  have publishes : Publishes space bus reached (emit bus report answer)
      report.topics :=
    publishes_emit report isSuccess
  obtain ⟨events, emitted, published, current⟩ := publishes
  refine ⟨answer, events, ?_, ?_⟩
  · unfold handlePublished
    rw [Program.eval_bind_ok isTarget, Program.eval_bind_ok reported,
      Program.eval_bind_ok emitted, ← isReached]
    rfl
  · rw [← isReached]
    exact covers.complete published current

end Quadpod

namespace Quadpod.Reference

open AtomicProgram

/-- A bus on which somebody reads the topic of `/note`. -/
def noteBus : Bus := Bus.empty.subscribe (Topic.of noteTarget)

/-- The owner's first write of `/note` is published. -/
theorem write_events_complete_putBlank :
    noteBus.isLive (Topic.of noteTarget) = true ∧
      ∃ response events,
        Program.eval backend (handlePublished noteBus podSpace .rdf12 putBlank)
            freshWorld =
          (.ok (response, events), notedWorld) ∧
        CompleteEvents podSpace noteBus freshWorld notedWorld events :=
  ⟨by decide,
    write_events_complete (.start freshWorld provisioned_freshWorld) putBlank
      noteBus (by decide +kernel)⟩

end Quadpod.Reference
