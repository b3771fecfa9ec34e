import Quadpod.AcceptedPuts
import Quadpod.AtomicProgramRefusals
import Quadpod.AuxiliaryReports
import Quadpod.DatasetReads
import Quadpod.ServerRuns
import Quadpod.TidyWorlds
import Quadpod.WholeAuxiliaries

namespace Quadpod

open AtomicProgram
open GraphStore

/-!
# Refusals leave no trace

Some handlers write before they know their answer: a cascade looks for its
subject and removes it whether it was there or not, a patch is sent to the store
together with the question whether it applies.  In the worlds a pod can be in,
the calls of a request that is refused after such a write find nothing to do.
-/

variable [IriSyntax] {space : StorageSpace}

/-! ## Calls that find nothing to do -/

/-- A call that finds nothing to do in either store. -/
structure Call.Idle (call : Call) (world : World) : Prop where
  operations : ∀ operation ∈ call.operations, operation.Idle world.graphs
  objects : call.objects world.blobs = world.blobs

theorem Call.Idle.perform
    {call : Call} {world : World} (idle : call.Idle world) :
    (backend.perform world call).2 = world := by
  change (⟨world.graphs.applyAll call.operations,
    call.objects world.blobs⟩ : World) = world
  rw [Store.applyAll_of_idle idle.operations, idle.objects]

theorem after_of_idle
    {world : World} {calls : List Call}
    (idle : ∀ call ∈ calls, call.Idle world) :
    backend.after world calls = world := by
  induction calls with
  | nil =>
      rfl
  | cons call rest inductionHypothesis =>
      rw [Machine.after_cons, (idle call List.mem_cons_self).perform]
      exact inductionHypothesis fun later inRest =>
        idle later (List.mem_cons_of_mem _ inRest)

/-- A container that exists is not made again. -/
theorem idle_ensureCall
    {world : World} {container : ContainerUrl space}
    (isPresent : world.present container.node = true)
    (typed : container.Typed world) :
    (ensureCall container).Idle world := by
  refine ⟨?_, rfl⟩
  intro operation member
  rcases List.mem_cons.mp member with rfl | isMark
  · intro block isBlock triple isType
    obtain rfl := List.mem_singleton.mp isBlock
    obtain ⟨quad, inTypes, rfl⟩ := List.mem_map.mp isType
    exact typed isPresent quad inTypes
  · obtain rfl := List.mem_singleton.mp isMark
    intro block isBlock triple isMarker
    obtain rfl := List.mem_singleton.mp isBlock
    obtain rfl := List.mem_singleton.mp isMarker
    exact World.present_iff.mp isPresent

/-- An auxiliary that does not exist has nothing to delete. -/
theorem idle_deleteAuxiliary [Sha256] [ObjectPath]
    {world : World} {aux : AuxUrl space}
    (absent : world.present aux.node = false)
    (whole : aux.Whole world) :
    ∀ call ∈ (StorageWrite.deleteAuxiliary aux).calls world,
      call.Idle world := by
  intro call member
  obtain rfl := List.mem_singleton.mp member
  refine ⟨fun operation isDrop => ?_, rfl⟩
  rcases List.mem_cons.mp isDrop with rfl | isSystem
  · exact fun triple => whole absent _ triple (Or.inl rfl)
  · obtain rfl := List.mem_singleton.mp isSystem
    exact fun triple => whole absent _ triple (Or.inr rfl)

/-- A patch whose deletions are not all there changes nothing. -/
theorem idle_modify_of_missing
    {world : World} {graph : Text}
    {deletions insertions : List TemplateTriple}
    {guard : Condition Text GroundTriple}
    (missing :
      (deletions.mapM TemplateTriple.ground).any (fun triples =>
        triples.all (· ∈ world.graphs graph)) = false) :
    (Call.modify graph deletions insertions guard).Idle world := by
  refine ⟨?_, rfl⟩
  intro operation member
  rw [Call.operations] at member
  split at member
  · split at member
    · next removed isGround =>
        obtain rfl := List.mem_singleton.mp member
        rw [isGround, Option.any_some] at missing
        refine Bool.eq_false_iff.mpr fun satisfied => ?_
        rw [Store.satisfies_iff] at satisfied
        rw [Bool.eq_false_iff] at missing
        refine missing (List.all_eq_true.mpr fun triple isRemoved => ?_)
        refine decide_eq_true (satisfied (graph, triple) ?_)
        exact List.mem_append_left _ (List.mem_map_of_mem isRemoved)
    · cases member
  · cases member

/-! ## What a pod's world is known to be -/

/-- What the requests of a pod can count on in the world they find. -/
structure World.Settled [Sha256] [ObjectPath]
    (world : World) (space : StorageSpace) : Prop where
  auxSound : world.AuxSound space
  auxWhole : world.AuxWhole space
  coherent :
    ContainmentTree.Coherent (containmentShape space) (world.listing space)
  objects : world.ObjectsOwned space
  tidy : world.Tidy space

theorem World.registered_of_empty
    {world : World} {url : ResourceUrl space}
    (nothing : ∀ triple, triple ∉ world.graphs (sysGraphIri url)) :
    world.registered url = [] := by
  rw [World.registered, Graph.eq_empty nothing]
  rfl

/-- A cascade finds nothing to do for a subject that does not exist. -/
theorem World.Settled.idle_deleteSubject [Sha256] [ObjectPath]
    {world : World} (settled : world.Settled space)
    {url : ResourceUrl space}
    (absent : world.present url.node = false) :
    ∀ call ∈ (StorageWrite.deleteSubject url).calls world,
      call.Idle world := by
  have whole := settled.tidy.whole url absent
  have unregistered : world.registered url = [] :=
    World.registered_of_empty fun triple => whole _ triple (Or.inr rfl)
  have auxEmpty :
      ∀ kind name triple,
        (url.aux kind).Owns name → triple ∉ world.graphs name := by
    intro kind name triple owns
    refine settled.auxWhole (url.aux kind) ?_ name triple owns
    refine Bool.eq_false_iff.mpr fun isPresent => ?_
    have subjectPresent : world.present url.node = true :=
      settled.auxSound.noOrphan (url.aux kind) isPresent
    rw [absent] at subjectPresent
    cases subjectPresent
  have unlisted :
      ∀ parent,
        url.parent = some parent →
        containmentTriple parent url.node ∉
          world.graphs parent.resource.iri := by
    intro parent isParent isListed
    obtain ⟨child, isName, _, isPresent⟩ :=
      settled.coherent.direct parent.resource (.namedNode url.node)
        (World.lists_container.mpr isListed)
    obtain rfl : child = url := (containmentShape space).nameInjective isName
    have marked : world.present child.node = true := isPresent
    rw [absent] at marked
    cases marked
  intro call member
  rcases List.mem_cons.mp member with rfl | isDelete
  · refine ⟨fun operation inUpdate => ?_, rfl⟩
    rw [unregistered] at inUpdate
    simp only [Call.operations, deleteSubjectUpdate, List.map_nil,
      List.nil_append, List.append_assoc] at inUpdate
    rcases List.mem_append.mp inUpdate with isOwn | others
    · rcases List.mem_cons.mp isOwn with rfl | isSystem
      · exact fun triple => whole _ triple (Or.inl rfl)
      · obtain rfl := List.mem_singleton.mp isSystem
        exact fun triple => whole _ triple (Or.inr rfl)
    · rcases List.mem_append.mp others with isAux | isEntry
      · obtain ⟨kind, _, isDrop⟩ := List.mem_flatMap.mp isAux
        rcases List.mem_cons.mp isDrop with rfl | isSystem
        · exact fun triple => auxEmpty kind _ triple (Or.inl rfl)
        · obtain rfl := List.mem_singleton.mp isSystem
          exact fun triple => auxEmpty kind _ triple (Or.inr rfl)
      · split at isEntry
        · next parent isParent =>
            obtain rfl := List.mem_singleton.mp isEntry
            intro triple isEntry
            obtain rfl := List.mem_singleton.mp isEntry
            exact unlisted parent isParent
        · cases isEntry
  · obtain ⟨key, isKey, rfl⟩ := List.mem_map.mp isDelete
    have keyed : BlobKey.of url = some key := Option.mem_toList.mp isKey
    refine ⟨fun operation inNone => absurd inNone List.not_mem_nil, ?_⟩
    have unstored : world.blobs key = none := by
      by_contra stored
      obtain ⟨owner, _, ownerKeyed, isPresent⟩ := settled.objects key stored
      obtain rfl := BlobKey.of_injective keyed ownerKeyed
      rw [absent] at isPresent
      cases isPresent
    change Function.update world.blobs key none = world.blobs
    rw [← unstored, Function.update_eq_self]

/-! ## The storage operations -/

/-- A response that reports success. -/
def Response.Succeeds (response : Response) : Prop :=
  response.isSuccess = true

theorem ReadsOnly.untraced_bind
    {ε α β : Type} {program : StoreProgram ε α} {next : α → StoreProgram ε β}
    {accepts : β → Prop} {world : World}
    (reads : ReadsOnly program)
    (continues :
      ∀ value, Program.Untraced backend accepts (next value) world) :
    Program.Untraced backend accepts (program >>= next) world :=
  reads.ensures_bind continues fun _ => Or.inr rfl

/-- A write whose calls are all answered succeeds. -/
theorem accepted_of_carries
    {ε : Type} {write : StoreProgram ε Unit} {world : World}
    {calls : List Call}
    (carried :
      Program.Ensures backend False write world
        (Carries False world calls)) :
    Program.Accepted backend (fun _ => True) write world := by
  refine carried.mono ?_
  rintro (error | value) reached carries
  · exact (carries.failed error rfl).elim
  · exact ⟨value, rfl, trivial⟩

section Patching

variable {Url : Type} [GraphUrl Url]

/-- A patch that is not applied leaves the world as it was. -/
theorem untraced_applyPatch
    (url : Url) (patch : Patch) (guard : Condition Text GroundTriple)
    (bindings : List Solution) (world : World) :
    Program.Untraced backend (· = .applied)
      (applyPatch url patch guard bindings) world := by
  refine Program.untraced_ofExcept_bind fun deletions _ => ?_
  refine Program.untraced_ofExcept_bind fun insertions _ => ?_
  have modified :
      ∀ before : Bool,
        (deletions.isEmpty = false →
          before =
            (deletions.mapM TemplateTriple.ground).any fun triples =>
              triples.all (· ∈ world.graphs (graphIri url))) →
        Program.Untraced backend (· = PatchResult.applied)
          (do
            StoreProgram.issue .store
              (.modify (graphIri url) deletions insertions guard)
            if !deletions.isEmpty && !before then
              pure .deletionMissing
            else
              pure .applied : ResourceProgram PatchResult)
          world := by
    intro before isBefore
    refine StoreProgram.ensures_issue_bind ?_ ?_ fun fails => fails.elim
    · intro _ _
      split
      · next missing =>
          simp only [Bool.and_eq_true, Bool.not_eq_true'] at missing
          have notThere := (isBefore missing.1).symm.trans missing.2
          exact Program.ensures_done
            (Or.inr (idle_modify_of_missing notThere).perform)
      · exact Program.ensures_done (Or.inl ⟨_, rfl, rfl⟩)
    · intro message refused
      exact Or.inr (perform_modify_of_refused refused)
  split
  · exact Program.untraced_done _
  · dsimp only
    split
    · next noDeletion =>
        refine modified false fun hasDeletion => ?_
        rw [noDeletion] at hasDeletion
        cases hasDeletion
    · refine StoreProgram.ensures_issue_bind ?_ (fun _ _ => Or.inr rfl)
        fun fails => fails.elim
      intro before answered
      refine modified before fun _ => ?_
      rw [Call.answer] at answered
      split at answered
      · exact (Except.ok.inj answered).symm
      · cases answered

theorem untraced_patchGuarded
    (url : Url) (patch : Patch) (guard : Condition Text GroundTriple)
    (world : World) :
    Program.Untraced backend (· = .applied)
      (patchGuarded url patch guard) world := by
  unfold patchGuarded
  split
  · exact untraced_applyPatch url patch guard [] world
  · refine ReadsOnly.untraced_bind
      (StoreProgram.uses_issue ⟨rfl, fun _ => rfl⟩) fun solutions => ?_
    split
    · exact Program.untraced_done _
    · exact untraced_applyPatch url patch guard _ world
    · exact Program.untraced_done _

end Patching

/-- Whether an auxiliary exists, asked in the auxiliary layer. -/
theorem eval_ofResource_exists
    {Url : Type} [GraphUrl Url] (world : World) (url : Url) :
    Program.eval backend (AuxProgram.ofResource (exists? url)) world =
      (.ok (world.present (GraphUrl.graphNode url)), world) := by
  rw [AuxProgram.ofResource, Program.eval_mapError, eval_existsAt]
  rfl

/-- A patch of an auxiliary that is not applied leaves no trace. -/
theorem untraced_auxPatch
    (url : AuxUrl space) (patch : Patch) (world : World) :
    Program.Untraced backend (· = .applied) (auxPatch url patch) world := by
  have asked (reached : World) :
      Program.Ensures backend False (AuxProgram.ofResource (exists? url))
        reached fun result left =>
          left = reached ∧ result = .ok (reached.present url.node) := by
    refine Program.ensures_of_eval ?_
    rw [eval_ofResource_exists]
    exact ⟨rfl, rfl⟩
  refine Program.Untraced.after_unchanged (asked world) ?_
  rintro isPresent isRead
  cases isPresent with
  | false =>
      refine ReadsOnly.untraced_bind (readsOnly_exists url.subject).mapError
        fun subjectPresent => ?_
      cases subjectPresent with
      | false =>
          exact Program.untraced_fail _
      | true =>
          exact Program.untraced_fail _
  | true =>
      have marked : world.present url.node = true :=
        (Except.ok.inj isRead).symm
      have stillMarked :
          Program.Ensures backend False
            (AuxProgram.ofResource
              (patchGuarded url patch (subjectPresentGuard url))) world
            fun _ reached => reached.present url.node = true := by
        refine Program.Ensures.mapError
          ((ensures_patchGuarded url patch _ world).mono ?_)
        rintro result reached (rfl | ⟨_, change, _, _, rfl⟩)
        · exact marked
        · have unmarked :
              sysGraphOf url.iri ∉
                (Call.modify (graphIri url) change.1 change.2
                  (subjectPresentGuard url)).touches := fun touched =>
            not_isHttp_sysGraphOf url.iri
              (touches_modify touched ▸ url.isHttp)
          rw [World.present_congr (perform_graphs_of_not_touched unmarked)]
          exact marked
      refine Program.Untraced.bind_of_ensures
        (untraced_patchGuarded url patch _ world).mapError stillMarked ?_ ?_
      · rintro _ reached rfl isThere
        refine Program.ensures_of_eval ⟨.applied, ?_, rfl⟩
        have found : reached.present (GraphUrl.graphNode url) = true := isThere
        rw [Program.eval_bind_ok (eval_ofResource_exists reached url), found]
        rfl
      · intro result
        refine ReadsOnly.untraced_bind (readsOnly_exists url).mapError
          fun stillPresent => ?_
        cases stillPresent with
        | false =>
            exact Program.untraced_fail _
        | true =>
            exact Program.untraced_done _

/-! ## Answers -/

theorem succeeds_created (target : Target space) :
    (Response.created target).Succeeds := by
  unfold Response.Succeeds Response.created
  cases target <;> rfl

theorem isSuccess_warnIfAclGrantsNothing
    (aux : AuxUrl space) (triples : List Triple) (response : Response) :
    (warnIfAclGrantsNothing aux triples response).isSuccess =
      response.isSuccess := by
  unfold warnIfAclGrantsNothing
  split
  · rfl
  · exact apply_ite Response.isSuccess _ _ _ |>.trans (ite_self _)

theorem accepted_respond
    {target : Target space} {write : ResourceProgram Unit} {world : World}
    {calls : List Call}
    (carried :
      Program.Ensures backend False write world
        (Carries False world calls)) :
    Program.Accepted backend Response.Succeeds (respond target write)
      world := by
  refine (accepted_of_carries carried).attempt.bind ?_
  rintro _ reached ⟨⟨⟩, rfl, _⟩
  exact Program.accepted_done (succeeds_created target)

theorem accepted_respondBlob
    {target : Target space} {write : ResourceProgram Unit} {world : World}
    {calls : List Call}
    (carried :
      Program.Ensures backend False write world
        (Carries False world calls)) :
    Program.Accepted backend Response.Succeeds (respondBlob target write)
      world := by
  refine (accepted_of_carries carried).attempt.bind ?_
  rintro _ reached ⟨⟨⟩, rfl, _⟩
  exact Program.accepted_done (succeeds_created target)

theorem accepted_withFindings
    {program : HttpProgram Response} {world : World}
    (accepted : Program.Accepted backend Response.Succeeds program world)
    (target : Target space) (findings : Option Report) :
    Program.Accepted backend Response.Succeeds
      (program >>= fun response =>
        .done (Quadpod.withFindings target findings response)) world := by
  refine accepted.bind fun response reached succeeds => ?_
  refine Program.accepted_done ?_
  rw [Response.Succeeds, isSuccess_withFindings]
  exact succeeds

/-! ## Writes that store or delete -/

variable [Sha256] [ObjectPath]

/-- An auxiliary is stored, unless its subject is missing or it is too large. -/
theorem untraced_auxPut
    (fresh : Nat → Uuid) {url : AuxUrl space} (triples : List Triple)
    {world : World}
    (subjectPresent : world.present url.subject.node = true) :
    Program.Untraced backend (fun _ => True) (auxPut fresh url triples)
      world := by
  unfold auxPut
  split
  · exact Program.untraced_fail _
  · have written :
        (backend.after world
          ((StorageWrite.auxiliary url
            (skolemizedTriples fresh triples)).calls world)).present
              url.node = true :=
      present_after_auxiliary subjectPresent
    refine Program.ensures_of_eval (Or.inl ⟨(), ?_, trivial⟩)
    rw [StoreProgram.eval_issue_bind rfl,
      Program.eval_bind_ok (eval_ofResource_exists _ url)]
    change (Program.eval backend
      (if (backend.after world
          ((StorageWrite.auxiliary url
            (skolemizedTriples fresh triples)).calls world)).present
              url.node = true then
        _
      else
        _) _).1 = _
    rw [if_pos written]
    rfl

/-- Deleting an auxiliary that does not exist leaves no trace. -/
theorem untraced_deleteRdf
    {url : AuxUrl space} {world : World} (whole : url.Whole world) :
    Program.Untraced backend (· = true) (deleteRdf url) world := by
  have evaluated :
      Program.eval backend (deleteRdf url) world =
        (.ok (world.present url.node),
          backend.after world
            ((StorageWrite.deleteAuxiliary url).calls world)) := by
    rw [deleteRdf, Program.eval_bind_ok (eval_existsAt world url),
      StoreProgram.eval_issue_bind rfl]
    rfl
  refine Program.ensures_of_eval ?_
  rw [evaluated]
  cases isPresent : world.present url.node with
  | true =>
      exact Or.inl ⟨true, rfl, rfl⟩
  | false =>
      exact Or.inr (after_of_idle (idle_deleteAuxiliary isPresent whole))

/-- So does a cascade for a subject that does not exist. -/
theorem World.Settled.untraced_deleteSubject
    {world : World} (settled : world.Settled space)
    (url : ResourceUrl space) :
    Program.Untraced backend (· = true) (deleteSubject url) world := by
  have evaluated :
      Program.eval backend (deleteSubject url) world =
        (.ok (world.present url.node),
          backend.after world
            ((StorageWrite.deleteSubject url).calls world)) := by
    rw [deleteSubject, Program.eval_bind_ok (eval_exists world url),
      Program.eval_bind_ok (eval_registeredShelves world url),
      StoreProgram.eval_issue_bind rfl]
    cases keyed : BlobKey.of url with
    | none =>
        simp only [deleteBlob, StorageWrite.calls, deleteBlobCalls, keyed]
        rfl
    | some key =>
        simp only [deleteBlob, StorageWrite.calls, deleteBlobCalls, keyed]
        rfl
  refine Program.ensures_of_eval ?_
  rw [evaluated]
  cases isPresent : world.present url.node with
  | true =>
      exact Or.inl ⟨true, rfl, rfl⟩
  | false =>
      exact Or.inr (after_of_idle (settled.idle_deleteSubject isPresent))

/-! ## The handlers -/

section Handlers

variable {world : World}

omit [Sha256] [ObjectPath] in
/-- A plan that is performed, and then a write that succeeds. -/
theorem untraced_materializeFor_bind
    {guard : Guard space} {target : Target space}
    {next : Materialized space → HttpProgram Response}
    (accepted :
      ∀ started materialized,
        Program.Accepted backend Response.Succeeds (next materialized)
          started) :
    Program.Untraced backend Response.Succeeds
      (materializeFor guard target >>= next) world := by
  refine ensures_materializeFor_bind ?_ ?_ fun _ => Or.inr rfl
  · intro walk materialized _
    exact (accepted _ materialized).mono
      fun _ _ isAccepted => Or.inl isAccepted
  · intro _ _ _ _ fails
    exact fails.elim

/-- Nothing has to be made for an auxiliary whose subject exists. -/
theorem World.Settled.plan_aux
    (settled : world.Settled space) {agent : Agent} {url : AuxUrl space}
    {walk : Guard.Walk space}
    (walked :
      (world.guard agent (.aux url)).authorizeWalk = .ok walk) :
    world.present url.subject.node = true ∧ walk.plan = [] := by
  have isPresent : world.present url.subject.node = true :=
    (World.materializes walked).subjectPresent rfl
  refine ⟨isPresent, ?_⟩
  obtain ⟨rest, climbed, samePlan, _⟩ := Guard.authorizeWalk_eq_ok walked
  have climbs :
      (world.guard agent (.aux url)).walk url.subject.ancestors 0 url.node
        false = .ok rest := climbed
  rw [samePlan]
  cases isParent : url.subject.parent with
  | none =>
      rw [ResourceUrl.ancestors_eq, isParent] at climbs
      cases climbs
      rfl
  | some container =>
      have isAbove :
          (containmentShape space).parent url.subject =
            some container.resource :=
        congrArg (Option.map ContainerUrl.resource) isParent
      have parentPresent : world.present container.node = true :=
        (settled.coherent.listed url.subject container.resource isPresent
          isAbove).1
      have inChain : container.resource ∈ url.subject.chain := by
        rw [ResourceUrl.chain_of_parent isParent]
        exact List.mem_cons_of_mem _ List.mem_cons_self
      have existed :
          (world.guard agent (.aux url)).present.contains
            (graphIri container) = true :=
        (world.guard_present agent (.aux url)
          (World.node_mem_candidates (.aux url) inChain)).trans parentPresent
      rw [ResourceUrl.ancestors_of_parent isParent, Guard.walk, existed]
        at climbs
      cases climbs
      rfl

theorem World.Settled.untraced_materializeFor_aux
    (settled : world.Settled space) {agent : Agent} {url : AuxUrl space}
    {next : Materialized space → HttpProgram Response}
    (continues :
      world.present url.subject.node = true →
      ∀ materialized,
        Program.Untraced backend Response.Succeeds (next materialized)
          world) :
    Program.Untraced backend Response.Succeeds
      (materializeFor (world.guard agent (.aux url)) (.aux url) >>= next)
      world := by
  refine ensures_materializeFor_bind ?_ ?_ fun _ => Or.inr rfl
  · intro walk materialized walked
    obtain ⟨isPresent, unplanned⟩ := settled.plan_aux walked
    rw [unplanned]
    exact continues isPresent materialized
  · intro _ _ _ _ fails
    exact fails.elim

/-- A body of bytes. -/
theorem untraced_putBlobRepr [QuadText]
    (guard : Guard space) (target : Target space) (headers : HeaderMap)
    (bytes : Bytes) (mediaType : MediaType) :
    Program.Untraced backend Response.Succeeds
      (putBlobRepr guard target headers bytes mediaType) world := by
  unfold putBlobRepr
  split
  · next url leaf =>
      cases keyed : BlobKey.of url with
      | none =>
          exact Program.untraced_fail _
      | some key =>
          refine ReadsOnly.untraced_bind
            (readsOnly_checkConditionals headers (.resource url leaf))
            fun _ => ?_
          exact untraced_materializeFor_bind fun started _ =>
            accepted_respondBlob
              (ensures_putBlob False keyed bytes mediaType started)
  · exact Program.untraced_fail _

theorem untraced_putAux
    (fresh : Nat → Uuid) (target : Target space) {url : AuxUrl space}
    (triples : List Triple)
    (subjectPresent : world.present url.subject.node = true) :
    Program.Untraced backend Response.Succeeds
      (putAux fresh target url triples) world := by
  refine (untraced_auxPut fresh triples subjectPresent).attempt.bind ?_ ?_
  · rintro _ reached ⟨⟨⟩, rfl, _⟩
    refine Program.accepted_done ?_
    rw [Response.Succeeds, isSuccess_warnIfAclGrantsNothing]
    exact succeeds_created target
  · intro result
    rcases result with (_ | _ | _ | _) | ⟨⟩
    all_goals exact Program.untraced_done _

theorem accepted_putContainer
    (fresh : Nat → Uuid) (target : Target space)
    (container : ContainerUrl space) (triples : List Triple) :
    Program.Accepted backend Response.Succeeds
      (putContainer fresh target container triples) world := by
  have read :
      Program.Accepted backend (fun _ => True)
        (Program.mapError putError (getRdf container)) world := by
    obtain ⟨existing, asked⟩ :
        ∃ existing,
          Program.eval backend (getRdf container) world =
            (.ok existing, world) :=
      ⟨_, eval_getRdf world (Target.container container)⟩
    refine Program.ensures_of_eval ⟨existing, ?_, trivial⟩
    rw [Program.eval_mapError, asked]
    rfl
  exact read.bind fun existing reached _ =>
    accepted_respond (ensures_writeContainer False fresh container _ reached)

theorem World.Settled.untraced_putRdfRepr [QuadText] [RdfParser]
    [RdfSerializer] [ShapeEngine]
    (settled : world.Settled space) (agent : Agent) (target : Target space)
    (headers : HeaderMap) (fresh : Nat → Uuid) (body : Dataset)
    (format : Format) (declared : RdfVersion) :
    Program.Untraced backend Response.Succeeds
      (putRdfRepr (world.guard agent target) target headers fresh body format
        declared) world := by
  refine Program.untraced_ofExcept_bind fun _ _ => ?_
  refine ReadsOnly.untraced_bind
    (readsOnly_checkExisting target format declared) fun _ => ?_
  refine ReadsOnly.untraced_bind (readsOnly_checkConditionals headers target)
    fun _ => ?_
  refine ReadsOnly.untraced_bind (readsOnly_enforceShape target body)
    fun findings => ?_
  cases target with
  | resource url leaf =>
      exact untraced_materializeFor_bind fun started _ =>
        accepted_withFindings
          (accepted_respond (ensures_putDataset False url _ format started))
          (.resource url leaf) findings
  | container url =>
      exact untraced_materializeFor_bind fun started _ =>
        accepted_withFindings (accepted_putContainer fresh _ url _)
          (.container url) findings
  | aux url =>
      refine settled.untraced_materializeFor_aux fun subjectPresent _ => ?_
      refine (untraced_putAux fresh (.aux url) _ subjectPresent).bind ?_
        fun response => Program.untraced_done _
      intro response reached succeeds
      refine Program.accepted_done ?_
      rw [Response.Succeeds, isSuccess_withFindings]
      exact succeeds

theorem World.Settled.untraced_putWrite [QuadText] [RdfParser]
    [RdfSerializer] [ShapeEngine]
    (settled : world.Settled space) (storeVersion : RdfVersion)
    (agent : Agent) (target : Target space) (headers : HeaderMap)
    (body : Bytes) (draws : Draws) :
    Program.Untraced backend Response.Succeeds
      (putWrite storeVersion agent target headers body draws) world := by
  refine ensures_probeFor_bind ?_ fun _ => Or.inr rfl
  refine ensures_orDeny_bind (fun _ _ => ?_) fun _ => Or.inr rfl
  refine Program.untraced_ofExcept_bind fun repr _ => ?_
  cases repr with
  | blob bytes mediaType =>
      exact untraced_putBlobRepr _ target headers bytes mediaType
  | rdf dataset format declared =>
      exact settled.untraced_putRdfRepr agent target headers _ dataset format
        declared

/-- A `POST` that allocated a child stores it, or refuses before it writes. -/
theorem untraced_postBlobRepr
    (guard : Guard space) (child : Target space) (bytes : Bytes)
    (mediaType : MediaType) :
    Program.Untraced backend Response.Succeeds
      (postBlobRepr guard child bytes mediaType) world := by
  unfold postBlobRepr
  split
  · next url leaf =>
      cases keyed : BlobKey.of url with
      | none =>
          exact Program.untraced_fail _
      | some key =>
          exact untraced_materializeFor_bind fun started _ =>
            accepted_respondBlob
              (ensures_putBlob False keyed bytes mediaType started)
  · exact Program.untraced_fail _

theorem untraced_postRdfRepr [QuadText] [RdfParser] [RdfSerializer]
    [ShapeEngine]
    (guard : Guard space) (url : ResourceUrl space) (fresh : Nat → Uuid)
    (body : Dataset) (format : Format) :
    Program.Untraced backend Response.Succeeds
      (postRdfRepr guard url.toTarget fresh body format) world := by
  refine Program.untraced_ofExcept_bind fun _ _ => ?_
  refine ReadsOnly.untraced_bind (readsOnly_enforceShape url.toTarget body)
    fun findings => ?_
  refine untraced_materializeFor_bind fun started _ => ?_
  unfold ResourceUrl.toTarget
  split
  · next slash =>
      exact accepted_withFindings
        (accepted_respond
          (ensures_writeContainer False fresh ⟨url, slash⟩ _ started))
        (.container ⟨url, slash⟩) findings
  · next slash =>
      exact accepted_withFindings
        (accepted_respond (ensures_putDataset False url _ format started))
        (.resource url _) findings

theorem untraced_postImpl [QuadText] [RdfParser] [RdfSerializer]
    [ShapeEngine]
    (storeVersion : RdfVersion) (target : Target space) (request : Request) :
    Program.Untraced backend Response.Succeeds
      (postImpl storeVersion request.agent target request.headers
        request.body request.draws) world := by
  refine ensures_probeFor_bind ?_ fun _ => Or.inr rfl
  refine ensures_orDeny_bind (fun _ _ => ?_) fun _ => Or.inr rfl
  cases target with
  | resource url leaf =>
      exact Program.untraced_fail _
  | aux url =>
      exact Program.untraced_fail _
  | container parent =>
      refine ensures_allocateChild_bind (fun child allocated => ?_)
        fun _ => Or.inr rfl
      obtain ⟨url, rfl, _⟩ := allocated.exists_url
      refine Program.untraced_ofExcept_bind fun repr _ => ?_
      cases repr with
      | blob bytes mediaType =>
          exact untraced_postBlobRepr _ _ bytes mediaType
      | rdf body format declared =>
          exact untraced_postRdfRepr _ url _ body format

omit [Sha256] [ObjectPath] in
theorem untraced_patchAux [QuadText]
    (aux : AuxUrl space) (patch : Patch) :
    Program.Untraced backend Response.Succeeds (patchAux aux patch)
      world := by
  refine (untraced_auxPatch aux patch world).attempt.bind ?_ ?_
  · rintro _ reached ⟨_, rfl, rfl⟩
    exact Program.accepted_done rfl
  · intro result
    rcases result with (_ | _ | _ | _) | _
    all_goals exact Program.untraced_done _

/-- A patch that does not apply to a container asserts types that are there. -/
theorem World.Settled.untraced_patchExisting [QuadText]
    (settled : world.Settled space) {target : Target space} (patch : Patch)
    (isPresent : world.present target.node = true) :
    Program.Untraced backend Response.Succeeds (patchExisting target patch)
      world := by
  refine (untraced_patchGuarded target.subject patch [] world).attempt.bind
    ?_ ?_
  · rintro _ reached ⟨_, rfl, rfl⟩
    cases target with
    | resource url leaf =>
        exact Program.accepted_done rfl
    | aux url =>
        exact Program.accepted_done rfl
    | container url =>
        have ensured :=
          accepted_of_carries (ensures_ensureContainer False url reached)
        refine ensured.attempt.bind ?_
        rintro _ left ⟨⟨⟩, rfl, _⟩
        exact Program.accepted_done rfl
  · intro result
    cases result with
    | error error =>
        exact Program.untraced_done _
    | ok outcome =>
        cases target with
        | resource url leaf =>
            exact Program.untraced_done _
        | aux url =>
            exact Program.untraced_done _
        | container url =>
            have idle := idle_ensureCall isPresent (settled.tidy.typed url)
            refine Program.Untraced.of_unchanged
              ((ensures_attempt_carries
                (ensures_ensureContainer False url world) ?_).mono ?_)
            · rintro (error | ⟨⟩)
              · exact ⟨_, rfl⟩
              · exact ⟨_, rfl⟩
            · intro _ reached performs
              rw [performs.eq_after not_false]
              exact after_of_idle fun call member =>
                List.mem_singleton.mp member ▸ idle

theorem untraced_createByPatch [QuadText]
    (guard : Guard space) (target : Target space) (patch : Patch)
    (fresh : Nat → Uuid) (notAux : target.isAux = false) :
    Program.Untraced backend Response.Succeeds
      (createByPatch guard target patch fresh) world := by
  unfold createByPatch
  cases ground : patch.groundInsertions with
  | none =>
      exact Program.untraced_fail _
  | some triples =>
      dsimp only
      split
      · exact Program.untraced_fail _
      · refine untraced_materializeFor_bind fun started _ => ?_
        obtain ⟨body, grounded⟩ := patch.exists_groundDataset ground
        cases target with
        | resource url leaf =>
            dsimp only
            rw [grounded]
            exact accepted_respond
              (ensures_putDataset False url body .turtle started)
        | container url =>
            exact accepted_respond
              (ensures_writeContainer False fresh url triples started)
        | aux url =>
            cases notAux

theorem World.Settled.untraced_patchImpl [QuadText] [RdfSerializer]
    [N3Parser]
    (settled : world.Settled space) (target : Target space)
    (request : Request) :
    Program.Untraced backend Response.Succeeds
      (patchImpl request.agent target request.headers request.body
        request.draws) world := by
  refine ensures_probeFor_bind ?_ fun _ => Or.inr rfl
  refine ensures_orDeny_bind (fun _ _ => ?_) fun _ => Or.inr rfl
  refine Program.untraced_ofExcept_bind fun _ _ => ?_
  refine Program.untraced_ofExcept_bind fun patch _ => ?_
  split
  · exact Program.untraced_fail _
  · refine ReadsOnly.untraced_bind (readsOnly_refuseBinary target)
      fun _ => ?_
    refine ReadsOnly.untraced_bind (readsOnly_patchShapeConflict target)
      fun _ => ?_
    refine Program.untraced_ofExcept_bind fun _ _ => ?_
    refine ReadsOnly.untraced_bind
      (readsOnly_checkConditionals request.headers target) fun _ => ?_
    have written :
        target.isAux = false →
        Program.Untraced backend Response.Succeeds
          (if (world.guard request.agent target).targetExists then
            patchExisting target patch
          else
            createByPatch (world.guard request.agent target) target patch
              request.draws.blank) world := by
      intro notAux
      rw [world.guard_targetExists]
      split
      · next isPresent =>
          exact settled.untraced_patchExisting patch isPresent
      · exact untraced_createByPatch _ target patch _ notAux
    cases target with
    | resource url leaf =>
        exact written rfl
    | container url =>
        exact written rfl
    | aux url =>
        exact untraced_patchAux url patch

theorem World.Settled.untraced_deleteImpl
    (settled : world.Settled space) (agent : Agent)
    (target : Target space) :
    Program.Untraced backend Response.Succeeds (deleteImpl agent target)
      world := by
  refine ensures_probeFor_bind ?_ fun _ => Or.inr rfl
  refine ensures_orDeny_bind (fun _ _ => ?_) fun _ => Or.inr rfl
  have cascade :
      Program.Untraced backend Response.Succeeds
        (do
          let _ ←
            orDeny target
              ((world.guard agent target).authorizeParent .write)
          let _ ←
            orDeny target
              (AuxKind.all.mapM (world.guard agent target).authorizeAux)
          refuseDelete target
          deleteCascade target) world := by
    refine ensures_orDeny_bind (fun _ _ => ?_) fun _ => Or.inr rfl
    refine ensures_orDeny_bind (fun _ _ => ?_) fun _ => Or.inr rfl
    refine Program.Untraced.after_unchanged (ensures_refuseDelete target)
      fun _ _ => ?_
    refine (settled.untraced_deleteSubject target.subject).attempt.bind ?_ ?_
    · rintro _ reached ⟨_, rfl, rfl⟩
      exact Program.accepted_done rfl
    · intro result
      rcases result with _ | (_ | _)
      all_goals exact Program.untraced_done _
  cases target with
  | resource url leaf =>
      exact cascade
  | container url =>
      exact cascade
  | aux url =>
      have whole : url.Whole world := settled.auxWhole url
      refine (untraced_deleteRdf whole).attempt.bind ?_ ?_
      · rintro _ reached ⟨_, rfl, rfl⟩
        exact Program.accepted_done rfl
      · intro result
        rcases result with _ | (_ | _)
        all_goals exact Program.untraced_done _

variable [QuadText] [RdfParser] [RdfSerializer] [ShapeEngine] [N3Parser]

theorem World.Settled.untraced_handle
    (settled : world.Settled space) (storeVersion : RdfVersion)
    (request : Request) :
    Program.Untraced backend Response.Succeeds
      (handle space storeVersion request) world := by
  refine Program.untraced_ofExcept_bind fun target _ => ?_
  unfold handleTarget
  split
  · exact settled.untraced_putWrite storeVersion _ target _ _ _
  · exact untraced_postImpl storeVersion target request
  · exact settled.untraced_patchImpl target request
  · exact settled.untraced_deleteImpl _ target

end Handlers

/-! ## Requests on the wire -/

section Served

variable [QuadText] [RdfParser] [RdfSerializer] [ShapeEngine] [N3Parser]
variable {world : World} {storeVersion : RdfVersion}

theorem Reachable.settled
    (reachable :
      Reachable space storeVersion (Provisioned space)
        (answeredRequest space) world) :
    world.Settled space where
  auxSound := reachable.auxSound
  auxWhole := reachable.auxWhole
  coherent := reachable.coherent
  objects := reachable.objectsOwned
  tidy := reachable.tidy

variable [Quality] [WireFormats] [Josekit] [JoseSigning]

theorem World.Settled.untraced_dispatch
    {app : AppState} (settled : world.Settled app.space) (agent : Agent)
    (request : HttpRequest) (draws : Draws) :
    Program.Untraced backend Response.Succeeds
      (dispatch app agent request draws) world := by
  have ofReads :
      ∀ program : HttpProgram Response,
        ReadsOnly program →
        Program.Untraced backend Response.Succeeds program world :=
    fun program reads =>
      .of_unchanged
        (Program.Uses.ensures reads (fun _ isRead => isRead.perform) world)
  rcases dispatch_cases app agent request draws with
      ⟨result, same⟩ | ⟨verb, path, _, _, same⟩
  · rw [same]
    exact ofReads _ (Program.uses_ofExcept result)
  · rw [same]
    by_cases safe : ∀ method, verb ≠ .write method
    · exact ofReads _ (readsOnly_handlePath app agent verb request draws path
        safe)
    · obtain ⟨method, rfl⟩ : ∃ method, verb = .write method := by
        by_contra none
        exact safe fun method isWrite => none ⟨method, isWrite⟩
      rcases handlePath_write app agent method request draws path with
          tooLarge | handled
      · rw [tooLarge]
        exact Program.untraced_fail _
      · rw [handled]
        exact settled.untraced_handle app.storeVersion _

variable [DpopVerifierCrate] [UrlParser] {State : Type}

omit [IriSyntax] [Sha256] [ObjectPath] [QuadText] [RdfParser] [RdfSerializer]
  [ShapeEngine] [N3Parser] [Quality] [WireFormats] [Josekit] [JoseSigning]
  [DpopVerifierCrate] [UrlParser] in
theorem isSuccess_corsLayer (origin : Option Text) (response : Response) :
    (corsLayer origin response).isSuccess = response.isSuccess := by
  cases origin with
  | none =>
      rfl
  | some origin =>
      unfold corsLayer
      dsimp only
      split <;> rfl

omit [IriSyntax] [Sha256] [ObjectPath] [QuadText] [RdfParser] [RdfSerializer]
  [ShapeEngine] [N3Parser] [Quality] [WireFormats] [Josekit] [JoseSigning]
  [DpopVerifierCrate] [UrlParser] in
theorem isSuccess_forMethod (response : Response) (method : Text) :
    (response.forMethod method).isSuccess = response.isSuccess := by
  unfold Response.forMethod
  split <;> rfl

/--
In every world a pod reaches by requests whose store calls are answered, a
request that is answered by anything but a success leaves both stores exactly as
it found them, the order of their triples included.
-/
theorem refusals_untraced
    {app : AppState}
    (reachable :
      Reachable app.space app.storeVersion (Provisioned app.space)
        (answeredRequest app.space) world)
    (arrival : Arrival State) (state : State)
    (answered : ∀ fault ∈ arrival.faults, fault = none)
    (refused :
      (serve app arrival state world).response.isSuccess = false) :
    (serve app arrival state world).world = world := by
  unfold serve at refused ⊢
  dsimp only at refused ⊢
  split
  · rfl
  · next agent forwards =>
      rw [forwards] at refused
      dsimp only at refused ⊢
      rw [isSuccess_corsLayer, isSuccess_forMethod] at refused
      have untraced :=
        reachable.settled.untraced_dispatch agent arrival.request
          arrival.draws arrival.faults (Or.inr answered)
      rcases untraced with ⟨response, isResponse, succeeds⟩ | same
      · rw [isResponse] at refused
        have fails : response.isSuccess = false := refused
        rw [succeeds] at fails
        cases fails
      · exact same

end Served

end Quadpod

namespace Quadpod.Reference

/-- The owner deletes `/note`. -/
def ownerDelete : HttpRequest where
  method := "DELETE".toList
  path := "/note".toList
  headers :=
    [("authorization".toList, tokenField),
      ("dpop".toList, fieldOf deleteProof (by decide +kernel))]
  query := none
  body := []

/-- Where there is no `/note`, that is known only after the cascade. -/
theorem status_ownerDelete :
    (serve podApp (owners ownerDelete) AuthState.new
      freshWorld).response.status = 404 := by
  decide +kernel

/-- The cascade for a resource that is not there leaves nothing behind. -/
theorem refusals_untraced_ownerDelete :
    (serve podApp (owners ownerDelete) AuthState.new
          freshWorld).response.status = 404 ∧
      (serve podApp (owners ownerDelete) AuthState.new freshWorld).world =
        freshWorld := by
  have started :
      Reachable podApp.space podApp.storeVersion (Provisioned podApp.space)
        (answeredRequest podApp.space) freshWorld :=
    .start freshWorld provisioned_freshWorld
  have answered : ∀ fault ∈ (owners ownerDelete).faults, fault = none :=
    fun fault member => by cases member
  have refused :
      (serve podApp (owners ownerDelete) AuthState.new
        freshWorld).response.isSuccess = false := by
    rw [Response.isSuccess, status_ownerDelete]
    rfl
  exact ⟨status_ownerDelete,
    refusals_untraced started (owners ownerDelete) AuthState.new answered
      refused⟩

end Quadpod.Reference
