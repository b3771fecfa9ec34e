import Mathlib.Data.Finset.Card
import Quadpod.DatasetReads
import Quadpod.PatchSubstitution
import Quadpod.WholeAuxiliaries

namespace Quadpod

open AtomicProgram
open GraphStore

/-!
# The size of auxiliary documents

`aux::put` refuses a document of more than `MAX_AUX_TRIPLES` triples.
`aux::patch` refuses nothing by size, so a document can grow past the bound one
patch at a time.  It stays within it as long as every patch of an auxiliary adds
no more than there is room for.
-/

variable [IriSyntax] {space : StorageSpace} {mayFail : Prop}

/-- An auxiliary document is within the bound. -/
def AuxUrl.Capped (aux : AuxUrl space) (world : World) : Prop :=
  (world.graphs (graphIri aux)).triples.length ≤ maxAuxTriples

/-- Every auxiliary document of a space is within the bound. -/
def World.AuxCapped (world : World) (space : StorageSpace) : Prop :=
  ∀ aux : AuxUrl space, aux.Capped world

/-- A graph has no more triples than a list that has all of them. -/
theorem Graph.length_le_of_subset
    {graph : Graph GroundTriple} {triples : List GroundTriple}
    (subset : ∀ triple ∈ graph, triple ∈ triples) :
    graph.triples.length ≤ triples.length :=
  (List.subperm_of_subset graph.nodup subset).length_le

theorem length_groundQuads
    (fresh : Nat → Uuid) (quads : List Quad) (minted : Minted) :
    (Skolemized.groundQuads fresh quads minted).length = quads.length := by
  induction quads generalizing minted with
  | nil =>
      rfl
  | cons quad rest inductionHypothesis =>
      rw [Skolemized.groundQuads, List.length_cons, List.length_cons, inductionHypothesis]

theorem length_skolemizedTriples (fresh : Nat → Uuid) (triples : List Triple) :
    (skolemizedTriples fresh triples).length = triples.length := by
  unfold skolemizedTriples Skolemized.skolemize asQuads
  rw [List.length_map, length_groundQuads, List.length_map]

/-! ## Patches -/

/-- The triples of a graph that a patch keeps. -/
def Patch.kept
    (patch : Patch) (mapping : Mapping) (graph : Graph GroundTriple) :
    Finset GroundTriple :=
  graph.triples.toFinset \ (instances mapping patch.deletions).toFinset

/-- The triples that a patch adds to those that it keeps. -/
def Patch.added
    (patch : Patch) (mapping : Mapping) (graph : Graph GroundTriple) :
    Finset GroundTriple :=
  (instances mapping patch.insertions).toFinset \ patch.kept mapping graph

/-- A patch that applies finds room for what it adds. -/
def Patch.HasRoom (patch : Patch) (graph : Graph GroundTriple) : Prop :=
  ∀ mapping, patch.MapsOnly graph mapping →
    (∀ triple ∈ instances mapping patch.deletions, triple ∈ graph) →
    (patch.kept mapping graph).card + (patch.added mapping graph).card ≤
      maxAuxTriples

/-- There is room where the document and the insertions are few together. -/
theorem Patch.hasRoom_of_length
    {patch : Patch} {graph : Graph GroundTriple}
    (small :
      graph.triples.length + patch.insertions.length ≤ maxAuxTriples) :
    patch.HasRoom graph := by
  intro mapping _ _
  have kept : (patch.kept mapping graph).card ≤ graph.triples.length :=
    (Finset.card_le_card Finset.sdiff_subset).trans
      (List.toFinset_card_le _)
  have added :
      (patch.added mapping graph).card ≤ patch.insertions.length :=
    (Finset.card_le_card Finset.sdiff_subset).trans
      ((List.toFinset_card_le _).trans (List.length_filterMap_le _ _))
  omega

/-- The triples of the templates are the instances of the patterns. -/
theorem Substituted.filterMap_ground
    {mapping : Mapping} {patterns : List Pattern}
    {templates : List TemplateTriple}
    (substituted : Substituted mapping patterns templates) :
    templates.filterMap TemplateTriple.ground = instances mapping patterns := by
  induction substituted with
  | nil =>
      rfl
  | @cons pattern template patterns templates isTemplate _
      inductionHypothesis =>
      obtain ⟨subject, predicate, object⟩ := isTemplate
      have same : pattern.instantiate mapping = template.ground := by
        unfold Pattern.instantiate
        rw [subject, predicate, object]
        rfl
      unfold instances at inductionHypothesis ⊢
      rw [List.filterMap_cons, List.filterMap_cons, same, inductionHypothesis]

theorem filterMap_of_mapM
    {templates : List TemplateTriple} {triples : List GroundTriple}
    (mapped : templates.mapM TemplateTriple.ground = some triples) :
    templates.filterMap TemplateTriple.ground = triples := by
  induction templates generalizing triples with
  | nil =>
      cases mapped
      rfl
  | cons first rest inductionHypothesis =>
      rw [List.mapM_cons] at mapped
      obtain ⟨triple, isTriple, mapped⟩ := Option.bind_eq_some_iff.mp mapped
      obtain ⟨others, areOthers, isTriples⟩ := Option.bind_eq_some_iff.mp mapped
      cases isTriples
      rw [List.filterMap_cons, isTriple, inductionHypothesis areOthers]

/-- The solutions that a patch goes on with are its only mapping. -/
theorem PatchBindings.mapsOnly
    {graph : Graph GroundTriple} {patch : Patch} {bindings : List Solution}
    (found : PatchBindings graph.triples patch bindings) :
    patch.MapsOnly graph (bindingsMapping bindings) := by
  cases found with
  | unconditional noConditions =>
      refine ⟨?_, ?_⟩
      · rw [noConditions]
        exact solves_nil.mpr rfl
      · intro other solves
        rw [noConditions] at solves
        exact solves_nil.mp solves
  | only solution isOnly =>
      exact mapsOnly_of_solutions isOnly

/-- The size of a graph without some triples and with others. -/
theorem length_patched
    (patch : Patch) (mapping : Mapping) (graph : Graph GroundTriple) :
    ((graph.removeAll (instances mapping patch.deletions)).insertAll
      (instances mapping patch.insertions)).triples.length ≤
    (patch.kept mapping graph).card + (patch.added mapping graph).card := by
  rw [← List.toFinset_card_of_nodup (Graph.nodup _)]
  refine le_trans (Finset.card_le_card ?_)
    (Finset.card_union_le (patch.kept mapping graph)
      (patch.added mapping graph))
  intro triple member
  rw [List.mem_toFinset, Graph.mem_triples, Graph.mem_insertAll,
    Graph.mem_removeAll] at member
  unfold Patch.added
  rw [Finset.union_sdiff_self_eq_union, Finset.mem_union]
  rcases member with ⟨isStored, isKept⟩ | isAdded
  · left
    rw [Patch.kept, Finset.mem_sdiff, List.mem_toFinset, List.mem_toFinset]
    exact ⟨isStored, isKept⟩
  · right
    rw [List.mem_toFinset]
    exact isAdded

/-- The update of a patch that has room leaves a document within the bound. -/
theorem length_modify
    {name : Text} {patch : Patch} {world : World}
    {change : List TemplateTriple × List TemplateTriple}
    {guard : Condition Text GroundTriple}
    (changes : PatchChange world name patch change)
    (hasRoom : patch.HasRoom (world.graphs name))
    (capped : (world.graphs name).triples.length ≤ maxAuxTriples) :
    ((backend.perform world
      (.modify name change.1 change.2 guard)).2.graphs name).triples.length ≤
        maxAuxTriples := by
  obtain ⟨bindings, found, deleted, inserted⟩ := changes.substituted
  have only := found.mapsOnly
  have removed := (substituted_of_substitute deleted).filterMap_ground
  have added := (substituted_of_substitute inserted).filterMap_ground
  rw [backend_graphs, Call.operations]
  split
  next =>
      cases isRemoved : change.1.mapM TemplateTriple.ground with
      | none =>
          exact capped
      | some triples =>
          rw [filterMap_of_mapM isRemoved] at removed
          subst removed
          rw [Store.applyAll_cons, Store.applyAll_nil, Store.apply]
          split
          next satisfied =>
              rw [Function.update_self, added]
              rw [Store.satisfies_iff] at satisfied
              have present :
                  ∀ triple ∈
                      instances (bindingsMapping bindings) patch.deletions,
                    triple ∈ world.graphs name := by
                intro triple isRemoved
                exact satisfied (name, triple) (List.mem_append_left _
                  (List.mem_map.mpr ⟨triple, isRemoved, rfl⟩))
              exact (length_patched _ _ _).trans
                (hasRoom _ only present)
          next =>
              exact capped
  next =>
      exact capped

/-! ## Storage writes -/

theorem AuxUrl.owns_graphIri (aux : AuxUrl space) : aux.Owns (graphIri aux) :=
  Or.inl rfl

theorem AuxUrl.Capped.of_same
    {aux : AuxUrl space} {world reached : World}
    (capped : aux.Capped world)
    (same : reached.graphs (graphIri aux) = world.graphs (graphIri aux)) :
    aux.Capped reached := by
  unfold AuxUrl.Capped
  rw [same]
  exact capped

/-- A document of an accepted size replaces the old one, or nothing happens. -/
theorem AuxUrl.Capped.written
    {aux : AuxUrl space} {world : World} {triples : List GroundTriple}
    (capped : aux.Capped world)
    (small : triples.length ≤ maxAuxTriples) :
    aux.Capped
      (backend.perform world
        (.update
          [.clearWhere (graphIri aux) (subjectPresentGuard aux),
            .insertWhere
              [(graphIri aux, triples),
                (sysGraphIri aux, [presenceMarker aux.node])]
              (subjectPresentGuard aux)])).2 := by
  by_cases guarded :
      world.graphs.satisfies (subjectPresentGuard aux) = true
  · refine (Graph.length_le_of_subset ?_).trans small
    intro triple isThere
    rw [backend_graphs] at isThere
    simp only [Call.operations, Store.applyAll_cons, Store.applyAll_nil,
      Store.apply, guarded, if_true] at isThere
    split at isThere
    · rw [Store.mem_insertBlocks, Function.update_self] at isThere
      rcases isThere with inEmpty | ⟨added, isBlock, isAdded⟩
      · cases inEmpty
      · rcases List.mem_cons.mp isBlock with isFirst | isSecond
        · cases isFirst
          exact isAdded
        · have same := congrArg Prod.fst (List.mem_singleton.mp isSecond)
          have isSystem : graphIri aux = sysGraphOf aux.iri := same
          exact (not_isHttp_sysGraphOf aux.iri (isSystem ▸ aux.isHttp)).elim
    · rw [Function.update_self] at isThere
      cases isThere
  · refine capped.of_same ?_
    rw [backend_graphs]
    simp only [Call.operations, Store.applyAll_cons, Store.applyAll_nil,
      Store.apply, guarded, if_false, Bool.false_eq_true]

/-- A document that is dropped is within the bound. -/
theorem AuxUrl.capped_of_dropped
    {aux : AuxUrl space} {operations : List (Operation Text GroundTriple)}
    (world : World)
    (dropped : .drop (graphIri aux) ∈ operations)
    (addsNothing : ∀ operation ∈ operations, operation.adds = []) :
    aux.Capped (backend.perform world (.update operations)).2 := by
  have isEmpty :
      (backend.perform world (.update operations)).2.graphs (graphIri aux) =
        Graph.empty := by
    apply Graph.eq_empty
    intro triple
    rw [backend_graphs]
    refine Store.not_mem_applyAll_of_drop dropped ?_
    intro operation member isAdded
    rw [addsNothing operation member] at isAdded
    cases isAdded
  unfold AuxUrl.Capped
  rw [isEmpty]
  exact Nat.zero_le _

section Writes

variable [Sha256] [ObjectPath]

omit [ObjectPath] in
/-- The writes that touch the document of an auxiliary. -/
theorem StorageWrite.touches_auxiliary
    {write : StorageWrite space} {aux : AuxUrl space}
    (touches : write.Touches (graphIri aux)) :
    (∃ triples, write = .auxiliary aux triples) ∨
      (∃ change, write = .patch (.aux aux) change) ∨
      write = .deleteAuxiliary aux ∨
      write = .deleteSubject aux.subject := by
  have owns := aux.owns_graphIri
  cases write with
  | dataset url body mediaType =>
      exact (ResourceUrl.not_owns_of_aux owns touches).elim
  | blob url key bytes mediaType =>
      exact (ResourceUrl.not_owns_of_aux owns touches).elim
  | container url triples =>
      exact (ResourceUrl.not_owns_of_aux owns
        (ContainerUrl.Owns.resource touches)).elim
  | auxiliary url triples =>
      obtain rfl := AuxUrl.eq_of_owns owns touches
      exact .inl ⟨triples, rfl⟩
  | patch target change =>
      cases target with
      | resource url leaf =>
          exact (ResourceUrl.not_owns_of_aux owns (Or.inl touches)).elim
      | container url =>
          exact (ResourceUrl.not_owns_of_aux owns
            (ContainerUrl.Owns.resource touches)).elim
      | aux url =>
          obtain rfl := AuxUrl.eq_of_owns owns (Or.inl touches)
          exact .inr (.inl ⟨change, rfl⟩)
  | deleteAuxiliary url =>
      obtain rfl := AuxUrl.eq_of_owns owns touches
      exact .inr (.inr (.inl rfl))
  | deleteSubject url =>
      rcases touches with ownsUrl | ⟨kind, ownsAux⟩ | ⟨parent, _, isParent⟩
      · exact (ResourceUrl.not_owns_of_aux owns ownsUrl).elim
      · obtain rfl := AuxUrl.eq_of_owns owns ownsAux
        exact .inr (.inr (.inr rfl))
      · exact (ResourceUrl.not_owns_of_aux owns (Or.inl isParent)).elim
  | nothing =>
      cases touches

/-- Every storage write keeps documents within the bound, wherever it is left. -/
theorem World.AuxCapped.performs_calls
    {started final : World} {write : StorageWrite space}
    (capped : started.AuxCapped space)
    (owned : started.RegistersOwn space)
    (small :
      ∀ url triples, write = .auxiliary url triples →
        triples.length ≤ maxAuxTriples)
    (patched :
      ∀ url change, write = .patch (.aux url) (some change) →
        url.Capped (backend.perform started (modifyCall (.aux url) change)).2)
    (performs :
      backend.Performs mayFail started (write.calls started) final) :
    final.AuxCapped space := by
  intro aux
  by_cases touches : write.Touches (graphIri aux)
  · rcases StorageWrite.touches_auxiliary touches with
      ⟨triples, rfl⟩ | ⟨change, rfl⟩ | rfl | rfl
    · refine performs.invariant aux.Capped (capped aux) ?_
      intro middle call member holds
      obtain rfl := List.mem_singleton.mp member
      exact holds.written (small aux triples rfl)
    · obtain ⟨performed, rest, isCalls, rfl, _⟩ := performs
      cases performed with
      | nil =>
          exact capped aux
      | cons call others =>
          cases change with
          | none =>
              cases isCalls
          | some change =>
              obtain ⟨isCall, isNone⟩ := List.cons.inj isCalls
              rw [(List.append_eq_nil_iff.mp isNone.symm).1, ← isCall]
              exact patched aux change rfl
    · refine performs.invariant aux.Capped (capped aux) ?_
      intro middle call member holds
      obtain rfl := List.mem_singleton.mp member
      refine AuxUrl.capped_of_dropped middle List.mem_cons_self ?_
      intro operation inUpdate
      simp only [List.mem_cons, List.not_mem_nil, or_false] at inUpdate
      rcases inUpdate with rfl | rfl <;> rfl
    · refine performs.invariant aux.Capped (capped aux) ?_
      intro middle call member holds
      rcases List.mem_cons.mp member with rfl | isDelete
      · refine AuxUrl.capped_of_dropped middle ?_ fun operation inUpdate =>
          adds_deleteSubjectUpdate inUpdate
        refine List.mem_append_left _ (List.mem_append_right _
          (List.mem_flatMap.mpr ⟨aux.kind, aux.kind.mem_all, ?_⟩))
        have isAux : graphIri aux = graphIri (aux.subject.aux aux.kind) :=
          aux.iriSubject
        rw [isAux]
        exact List.mem_cons_self
      · obtain ⟨key, _, rfl⟩ := List.mem_map.mp isDelete
        exact holds
  · refine (capped aux).of_same ?_
    refine Performs.graphs_eq performs fun call member touched => ?_
    exact touches (StorageWrite.calls_touch owned member touched)

omit [ObjectPath] in
/-- A plan writes no auxiliary document. -/
theorem World.AuxCapped.performs_plan
    {world reached : World}
    {plan : List (ContainerUrl space × Option NamedNode)}
    (capped : world.AuxCapped space)
    (performs : backend.Performs mayFail world (planCalls plan) reached) :
    reached.AuxCapped space := by
  intro aux
  refine (capped aux).of_same ?_
  refine Performs.graphs_eq performs fun call member touched => ?_
  obtain ⟨step, _, ownsStep⟩ := touches_planCalls member touched
  exact ResourceUrl.not_owns_of_aux aux.owns_graphIri ownsStep.resource

/-- A plan and one write keep documents within the bound. -/
theorem Staged.auxCapped
    {world reached : World}
    {plan : List (ContainerUrl space × Option NamedNode)}
    {admits : World → StorageWrite space → Prop}
    (staged : Staged mayFail world plan admits reached)
    (capped : world.AuxCapped space)
    (owned : world.RegistersOwn space)
    (small :
      ∀ started url triples, admits started (.auxiliary url triples) →
        triples.length ≤ maxAuxTriples)
    (notPatch :
      ∀ started on change, ¬ admits started (.patch on change)) :
    reached.AuxCapped space := by
  rcases staged with ⟨_, performs⟩ | ⟨write, admitted, performs⟩
  · exact capped.performs_plan performs
  · have planned :
        backend.Performs mayFail world (planCalls plan)
          (backend.after world (planCalls plan)) :=
      backend.performs_all world (planCalls plan)
    refine (capped.performs_plan planned).performs_calls
      (owned.performs planned fun call member => registers_planCalls member)
      ?_ ?_ performs
    · rintro url triples rfl
      exact small _ url triples admitted
    · rintro url change rfl
      exact (notPatch _ _ _ admitted).elim

end Writes

/-! ## Runs -/

section Reachable

variable [Sha256] [ObjectPath] [QuadText]
variable [RdfParser] [RdfSerializer] [ShapeEngine] [N3Parser]
variable {storeVersion : RdfVersion}

/-- A patch of an auxiliary that this request asks for has room. -/
def Request.PatchHasRoom
    (request : Request) (space : StorageSpace) (world : World) : Prop :=
  ∀ (aux : AuxUrl space) (patch : Patch),
    request.method = .patch →
    classify space request.path = .ok (.aux aux) →
    parsePatch request.body (.aux aux) = .ok patch →
    patch.HasRoom (world.graphs (graphIri aux))

omit [QuadText] [RdfSerializer] [ShapeEngine] in
theorem RequestEffect.auxCapped
    {world reached : World} {request : Request} {target : Target space}
    (effect :
      RequestEffect mayFail storeVersion world request target reached)
    (classified : classify space request.path = .ok target)
    (owned : world.RegistersOwn space)
    (capped : world.AuxCapped space)
    (hasRoom : request.PatchHasRoom space world) :
    reached.AuxCapped space := by
  cases effect with
  | unchanged =>
      exact capped
  | put isPut authorized walked staged =>
      refine staged.auxCapped capped owned ?_ ?_
      · rintro started url triples ⟨repr, _, isWrite⟩
        cases isWrite with
        | auxiliary url body format declared checked small =>
            rw [length_skolemizedTriples]
            exact small
      · rintro started on change ⟨repr, _, isWrite⟩
        exact isWrite.ne_patch rfl
  | post isPost onContainer authorized allocated walked staged =>
      refine staged.auxCapped capped owned ?_ ?_
      · rintro started url triples ⟨repr, _, isWrite⟩
        cases isWrite with
        | auxiliary url body format declared checked small =>
            rw [length_skolemizedTriples]
            exact small
      · rintro started on change ⟨repr, _, isWrite⟩
        exact isWrite.ne_patch rfl
  | @patch decision patch change _ isPatch authorized parsed granted
      targetPresent contained changes performs =>
      refine capped.performs_calls owned ?_ ?_ performs
      · intro url triples impossible
        cases impossible
      · rintro url given isWrite
        cases isWrite
        exact length_modify (changes given rfl)
          (hasRoom url patch isPatch classified parsed) (capped url)
  | create isPatch authorized parsed granted absent contained ground walked
      staged =>
      refine staged.auxCapped capped owned ?_ ?_
      · intro started url triples isWrite
        cases isWrite
      · intro started on change isWrite
        cases isWrite
  | @deleteAux decision url _ isDelete onAux authorized performs =>
      refine capped.performs_calls owned ?_ ?_ performs
      · intro url triples impossible
        cases impossible
      · intro url change impossible
        cases impossible
  | deleteSubject isDelete notAux authorized parentAuthorized auxAuthorized
      unused performs =>
      refine capped.performs_calls owned ?_ ?_ performs
      · intro url triples impossible
        cases impossible
      · intro url change impossible
        cases impossible

omit [QuadText] [RdfSerializer] [ShapeEngine] [N3Parser] in
theorem Provisioned.auxCapped
    {world : World} (provisioned : Provisioned space world) :
    world.AuxCapped space := by
  refine provisioned.invariant (·.AuxCapped space) ?_ ?_
  · intro aux
    exact Nat.zero_le _
  · rintro world call (rfl | ⟨fresh, triples, small, member⟩) capped
    · intro aux
      refine (capped aux).of_same (perform_graphs_of_not_touched ?_)
      intro touched
      exact ResourceUrl.not_owns_of_aux aux.owns_graphIri
        (touches_ensureCall touched).resource
    · have unregistered : World.empty.RegistersOwn space := by
        intro url triple inEmpty
        cases inEmpty
      intro aux
      by_cases isAcl : aux = space.root.resource.acl
      · subst isAcl
        obtain rfl := List.mem_singleton.mp member
        refine (capped _).written ?_
        rw [length_skolemizedTriples]
        exact small
      · refine (capped aux).of_same (perform_graphs_of_not_touched ?_)
        intro touched
        exact isAcl (AuxUrl.eq_of_owns (Or.inl rfl)
          (StorageWrite.calls_touch unregistered member touched))

omit [Sha256] [ObjectPath] [RdfParser] [RdfSerializer] [ShapeEngine]
  [N3Parser] in
/-- A patch of an auxiliary that is there leaves what `patch_guarded` leaves. -/
theorem eval_patchAux
    {aux : AuxUrl space} {patch : Patch} {world : World}
    (isPresent : world.present aux.node = true) :
    (Program.eval backend (patchAux aux patch) world).2 =
      (Program.eval backend
        (patchGuarded aux patch (subjectPresentGuard aux)) world).2 := by
  have asked (world : World) :
      Program.eval backend (AuxProgram.ofResource (exists? aux)) world =
        (.ok (world.present aux.node), world) := by
    unfold AuxProgram.ofResource
    rw [Program.eval_mapError, eval_existsAt]
    rfl
  have ran :
      Program.eval backend (auxPatch aux patch) world =
        Program.eval backend
          (do
            let result ←
              AuxProgram.ofResource
                (patchGuarded aux patch (subjectPresentGuard aux))
            if ← AuxProgram.ofResource (exists? aux) then
              pure result
            else
              .fail .subjectMissing : AuxProgram PatchResult) world := by
    unfold auxPatch
    rw [Program.eval_bind_ok (asked world), isPresent]
    rfl
  have left :
      (Program.eval backend (auxPatch aux patch) world).2 =
        (Program.eval backend
          (patchGuarded aux patch (subjectPresentGuard aux)) world).2 := by
    rw [ran, Program.eval_bind]
    unfold AuxProgram.ofResource at asked ⊢
    rw [Program.eval_mapError]
    cases Program.eval backend
        (patchGuarded aux patch (subjectPresentGuard aux)) world with
    | mk result reached =>
        cases result with
        | error error =>
            rfl
        | ok result =>
            change (Program.eval backend _ reached).2 = reached
            rw [Program.eval_bind_ok (asked reached)]
            split
            · rfl
            · rfl
  unfold patchAux
  rw [Program.eval_bind, Program.eval_attempt, ← left]
  dsimp only
  split
  all_goals rfl

omit [RdfParser] [ShapeEngine] in
/-- A granted patch of an auxiliary reaches `aux::patch`. -/
theorem eval_patchImpl_aux
    {agent : Agent} {aux : AuxUrl space} {headers : HeaderMap} {body : Bytes}
    {draws : Draws} {decision : Decision} {patch : Patch} {world : World}
    (granted :
      (world.guard agent (.aux aux)).authorize .append = .ok decision)
    (typed : patchContentType headers body = .ok ())
    (parsed : parsePatch body (.aux aux) = .ok patch)
    (unconditional :
      checkConditionals headers (.aux aux) = pure ()) :
    Program.eval backend (patchImpl agent (.aux aux) headers body draws) world =
      Program.eval backend (patchAux aux patch) world := by
  have probed :
      Program.eval backend (probeFor agent (.aux aux)) world =
        (.ok (world.guard agent (.aux aux)), world) := by
    unfold probeFor
    rw [Program.eval_mapError, eval_probe]
    rfl
  unfold patchImpl
  rw [Program.eval_bind_ok probed, granted, typed, parsed, unconditional]
  rfl

/-- A patch request runs `patch_impl` on its target. -/
theorem eval_handle_patch
    {request : Request} {target : Target space} {world : World}
    (isPatch : request.method = .patch)
    (classified : classify space request.path = .ok target) :
    Program.eval backend (handle space storeVersion request) world =
      Program.eval backend
        (patchImpl request.agent target request.headers request.body
          request.draws) world := by
  unfold handle
  rw [classified, Program.eval_bind_ok (Program.eval_ofExcept _ _ _)]
  unfold handleTarget
  rw [isPatch]

/-- What a patch request that reaches an auxiliary leaves. -/
theorem afterRequest_patchAux
    {request : Request} {aux : AuxUrl space} {decision : Decision}
    {patch : Patch} {mapping : Mapping} {world : World}
    (isPatch : request.method = .patch)
    (classified : classify space request.path = .ok (.aux aux))
    (granted :
      (world.guard request.agent (.aux aux)).authorize .append =
        .ok decision)
    (typed : patchContentType request.headers request.body = .ok ())
    (parsed : parsePatch request.body (.aux aux) = .ok patch)
    (unconditional :
      checkConditionals request.headers (.aux aux) = pure ())
    (isPresent : world.present aux.node = true)
    (only : patch.MapsOnly (world.graphs (graphIri aux)) mapping)
    (wellFormed :
      ∀ pattern ∈ patch.deletions ++ patch.insertions,
        (∃ triple, pattern.instantiate mapping = some triple) ∧
          pattern.Renders mapping) :
    afterRequest space storeVersion request [] world =
      (backend.perform world
        (modifyGround (graphIri aux) (instances mapping patch.deletions)
          (instances mapping patch.insertions)
          (subjectPresentGuard aux))).2 := by
  unfold afterRequest
  rw [Program.run_nil, eval_handle_patch isPatch classified,
    eval_patchImpl_aux granted typed parsed unconditional]
  dsimp only
  rw [eval_patchAux isPresent,
    eval_patchGuarded_rendered only
      (fun pattern inPatterns => (wellFormed pattern inPatterns).1)
      (fun pattern inPatterns => (wellFormed pattern inPatterns).2)]

end Reachable

end Quadpod

namespace Quadpod.Reference

open AtomicProgram
open GraphStore

/-- The access rules of the root. -/
def rootAcl : AuxUrl podSpace := podSpace.root.resource.acl

/-- The owner sends the access rules of the root again. -/
def putRules : Request where
  method := .put
  path := "/.aux/.acl".toList
  agent := ownerAgent
  headers := [(.contentType, some "text/turtle".toList)]
  body := Text.utf8 blankTurtle
  draws := draws

/-- The owner adds a statement to them. -/
def patchRules : Request where
  method := .patch
  path := "/.aux/.acl".toList
  agent := ownerAgent
  headers := [(.contentType, some "text/n3".toList)]
  body := Text.utf8 shortPatch
  draws := draws

/-- The world after the rules were sent. -/
def ruledWorld : World :=
  afterRequest podSpace .rdf12 putRules [] freshWorld

/-- The world after they were patched. -/
def grownWorld : World :=
  afterRequest podSpace .rdf12 patchRules [] ruledWorld

theorem hasRoom_patchRules : patchRules.PatchHasRoom podSpace ruledWorld := by
  intro aux patch _ classified parsed
  have isRoot : aux = rootAcl := by
    have onRoot :
        classify podSpace patchRules.path = .ok (.aux rootAcl) := by
      rfl
    exact Target.aux.inj (Except.ok.inj (classified.symm.trans onRoot))
  subst isRoot
  have rules :
      (ruledWorld.graphs (graphIri rootAcl)).triples.length ≤ 999 := by
    decide +kernel
  have short :
      (parsePatch patchRules.body (.aux rootAcl)).toOption.all
        (fun patch => patch.insertions.length == 1) = true := by
    decide
  rw [parsed] at short
  have single : patch.insertions.length = 1 := beq_iff_eq.mp short
  refine Patch.hasRoom_of_length ?_
  rw [single]
  generalize (ruledWorld.graphs (graphIri rootAcl)).triples.length = count
    at rules ⊢
  exact Nat.succ_le_succ rules

/-- The owner patches the access rules of the root. -/
def patchCrowd : Request where
  method := .patch
  path := "/.aux/.acl".toList
  agent := ownerAgent
  headers := [(.contentType, some "text/n3".toList)]
  body := Text.utf8 crowdPatch
  draws := draws

/-- One of its insertions. -/
def crowdPattern (text : Text) : Pattern :=
  ⟨.named plainPredicate, .named plainPredicate, .literal (.simple text)⟩

/-- What its body is parsed to. -/
def crowdParsed : Patch where
  conditions := []
  deletions := []
  insertions := crowd.map crowdPattern
  variableCount := 0

/-- One of its insertions as it is parsed. -/
def crowdQuad (text : Text) : N3Quad :=
  ⟨.namedNode plainPredicate, .namedNode plainPredicate,
    .literal (.simple text), .blankNode ⟨"f0".toList⟩⟩

theorem pattern_crowdQuad (text : Text) :
    Patch.pattern (crowdQuad text) [] .lookup = .ok (crowdPattern text, []) := by
  have unreserved : isReservedIri plainPredicate.iri = false := by
    decide
  have undirected : (Literal.simple text).direction.isSome = false := rfl
  simp [Patch.pattern, crowdQuad, Patch.term, unreserved, undirected,
    Patch.nonLiteral, crowdPattern, bind, Except.bind]

theorem patternsOf_crowd (texts : List Text) :
    Patch.patternsOf (texts.map crowdQuad) [] .lookup =
      .ok (texts.map crowdPattern, []) := by
  induction texts with
  | nil =>
      rfl
  | cons text rest inductionHypothesis =>
      rw [List.map_cons, Patch.patternsOf, pattern_crowdQuad]
      simp only [bind, Except.bind]
      rw [inductionHypothesis]
      rfl

/-- The insertions are not statements about the patch. -/
theorem crowd_not_default {quad : N3Quad} (inCrowd : quad ∈ crowd.map crowdQuad) :
    (quad.graphName == .defaultGraph) = false := by
  obtain ⟨text, _, rfl⟩ := List.mem_map.mp inCrowd
  rfl

theorem valid_solidInsertDeletePatch :
    IriSyntax.valid solidInsertDeletePatchIri = true := by
  decide

theorem valid_solidInserts : IriSyntax.valid solidInsertsIri = true := by
  decide

/-- The statement that makes the patch a patch. -/
def crowdType : N3Quad :=
  ⟨.blankNode ⟨"p".toList⟩, .namedNode rdfType,
    .namedNode ⟨solidInsertDeletePatchIri, valid_solidInsertDeletePatch⟩,
    .defaultGraph⟩

/-- The statement that gives the patch its insertions. -/
def crowdInserts : N3Quad :=
  ⟨.blankNode ⟨"p".toList⟩, .namedNode ⟨solidInsertsIri, valid_solidInserts⟩,
    .blankNode ⟨"f0".toList⟩, .defaultGraph⟩

theorem crowdPatchQuads_eq :
    crowdPatchQuads = crowdType :: crowd.map crowdQuad ++ [crowdInserts] :=
  rfl

theorem patchSubject_crowd :
    Patch.patchSubject crowdPatchQuads = .ok (.blankNode ⟨"p".toList⟩) := by
  unfold Patch.patchSubject
  rw [crowdPatchQuads_eq, List.foldl_append]
  have unchanged (found : List N3Term) (texts : List Text) :
      (texts.map crowdQuad).foldl
        (fun found quad =>
          if quad.graphName == .defaultGraph &&
              Patch.isNode quad.predicate rdfTypeIri &&
              Patch.isNode quad.object solidInsertDeletePatchIri &&
              !found.contains quad.subject then
            found ++ [quad.subject]
          else
            found) found = found := by
    induction texts with
    | nil =>
        rfl
    | cons text rest inductionHypothesis =>
        exact inductionHypothesis
  simp only [List.foldl_cons, List.foldl_nil, unchanged]
  decide

/-- What the patch says about itself by one predicate. -/
theorem filter_crowd (predicate : Text) :
    crowdPatchQuads.filter (fun quad =>
        quad.graphName == .defaultGraph &&
          quad.subject == .blankNode ⟨"p".toList⟩ &&
          Patch.isNode quad.predicate predicate) =
      [crowdType, crowdInserts].filter (fun quad =>
        Patch.isNode quad.predicate predicate) := by
  have filtered :
      (crowd.map crowdQuad).filter (fun quad =>
        quad.graphName == .defaultGraph &&
          quad.subject == .blankNode ⟨"p".toList⟩ &&
          Patch.isNode quad.predicate predicate) = [] := by
    rw [List.filter_eq_nil_iff]
    intro quad inCrowd
    rw [crowd_not_default inCrowd]
    exact Bool.false_ne_true
  rw [crowdPatchQuads_eq, List.filter_append, List.filter_cons, filtered]
  simp only [crowdType, crowdInserts, List.filter_cons, List.filter_nil,
    beq_self_eq_true, Bool.true_and]
  split
  · rfl
  · rfl

theorem namesAFormula_crowd :
    Patch.namesAFormula crowdPatchQuads ⟨"f0".toList⟩ = true := by
  unfold Patch.namesAFormula
  rw [List.any_eq_true]
  refine ⟨crowdQuad [], ?_, rfl⟩
  rw [crowdPatchQuads_eq]
  refine List.mem_append_left _ (List.mem_cons_of_mem _ ?_)
  refine List.mem_map.mpr ⟨[], ?_, rfl⟩
  exact List.mem_map.mpr ⟨0, List.mem_range.mpr (by decide), rfl⟩

theorem formula_crowd_inserts :
    Patch.formula crowdPatchQuads (.blankNode ⟨"p".toList⟩) solidInsertsIri =
      .ok (some ⟨"f0".toList⟩) := by
  have found :
      ([crowdType, crowdInserts].filter (fun quad =>
        Patch.isNode quad.predicate solidInsertsIri)).map N3Quad.object =
          [.blankNode ⟨"f0".toList⟩] := by
    decide
  unfold Patch.formula
  rw [filter_crowd, found]
  simp only [namesAFormula_crowd, if_true]

theorem formula_crowd_other {predicate : Text}
    (isOther :
      [crowdType, crowdInserts].filter (fun quad =>
        Patch.isNode quad.predicate predicate) = []) :
    Patch.formula crowdPatchQuads (.blankNode ⟨"p".toList⟩) predicate =
      .ok none := by
  unfold Patch.formula
  rw [filter_crowd, isOther]
  rfl

theorem ofQuads_crowd : Patch.ofQuads crowdPatchQuads = .ok crowdParsed := by
  have ofFormula :
      crowdPatchQuads.filter (·.graphName == .blankNode ⟨"f0".toList⟩) =
        crowd.map crowdQuad := by
    rw [crowdPatchQuads_eq, List.filter_append, List.filter_cons]
    have kept :
        (crowd.map crowdQuad).filter
            (·.graphName == .blankNode ⟨"f0".toList⟩) =
          crowd.map crowdQuad := by
      rw [List.filter_eq_self]
      intro quad inCrowd
      obtain ⟨text, _, rfl⟩ := List.mem_map.mp inCrowd
      rfl
    rw [kept]
    simp [crowdType, crowdInserts]
  unfold Patch.ofQuads
  rw [patchSubject_crowd]
  simp only [bind, Except.bind]
  rw [formula_crowd_other (by decide),
    formula_crowd_other (by decide), formula_crowd_inserts]
  simp only [Patch.patterns, ofFormula, patternsOf_crowd]
  rfl

theorem parse_n3 (bytes : Bytes) (base : Text) :
    N3Parser.parse bytes base =
      if bytes = Text.utf8 predicatePatch then
        .ok predicatePatchQuads
      else if bytes = Text.utf8 objectPatch then
        .ok objectPatchQuads
      else if bytes = Text.utf8 shortPatch then
        .ok shortPatchQuads
      else if bytes = Text.utf8 crowdPatch then
        .ok crowdPatchQuads
      else
        .error "unknown document".toList :=
  rfl

theorem head_crowdPatch :
    (Text.utf8 crowdPatch).head? = some 95 := by
  rfl

theorem crowdPatch_ne {text : Text}
    (starts : (Text.utf8 text).head? = some 64) :
    Text.utf8 crowdPatch ≠ Text.utf8 text := by
  intro same
  rw [← same, head_crowdPatch] at starts
  cases starts

theorem predicatePatch_head :
    (Text.utf8 predicatePatch).head? = some 64 := by
  rfl

theorem objectPatch_head : (Text.utf8 objectPatch).head? = some 64 := by
  rfl

theorem shortPatch_head : (Text.utf8 shortPatch).head? = some 64 := by
  rfl

theorem parse_n3_crowd {bytes : Bytes} (base : Text)
    (isCrowd : bytes = Text.utf8 crowdPatch) :
    N3Parser.parse bytes base = .ok crowdPatchQuads := by
  have notFirst : bytes ≠ Text.utf8 predicatePatch := by
    rw [isCrowd]
    exact crowdPatch_ne predicatePatch_head
  have notSecond : bytes ≠ Text.utf8 objectPatch := by
    rw [isCrowd]
    exact crowdPatch_ne objectPatch_head
  have notThird : bytes ≠ Text.utf8 shortPatch := by
    rw [isCrowd]
    exact crowdPatch_ne shortPatch_head
  rw [parse_n3, if_neg notFirst, if_neg notSecond, if_neg notThird,
    if_pos isCrowd]

theorem parse_of_quads {body : Bytes} {base : Text} {quads : List N3Quad}
    (areQuads : N3Parser.parse body base = .ok quads) :
    Patch.parse body base = Patch.ofQuads quads := by
  unfold Patch.parse
  rw [areQuads]

theorem parse_crowdPatch (base : Text) :
    Patch.parse (Text.utf8 crowdPatch) base = .ok crowdParsed := by
  rw [parse_of_quads (parse_n3_crowd base rfl), ofQuads_crowd]

/-- The insertions as triples. -/
def crowdTriples : List GroundTriple :=
  crowd.map fun text => ⟨plainPredicate, plainPredicate, .literal (.simple text)⟩

theorem nodup_crowdTriples : crowdTriples.Nodup := by
  unfold crowdTriples crowd
  rw [List.map_map]
  refine List.Nodup.map ?_ List.nodup_range
  intro first second same
  have sameText := congrArg GroundTriple.object same
  simpa [Literal.simple] using sameText

theorem filterMap_crowdPattern (mapping : Mapping) (texts : List Text) :
    (texts.map crowdPattern).filterMap (Pattern.instantiate mapping) =
      texts.map fun text =>
        ⟨plainPredicate, plainPredicate, .literal (.simple text)⟩ := by
  induction texts with
  | nil =>
      rfl
  | cons text rest inductionHypothesis =>
      rw [List.map_cons, List.filterMap_cons, inductionHypothesis]
      rfl

theorem crowdParsed_wellFormed (mapping : Mapping) :
    ∀ pattern ∈ crowdParsed.deletions ++ crowdParsed.insertions,
      (∃ triple, pattern.instantiate mapping = some triple) ∧
        pattern.Renders mapping := by
  intro pattern inPatterns
  rcases List.mem_append.mp inPatterns with inNone | inInsertions
  · cases inNone
  simp only [crowdParsed] at inInsertions
  obtain ⟨text, _, rfl⟩ := List.mem_map.mp inInsertions
  refine ⟨⟨_, rfl⟩, ?_⟩
  intro subject predicate object same
  cases same

theorem granted_crowd :
    ∃ decision,
      (freshWorld.guard patchCrowd.agent (.aux rootAcl)).authorize .append =
        .ok decision := by
  have isGranted :
      ((freshWorld.guard ownerAgent (.aux rootAcl)).authorize
        .append).toBool = true := by
    decide
  change ∃ decision,
    (freshWorld.guard ownerAgent (.aux rootAcl)).authorize .append =
      .ok decision
  cases decided :
      (freshWorld.guard ownerAgent (.aux rootAcl)).authorize .append with
  | error denial =>
      rw [decided] at isGranted
      cases isGranted
  | ok decision =>
      exact ⟨decision, rfl⟩

theorem classified_crowd :
    classify podSpace patchCrowd.path = .ok (.aux rootAcl) := by
  rfl

theorem typed_crowd (body : Bytes) :
    patchContentType patchCrowd.headers body = .ok () := by
  unfold patchContentType
  rw [if_neg (by decide), if_pos (by decide)]

theorem parsed_crowd :
    parsePatch (Text.utf8 crowdPatch) (.aux rootAcl) = .ok crowdParsed := by
  unfold parsePatch
  rw [parse_crowdPatch]
  rfl

theorem unconditional_crowd :
    checkConditionals patchCrowd.headers (.aux rootAcl) = pure () :=
  if_pos (by decide)

theorem mapsOnly_crowd (graph : Graph GroundTriple) :
    crowdParsed.MapsOnly graph fun _ => none := by
  refine ⟨solves_nil.mpr rfl, ?_⟩
  intro other solves
  exact solves_nil.mp solves

theorem present_crowd :
    freshWorld.present rootAcl.node = true ∧
      freshWorld.present rootAcl.subject.node = true := by
  decide +kernel

/-- What the patch of the root's access rules leaves. -/
theorem afterRequest_crowd :
    afterRequest podSpace .rdf12 patchCrowd [] freshWorld =
      (backend.perform freshWorld
        (modifyGround (graphIri rootAcl)
          (instances (fun _ => none) crowdParsed.deletions)
          (instances (fun _ => none) crowdParsed.insertions)
          (subjectPresentGuard rootAcl))).2 := by
  obtain ⟨decision, granted⟩ := granted_crowd
  exact afterRequest_patchAux rfl classified_crowd granted
    (typed_crowd _) parsed_crowd unconditional_crowd present_crowd.1
    (mapsOnly_crowd _) (crowdParsed_wellFormed _)

end Quadpod.Reference
