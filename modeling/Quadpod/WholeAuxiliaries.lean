import Quadpod.SlashPairs

namespace Quadpod

open AtomicProgram
open GraphStore

/-!
# Auxiliaries come and go whole

An auxiliary is written, marked and deleted by single updates, so a graph of an
auxiliary that carries no marker is empty.  A cascade that finds no marker has
nothing to remove, which is why it needs no grant.
-/

variable [IriSyntax] {space : StorageSpace} {mayFail : Prop}

/-- Without its marker an auxiliary has no triples in either of its graphs. -/
def AuxUrl.Whole (aux : AuxUrl space) (world : World) : Prop :=
  world.present aux.node = false →
  ∀ name triple, aux.Owns name → triple ∉ world.graphs name

/-- Every auxiliary of a space is whole. -/
def World.AuxWhole (world : World) (space : StorageSpace) : Prop :=
  ∀ aux : AuxUrl space, aux.Whole world

theorem AuxUrl.Whole.of_same
    {aux : AuxUrl space} {world reached : World}
    (whole : aux.Whole world)
    (same :
      ∀ name, aux.Owns name → reached.graphs name = world.graphs name) :
    aux.Whole reached := by
  intro absent name triple owns
  rw [same name owns]
  refine whole ?_ name triple owns
  rw [← absent]
  exact (World.present_congr (same _ (Or.inr rfl))).symm

/-- An auxiliary whose graphs a call does not change stays whole. -/
theorem AuxUrl.Whole.perform
    {aux : AuxUrl space} {world : World} {call : Call}
    (whole : aux.Whole world)
    (untouched : ∀ name, aux.Owns name → name ∉ call.touches) :
    aux.Whole (backend.perform world call).2 :=
  whole.of_same fun name owns =>
    perform_graphs_of_not_touched (untouched name owns)

/-- An auxiliary whose graphs an update drops is whole. -/
theorem AuxUrl.whole_of_dropped
    {aux : AuxUrl space} {operations : List (Operation Text GroundTriple)}
    (world : World)
    (dropped : ∀ name, aux.Owns name → .drop name ∈ operations)
    (addsNothing : ∀ operation ∈ operations, operation.adds = []) :
    aux.Whole (backend.perform world (.update operations)).2 := by
  intro _ name triple owns
  rw [backend_graphs]
  refine Store.not_mem_applyAll_of_drop (dropped name owns) ?_
  intro operation member isAdded
  rw [addsNothing operation member] at isAdded
  cases isAdded

/-! ## Storage writes -/

/-- Writing an auxiliary marks it in the update that fills it. -/
theorem AuxUrl.whole_of_written
    {url : AuxUrl space} {triples : List GroundTriple} {world : World}
    (whole : url.Whole world) :
    url.Whole
      (backend.perform world
        (.update
          [.clearWhere (graphIri url) (subjectPresentGuard url),
            .insertWhere
              [(graphIri url, triples),
                (sysGraphIri url, [presenceMarker url.node])]
              (subjectPresentGuard url)])).2 := by
  have subjectElsewhere : sysGraphIri url.subject ≠ graphIri url := by
    intro same
    have isSystem : sysGraphOf url.subject.iri = url.iri := same
    exact not_isHttp_sysGraphOf url.subject.iri (isSystem ▸ url.isHttp)
  by_cases guarded :
      world.graphs.satisfies (subjectPresentGuard url) = true
  · intro absent
    have isPresent :
        (backend.perform world
          (.update
            [.clearWhere (graphIri url) (subjectPresentGuard url),
              .insertWhere
                [(graphIri url, triples),
                  (sysGraphIri url, [presenceMarker url.node])]
                (subjectPresentGuard url)])).2.present url.node = true := by
      have stillGuarded :
          Store.satisfies
            (Function.update world.graphs (graphIri url) Graph.empty)
            (subjectPresentGuard url) = true := by
        rw [Store.satisfies_iff] at guarded ⊢
        intro entry isEntry
        obtain rfl := List.mem_singleton.mp isEntry
        rw [Function.update_of_ne subjectElsewhere]
        exact guarded _ isEntry
      rw [World.present_iff, backend_graphs]
      simp only [Call.operations, Store.applyAll_cons, Store.applyAll_nil,
        Store.apply, guarded, stillGuarded, if_true]
      rw [Store.mem_insertBlocks]
      exact Or.inr ⟨[presenceMarker url.node],
        List.mem_cons_of_mem _ (List.mem_singleton.mpr rfl), by simp⟩
    rw [isPresent] at absent
    cases absent
  · refine whole.of_same fun name _ => ?_
    rw [backend_graphs]
    simp only [Call.operations, Store.applyAll_cons, Store.applyAll_nil,
      Store.apply, guarded, if_false, Bool.false_eq_true]

theorem AuxUrl.eq_of_owns
    {aux other : AuxUrl space} {name : Text}
    (owns : aux.Owns name) (ownsOther : other.Owns name) :
    aux = other := by
  rcases ownsOther with rfl | rfl
  · exact AuxUrl.Owns.eq_of_iri (Or.inl owns)
  · exact AuxUrl.Owns.eq_of_iri (Or.inr owns)

section Writes

variable [Sha256] [ObjectPath]

omit [ObjectPath] in
theorem ResourceUrl.not_owns_of_aux
    {url : ResourceUrl space} {aux : AuxUrl space} {name : Text}
    (owns : aux.Owns name) :
    ¬ url.Owns name := by
  rcases owns with rfl | rfl
  · exact (url.not_owns_aux aux).1
  · exact (url.not_owns_aux aux).2

omit [ObjectPath] in
theorem ContainerUrl.Owns.resource
    {container : ContainerUrl space} {name : Text}
    (owns : container.Owns name) :
    container.resource.Owns name := by
  rcases owns with rfl | rfl
  · exact Or.inl rfl
  · exact Or.inr (Or.inl rfl)

theorem World.AuxWhole.perform_auxiliary
    {world started : World} {url : AuxUrl space}
    {triples : List GroundTriple} {call : Call}
    (whole : world.AuxWhole space)
    (owned : started.RegistersOwn space)
    (member : call ∈ (StorageWrite.auxiliary url triples).calls started) :
    (backend.perform world call).2.AuxWhole space := by
  intro aux
  have touched :
      ∀ name, name ∈ call.touches → url.Owns name :=
    fun name => StorageWrite.calls_touch owned member
  obtain rfl := List.mem_singleton.mp member
  by_cases isUrl : aux = url
  · subst isUrl
    exact AuxUrl.whole_of_written (whole aux)
  · refine (whole aux).perform fun name owns isTouched => ?_
    exact isUrl (AuxUrl.eq_of_owns owns (touched name isTouched))

theorem World.AuxWhole.perform_deleteAuxiliary
    {world started : World} {url : AuxUrl space} {call : Call}
    (whole : world.AuxWhole space)
    (owned : started.RegistersOwn space)
    (member : call ∈ (StorageWrite.deleteAuxiliary url).calls started) :
    (backend.perform world call).2.AuxWhole space := by
  intro aux
  have touched :
      ∀ name, name ∈ call.touches → url.Owns name :=
    fun name => StorageWrite.calls_touch owned member
  obtain rfl := List.mem_singleton.mp member
  by_cases isUrl : aux = url
  · subst isUrl
    refine AuxUrl.whole_of_dropped world ?_ ?_
    · rintro name (rfl | rfl)
      · exact List.mem_cons_self
      · exact List.mem_cons_of_mem _ (List.mem_singleton.mpr rfl)
    · intro operation inUpdate
      simp only [List.mem_cons, List.not_mem_nil, or_false] at inUpdate
      rcases inUpdate with rfl | rfl <;> rfl
  · refine (whole aux).perform fun name owns isTouched => ?_
    exact isUrl (AuxUrl.eq_of_owns owns (touched name isTouched))

theorem World.AuxWhole.perform_deleteSubject
    {world started : World} {url : ResourceUrl space} {call : Call}
    (whole : world.AuxWhole space)
    (owned : started.RegistersOwn space)
    (member : call ∈ (StorageWrite.deleteSubject url).calls started) :
    (backend.perform world call).2.AuxWhole space := by
  intro aux
  have touched :
      ∀ name, name ∈ call.touches →
        (StorageWrite.deleteSubject url).Touches name :=
    fun name => StorageWrite.calls_touch owned member
  rcases List.mem_cons.mp member with rfl | isDelete
  · by_cases isAux : ∃ kind, aux = url.aux kind
    · obtain ⟨kind, rfl⟩ := isAux
      refine AuxUrl.whole_of_dropped world ?_ fun operation inUpdate =>
        adds_deleteSubjectUpdate inUpdate
      intro name owns
      refine List.mem_append_left _ (List.mem_append_right _
        (List.mem_flatMap.mpr ⟨kind, kind.mem_all, ?_⟩))
      rcases owns with rfl | rfl
      · exact List.mem_cons_self
      · exact List.mem_cons_of_mem _ (List.mem_singleton.mpr rfl)
    · refine (whole aux).perform fun name owns isTouched => ?_
      rcases touched name isTouched with
          ownsUrl | ⟨kind, ownsAux⟩ | ⟨parent, _, isParent⟩
      · exact ResourceUrl.not_owns_of_aux owns ownsUrl
      · exact isAux ⟨kind, AuxUrl.eq_of_owns owns ownsAux⟩
      · exact ResourceUrl.not_owns_of_aux owns (Or.inl isParent)
  · obtain ⟨key, _, rfl⟩ := List.mem_map.mp isDelete
    exact (whole aux).perform fun name _ isTouched => by cases isTouched

/-- Every storage write keeps auxiliaries whole, wherever it is left. -/
theorem World.AuxWhole.performs_calls
    {started final : World} {write : StorageWrite space}
    (whole : started.AuxWhole space)
    (owned : started.RegistersOwn space)
    (onlyPresent :
      ∀ on change,
        write = .patch on change → started.present on.node = true)
    (performs :
      backend.Performs mayFail started (write.calls started) final) :
    final.AuxWhole space := by
  have elsewhere :
      (∀ (aux : AuxUrl space) name, aux.Owns name → ¬ write.Touches name) →
      final.AuxWhole space := by
    intro untouched aux
    refine (whole aux).of_same fun name owns => ?_
    refine Performs.graphs_eq performs fun call member touched => ?_
    exact untouched aux name owns (StorageWrite.calls_touch owned member touched)
  cases write with
  | dataset url body mediaType =>
      exact elsewhere fun aux name owns => ResourceUrl.not_owns_of_aux owns
  | blob url key bytes mediaType =>
      exact elsewhere fun aux name owns => ResourceUrl.not_owns_of_aux owns
  | container url triples =>
      exact elsewhere fun aux name owns ownsUrl =>
        ResourceUrl.not_owns_of_aux owns ownsUrl.resource
  | auxiliary url triples =>
      exact performs.invariant (·.AuxWhole space) whole
        fun middle call member holds => holds.perform_auxiliary owned member
  | patch target change =>
      cases target with
      | resource url leaf =>
          refine elsewhere fun aux name owns isUrl => ?_
          exact ResourceUrl.not_owns_of_aux owns (Or.inl isUrl)
      | container url =>
          exact elsewhere fun aux name owns ownsUrl =>
            ResourceUrl.not_owns_of_aux owns ownsUrl.resource
      | aux url =>
          intro aux absent name triple owns
          have same :
              ∀ other, aux.Owns other → other ≠ url.iri →
                final.graphs other = started.graphs other := by
            intro other _ notUrl
            exact Performs.graphs_eq performs fun call member touched =>
              notUrl (StorageWrite.calls_touch owned member touched)
          have marker : sysGraphOf aux.iri ≠ url.iri := fun isUrl =>
            not_isHttp_sysGraphOf aux.iri (isUrl ▸ url.isHttp)
          have wasAbsent : started.present aux.node = false := by
            rw [← absent]
            exact (World.present_congr
              (same _ (Or.inr rfl) marker)).symm
          by_cases isUrl : name = url.iri
          · obtain rfl := AuxUrl.eq_of_owns owns (Or.inl isUrl)
            have isPresent := onlyPresent (.aux aux) change rfl
            exact (Bool.eq_false_iff.mp wasAbsent isPresent).elim
          · rw [same name owns isUrl]
            exact whole aux wasAbsent name triple owns
  | deleteAuxiliary url =>
      exact performs.invariant (·.AuxWhole space) whole
        fun middle call member holds =>
          holds.perform_deleteAuxiliary owned member
  | deleteSubject url =>
      exact performs.invariant (·.AuxWhole space) whole
        fun middle call member holds =>
          holds.perform_deleteSubject owned member
  | nothing =>
      exact elsewhere fun _ _ _ impossible => impossible

omit [ObjectPath] in
/-- A plan writes containers only. -/
theorem World.AuxWhole.performs_plan
    {world reached : World}
    {plan : List (ContainerUrl space × Option NamedNode)}
    (whole : world.AuxWhole space)
    (performs : backend.Performs mayFail world (planCalls plan) reached) :
    reached.AuxWhole space := by
  intro aux
  refine (whole aux).of_same fun name owns => ?_
  refine Performs.graphs_eq performs fun call member touched => ?_
  obtain ⟨step, _, ownsStep⟩ := touches_planCalls member touched
  exact ResourceUrl.not_owns_of_aux owns ownsStep.resource

end Writes

/-! ## Runs -/

section Reachable

variable [Sha256] [ObjectPath] [QuadText]
variable [RdfParser] [RdfSerializer] [ShapeEngine] [N3Parser]
variable {storeVersion : RdfVersion}

omit [QuadText] [RdfSerializer] [ShapeEngine] in
theorem RequestEffect.auxWhole
    {world reached : World} {request : Request} {target : Target space}
    (effect :
      RequestEffect mayFail storeVersion world request target reached)
    (owned : world.RegistersOwn space)
    (whole : world.AuxWhole space) :
    reached.AuxWhole space := by
  have both :
      reached.RegistersOwn space ∧ reached.AuxWhole space := by
    refine effect.invariant
      (fun world => world.RegistersOwn space ∧ world.AuxWhole space)
      ⟨owned, whole⟩ ?_ ?_
    · intro plan middle performs
      exact ⟨owned.performs performs fun call member =>
          registers_planCalls member,
        whole.performs_plan performs⟩
    · intro started write final onlyPresent holds performs
      exact ⟨holds.1.performs performs fun call member =>
          registers_calls member,
        holds.2.performs_calls holds.1 onlyPresent performs⟩
  exact both.2

omit [QuadText] [RdfSerializer] [ShapeEngine] [N3Parser] in
theorem Provisioned.auxWhole
    {world : World} (provisioned : Provisioned space world) :
    world.AuxWhole space := by
  refine provisioned.invariant (·.AuxWhole space) ?_ ?_
  · intro aux _ name triple _
    exact Graph.not_mem_empty triple
  · rintro world call (rfl | ⟨fresh, triples, _, member⟩) whole
    · intro aux
      refine (whole aux).perform fun name owns touched => ?_
      exact ResourceUrl.not_owns_of_aux owns
        (touches_ensureCall touched).resource
    · refine whole.perform_auxiliary ?_ member
      intro url triple inEmpty
      cases inEmpty

/-- In every reachable world every auxiliary is whole. -/
theorem Reachable.auxWhole
    {admitted : World → Request → Faults → Prop}
    {world : World}
    (reachable :
      Reachable space storeVersion (Provisioned space) admitted world) :
    world.AuxWhole space := by
  have both : world.RegistersOwn space ∧ world.AuxWhole space := by
    refine reachable.invariant
      (fun world => world.RegistersOwn space ∧ world.AuxWhole space) ?_ ?_
    · intro world provisioned
      exact ⟨provisioned.registersOwn, provisioned.auxWhole⟩
    · rintro world request faults ⟨owned, whole⟩ _
      refine ⟨registersOwn_afterRequest request faults owned, ?_⟩
      rcases afterRequest_cases True (Or.inl trivial) with
          same | ⟨target, _, effect⟩
      · rw [same]
        exact whole
      · exact effect.auxWhole owned whole
  exact both.2

end Reachable

end Quadpod
