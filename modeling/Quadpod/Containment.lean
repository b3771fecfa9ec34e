import Quadpod.ContainmentTree
import Quadpod.ExactWrites
import Quadpod.Traversal

namespace Quadpod

open AtomicProgram
open GraphStore

/-!
# Containment

The pod as a listed hierarchy: the nodes are the URLs of the space, those that
carry a marker exist, and a container lists what its graph says it contains.
Every request whose store calls are all answered creates nodes with their
entries, deletes one with its entry, or leaves the listing alone; no body and no
patch writes an entry of its own.
-/

variable [IriSyntax] {space : StorageSpace}

/-! ## Skolemizing keeps predicates and ground triples -/

namespace Skolemized

variable {fresh : Nat → Uuid}

theorem ground_toTerm (term : GroundTerm) (minted : Minted) :
    ground fresh term.toTerm minted = (term, minted) := by
  induction term generalizing minted with
  | namedNode node =>
      rfl
  | literal content =>
      rfl
  | triple subject predicate object inductionHypothesis =>
      simp [GroundTerm.toTerm, ground, groundSubject, inductionHypothesis]

/-- Each ground quad comes from a quad of the document. -/
theorem mem_groundQuads
    {quads : List Quad} {minted : Minted} {quad : GroundQuad}
    (member : quad ∈ groundQuads fresh quads minted) :
    ∃ original ∈ quads, ∃ reached,
      quad = (groundQuad fresh original reached).1 := by
  induction quads generalizing minted with
  | nil =>
      cases member
  | cons first rest inductionHypothesis =>
      rcases List.mem_cons.mp member with rfl | inRest
      · exact ⟨first, by simp, minted, rfl⟩
      · obtain ⟨original, isOriginal, reached, same⟩ :=
          inductionHypothesis inRest
        exact ⟨original, by simp [isOriginal], reached, same⟩

theorem groundQuad_mem
    {quads : List Quad} {minted : Minted} {quad : Quad}
    (member : quad ∈ quads) :
    ∃ reached,
      (groundQuad fresh quad reached).1 ∈ groundQuads fresh quads minted := by
  induction quads generalizing minted with
  | nil =>
      cases member
  | cons first rest inductionHypothesis =>
      rcases List.mem_cons.mp member with rfl | inRest
      · exact ⟨minted, List.mem_cons_self⟩
      · obtain ⟨reached, isThere⟩ := inductionHypothesis inRest
        exact ⟨reached, List.mem_cons_of_mem _ isThere⟩

end Skolemized

/-- A stored triple came from a client's triple with the same predicate. -/
theorem mem_skolemizedTriples
    {fresh : Nat → Uuid} {triples : List Triple} {stored : GroundTriple}
    (member : stored ∈ skolemizedTriples fresh triples) :
    ∃ triple ∈ triples,
      triple.predicate = stored.predicate ∧
        ∀ ground : GroundTriple,
          triple = ground.toTriple → stored = ground := by
  obtain ⟨quad, inQuads, rfl⟩ := List.mem_map.mp member
  obtain ⟨original, isOriginal, minted, rfl⟩ :=
    Skolemized.mem_groundQuads inQuads
  obtain ⟨triple, isTriple, rfl⟩ := List.mem_map.mp isOriginal
  refine ⟨triple, isTriple, rfl, ?_⟩
  rintro ground rfl
  simp [GroundQuad.toTriple, GroundTriple.toTriple, Skolemized.groundQuad,
    Skolemized.groundSubject, Skolemized.ground_toTerm]

theorem mem_skolemizedTriples_of_ground
    {fresh : Nat → Uuid} {triples : List Triple} {stored : GroundTriple}
    (member : stored.toTriple ∈ triples) :
    stored ∈ skolemizedTriples fresh triples := by
  have inQuads :
      (⟨.namedNode stored.subject, stored.predicate, stored.object.toTerm,
        .defaultGraph⟩ : Quad) ∈ asQuads triples :=
    List.mem_map.mpr ⟨stored.toTriple, member, rfl⟩
  obtain ⟨minted, isThere⟩ :
      ∃ minted,
        (Skolemized.groundQuad fresh _ minted).1 ∈
          Skolemized.groundQuads fresh (asQuads triples) [] :=
    Skolemized.groundQuad_mem inQuads
  refine List.mem_map.mpr ⟨_, isThere, ?_⟩
  simp [GroundQuad.toTriple, Skolemized.groundQuad,
    Skolemized.groundSubject, Skolemized.ground_toTerm]

/-! ## Bodies and patches name no member -/

/-- The triple by which a container lists an object. -/
def membership (container : ContainerUrl space) (object : GroundTerm) :
    GroundTriple :=
  ⟨container.node, ldpContains, object⟩

theorem not_containment_of_checkBody
    {container : ContainerUrl space} {body : Dataset} {triple : Triple}
    (checked : checkBody (.container container) body = .ok ())
    (member : triple ∈ body.defaultGraphOnly.triplesOf) :
    triple.predicate ≠ ldpContains := by
  unfold checkBody at checked
  split at checked
  · cases checked
  · dsimp only at checked
    split at checked
    · cases checked
    · split at checked
      · cases checked
      · next unset =>
          intro isContains
          refine unset (List.any_eq_true.mpr ⟨triple, ?_, ?_⟩)
          · obtain ⟨quad, inQuads, rfl⟩ := List.mem_map.mp member
            exact List.mem_map_of_mem (List.mem_filter.mp inQuads).1
          · rw [isContains]
            exact beq_self_eq_true _

/-- No pattern a patch of a container writes has `ldp:contains` as predicate. -/
theorem not_containment_of_refuseContainment
    {container : ContainerUrl space} {patch : Patch} {pattern : Pattern}
    (contained : refuseContainment patch (.container container) = .ok ())
    (member : pattern ∈ patch.insertions ++ patch.deletions) :
    ∃ node, pattern.predicate = .named node ∧ node ≠ ldpContains := by
  unfold refuseContainment at contained
  dsimp only at contained
  cases sets : patchSetsContainment patch container with
  | some conflict =>
      rw [sets] at contained
      cases contained
  | none =>
      unfold patchSetsContainment at sets
      cases written : writtenPredicates patch with
      | none =>
          rw [written] at sets
          cases sets
      | some predicates =>
          rw [written] at sets
          dsimp only at sets
          split at sets
          · cases sets
          · next unset =>
              obtain ⟨node, inPredicates, isNode⟩ :=
                Traversal.some_of_mem written member
              refine ⟨node, ?_, ?_⟩
              · split at isNode
                · next named isNamed =>
                    cases isNode
                    exact isNamed
                · cases isNode
              · rintro rfl
                exact unset (List.any_eq_true.mpr
                  ⟨_, List.mem_map_of_mem inPredicates,
                    beq_self_eq_true _⟩)

/-- A triple a patch writes has the predicate of one of its patterns. -/
theorem predicate_of_substitute
    {patterns : List Pattern} {bindings : List Solution}
    {templates : List TemplateTriple} {template : TemplateTriple}
    {triple : GroundTriple}
    (substituted : substitute patterns bindings = .ok templates)
    (member : template ∈ templates)
    (grounded : template.ground = some triple) :
    ∃ pattern ∈ patterns,
      ∀ node, pattern.predicate = .named node → triple.predicate = node := by
  obtain ⟨pattern, isPattern, isTemplate⟩ :=
    Traversal.mem_of_ok substituted member
  refine ⟨pattern, isPattern, fun node isNamed => ?_⟩
  unfold substituteOne at isTemplate
  rw [isNamed] at isTemplate
  cases subject : groundTerm pattern.subject bindings with
  | error error =>
      rw [subject] at isTemplate
      cases isTemplate
  | ok subjectTerm =>
      rw [subject] at isTemplate
      cases object : groundTerm pattern.object bindings with
      | error error =>
          rw [object] at isTemplate
          cases isTemplate
      | ok objectTerm =>
          rw [object] at isTemplate
          cases isTemplate
          unfold TemplateTriple.ground at grounded
          dsimp only at grounded
          split at grounded
          · next isSubject isPredicate =>
              cases isPredicate
              cases grounded
              rfl
          · cases grounded

/-! ## The pod as a listed hierarchy -/

/-- The URLs of a space, each below its parent. -/
def containmentShape (space : StorageSpace) :
    ContainmentTree.Shape (ResourceUrl space) GroundTerm where
  parent url := url.parent.map ContainerUrl.resource
  nameOf url := .namedNode url.node
  nameInjective := by
    intro first second same
    rw [GroundTerm.namedNode.injEq] at same
    exact ResourceUrl.node_injective same

/-- What exists in a world, and what its containers list. -/
def World.listing (world : World) (space : StorageSpace) :
    ContainmentTree.Listing (ResourceUrl space) GroundTerm where
  present url := world.present url.node = true
  lists url object :=
    ∃ container : ContainerUrl space,
      container.resource = url ∧
        membership container object ∈ world.graphs container.resource.iri

theorem ContainerUrl.ext_resource
    {first second : ContainerUrl space}
    (same : first.resource = second.resource) :
    first = second := by
  cases first
  cases second
  cases same
  rfl

theorem World.lists_container
    {world : World} {container : ContainerUrl space} {object : GroundTerm} :
    (world.listing space).lists container.resource object ↔
      membership container object ∈
        world.graphs container.resource.iri := by
  constructor
  · rintro ⟨other, same, isThere⟩
    rwa [ContainerUrl.ext_resource same] at isThere
  · intro isThere
    exact ⟨container, rfl, isThere⟩

/-! ## Writes that list nothing new -/

/-- A write that marks at most its own resource and lists nothing new. -/
structure StorageWrite.Neutral
    (write : StorageWrite space) (started final : World) : Prop where
  present :
    ∀ url : ResourceUrl space,
      final.present url.node = true ↔
        started.present url.node = true ∨ write.marks = some url
  lists :
    ∀ (container : ContainerUrl space) object,
      membership container object ∈ final.graphs container.resource.iri ↔
        membership container object ∈ started.graphs container.resource.iri

section Writes

variable [Sha256] [ObjectPath]
variable {started final : World} {write : StorageWrite space}

/-- A write that touches no graph of a resource. -/
theorem StorageWrite.neutral_of_untouched
    (owned : started.RegistersOwn space)
    (performs :
      backend.Performs False started (write.calls started) final)
    (noMark : write.marks = none)
    (untouched :
      ∀ url : ResourceUrl space,
        ¬ write.Touches url.iri ∧ ¬ write.Touches (sysGraphOf url.iri)) :
    write.Neutral started final := by
  have same :
      ∀ name, ¬ write.Touches name →
        final.graphs name = started.graphs name := by
    intro name notTouched
    exact Performs.graphs_eq performs fun call member touched =>
      notTouched (StorageWrite.calls_touch owned member touched)
  constructor
  · intro url
    have unmarked : final.present url.node = started.present url.node :=
      World.present_congr (same _ (untouched url).2)
    rw [unmarked, noMark]
    simp
  · intro container object
    rw [same _ (untouched container.resource).1]

/-- A write inside the graphs of a resource that is no container. -/
theorem StorageWrite.neutral_of_leaf
    {url : ResourceUrl space}
    (owned : started.RegistersOwn space)
    (performs :
      backend.Performs False started (write.calls started) final)
    (leaf : Text.endsWith ['/'] url.path = false)
    (marks : write.marks = some url)
    (inside : ∀ name, write.Touches name → url.Owns name)
    (isMarked : final.present url.node = true) :
    write.Neutral started final := by
  have same :
      ∀ name, ¬ url.Owns name → final.graphs name = started.graphs name := by
    intro name notOwned
    exact Performs.graphs_eq performs fun call member touched =>
      notOwned (inside name (StorageWrite.calls_touch owned member touched))
  constructor
  · intro other
    by_cases isUrl : other = url
    · subst isUrl
      simp [isMarked, marks]
    · have unmarked : final.present other.node = started.present other.node :=
        World.present_congr (same _ fun owns =>
          isUrl (ResourceUrl.Owns.eq_of_iri (Or.inr owns)).symm)
      rw [unmarked, marks]
      simp [Ne.symm isUrl]
  · intro container object
    rw [same container.resource.iri]
    intro owns
    have isContainer := ResourceUrl.Owns.eq_of_iri (Or.inl owns)
    subst isContainer
    rw [container.slash] at leaf
    cases leaf

omit [Sha256] [ObjectPath] in
/-- The types a container asserts are not entries. -/
theorem ContainerUrl.Asserts.not_membership
    {asserter container : ContainerUrl space} {object : GroundTerm}
    {name : Text} :
    ¬ asserter.Asserts name (membership container object) := by
  have predicates : rdfType ≠ ldpContains ∧ sysPresent ≠ ldpContains := by
    have texts :
        rdfTypeIri ≠ ldpContainsIri ∧ sysPresentIri ≠ ldpContainsIri := by
      decide
    exact ⟨fun same => texts.1 (congrArg NamedNode.iri same),
      fun same => texts.2 (congrArg NamedNode.iri same)⟩
  rintro (⟨_, isType⟩ | ⟨_, isMarker⟩)
  · obtain ⟨quad, inTypes, same⟩ := List.mem_map.mp isType
    have isRdfType : quad.predicate = rdfType := by
      simp only [containerTypes, List.mem_cons, List.not_mem_nil,
        or_false] at inTypes
      rcases inTypes with rfl | rfl <;> rfl
    exact predicates.1
      (isRdfType.symm.trans (congrArg GroundTriple.predicate same))
  · exact predicates.2 (congrArg GroundTriple.predicate isMarker).symm

omit [Sha256] [ObjectPath] in
theorem ContainerUrl.asserts_marker
    {container : ContainerUrl space} {url : ResourceUrl space} :
    container.Asserts (sysGraphOf url.iri) (presenceMarker url.node) ↔
      container.resource = url := by
  constructor
  · exact ContainerUrl.Asserts.eq_of_sys
  · rintro rfl
    exact Or.inr ⟨rfl, rfl⟩

/-- What the two calls of a container's write leave. -/
theorem mem_after_container
    {url : ContainerUrl space} {triples : List GroundTriple} {name : Text}
    {triple : GroundTriple} :
    triple ∈
        (backend.after started
          ((StorageWrite.container url triples).calls started)).graphs name ↔
      (triple ∈ started.graphs name ∧ name ≠ url.resource.iri) ∨
        (name = url.resource.iri ∧ triple ∈ triples) ∨
        url.Asserts name triple := by
  have shape :
      Call.operations
          (.update
            [.drop (graphIri url), .insertData [(graphIri url, triples)],
              markPresent url]) =
        Store.replacing [url.resource.iri]
          [[(graphIri url, triples)],
            [(sysGraphIri url, [presenceMarker url.node])]] :=
    rfl
  have marks :
      name = sysGraphIri url ∧ triple = presenceMarker url.node →
        url.Asserts name triple :=
    Or.inr
  rw [StorageWrite.calls, Machine.after_cons, Machine.after_cons,
    Machine.after_nil, mem_perform_ensureCall, backend_graphs, shape,
    Store.mem_applyAll_replacing]
  constructor
  · rintro ((⟨old, kept⟩ | ⟨blocks, isBlock, added, inBlock, inAdded⟩) |
        asserts)
    · exact Or.inl ⟨old, by simpa using kept⟩
    · simp only [List.mem_cons, List.not_mem_nil, or_false] at isBlock
      rcases isBlock with rfl | rfl
      · cases List.mem_singleton.mp inBlock
        exact Or.inr (Or.inl ⟨rfl, inAdded⟩)
      · cases List.mem_singleton.mp inBlock
        exact Or.inr (Or.inr (marks ⟨rfl, List.mem_singleton.mp inAdded⟩))
    · exact Or.inr (Or.inr asserts)
  · rintro (⟨old, kept⟩ | ⟨rfl, inTriples⟩ | asserts)
    · exact Or.inl (Or.inl ⟨old, by simpa using kept⟩)
    · exact Or.inl (Or.inr ⟨_, List.mem_cons_self, _, List.mem_cons_self,
        inTriples⟩)
    · exact Or.inr asserts

/-- A container's write whose triples list what the container listed. -/
theorem neutral_container
    {url : ContainerUrl space} {triples : List GroundTriple}
    (members :
      ∀ object,
        membership url object ∈ triples ↔
          membership url object ∈ started.graphs url.resource.iri)
    (performs :
      backend.Performs False started
        ((StorageWrite.container url triples).calls started) final) :
    (StorageWrite.container url triples).Neutral started final := by
  obtain rfl := performs.eq_after not_false
  constructor
  · intro other
    have elsewhere : sysGraphOf other.iri ≠ url.resource.iri := fun same =>
      not_isHttp_sysGraphOf _ (same ▸ url.resource.isHttp)
    rw [World.present_iff, World.present_iff, mem_after_container,
      ResourceUrl.node_iri, ContainerUrl.asserts_marker, StorageWrite.marks,
      Option.some.injEq]
    simp [elsewhere]
  · intro container object
    rw [mem_after_container]
    have notAsserted : ¬ url.Asserts container.resource.iri
        (membership container object) :=
      ContainerUrl.Asserts.not_membership
    by_cases isUrl : container.resource.iri = url.resource.iri
    · have same : container = url :=
        ContainerUrl.ext_resource (ResourceUrl.iri_injective isUrl)
      subst same
      simp [notAsserted, members object]
    · simp [notAsserted, isUrl]

omit [Sha256] [ObjectPath] in
/-- A triple that a patch neither takes out nor puts in stays as it is. -/
theorem mem_perform_modify
    {graph name : Text} {deletions insertions : List TemplateTriple}
    {guard : Condition Text GroundTriple} {triple : GroundTriple}
    (untouched :
      ∀ template ∈ deletions ++ insertions, template.ground ≠ some triple) :
    triple ∈
        (backend.perform started
          (.modify graph deletions insertions guard)).2.graphs name ↔
      triple ∈ started.graphs name := by
  rw [backend_graphs, Call.operations]
  split
  · split
    · next removed grounded =>
        have notRemoved : triple ∉ removed := by
          intro isRemoved
          obtain ⟨template, inDeletions, isGround⟩ :=
            Traversal.mem_of_some grounded isRemoved
          exact untouched template (by simp [inDeletions]) isGround
        have notAdded :
            triple ∉ insertions.filterMap TemplateTriple.ground := by
          intro isAdded
          obtain ⟨template, inInsertions, isGround⟩ :=
            List.mem_filterMap.mp isAdded
          exact untouched template (by simp [inInsertions]) isGround
        rw [Store.applyAll_cons, Store.applyAll_nil, Store.apply]
        split
        · by_cases isGraph : name = graph
          · subst isGraph
            rw [Function.update_self, Graph.mem_insertAll,
              Graph.mem_removeAll]
            simp [notRemoved, notAdded]
          · rw [Function.update_of_ne isGraph]
        · rfl
    · rfl
  · rfl

omit [Sha256] [ObjectPath] in
/-- What a patch of a container writes are not entries. -/
theorem not_membership_of_change
    {url : ContainerUrl space} {graph : Text} {patch : Patch}
    {change : List TemplateTriple × List TemplateTriple}
    {triple : GroundTriple}
    (contained : refuseContainment patch (.container url) = .ok ())
    (changes : PatchChange started graph patch change)
    (isEntry : triple.predicate = ldpContains) :
    ∀ template ∈ change.1 ++ change.2, template.ground ≠ some triple := by
  obtain ⟨bindings, _, deleted, inserted⟩ := changes
  intro template member isGround
  have written :
      ∃ pattern ∈ patch.insertions ++ patch.deletions,
        ∀ node,
          pattern.predicate = .named node → triple.predicate = node := by
    rcases List.mem_append.mp member with inDeletions | inInsertions
    · obtain ⟨pattern, isPattern, named⟩ :=
        predicate_of_substitute deleted inDeletions isGround
      exact ⟨pattern, by simp [isPattern], named⟩
    · obtain ⟨pattern, isPattern, named⟩ :=
        predicate_of_substitute inserted inInsertions isGround
      exact ⟨pattern, by simp [isPattern], named⟩
  obtain ⟨pattern, isPattern, named⟩ := written
  obtain ⟨node, isNamed, notContains⟩ :=
    not_containment_of_refuseContainment contained isPattern
  exact notContains ((named node isNamed).symm.trans isEntry)

theorem neutral_patch_container
    {url : ContainerUrl space} {patch : Patch}
    {change : Option (List TemplateTriple × List TemplateTriple)}
    (targetPresent : started.present url.node = true)
    (contained : refuseContainment patch (.container url) = .ok ())
    (changes :
      ∀ given ∈ change, PatchChange started (graphIri url) patch given)
    (performs :
      backend.Performs False started
        ((StorageWrite.patch (.container url) change).calls started)
        final) :
    (StorageWrite.patch (.container url) change).Neutral started final := by
  have kept :
      (∀ other : ResourceUrl space,
          final.present other.node = true ↔
            started.present other.node = true) ∧
        ∀ (container : ContainerUrl space) object,
          membership container object ∈
              final.graphs container.resource.iri ↔
            membership container object ∈
              started.graphs container.resource.iri := by
    refine performs.invariant
      (fun middle =>
        (∀ other : ResourceUrl space,
            middle.present other.node = true ↔
              started.present other.node = true) ∧
          ∀ (container : ContainerUrl space) object,
            membership container object ∈
                middle.graphs container.resource.iri ↔
              membership container object ∈
                started.graphs container.resource.iri)
      ⟨fun _ => Iff.rfl, fun _ _ => Iff.rfl⟩ ?_
    rintro middle call member ⟨samePresent, sameLists⟩
    rcases List.mem_append.mp member with isModify | isEnsure
    · obtain ⟨given, isGiven, rfl⟩ := List.mem_map.mp isModify
      have isChange := changes given (Option.mem_toList.mp isGiven)
      constructor
      · intro other
        rw [← samePresent other]
        have untouched :
            sysGraphOf other.iri ∉
              (modifyCall (.container url) given).touches := fun touched =>
          not_isHttp_sysGraphOf _
            (touches_modify touched ▸ Target.isHttp (.container url))
        rw [World.present_congr
          (perform_graphs_of_not_touched untouched)]
      · intro container object
        rw [← sameLists container object]
        exact mem_perform_modify
          (not_membership_of_change contained isChange rfl)
    · obtain rfl := List.mem_singleton.mp isEnsure
      constructor
      · intro other
        rw [← samePresent other, World.present_iff, World.present_iff,
          mem_perform_ensureCall, ResourceUrl.node_iri,
          ContainerUrl.asserts_marker]
        refine ⟨?_, Or.inl⟩
        rintro (old | rfl)
        · exact old
        · exact World.present_iff.mp
            ((samePresent url.resource).mpr targetPresent)
      · intro container object
        rw [← sameLists container object, mem_perform_ensureCall]
        refine ⟨?_, Or.inl⟩
        rintro (old | asserts)
        · exact old
        · exact (ContainerUrl.Asserts.not_membership asserts).elim
  refine ⟨fun other => ?_, kept.2⟩
  rw [kept.1 other]
  refine ⟨Or.inl, ?_⟩
  rintro (old | isMarked)
  · exact old
  · cases isMarked
    exact targetPresent

/-- A patch of what exists lists nothing new. -/
theorem neutral_patch
    {target : Target space} {patch : Patch}
    {change : Option (List TemplateTriple × List TemplateTriple)}
    (owned : started.RegistersOwn space)
    (targetPresent : started.present target.node = true)
    (contained : refuseContainment patch target = .ok ())
    (changes :
      ∀ given ∈ change, PatchChange started (graphIri target) patch given)
    (performs :
      backend.Performs False started
        ((StorageWrite.patch target change).calls started) final) :
    (StorageWrite.patch target change).Neutral started final := by
  cases target with
  | resource url leaf =>
      have same :
          ∀ name, name ≠ url.iri →
            final.graphs name = started.graphs name := by
        intro name notUrl
        exact Performs.graphs_eq performs fun call member touched =>
          notUrl (StorageWrite.calls_touch owned member touched)
      constructor
      · intro other
        have unmarked :
            final.present other.node = started.present other.node :=
          World.present_congr (same _ fun isUrl =>
            not_isHttp_sysGraphOf other.iri (isUrl ▸ url.isHttp))
        have noMark :
            (StorageWrite.patch (.resource url leaf) change).marks = none :=
          rfl
        rw [unmarked, noMark]
        simp
      · intro container object
        rw [same container.resource.iri]
        intro isUrl
        rw [← ResourceUrl.iri_injective isUrl, container.slash] at leaf
        cases leaf
  | container url =>
      exact neutral_patch_container targetPresent contained changes performs
  | aux url =>
      refine StorageWrite.neutral_of_untouched owned performs rfl ?_
      intro other
      exact ⟨fun same => other.iri_ne_aux url same,
        fun same => not_isHttp_sysGraphOf _ (same ▸ url.isHttp)⟩

omit [Sha256] [ObjectPath] in
/-- The entries among skolemized triples are those among the kept ones. -/
theorem membership_mem_skolemized
    {fresh : Nat → Uuid} {url : ContainerUrl space} {object : GroundTerm}
    {body kept : List Triple}
    (noEntry : ∀ triple ∈ body, triple.predicate ≠ ldpContains)
    (grounded :
      ∀ triple ∈ kept, ∃ ground : GroundTriple, triple = ground.toTriple) :
    membership url object ∈ skolemizedTriples fresh (body ++ kept) ↔
      (membership url object).toTriple ∈ kept := by
  constructor
  · intro member
    obtain ⟨triple, isTriple, samePredicate, sameGround⟩ :=
      mem_skolemizedTriples member
    rcases List.mem_append.mp isTriple with inBody | inKept
    · exact (noEntry triple inBody samePredicate).elim
    · obtain ⟨ground, rfl⟩ := grounded triple inKept
      rw [sameGround ground rfl]
      exact inKept
  · intro inKept
    exact mem_skolemizedTriples_of_ground (List.mem_append_right _ inKept)

/-- What a container's body is stored with: the entries the container has. -/
structure KeepsMembers
    (started : World) (kept : List Triple) (target : Target space) :
    Prop where
  grounded :
    ∀ triple ∈ kept, ∃ ground : GroundTriple, triple = ground.toTriple
  entries :
    ∀ url,
      target = .container url →
      ∀ object,
        (membership url object).toTriple ∈ kept ↔
          membership url object ∈ started.graphs url.resource.iri

theorem BodyWrite.neutral
    {fresh : Nat → Uuid} {kept : List Triple} {repr : Repr}
    {target : Target space}
    (isWrite : BodyWrite fresh kept repr target write)
    (keeps : KeepsMembers started kept target)
    (owned : started.RegistersOwn space)
    (performs :
      backend.Performs False started (write.calls started) final) :
    write.Neutral started final := by
  cases isWrite with
  | blob url leaf key bytes mediaType keyed =>
      refine StorageWrite.neutral_of_leaf owned performs leaf rfl
        (fun _ owns => owns) ?_
      rw [performs.eq_after not_false]
      exact present_after_blob started url key bytes mediaType
  | dataset url leaf body format declared checked =>
      refine StorageWrite.neutral_of_leaf owned performs leaf rfl
        (fun _ owns => owns) ?_
      rw [performs.eq_after not_false]
      exact present_after_dataset started url _ _
  | container url body format declared checked =>
      refine neutral_container (fun object => ?_) performs
      rw [← keeps.entries url rfl object]
      exact membership_mem_skolemized
        (fun triple inBody => not_containment_of_checkBody checked inBody)
        keeps.grounded
  | auxiliary url body format declared checked small =>
      refine StorageWrite.neutral_of_untouched owned performs rfl ?_
      intro other
      exact url.not_owns_resource other
  | oversized url body format declared large =>
      exact StorageWrite.neutral_of_untouched owned performs rfl
        fun other => ⟨id, id⟩

theorem PatchWrite.neutral
    {fresh : Nat → Uuid} {triples : List Triple} {target : Target space}
    (isWrite : PatchWrite fresh triples target write)
    (noEntry :
      ∀ url,
        target = .container url →
        (∀ triple ∈ triples, triple.predicate ≠ ldpContains) ∧
          ∀ object,
            membership url object ∉ started.graphs url.resource.iri)
    (owned : started.RegistersOwn space)
    (performs :
      backend.Performs False started (write.calls started) final) :
    write.Neutral started final := by
  cases isWrite with
  | dataset url leaf body grounded =>
      refine StorageWrite.neutral_of_leaf owned performs leaf rfl
        (fun _ owns => owns) ?_
      rw [performs.eq_after not_false]
      exact present_after_dataset started url _ _
  | container url =>
      obtain ⟨notContains, noMember⟩ := noEntry url rfl
      refine neutral_container (fun object => ?_) performs
      have entries :
          membership url object ∈ skolemizedTriples fresh (triples ++ []) ↔
            (membership url object).toTriple ∈ ([] : List Triple) :=
        membership_mem_skolemized notContains (by simp)
      rw [List.append_nil] at entries
      simp [entries, noMember object]

/-! ## Plans -/

omit [Sha256] [ObjectPath] in
theorem present_after_planCalls
    {world : World} {plan : List (ContainerUrl space × Option NamedNode)}
    {url : ResourceUrl space} :
    (backend.after world (planCalls plan)).present url.node = true ↔
      world.present url.node = true ∨
        ∃ step ∈ plan, step.1.resource = url := by
  rw [World.present_iff, World.present_iff, mem_after_planCalls,
    ResourceUrl.node_iri]
  refine or_congr Iff.rfl (exists_congr fun step => and_congr Iff.rfl ?_)
  rw [PlanWrites, ContainerUrl.asserts_marker]
  refine ⟨?_, Or.inl⟩
  rintro (isUrl | ⟨child, _, isGraph, _⟩)
  · exact isUrl
  · exact (not_isHttp_sysGraphOf _
      (isGraph ▸ step.1.resource.isHttp)).elim

omit [Sha256] [ObjectPath] in
theorem membership_after_planCalls
    {world : World} {plan : List (ContainerUrl space × Option NamedNode)}
    {container : ContainerUrl space} {object : GroundTerm} :
    membership container object ∈
        (backend.after world (planCalls plan)).graphs
          container.resource.iri ↔
      membership container object ∈ world.graphs container.resource.iri ∨
        ∃ child,
          (container, some child) ∈ plan ∧ object = .namedNode child := by
  rw [mem_after_planCalls]
  refine or_congr Iff.rfl ?_
  constructor
  · rintro ⟨step, inPlan, asserts | ⟨child, isChild, isGraph, same⟩⟩
    · exact (ContainerUrl.Asserts.not_membership asserts).elim
    · have isContainer : step = (container, some child) :=
        Prod.ext
          (ContainerUrl.ext_resource (ResourceUrl.iri_injective isGraph.symm))
          isChild
      refine ⟨child, isContainer ▸ inPlan, ?_⟩
      exact congrArg GroundTriple.object same
  · rintro ⟨child, inPlan, rfl⟩
    exact ⟨_, inPlan, Or.inr ⟨child, rfl, rfl, rfl⟩⟩

/-- A plan and the write it was made for create what the walk decided on. -/
theorem Staged.creates
    {world reached : World} {agent : Agent} {on : Target space}
    {walk : Guard.Walk space}
    {admits : World → StorageWrite space → Prop}
    (staged : Staged False world walk.plan admits reached)
    (materializes : Materializes world agent on walk)
    (marks :
      ∀ started write,
        admits started write →
        ∀ url,
          write.marks = some url ↔ on.isAux = false ∧ on.subject = url)
    (neutral :
      ∀ write,
        admits (backend.after world (planCalls walk.plan)) write →
        backend.Performs False (backend.after world (planCalls walk.plan))
          (write.calls (backend.after world (planCalls walk.plan)))
          reached →
        write.Neutral (backend.after world (planCalls walk.plan)) reached) :
    ContainmentTree.Creates (containmentShape space) (· ∈ walk.creations)
      (world.listing space) (reached.listing space) := by
  rcases staged with ⟨impossible, _⟩ | ⟨write, admitted, performs⟩
  · exact impossible.elim
  have isNeutral := neutral write admitted performs
  have isMarked := marks _ write admitted
  have present :
      ∀ url : ResourceUrl space,
        reached.present url.node = true ↔
          world.present url.node = true ∨ url ∈ walk.creations := by
    intro url
    rw [isNeutral.present, present_after_planCalls, isMarked]
    constructor
    · rintro ((old | ⟨step, inPlan, rfl⟩) | ⟨notAux, rfl⟩)
      · exact Or.inl old
      · exact materializes.settled step inPlan
      · rw [← Target.node_eq_subject notAux]
        exact materializes.targetSettled notAux
    · rintro (old | isCreated)
      · exact Or.inl (Or.inl old)
      · rcases materializes.planned url isCreated with
            ⟨rfl, notAux⟩ | inPlan
        · exact Or.inr ⟨notAux, rfl⟩
        · exact Or.inl (Or.inr inPlan)
  refine ⟨present, ?_, ?_⟩
  · intro above object
    constructor
    · rintro ⟨container, rfl, isListed⟩
      rw [isNeutral.lists, membership_after_planCalls] at isListed
      rcases isListed with old | ⟨child, inPlan, rfl⟩
      · exact Or.inl ⟨container, rfl, old⟩
      · obtain ⟨member, isCreated, rfl, isParent⟩ :=
          materializes.linked container child inPlan
        exact Or.inr ⟨member, isCreated, rfl,
          congrArg (Option.map ContainerUrl.resource) isParent⟩
    · rintro (⟨container, rfl, old⟩ | ⟨member, isCreated, rfl, isAbove⟩)
      · refine ⟨container, rfl, ?_⟩
        rw [isNeutral.lists, membership_after_planCalls]
        exact Or.inl old
      · obtain ⟨container, isParent, rfl⟩ := Option.map_eq_some_iff.mp isAbove
        refine ⟨container, rfl, ?_⟩
        rw [isNeutral.lists, membership_after_planCalls]
        exact Or.inr ⟨member.node,
          materializes.recorded member isCreated container isParent, rfl⟩
  · intro member above isCreated isAbove
    obtain ⟨container, isParent, rfl⟩ := Option.map_eq_some_iff.mp isAbove
    refine (isNeutral.present _).mpr (Or.inl ?_)
    rw [present_after_planCalls]
    exact Or.inr ⟨_,
      materializes.recorded member isCreated container isParent, rfl⟩

/-! ## Deletions -/

omit [ObjectPath] in
theorem owns_of_cascadeDrops
    {url : ResourceUrl space} {registered : List ShelfKey} {name : Text}
    (owned : ∀ key ∈ registered, url.Owns key.graphIri)
    (dropped : name ∈ cascadeDrops url registered) :
    url.Owns name ∨ ∃ kind, (url.aux kind).Owns name := by
  simp only [cascadeDrops, List.mem_append, List.mem_map, List.mem_cons,
    List.not_mem_nil, or_false, List.mem_flatMap] at dropped
  rcases dropped with
      (⟨key, isRegistered, rfl⟩ | rfl | rfl) | ⟨kind, _, rfl | rfl⟩
  · exact Or.inl (owned key isRegistered)
  · exact Or.inl (Or.inl rfl)
  · exact Or.inl (Or.inr (Or.inl rfl))
  · exact Or.inr ⟨kind, Or.inl rfl⟩
  · exact Or.inr ⟨kind, Or.inr rfl⟩

omit [ObjectPath] in
/-- Of the graphs of resources a cascade drops its subject's alone. -/
theorem mem_cascadeDrops
    {url other : ResourceUrl space} {registered : List ShelfKey}
    (owned : ∀ key ∈ registered, url.Owns key.graphIri) :
    (other.iri ∈ cascadeDrops url registered ↔ other = url) ∧
      (sysGraphOf other.iri ∈ cascadeDrops url registered ↔
        other = url) := by
  constructor
  · constructor
    · intro dropped
      rcases owns_of_cascadeDrops owned dropped with owns | ⟨kind, owns⟩
      · exact (ResourceUrl.Owns.eq_of_iri (Or.inl owns)).symm
      · exact (((url.aux kind).not_owns_resource other).1 owns).elim
    · rintro rfl
      simp [cascadeDrops]
  · constructor
    · intro dropped
      rcases owns_of_cascadeDrops owned dropped with owns | ⟨kind, owns⟩
      · exact (ResourceUrl.Owns.eq_of_iri (Or.inr owns)).symm
      · exact (((url.aux kind).not_owns_resource other).2 owns).elim
    · rintro rfl
      simp [cascadeDrops]

/-- Deleting what lists nothing deletes it with its entry. -/
theorem deletes_of_deleteSubject
    {world reached : World} {target : Target space}
    (owned : world.RegistersOwn space)
    (notAux : target.isAux = false)
    (unused :
      ∀ container,
        target = .container container →
        container.resource.parent.isSome = true ∧
          ∀ child,
            (⟨container.node, ldpContains, child⟩ : GroundTriple) ∉
              world.graphs (graphIri container))
    (performs :
      backend.Performs False world
        ((StorageWrite.deleteSubject target.subject).calls world)
        reached) :
    ContainmentTree.Deletes (containmentShape space) target.subject
      (world.listing space) (reached.listing space) := by
  obtain rfl := performs.eq_after not_false
  have isContainer :
      ∀ container : ContainerUrl space,
        container.resource = target.subject →
        target = .container container := by
    intro container same
    cases target with
    | resource url leaf =>
        obtain rfl : container.resource = url := same
        rw [container.slash] at leaf
        cases leaf
    | container url =>
        have same : container = url := ContainerUrl.ext_resource same
        rw [same]
    | aux url =>
        cases notAux
  refine ⟨?_, ?_, ?_, ?_⟩
  · intro noParent
    have isRoot := Option.map_eq_none_iff.mp noParent
    have rootPath := ResourceUrl.parent_eq_none.mp isRoot
    have slash : Text.endsWith ['/'] target.subject.path = true := by
      rw [rootPath]
      decide
    have isDeleted := isContainer ⟨target.subject, slash⟩ rfl
    have hasParent := (unused _ isDeleted).1
    rw [isRoot] at hasParent
    cases hasParent
  · rintro object ⟨container, same, isListed⟩
    exact (unused container (isContainer container same)).2 object isListed
  · intro url
    change _ = true ↔ _ = true ∧ url ≠ target.subject
    rw [World.present_iff, World.present_iff, graphs_after_deleteSubject,
      mem_applyAll_deleteSubject, ResourceUrl.node_iri,
      (mem_cascadeDrops fun _ => owned.owns).2]
    have noLink :
        ∀ parent : ContainerUrl space,
          ¬ (sysGraphOf url.iri = parent.resource.iri ∧
            presenceMarker url.node =
              containmentTriple parent target.subject.node) := by
      rintro parent ⟨isGraph, _⟩
      exact not_isHttp_sysGraphOf _ (isGraph ▸ parent.resource.isHttp)
    simp [noLink]
  · intro above object
    constructor
    · rintro ⟨container, rfl, isListed⟩
      rw [graphs_after_deleteSubject, mem_applyAll_deleteSubject] at isListed
      obtain ⟨old, _, kept⟩ := isListed
      refine ⟨⟨container, rfl, old⟩, ?_⟩
      rintro ⟨rfl, isAbove⟩
      obtain ⟨parent, isParent, same⟩ := Option.map_eq_some_iff.mp isAbove
      refine kept parent isParent ⟨congrArg ResourceUrl.iri same.symm, ?_⟩
      rw [ContainerUrl.ext_resource same]
      rfl
    · rintro ⟨⟨container, rfl, old⟩, notRemoved⟩
      refine ⟨container, rfl, ?_⟩
      rw [graphs_after_deleteSubject, mem_applyAll_deleteSubject]
      refine ⟨old, ?_, ?_⟩
      · rw [(mem_cascadeDrops fun _ => owned.owns).1]
        intro same
        exact (unused container (isContainer container same)).2 object old
      · rintro parent isParent ⟨isGraph, isLink⟩
        refine notRemoved ⟨congrArg GroundTriple.object isLink, ?_⟩
        have same := ResourceUrl.iri_injective isGraph
        exact (congrArg (Option.map ContainerUrl.resource) isParent).trans
          (congrArg some same.symm)

end Writes

end Quadpod
