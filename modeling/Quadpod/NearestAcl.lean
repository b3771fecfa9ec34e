import Quadpod.GraphNames
import Quadpod.WacGuard

namespace Quadpod

open AtomicProgram

/-!
# The nearest ACL wins

The guard reads the whole chain of a target in two queries and sorts the rows out
afterwards.  Here the decision is stated without any of that: walk from the
subject to the root, and the first ACL document that exists decides alone.  The
guard's answer is that decision, in every state of the store.
-/

variable [IriSyntax] {space : StorageSpace}

/-! ## The specification -/

namespace World

/-- Whether a graph carries its presence marker. -/
def present (world : World) (node : NamedNode) : Bool :=
  presenceMarker node ∈ world.graphs (sysGraphOf node.iri)

/-- The triples of a graph, as the store's queries return them. -/
def triplesOf (world : World) (graph : Text) : List Triple :=
  (world.graphs graph).triples.map GroundTriple.toTriple

/--
Walk a chain: the first element whose ACL exists decides, through `acl:accessTo`
if it is the one the walk started at and through `acl:default` otherwise.
-/
def nearestDecision
    (world : World) (agent : Agent) (required : Mode) :
    Bool → List (ResourceUrl space) → Except Denial Decision
  | _, [] => .error (deny agent)
  | inherited, element :: above =>
      if world.present element.acl.node then
        judge (world.triplesOf element.acl.iri) agent element.iri inherited
          required
      else
        nearestDecision world agent required true above

/-- What the nearest ACL says about a resource and a mode. -/
def decision
    (world : World) (agent : Agent) (resource : ResourceUrl space)
    (required : Mode) : Except Denial Decision :=
  world.nearestDecision agent required false resource.chain

end World

/-- The mode a target demands: an auxiliary demands that of its kind. -/
def Target.requiredMode (target : Target space) (mode : Mode) : Mode :=
  match target with
  | .aux url => requiredModeForAux url.kind
  | _ => mode

/-! ## Chains -/

theorem ResourceUrl.ancestors_length
    (url : ResourceUrl space) :
    ∀ ancestor ∈ url.ancestors,
      ancestor.resource.path.length < url.path.length := by
  induction size : url.path.length using Nat.strong_induction_on
    generalizing url with
  | _ size inductionHypothesis =>
      intro ancestor member
      rw [ancestors_eq] at member
      cases isParent : url.parent with
      | none =>
          simp [isParent] at member
      | some container =>
          have shorter := length_parent isParent
          simp only [isParent, List.mem_cons] at member
          rcases member with rfl | higher
          · omega
          · have below :=
              inductionHypothesis container.resource.path.length (by omega)
                container.resource rfl ancestor higher
            omega

/-- No URL occurs twice in a chain. -/
theorem ResourceUrl.chain_nodup (url : ResourceUrl space) :
    url.chain.Nodup := by
  induction size : url.path.length using Nat.strong_induction_on
    generalizing url with
  | _ size inductionHypothesis =>
      rw [chain, List.nodup_cons]
      constructor
      · intro member
        obtain ⟨ancestor, isAncestor, same⟩ := List.mem_map.mp member
        have shorter := url.ancestors_length ancestor isAncestor
        rw [same] at shorter
        omega
      · cases isParent : url.parent with
        | none =>
            simp [ancestors_eq, isParent]
        | some container =>
            have shorter := length_parent isParent
            rw [ancestors_eq, isParent]
            exact inductionHypothesis container.resource.path.length
              (by omega) container.resource rfl

/-! ## What a probe reads -/

namespace World

/-- What `Guard::probe` resolves in a world. -/
def guard (world : World) (agent : Agent) (target : Target space) :
    Guard space :=
  let present :=
    ((Guard.candidates target.subject).filter world.present).map
      NamedNode.iri
  let governed := governedAcls target.subject.chain present
  { agent := agent
    target := target
    present := present
    acls :=
      collectAcls governed
        ((governed.map Prod.fst).flatMap fun graph =>
          (world.triplesOf graph).map (graph, ·)) }

theorem queryPresent_rows (world : World) (nodes : List NamedNode) :
    ((nodes.map fun node => (sysGraphOf node.iri, node)).filter
        fun (graph, node) =>
          presenceMarker node ∈ world.graphs graph).map Prod.snd =
      nodes.filter world.present := by
  induction nodes with
  | nil =>
      rfl
  | cons node rest inductionHypothesis =>
      simp only [List.map_cons]
      by_cases isPresent :
          presenceMarker node ∈ world.graphs (sysGraphOf node.iri)
      · rw [List.filter_cons_of_pos (by simpa using isPresent),
          List.filter_cons_of_pos (by simpa [present] using isPresent),
          List.map_cons, inductionHypothesis]
      · rw [List.filter_cons_of_neg (by simpa using isPresent),
          List.filter_cons_of_neg (by simpa [present] using isPresent),
          inductionHypothesis]

end World

/-! ## Sorting the rows out -/

section Rows

variable {κ α : Type}

omit [IriSyntax] in
/-- Looking a key up in a list whose keys are made by an injective function. -/
theorem lookup_map_of_injective
    [BEq κ]
    [LawfulBEq κ]
    {β : Type}
    {key : α → κ}
    (injective : Function.Injective key)
    (value : α → β)
    [DecidableEq α]
    (entries : List α)
    (entry : α) :
    (entries.map fun x => (key x, value x)).lookup (key entry) =
      if entry ∈ entries then some (value entry) else none := by
  induction entries with
  | nil =>
      rfl
  | cons first rest inductionHypothesis =>
      rw [List.map_cons, List.lookup_cons]
      by_cases isFirst : entry = first
      · subst isFirst
        simp
      · have otherKey : (key entry == key first) = false := by
          rw [beq_eq_false_iff_ne]
          exact fun same => isFirst (injective same)
        simp [otherKey, inductionHypothesis, isFirst]

omit [IriSyntax] in
/-- Of the pieces of a list without repetitions, keep the one of an element. -/
theorem flatMap_ite_of_nodup
    [DecidableEq α]
    {β : Type}
    {entries : List α}
    (nodup : entries.Nodup)
    (entry : α)
    (pieces : α → List β) :
    (entries.flatMap fun x => if x = entry then pieces x else []) =
      if entry ∈ entries then pieces entry else [] := by
  induction entries with
  | nil =>
      rfl
  | cons first rest inductionHypothesis =>
      rw [List.nodup_cons] at nodup
      rw [List.flatMap_cons, inductionHypothesis nodup.2]
      by_cases isFirst : first = entry
      · subst isFirst
        simp [nodup.1]
      · simp [isFirst, Ne.symm isFirst]

end Rows

theorem lookup_pushAcl
    (key element : Text)
    (triple : Triple)
    (acls : List (Text × List Triple)) :
    (pushAcl key triple acls).lookup element =
      if element = key then
        some ((acls.lookup element).getD [] ++ [triple])
      else
        acls.lookup element := by
  induction acls with
  | nil =>
      by_cases same : element = key
      · simp [pushAcl, same]
      · simp [pushAcl, same]
  | cons entry rest inductionHypothesis =>
      obtain ⟨first, triples⟩ := entry
      by_cases isKey : first = key
      · subst isKey
        by_cases same : element = first
        · simp [pushAcl, same]
        · have other : (element == first) = false := by simpa using same
          simp [pushAcl, same, List.lookup_cons, other]
      · by_cases same : element = first
        · subst same
          simp [pushAcl, isKey]
        · have other : (element == first) = false := by simpa using same
          simp [pushAcl, isKey, List.lookup_cons, other, inductionHypothesis]

/-- One row of the ACL query is pushed to the element its graph governs. -/
def collectRow
    (governed : List (Text × Text)) (acls : List (Text × List Triple))
    (row : Text × Triple) : List (Text × List Triple) :=
  match governed.lookup row.1 with
  | some element => pushAcl element row.2 acls
  | none => acls

theorem collectAcls_eq
    (governed : List (Text × Text)) (rows : List (Text × Triple)) :
    collectAcls governed rows =
      rows.foldl (collectRow governed)
        (governed.map fun entry => (entry.2, [])) :=
  rfl

theorem collectRow_owned
    {governed : List (Text × Text)} {acls : List (Text × List Triple)}
    {row : Text × Triple} {owning : Text}
    (owner : governed.lookup row.1 = some owning) :
    collectRow governed acls row = pushAcl owning row.2 acls := by
  rw [collectRow, owner]

theorem collectRow_unowned
    {governed : List (Text × Text)} {acls : List (Text × List Triple)}
    {row : Text × Triple} (owner : governed.lookup row.1 = none) :
    collectRow governed acls row = acls := by
  rw [collectRow, owner]

/-- The rows of the ACL query that belong to an element. -/
def rowsOf
    (governed : List (Text × Text)) (element : Text)
    (rows : List (Text × Triple)) : List Triple :=
  rows.filterMap fun row =>
    if governed.lookup row.1 = some element then some row.2 else none

/-- An element with an entry gets its own rows, in order. -/
theorem lookup_collectAcls_some
    {governed : List (Text × Text)}
    {rows : List (Text × Triple)}
    {element : Text}
    (registered :
      (governed.map fun entry => (entry.2, ([] : List Triple))).lookup
        element = some []) :
    (collectAcls governed rows).lookup element =
      some (rowsOf governed element rows) := by
  have general :
      ∀ (rows : List (Text × Triple)) (acls : List (Text × List Triple))
        (collected : List Triple),
        acls.lookup element = some collected →
        (rows.foldl (collectRow governed) acls).lookup element =
          some (collected ++ rowsOf governed element rows) := by
    intro rows
    induction rows with
    | nil =>
        intro acls collected found
        simpa [rowsOf] using found
    | cons row rest inductionHypothesis =>
        intro acls collected found
        rw [List.foldl_cons]
        cases owner : governed.lookup row.1 with
        | none =>
            rw [collectRow_unowned owner,
              inductionHypothesis _ collected found]
            simp [rowsOf, owner]
        | some owning =>
            rw [collectRow_owned owner]
            by_cases same : element = owning
            · subst same
              rw [inductionHypothesis _ (collected ++ [row.2])
                (by simp [lookup_pushAcl, found])]
              simp [rowsOf, owner]
            · rw [inductionHypothesis _ collected
                (by simpa [lookup_pushAcl, same] using found)]
              simp [rowsOf, owner, Ne.symm same]
  have collected := general rows _ [] registered
  rw [List.nil_append] at collected
  rw [collectAcls_eq]
  exact collected

/-- An element without an entry gets none. -/
theorem lookup_collectAcls_none
    {governed : List (Text × Text)}
    {rows : List (Text × Triple)}
    {element : Text}
    (unregistered : ∀ entry ∈ governed, entry.2 ≠ element) :
    (collectAcls governed rows).lookup element = none := by
  have general :
      ∀ (rows : List (Text × Triple)) (acls : List (Text × List Triple)),
        acls.lookup element = none →
        (rows.foldl (collectRow governed) acls).lookup element = none := by
    intro rows
    induction rows with
    | nil =>
        intro acls missing
        exact missing
    | cons row rest inductionHypothesis =>
        intro acls missing
        rw [List.foldl_cons]
        refine inductionHypothesis _ ?_
        cases owner : governed.lookup row.1 with
        | none =>
            rw [collectRow_unowned owner]
            exact missing
        | some owning =>
            rw [collectRow_owned owner]
            obtain ⟨before, after, shape, _⟩ :=
              List.lookup_eq_some_iff.mp owner
            have owns : owning ≠ element :=
              unregistered (row.1, owning) (by simp [shape])
            simpa [lookup_pushAcl, Ne.symm owns] using missing
  rw [collectAcls_eq]
  refine general rows _ ?_
  rw [List.lookup_eq_none_iff]
  intro entry member
  obtain ⟨pair, isGoverned, rfl⟩ := List.mem_map.mp member
  simpa using Ne.symm (unregistered pair isGoverned)

/-! ## The guard holds what the world holds -/

theorem ResourceUrl.acl_iri_injective :
    Function.Injective fun url : ResourceUrl space => url.acl.iri := by
  intro first second same
  exact congrArg AuxUrl.subject (AuxUrl.iri_injective same)

namespace World

variable (world : World) (agent : Agent) (target : Target space)

@[simp] theorem guard_chain :
    (world.guard agent target).chain = target.subject.chain :=
  rfl

/-- What was probed is present in the guard exactly when it is in the world. -/
theorem guard_present
    {node : NamedNode}
    (probed : node ∈ Guard.candidates target.subject) :
    (world.guard agent target).present.contains node.iri =
      world.present node := by
  rw [Bool.eq_iff_iff]
  simp only [guard, List.contains_iff_mem, List.mem_map, List.mem_filter]
  constructor
  · rintro ⟨other, ⟨_, isPresent⟩, same⟩
    rwa [NamedNode.ext_iri same] at isPresent
  · intro isPresent
    exact ⟨node, ⟨probed, isPresent⟩, rfl⟩

/-- Whatever the guard holds to be present is present. -/
theorem present_of_guard
    {node : NamedNode}
    (holds : (world.guard agent target).present.contains node.iri = true) :
    world.present node = true := by
  simp only [guard, List.contains_iff_mem, List.mem_map,
    List.mem_filter] at holds
  obtain ⟨other, ⟨_, isPresent⟩, same⟩ := holds
  rwa [NamedNode.ext_iri same] at isPresent

theorem node_mem_candidates
    {element : ResourceUrl space}
    (inChain : element ∈ target.subject.chain) :
    element.node ∈ Guard.candidates target.subject := by
  simp only [Guard.candidates, List.mem_append, List.mem_map]
  exact Or.inl (Or.inl ⟨element, inChain, rfl⟩)

theorem aux_mem_candidates
    {element : ResourceUrl space}
    (inChain : element ∈ target.subject.chain)
    (kind : AuxKind) :
    (element.aux kind).node ∈ Guard.candidates target.subject := by
  simp only [Guard.candidates, List.mem_append, List.mem_flatMap,
    List.mem_map]
  exact Or.inl (Or.inr ⟨element, inChain, kind, kind.mem_all, rfl⟩)

theorem counterpart_mem_candidates
    {element counterpart : ResourceUrl space}
    (inChain : element ∈ target.subject.chain)
    (pair : element.slashCounterpart = some counterpart) :
    counterpart.node ∈ Guard.candidates target.subject := by
  simp only [Guard.candidates, List.mem_append, List.mem_map,
    List.mem_filterMap]
  exact Or.inr ⟨counterpart, ⟨element, inChain, pair⟩, rfl⟩

theorem subject_mem_chain : target.subject ∈ target.subject.chain :=
  List.mem_cons_self

/-- The guard knows whether the target itself exists. -/
theorem guard_targetExists :
    (world.guard agent target).targetExists = world.present target.node := by
  have probed : target.node ∈ Guard.candidates target.subject := by
    cases target with
    | resource url leaf =>
        exact node_mem_candidates (.resource url leaf) List.mem_cons_self
    | container url =>
        exact node_mem_candidates (.container url) List.mem_cons_self
    | aux url =>
        have listed :=
          aux_mem_candidates (.aux url) List.mem_cons_self url.kind
        have same : url.subject.aux url.kind = url := url.eq_aux.symm
        change (url.subject.aux url.kind).node ∈ _ at listed
        rw [same] at listed
        exact listed
  exact world.guard_present agent target probed

/-- The chain elements whose ACL exists, as the guard pairs them. -/
theorem governedAcls_guard :
    governedAcls target.subject.chain (world.guard agent target).present =
      (target.subject.chain.filter fun element =>
        world.present element.acl.node).map
          fun element => (element.acl.iri, element.iri) := by
  rw [governedAcls, ← List.filterMap_eq_filter, List.map_filterMap]
  refine List.filterMap_congr fun element inChain => ?_
  have sameAnswer :
      (world.guard agent target).present.contains element.acl.iri =
        world.present element.acl.node :=
    world.guard_present agent target
      (aux_mem_candidates target inChain .acl)
  by_cases isPresent : world.present element.acl.node = true
  · rw [if_pos (sameAnswer.trans isPresent)]
    simp [Option.guard, isPresent]
  · rw [if_neg (fun holds => isPresent (sameAnswer.symm.trans holds))]
    simp [Option.guard, isPresent]

/-- The guard has the ACL of a chain element exactly when it exists. -/
theorem guard_lookup
    {element : ResourceUrl space}
    (inChain : element ∈ target.subject.chain) :
    (world.guard agent target).acls.lookup element.iri =
      if world.present element.acl.node then
        some (world.triplesOf element.acl.iri)
      else
        none := by
  let existing :=
    target.subject.chain.filter fun element => world.present element.acl.node
  have nodup : existing.Nodup := target.subject.chain_nodup.filter _
  have member :
      element ∈ existing ↔ world.present element.acl.node = true := by
    simp [existing, inChain]
  have acls :
      (world.guard agent target).acls =
        collectAcls
          (existing.map fun element => (element.acl.iri, element.iri))
          (existing.flatMap fun element =>
            (world.triplesOf element.acl.iri).map (element.acl.iri, ·)) := by
    have governed := world.governedAcls_guard agent target
    simp only [guard] at governed ⊢
    rw [governed]
    simp [existing, List.flatMap_map]
  rw [acls]
  by_cases isPresent : world.present element.acl.node = true
  · rw [if_pos isPresent, lookup_collectAcls_some]
    · congr 1
      have owner :
          ∀ other ∈ existing,
            (((world.triplesOf other.acl.iri).map
              (other.acl.iri, ·)).filterMap fun row =>
                if (existing.map fun element =>
                    (element.acl.iri, element.iri)).lookup row.1 =
                      some element.iri then
                  some row.2
                else
                  none) =
              if other = element then world.triplesOf other.acl.iri else [] := by
        intro other isExisting
        have found :=
          lookup_map_of_injective ResourceUrl.acl_iri_injective
            ResourceUrl.iri existing other
        rw [if_pos isExisting] at found
        by_cases same : other = element
        · subst same
          simp [List.filterMap_map, found]
        · have otherIri : other.iri ≠ element.iri := fun sameIri =>
            same (ResourceUrl.iri_injective sameIri)
          simp [List.filterMap_map, found, same, otherIri]
      rw [rowsOf, List.filterMap_flatMap, List.flatMap_congr owner,
        flatMap_ite_of_nodup nodup, if_pos (member.mpr isPresent)]
    · have registered :=
        lookup_map_of_injective ResourceUrl.iri_injective
          (fun _ => ([] : List Triple)) existing element
      rw [if_pos (member.mpr isPresent)] at registered
      simpa [List.map_map, Function.comp_def] using registered
  · rw [if_neg isPresent, lookup_collectAcls_none]
    intro entry isGoverned sameIri
    obtain ⟨other, isExisting, rfl⟩ := List.mem_map.mp isGoverned
    have same : other = element := ResourceUrl.iri_injective sameIri
    exact isPresent (member.mp (same ▸ isExisting))

/-- What `decide_from` makes of the first ACL it finds, or of none. -/
def judgeFound
    (agent : Agent) (required : Mode)
    (found : Option (ResourceUrl space × List Triple × Bool)) :
    Except Denial Decision :=
  match found with
  | none => .error (deny agent)
  | some (element, triples, inherited) =>
      judge triples agent element.iri inherited required

/-- `decide_from` walks what is left of the chain. -/
theorem guard_decideFrom (start : Nat) (required : Mode) :
    (world.guard agent target).decideFrom start required =
      world.nearestDecision agent required false
        (target.subject.chain.drop start) := by
  have general :
      ∀ (elements : List (ResourceUrl space)) (offset : Nat),
        (∀ element ∈ elements, element ∈ target.subject.chain) →
        judgeFound agent required
            ((elements.zipIdx offset).findSome? fun member =>
              ((world.guard agent target).acls.lookup member.1.iri).map
                fun triples =>
                  (member.1, triples, decide (member.2 > 0))) =
          world.nearestDecision agent required (decide (offset > 0))
            elements := by
    intro elements
    induction elements with
    | nil =>
        intro offset _
        rfl
    | cons element above inductionHypothesis =>
        intro offset inChain
        have found := world.guard_lookup agent target (inChain element (by simp))
        rw [List.zipIdx_cons, List.findSome?_cons, nearestDecision]
        by_cases isPresent : world.present element.acl.node = true
        · simp [found, isPresent, judgeFound]
        · have rest :=
            inductionHypothesis (offset + 1)
              fun other member => inChain other (by simp [member])
          simpa [found, isPresent] using rest
  have whole :=
    general (target.subject.chain.drop start) 0
      fun element member => List.mem_of_mem_drop member
  exact whole

end World

/-! ## The probe -/

/-- Reading which graphs are present. -/
theorem eval_existsMany (world : World) (nodes : List NamedNode) :
    Program.eval backend (existsMany nodes) world =
      (.ok ((nodes.filter world.present).map NamedNode.iri), world) := by
  unfold existsMany
  by_cases isEmpty : nodes.isEmpty = true
  · rw [if_pos isEmpty, List.isEmpty_iff.mp isEmpty]
    rfl
  · rw [if_neg isEmpty, StoreProgram.eval_issue_bind rfl]
    simp only [Program.pure_eq, Program.eval_done]
    rw [← world.queryPresent_rows nodes]
    rfl

/-- Reading the ACLs of a chain. -/
theorem eval_loadChainAcls
    (world : World) (chain : List (ResourceUrl space)) (present : List Text) :
    Program.eval backend (loadChainAcls chain present) world =
      (.ok (collectAcls (governedAcls chain present)
        (((governedAcls chain present).map Prod.fst).flatMap fun graph =>
          (world.triplesOf graph).map (graph, ·))), world) := by
  unfold loadChainAcls
  by_cases isEmpty : (governedAcls chain present).isEmpty = true
  · rw [if_pos isEmpty, List.isEmpty_iff.mp isEmpty]
    rfl
  · rw [if_neg isEmpty, StoreProgram.eval_issue_bind rfl]
    simp only [Program.pure_eq, Program.eval_done, World.triplesOf,
      List.map_map, Function.comp_def]
    rfl

/-- A probe with every call answered resolves the guard of the world. -/
theorem eval_probe
    (world : World) (agent : Agent) (target : Target space) :
    Program.eval backend (Guard.probe agent target) world =
      (.ok (world.guard agent target), world) := by
  rw [Guard.probe, Program.eval_mapError,
    Program.eval_bind_ok (eval_existsMany world _),
    Program.eval_bind_ok (eval_loadChainAcls world _ _)]
  rfl

/-- A probe resolves the guard of the world, or a store call failed. -/
theorem ensures_probe
    {mayFail : Prop}
    (world : World) (agent : Agent) (target : Target space) :
    Program.Ensures backend mayFail (Guard.probe agent target) world
      fun result reached =>
        reached = world ∧
          (result = .ok (world.guard agent target) ∨
            ∃ error, result = .error (.store error)) := by
  have loaded :
      ∀ present : List Text,
        Program.Ensures backend mayFail
          (loadChainAcls target.subject.chain present >>= fun acls =>
            (pure ⟨agent, target, present, acls⟩ :
              ResourceProgram (Guard space)))
          world
          fun result reached =>
            reached = world ∧
              (result =
                  .ok ⟨agent, target, present,
                    collectAcls (governedAcls target.subject.chain present)
                      (((governedAcls target.subject.chain present).map
                        Prod.fst).flatMap fun graph =>
                          (world.triplesOf graph).map (graph, ·))⟩ ∨
                ∃ error, result = .error error) := by
    intro present
    unfold loadChainAcls
    by_cases isEmpty :
        (governedAcls target.subject.chain present).isEmpty = true
    · rw [if_pos isEmpty, List.isEmpty_iff.mp isEmpty]
      exact Program.ensures_done ⟨rfl, Or.inl rfl⟩
    · rw [if_neg isEmpty]
      refine Program.ensures_call ?_ ?_
      · refine Program.ensures_done ⟨rfl, Or.inl ?_⟩
        simp only [World.triplesOf, List.map_map, Function.comp_def]
      · intro _ message
        exact Program.ensures_fail ⟨rfl, Or.inr ⟨_, rfl⟩⟩
  refine Program.Ensures.mapError ?_
  have probed :
      Program.Ensures backend mayFail
        (existsMany (Guard.candidates target.subject)) world
        fun result reached =>
          reached = world ∧
            (result =
                .ok (((Guard.candidates target.subject).filter
                  world.present).map NamedNode.iri) ∨
              ∃ error, result = .error error) := by
    unfold existsMany
    rw [if_neg (by simp [Guard.candidates, ResourceUrl.chain])]
    refine Program.ensures_call ?_ ?_
    · refine Program.ensures_done ⟨rfl, Or.inl ?_⟩
      rw [← world.queryPresent_rows]
    · intro _ message
      exact Program.ensures_fail ⟨rfl, Or.inr ⟨_, rfl⟩⟩
  refine probed.bind ?_ ?_
  · rintro present reached ⟨rfl, isProbed⟩
    obtain rfl : present =
        ((Guard.candidates target.subject).filter reached.present).map
          NamedNode.iri := by
      simpa using isProbed
    refine (loaded _).mono ?_
    rintro result final ⟨rfl, rfl | ⟨error, rfl⟩⟩
    · exact ⟨rfl, Or.inl rfl⟩
    · exact ⟨rfl, Or.inr ⟨error, rfl⟩⟩
  · rintro error reached ⟨rfl, _⟩
    exact ⟨rfl, Or.inr ⟨error, rfl⟩⟩

/-! ## The decision -/

/-- A request's probe and the decision made on it. -/
def probeAndAuthorize
    (agent : Agent) (target : Target space) (mode : Mode) :
    StoreProgram Denial Decision := do
  let guard ← Guard.probe agent target
  Program.ofExcept (guard.authorize mode)

namespace World

/-- What authorization demands of the nearest ACL. -/
def authorization
    (world : World) (agent : Agent) (target : Target space) (mode : Mode) :
    Except Denial Decision :=
  world.decision agent target.subject (target.requiredMode mode)

theorem guard_authorize
    (world : World) (agent : Agent) (target : Target space) (mode : Mode) :
    (world.guard agent target).authorize mode =
      world.authorization agent target mode := by
  have walked :=
    world.guard_decideFrom agent target 0 (target.requiredMode mode)
  rw [List.drop_zero] at walked
  rw [authorization, decision, ← walked]
  cases target with
  | resource url leaf =>
      rfl
  | container url =>
      rfl
  | aux url =>
      rfl

/-- Elements without an ACL are passed over. -/
theorem nearestDecision_append
    (world : World) (agent : Agent) (required : Mode) (inherited : Bool)
    {before : List (ResourceUrl space)}
    (absent : ∀ lower ∈ before, world.present lower.acl.node = false)
    (rest : List (ResourceUrl space)) :
    world.nearestDecision agent required inherited (before ++ rest) =
      world.nearestDecision agent required (inherited || !before.isEmpty)
        rest := by
  induction before generalizing inherited with
  | nil =>
      simp
  | cons lower others inductionHypothesis =>
      have missing := absent lower (by simp)
      rw [List.cons_append, nearestDecision, missing]
      simpa using
        inductionHypothesis true fun other member =>
          absent other (by simp [member])

end World

omit [IriSyntax] in
theorem AccessModes.none_allows (mode : Mode) :
    AccessModes.none.allows mode = false := by
  cases mode <;> rfl

/-- An ACL without triples grants nothing. -/
theorem judge_nil
    (agent : Agent) (governedIri : Text) (inherited : Bool)
    (required : Mode) :
    judge [] agent governedIri inherited required = .error (deny agent) := by
  simp [judge, decideModes, bySubject, AccessModes.none_allows]

/--
Probing and deciding is the nearest-ACL walk.  With every call answered the
outcome is the decision of the walk and the world is left as it was; a failing
store call can only turn it into a store error.  The first element of the chain
whose ACL exists decides alone, through `acl:accessTo` if it is the subject
itself and through `acl:default` otherwise: an empty ACL denies, and no other
world that agrees up to that element is answered differently.  Without any ACL
the request is denied.
-/
theorem probeAndAuthorize_eq_nearest
    (world : World) (agent : Agent) (target : Target space) (mode : Mode) :
    Program.eval backend (probeAndAuthorize agent target mode) world =
        (world.nearestDecision agent (target.requiredMode mode) false
          target.subject.chain, world) ∧
      (∀ faults,
        let outcome :=
          Program.run backend (probeAndAuthorize agent target mode) faults
            world
        outcome.world = world ∧
          (outcome.result =
              world.nearestDecision agent (target.requiredMode mode) false
                target.subject.chain ∨
            ∃ error, outcome.result = .error (.store error))) ∧
      (∀ before element above,
        target.subject.chain = before ++ element :: above →
        (∀ lower ∈ before, world.present lower.acl.node = false) →
        world.present element.acl.node = true →
        world.nearestDecision agent (target.requiredMode mode) false
            target.subject.chain =
          judge (world.triplesOf element.acl.iri) agent element.iri
            (!before.isEmpty) (target.requiredMode mode) ∧
        (world.triplesOf element.acl.iri = [] →
          world.nearestDecision agent (target.requiredMode mode) false
            target.subject.chain = .error (deny agent)) ∧
        ∀ other : World,
          (∀ lower ∈ before, other.present lower.acl.node = false) →
          other.present element.acl.node = true →
          other.triplesOf element.acl.iri =
            world.triplesOf element.acl.iri →
          (Program.eval backend (probeAndAuthorize agent target mode)
              other).1 =
            (Program.eval backend (probeAndAuthorize agent target mode)
              world).1) ∧
      ((∀ element ∈ target.subject.chain,
          world.present element.acl.node = false) →
        (Program.eval backend (probeAndAuthorize agent target mode)
          world).1 = .error (deny agent)) := by
  have evaluated :
      ∀ world : World,
        Program.eval backend (probeAndAuthorize agent target mode) world =
          (world.nearestDecision agent (target.requiredMode mode) false
            target.subject.chain, world) := by
    intro world
    rw [probeAndAuthorize, Program.eval_bind_ok (eval_probe world agent target),
      Program.eval_ofExcept, world.guard_authorize]
    rfl
  have decides :
      ∀ (world : World) before element above,
        target.subject.chain = before ++ element :: above →
        (∀ lower ∈ before, world.present lower.acl.node = false) →
        world.present element.acl.node = true →
        world.nearestDecision agent (target.requiredMode mode) false
            target.subject.chain =
          judge (world.triplesOf element.acl.iri) agent element.iri
            (!before.isEmpty) (target.requiredMode mode) := by
    intro world before element above shape absent isPresent
    rw [shape, world.nearestDecision_append _ _ _ absent,
      World.nearestDecision, if_pos isPresent, Bool.false_or]
  refine ⟨evaluated world, ?_, ?_, ?_⟩
  · intro faults
    have runs :
        Program.Ensures backend True (probeAndAuthorize agent target mode)
          world
          fun result reached =>
            reached = world ∧
              (result =
                  world.nearestDecision agent (target.requiredMode mode) false
                    target.subject.chain ∨
                ∃ error, result = .error (.store error)) := by
      refine (ensures_probe world agent target).bind ?_ ?_
      · rintro guard reached ⟨rfl, resolved⟩
        obtain rfl : guard = reached.guard agent target := by
          simpa using resolved
        have decision := reached.guard_authorize agent target mode
        intro later _
        rw [decision]
        cases result : reached.authorization agent target mode with
        | ok value =>
            exact ⟨rfl, Or.inl result.symm⟩
        | error denial =>
            exact ⟨rfl, Or.inl result.symm⟩
      · rintro denial reached ⟨rfl, resolved⟩
        refine ⟨rfl, Or.inr ?_⟩
        simpa using resolved
    exact runs faults (Or.inl trivial)
  · intro before element above shape absent isPresent
    have decided := decides world before element above shape absent isPresent
    refine ⟨decided, ?_, ?_⟩
    · intro noTriples
      rw [decided, noTriples, judge_nil]
    · intro other otherAbsent otherPresent sameTriples
      rw [evaluated, evaluated, decided,
        decides other before element above shape otherAbsent otherPresent,
        sameTriples]
  · intro absent
    rw [evaluated]
    have walked :=
      world.nearestDecision_append agent (target.requiredMode mode) false
        absent []
    rw [List.append_nil] at walked
    rw [walked]
    rfl

end Quadpod
