import Quadpod.DeclaredAccess
import Quadpod.StorageIntegrity

namespace Quadpod

open AtomicProgram
open GraphStore

/-!
# Nobody gains access by what they do

Agents that hold control over nothing cannot change a single access decision,
for themselves or for anyone else: not by many requests at once, not by their
timing, not by failing calls.  The ACLs that were there when they started are
there, word for word, at every moment.
-/

variable [IriSyntax] [Sha256] [ObjectPath] {space : StorageSpace}

/-! ## Worlds with the same ACLs -/

/-- The same auxiliaries are present, with the same triples. -/
structure World.SameAcls
    (world first : World) (space : StorageSpace) : Prop where
  present :
    ∀ aux : AuxUrl space,
      world.present aux.node = first.present aux.node
  graphs :
    ∀ aux : AuxUrl space,
      first.present aux.node = true →
      world.graphs aux.iri = first.graphs aux.iri

namespace World.SameAcls

variable {world first : World}

omit [Sha256] [ObjectPath] in
theorem refl (world : World) : world.SameAcls world space :=
  ⟨fun _ => rfl, fun _ _ => rfl⟩

omit [Sha256] [ObjectPath] in
theorem triplesOf
    (same : world.SameAcls first space) {aux : AuxUrl space}
    (isPresent : first.present aux.node = true) :
    world.triplesOf aux.iri = first.triplesOf aux.iri := by
  rw [World.triplesOf, World.triplesOf, same.graphs aux isPresent]

omit [Sha256] [ObjectPath] in
/-- Decisions are made on the ACLs alone. -/
theorem decision
    (same : world.SameAcls first space) (agent : Agent)
    (url : ResourceUrl space) (mode : Mode) :
    world.decision agent url mode = first.decision agent url mode := by
  have along :
      ∀ (chain : List (ResourceUrl space)) (inherited : Bool),
        world.nearestDecision agent mode inherited chain =
          first.nearestDecision agent mode inherited chain := by
    intro chain
    induction chain with
    | nil =>
        intro inherited
        rfl
    | cons element above inductionHypothesis =>
        intro inherited
        rw [World.nearestDecision, World.nearestDecision,
          same.present element.acl, inductionHypothesis]
        split
        · next isPresent =>
            rw [same.triplesOf isPresent]
        · rfl
  exact along url.chain false

omit [Sha256] [ObjectPath] in
/-- What governs a chain is known from which ACLs are present. -/
theorem governedAcls_congr
    {chain : List (ResourceUrl space)} {present other : List Text}
    (same :
      ∀ element ∈ chain,
        present.contains element.acl.iri = other.contains element.acl.iri) :
    governedAcls chain present = governedAcls chain other := by
  unfold governedAcls
  refine List.filterMap_congr fun element member => ?_
  rw [same element member]

end World.SameAcls

/-! ## A probe among worlds with the same ACLs -/

/-- Somebody answered who saw the same ACLs. -/
def AnsweredAlike (first : World) (space : StorageSpace)
    (call : Call) (reply : Except Text call.Reply) : Prop :=
  ∀ value,
    reply = .ok value →
    ∃ world : World,
      world.Intact space ∧ world.SameAcls first space ∧
        call.answer world = .ok value

/-- Agents without control write no auxiliary, and take none along. -/
def powerless (first : World) (space : StorageSpace)
    (agents : Agent → Prop) : Regime space where
  agents := agents
  writes _ := False
  drops aux := first.present aux.node = false
  rewrites _ := True
  answers := AnsweredAlike first space

section Probes

variable {first : World} {agents : Agent → Prop}

omit [Sha256] [ObjectPath] in
/-- The graphs found present include the ACLs of the first world. -/
theorem contains_acl_of_same
    {world : World} (same : world.SameAcls first space) (agent : Agent)
    {target : Target space} {element : ResourceUrl space}
    (inChain : element ∈ target.subject.chain) :
    (world.guard agent target).present.contains element.acl.iri =
      (first.guard agent target).present.contains element.acl.iri := by
  have probed (some : World) :
      (some.guard agent target).present.contains element.acl.iri =
        some.present element.acl.node :=
    some.guard_present agent target
      (World.aux_mem_candidates target inChain .acl)
  rw [probed, probed, same.present]

omit [Sha256] [ObjectPath] in
/-- What two worlds with the same ACLs answer a probe makes the same ACLs. -/
theorem acls_of_same
    {world later : World} (same : world.SameAcls first space)
    (sameLater : later.SameAcls first space) (agent : Agent)
    (target : Target space) :
    collectAcls
        (governedAcls target.subject.chain
          (world.guard agent target).present)
        (((governedAcls target.subject.chain
          (world.guard agent target).present).map Prod.fst).flatMap
            fun graph => (later.triplesOf graph).map (graph, ·)) =
      (first.guard agent target).acls := by
  have governed :
      governedAcls target.subject.chain
          (world.guard agent target).present =
        governedAcls target.subject.chain
          (first.guard agent target).present :=
    World.SameAcls.governedAcls_congr fun element member =>
      contains_acl_of_same same agent member
  have rows :
      ∀ graph ∈
          (governedAcls target.subject.chain
            (first.guard agent target).present).map Prod.fst,
        (later.triplesOf graph).map (graph, ·) =
          (first.triplesOf graph).map (graph, ·) := by
    intro graph member
    obtain ⟨entry, isGoverned, rfl⟩ := List.mem_map.mp member
    obtain ⟨element, inChain, isEntry⟩ := List.mem_filterMap.mp isGoverned
    split at isEntry
    · next isPresent =>
        cases isEntry
        have isThere : first.present element.acl.node = true :=
          (first.guard_present agent target
            (World.aux_mem_candidates target inChain .acl)).symm.trans
              isPresent
        rw [sameLater.triplesOf isThere]
    · cases isEntry
  rw [governed, List.flatMap_congr rows]
  rfl

/-- A probe answered by worlds with the same ACLs decides as the first one. -/
theorem probe_obeys
    (agent : Agent) (target : Target space) :
    (Guard.probe agent target).Obeys
      (serverRule (powerless first space agents)) fun result =>
        ∀ guard,
          result = .ok guard →
          guard.target = target ∧
            (∀ start mode,
              guard.decideFrom start mode =
                (first.guard agent target).decideFrom start mode) ∧
            ∀ kind,
              guard.present.contains (target.subject.aux kind).iri =
                first.present (target.subject.aux kind).node := by
  have asked :
      (existsMany (Guard.candidates target.subject)).Obeys
        (serverRule (powerless first space agents)) fun result =>
          ∀ present,
            result = .ok present →
            ∃ world : World,
              world.SameAcls first space ∧
                present = (world.guard agent target).present := by
    unfold existsMany
    rw [if_neg (by simp [Guard.candidates, ResourceUrl.chain])]
    refine ⟨.read ⟨rfl, fun _ => rfl⟩, fun answer answered => ?_⟩
    cases answer with
    | error message =>
        rintro present isPresent
        cases isPresent
    | ok rows =>
        rintro present isPresent
        cases isPresent
        obtain ⟨world, _, same, isAnswer⟩ := answered rows rfl
        refine ⟨world, same, ?_⟩
        rw [← Except.ok.inj isAnswer, world.queryPresent_rows]
        rfl
  refine Program.Obeys.mapError (asked.bind ?_ ?_)
  · intro present found
    obtain ⟨world, same, rfl⟩ := found present rfl
    have loaded :
        (loadChainAcls target.subject.chain
          (world.guard agent target).present).Obeys
            (serverRule (powerless first space agents)) fun result =>
          ∀ acls,
            result = .ok acls →
            acls = (first.guard agent target).acls := by
      unfold loadChainAcls
      dsimp only
      split
      · next isEmpty =>
          rintro acls isAcls
          cases isAcls
          have whole := acls_of_same same same agent target
          rw [List.isEmpty_iff.mp isEmpty] at whole
          exact whole
      · refine ⟨.read ⟨rfl, fun _ => rfl⟩, fun answer answered => ?_⟩
        cases answer with
        | error message =>
            rintro acls isAcls
            cases isAcls
        | ok rows =>
            rintro acls isAcls
            cases isAcls
            obtain ⟨later, _, sameLater, isAnswer⟩ := answered rows rfl
            rw [← acls_of_same same sameLater agent target,
              ← Except.ok.inj isAnswer]
            simp only [World.triplesOf, List.map_map, Function.comp_def]
    refine loaded.bind ?_ ?_
    · rintro acls isAcls guard isGuard
      cases isGuard
      obtain rfl := isAcls acls rfl
      refine ⟨rfl, fun start mode => rfl, fun kind => ?_⟩
      have probed :
          (world.guard agent target).present.contains
              (target.subject.aux kind).iri =
            world.present (target.subject.aux kind).node :=
        world.guard_present agent target
          (World.aux_mem_candidates target List.mem_cons_self kind)
      exact probed.trans (same.present _)
    · rintro error _ guard isGuard
      cases isGuard
  · rintro error _ guard isGuard
    cases isGuard

/-- No agent of a group holds control over anything. -/
def World.Uncontrolled
    (world : World) (space : StorageSpace) (agents : Agent → Prop) : Prop :=
  ∀ agent,
    agents agent →
    ∀ url : ResourceUrl space, ¬ world.Grants agent url .control

/-- Whoever holds no control is refused every auxiliary. -/
theorem lawful_powerless (uncontrolled : first.Uncontrolled space agents) :
    (powerless first space agents).Lawful where
  registry call reply answered := by
    cases reply with
    | error message =>
        exact (answers_of_failed call message).1
    | ok value =>
        obtain ⟨world, intact, _, isAnswer⟩ := answered value rfl
        rw [← isAnswer]
        exact (World.Intact.answers intact call).1
  listing call reply answered := by
    cases reply with
    | error message =>
        exact (answers_of_failed call message).2
    | ok value =>
        obtain ⟨world, intact, _, isAnswer⟩ := answered value rfl
        rw [← isAnswer]
        exact (World.Intact.answers intact call).2
  probed agent target isAgent := by
    refine (probe_obeys agent target).mono fun result holds guard isGuard => ?_
    obtain ⟨isTarget, decides, contains⟩ := holds guard isGuard
    have refused :
        ∀ decision,
          guard.decideFrom 0 .control = .ok decision → False := by
      intro decision decided
      rw [decides, World.guard_decideFrom, List.drop_zero] at decided
      exact uncontrolled agent isAgent target.subject ⟨decision, decided⟩
    constructor
    · rintro ⟨subject, kind⟩ mode decision isAux authorized
      rw [Guard.authorize, isTarget, isAux] at authorized
      cases kind
      exact refused decision authorized
    · intro decisions authorized kind
      change first.present (target.subject.aux kind).node = false
      rw [← contains kind, Bool.eq_false_iff]
      intro isPresent
      obtain ⟨decided, isDecided⟩ :=
        Traversal.ok_of_mem authorized kind.mem_all
      rw [Guard.authorizeAux, isTarget, if_pos isPresent] at isDecided
      cases kind
      cases control : guard.decideFrom 0 .control with
      | ok decision =>
          exact refused decision control
      | error denial =>
          rw [requiredModeForAux, control] at isDecided
          cases isDecided

end Probes

/-! ## The invariant -/

section Calls

variable {first world : World} {agents : Agent → Prop} {call : Call}

/-- A call that changes what an auxiliary owns takes an absent one along. -/
theorem ServerCall.drops_of_touches
    (isCall : ServerCall (powerless first space agents) call)
    (aux : AuxUrl space) {name : Text}
    (owns : aux.Owns name) (touched : name ∈ call.touches) :
    first.present aux.node = false ∧ call.adds = [] := by
  have ofResource (url : ResourceUrl space) (isOwn : url.Owns name) : False :=
    ResourceUrl.not_owns_of_aux owns isOwn
  cases isCall with
  | read reads =>
      rw [Call.touches, reads.1] at touched
      cases touched
  | putObject url leaf key bytes keyed =>
      cases touched
  | deleteObject key =>
      cases touched
  | putDataset url leaf registered shelves body format =>
      exact (ofResource url (touches_putDataset shelves.owns touched)).elim
  | putBlob url leaf registered shelves mediaType =>
      exact (ofResource url (touches_putBlob shelves.owns touched)).elim
  | deleteSubject url registered shelves may takes =>
      refine ⟨?_, adds_deleteSubject url registered⟩
      rcases touches_deleteSubject shelves.owns touched with
          ofUrl | ⟨kind, ofAux⟩ | ⟨parent, _, isParent⟩
      · exact (ofResource url ofUrl).elim
      · obtain rfl := AuxUrl.eq_of_owns owns ofAux
        exact may kind
      · exact (ofResource parent.resource (Or.inl isParent)).elim
  | patchResource url leaf deletions insertions =>
      exact (ofResource url (Or.inl (touches_modify touched))).elim
  | patchContainer container may deletions insertions unlisted =>
      exact (ofResource container.resource
        (Or.inl (touches_modify touched))).elim
  | patchAux other may deletions insertions =>
      exact may.elim
  | putAux other may triples =>
      exact may.elim
  | deleteAux other may =>
      exact may.elim
  | replaceContainer container may triples listed =>
      have isOwn : container.Owns name :=
        StorageWrite.calls_touch World.registersOwn_empty
          (mem_calls_replaceContainer container _) touched
      exact (ofResource container.resource isOwn.resource).elim
  | ensure container =>
      exact (ofResource container.resource
        (touches_ensureCall touched).resource).elim
  | link container child isChild =>
      exact (ofResource container.resource
        (touches_linkCall touched).resource).elim

/-- No call of agents without control changes an ACL that is there. -/
theorem World.SameAcls.perform
    (same : world.SameAcls first space)
    (isCall : ServerCall (powerless first space agents) call) :
    (backend.perform world call).2.SameAcls first space where
  present aux := by
    by_cases touched : sysGraphOf aux.iri ∈ call.touches
    · obtain ⟨isAbsent, addsNothing⟩ :=
        isCall.drops_of_touches aux (Or.inr rfl) touched
      rw [isAbsent, Bool.eq_false_iff]
      intro isPresent
      rw [World.present_iff] at isPresent
      rcases mem_perform isPresent with old | isAdded
      · have wasPresent := World.present_iff.mpr old
        rw [same.present aux, isAbsent] at wasPresent
        cases wasPresent
      · rw [addsNothing] at isAdded
        cases isAdded
    · rw [World.present_congr (perform_graphs_of_not_touched touched)]
      exact same.present aux
  graphs aux isPresent := by
    rw [perform_graphs_of_not_touched fun touched => ?_]
    · exact same.graphs aux isPresent
    · have isAbsent :=
        (isCall.drops_of_touches aux (Or.inl rfl) touched).1
      rw [isPresent] at isAbsent
      cases isAbsent

end Calls

/-! ## Requests at work together -/

section Requests

variable [QuadText]
variable [RdfParser] [RdfSerializer] [ShapeEngine] [N3Parser] [Quality]
variable [WireFormats] [Josekit] [JoseSigning]

/--
Whatever a server has been through, and whatever agents without control over
anything do to it then, by any number of requests of any methods, in any
interleaving, with any calls failing: at every moment every decision about any
agent, resource and mode is the one made before.
-/
theorem no_escalation
    {app : AppState} {phases : List Phase} {agents : Agent → Prop}
    (uncontrolled :
      (phases.foldl (Phase.after app) World.empty).Uncontrolled app.space
        agents)
    {admissions : List Admission}
    (members : ∀ admission ∈ admissions, agents admission.agent)
    (turns : List (Turn stores)) :
    let world := phases.foldl (Phase.after app) World.empty
    let reached := (Phase.serving admissions turns).after app world
    ∀ (agent : Agent) (url : ResourceUrl app.space) (mode : Mode),
      reached.decision agent url mode = world.decision agent url mode := by
  intro world reached agent url mode
  let requests : Config stores Response Response World :=
    .start world (admissions.map fun admission =>
      dispatch app admission.agent admission.request admission.draws)
  let invariant : List (Nat × Call) → World → Prop :=
    fun _ reached => reached.Intact app.space ∧ reached.SameAcls world app.space
  have lawful := lawful_powerless uncontrolled
  have obedient :
      Config.Obedient
        (fun _ => serverRule (powerless world app.space agents))
        requests.pool := by
    intro thread program isProgram
    obtain ⟨admission, member, rfl⟩ :=
      List.mem_map.mp (List.mem_of_getElem? isProgram)
    exact scripted_dispatch lawful (fun _ => trivial)
      (members admission member) _ _
  have reachedBoth :
      reached.Intact app.space ∧ reached.SameAcls world app.space := by
    have holds : invariant requests.history requests.world :=
      ⟨World.intact_empty.through phases, .refl world⟩
    refine Config.execute_obeys backend
      (fun _ => serverRule (powerless world app.space agents))
      ?_ ?_ ?_ turns requests obedient holds
    · rintro _ _ before _ ⟨intact, same⟩ isCall
      exact ⟨intact.perform isCall, same.perform isCall⟩
    · rintro _ _ before call ⟨intact, same⟩ _ value isAnswer
      exact ⟨before, intact, same, isAnswer⟩
    · rintro _ call fault value impossible
      cases impossible
  exact reachedBoth.2.decision agent url mode

end Requests

/-! ## Pods that name nobody in general -/

omit [Sha256] [ObjectPath] in
/-- What is in the stores was there before, or a call of the history put it. -/
theorem mem_history
    {ε α : Type} {name : Text} {triple : GroundTriple} (started : World)
    (pool : List (StoreProgram ε α)) (turns : List (Turn stores)) :
    let reached := Config.execute backend turns (Config.start started pool)
    triple ∈ reached.world.graphs name →
      triple ∈ started.graphs name ∨
        ∃ entry ∈ reached.history, (name, triple) ∈ entry.2.adds := by
  intro reached
  let invariant : List (Nat × Call) → World → Prop :=
    fun history world =>
      triple ∈ world.graphs name →
        triple ∈ started.graphs name ∨
          ∃ entry ∈ history, (name, triple) ∈ entry.2.adds
  let free : Rule stores := ⟨fun _ => True, fun _ _ => True⟩
  have holds : invariant [] started := Or.inl
  refine Config.execute_obeys backend (fun _ => free) ?_ ?_ ?_ turns
    (Config.start started pool) ?_ holds
  · intro thread history world call before _ isThere
    rcases mem_perform isThere with old | isAdded
    · rcases before old with wasThere | ⟨entry, inHistory, adds⟩
      · exact Or.inl wasThere
      · exact Or.inr ⟨entry, List.mem_cons_of_mem _ inHistory, adds⟩
    · exact Or.inr ⟨_, List.mem_cons_self, isAdded⟩
  · exact fun _ _ _ _ _ _ => trivial
  · exact fun _ _ _ => trivial
  · exact fun _ program _ => Program.uses_of_forall (fun _ => trivial) program

omit [Sha256] [ObjectPath] in
/-- Whoever no rule names that grants control holds none. -/
theorem World.uncontrolled_of_unnamed
    {world : World} {agents : Agent → Prop}
    (unnamed :
      ∀ agent,
        agents agent →
        ∀ (aux : AuxUrl space) (subject : NamedOrBlankNode),
          Covers (world.triplesOf aux.iri) subject agent →
          ¬ States (world.triplesOf aux.iri) subject aclModeIri
            aclControlIri) :
    world.Uncontrolled space agents := by
  rintro agent isMember url ⟨decision, decided⟩
  have along :
      ∀ (chain : List (ResourceUrl space)) (inherited : Bool),
        world.nearestDecision agent .control inherited chain ≠
          .ok decision := by
    intro chain
    induction chain with
    | nil =>
        intro inherited impossible
        cases impossible
    | cons element above inductionHypothesis =>
        intro inherited isOk
        rw [World.nearestDecision] at isOk
        split at isOk
        · unfold judge at isOk
          dsimp only at isOk
          split at isOk
          · next allowed =>
              have granted :
                  (decideModes (world.triplesOf element.acl.iri) agent
                    element.iri inherited).granted .control = true :=
                allowed
              obtain ⟨subject, declares⟩ :=
                granted_decideModes_iff.mp granted
              exact unnamed agent isMember element.acl subject declares.agent
                declares.mode
          · cases isOk
        · exact inductionHypothesis true isOk
  exact along url.chain false decided

end Quadpod

namespace Quadpod.Reference

open AtomicProgram

/-- The pod is provisioned for its owner, with every call answered. -/
def provisioned : Phase :=
  .provisioning owner true uuid (List.replicate 5 ⟨0, none⟩)

/-- A document is sent for a path. -/
def sends
    (agent : Agent) (path : String) (version : String) (body : List Quad)
    (checked :
      ((Text.utf8 ("text/turtle".toList ++ version.toList)).all fun byte =>
        (decide (32 ≤ byte) && decide (byte ≠ 127)) ||
          decide (byte = 9)) = true) :
    Admission where
  agent := agent
  request :=
    { method := "PUT".toList
      path := path.toList
      headers :=
        [("content-type".toList,
          fieldOf ("text/turtle".toList ++ version.toList) checked)]
      query := none
      body := Text.utf8 (document body) }
  draws := draws

/-- The owner creates `/note` and lets a friend write it. -/
def sharing : List Admission :=
  [sends ownerAgent "/note" "" [] (by decide),
    sends ownerAgent "/.aux/note.acl" "" sharedAclQuads (by decide)]

/-- The friend and a stranger write `/note` at once. -/
def writing : List Admission :=
  [sends (.webId friendIri) "/note" ";version=1.2" statedQuads (by decide),
    sends .anonymous "/note" "" [] (by decide)]

/-- The turns of the two, one after the other. -/
def sharingTurns : List (Turn stores) :=
  List.replicate 10 ⟨0, none⟩ ++ List.replicate 4 ⟨1, none⟩

/-- The provisioning. -/
def provisioningRun : Config stores ResourceError Unit World :=
  Config.execute backend (List.replicate 5 ⟨0, none⟩)
    (Config.start World.empty [provision podSpace owner true uuid])

/-- The sharing. -/
def sharingRun : Config stores Response Response World :=
  Config.execute backend sharingTurns
    (Config.start provisioningRun.world (sharing.map fun admission =>
      dispatch podApp admission.agent admission.request admission.draws))

/-- The pod once the friend may write `/note`. -/
def sharedWorld : World := sharingRun.world

/-- The pod's life until then. -/
def sharedPhases : List Phase :=
  [provisioned, .serving sharing sharingTurns]

theorem sharedWorld_eq :
    sharedPhases.foldl (Phase.after podApp) World.empty = sharedWorld := by
  simp only [sharedPhases, List.foldl_cons, List.foldl_nil, provisioned,
    Phase.after]
  rfl

/-- What the two put into the stores. -/
def additions : List (Text × GroundTriple) :=
  (provisioningRun.history.flatMap fun entry => entry.2.adds) ++
    sharingRun.history.flatMap fun entry => entry.2.adds

/-- A statement that names the friend or a class of agents. -/
abbrev NamesOthers (triple : GroundTriple) : Prop :=
  triple.predicate.iri = aclAgentClassIri ∨
    triple.predicate.iri = aclAgentIri ∧
      triple.object = .namedNode friend

/-- A statement that grants control. -/
abbrev GivesControl (triple : GroundTriple) : Prop :=
  triple.predicate.iri = aclModeIri ∧
    triple.object = .namedNode controlMode

/-- No rule that names others grants them control. -/
theorem additions_unnamed :
    ∀ named ∈ additions,
      NamesOthers named.2 →
      ∀ given ∈ additions,
        GivesControl given.2 → named.2.subject ≠ given.2.subject := by
  decide +kernel

theorem mem_additions {name : Text} {triple : GroundTriple}
    (isThere : triple ∈ sharedWorld.graphs name) :
    (name, triple) ∈ additions := by
  refine List.mem_append.mpr ?_
  unfold sharedWorld sharingRun at isThere
  rcases mem_history provisioningRun.world _ sharingTurns isThere with
      before | ⟨entry, inHistory, adds⟩
  · unfold provisioningRun at before
    rcases mem_history World.empty _ _ before with
        inEmpty | ⟨entry, inHistory, adds⟩
    · cases inEmpty
    · exact Or.inl (List.mem_flatMap.mpr ⟨entry, inHistory, adds⟩)
  · exact Or.inr (List.mem_flatMap.mpr ⟨entry, inHistory, adds⟩)

/-- What a document states was added, about a named subject. -/
theorem added_of_states
    {iri : Text} {subject : NamedOrBlankNode} {predicate object : Text}
    (states : States (sharedWorld.triplesOf iri) subject predicate object) :
    ∃ triple,
      (iri, triple) ∈ additions ∧ subject = .namedNode triple.subject ∧
        triple.predicate.iri = predicate ∧
        ∃ node, triple.object = .namedNode node ∧ node.iri = object := by
  obtain ⟨_, member, rfl, isPredicate, node, isObject, isIri⟩ := states
  obtain ⟨stored, isThere, rfl⟩ := List.mem_map.mp member
  refine ⟨stored, mem_additions isThere, rfl, isPredicate, node, ?_, isIri⟩
  cases object : stored.object with
  | namedNode other =>
      rw [GroundTriple.toTriple, object] at isObject
      cases isObject
      rfl
  | literal content =>
      rw [GroundTriple.toTriple, object] at isObject
      cases isObject
  | triple inner innerPredicate innerObject =>
      rw [GroundTriple.toTriple, object] at isObject
      cases isObject

/-- The friend and strangers. -/
def IsOther (agent : Agent) : Prop :=
  agent = .webId friendIri ∨ agent = .anonymous

/-- The friend and strangers control nothing. -/
theorem uncontrolled_sharedWorld :
    sharedWorld.Uncontrolled podSpace IsOther := by
  refine World.uncontrolled_of_unnamed ?_
  intro agent isOther aux subject covers gives
  obtain ⟨given, isGiven, isSubject, isMode, node, isControl, isIri⟩ :=
    added_of_states gives
  have control : GivesControl given :=
    ⟨isMode, isControl.trans (congrArg _ (NamedNode.ext_iri isIri))⟩
  have contradicts
      {named : GroundTriple} (isNamed : (aux.iri, named) ∈ additions)
      (sameSubject : subject = .namedNode named.subject)
      (names : NamesOthers named) : False := by
    refine additions_unnamed _ isNamed names _ isGiven control ?_
    exact NamedOrBlankNode.namedNode.inj (sameSubject.symm.trans isSubject)
  rcases covers with everyone | ⟨webId, rfl, authenticated | own⟩
  · obtain ⟨named, isNamed, sameSubject, isClass, _⟩ :=
      added_of_states everyone
    exact contradicts isNamed sameSubject (Or.inl isClass)
  · obtain ⟨named, isNamed, sameSubject, isClass, _⟩ :=
      added_of_states authenticated
    exact contradicts isNamed sameSubject (Or.inl isClass)
  · obtain ⟨named, isNamed, sameSubject, isAgent, node, isObject, rfl⟩ :=
      added_of_states own
    rcases isOther with isFriend | impossible
    · refine contradicts isNamed sameSubject (Or.inr ⟨isAgent, ?_⟩)
      refine isObject.trans (congrArg _ (NamedNode.ext_iri ?_))
      exact Agent.webId.inj isFriend
    · cases impossible

/-- The friend's turns, with a stranger's in between. -/
def writingTurns : List (Turn stores) :=
  List.replicate 3 ⟨0, none⟩ ++ ⟨1, none⟩ :: List.replicate 6 ⟨0, none⟩ ++
    ⟨1, none⟩ :: List.replicate 3 ⟨0, none⟩

/-- The friend stored a statement, which was not there before. -/
theorem written_writing :
    (⟨owner, plainPredicate, .triple owner plainPredicate (.namedNode owner)⟩ :
        GroundTriple) ∈
        ((Phase.serving writing writingTurns).after podApp
          sharedWorld).graphs note.iri ∧
      (⟨owner, plainPredicate,
          .triple owner plainPredicate (.namedNode owner)⟩ : GroundTriple) ∉
        sharedWorld.graphs note.iri := by
  decide +kernel

/-- The friend writes, a stranger tries to, and no decision changes. -/
theorem no_escalation_writing :
    let world := sharedPhases.foldl (Phase.after podApp) World.empty
    let reached := (Phase.serving writing writingTurns).after podApp world
    (∃ triple ∈ reached.graphs note.iri, triple ∉ world.graphs note.iri) ∧
      ∀ (agent : Agent) (url : ResourceUrl podApp.space) (mode : Mode),
        reached.decision agent url mode = world.decision agent url mode := by
  have uncontrolled :
      (sharedPhases.foldl (Phase.after podApp) World.empty).Uncontrolled
        podSpace IsOther := by
    rw [sharedWorld_eq]
    exact uncontrolled_sharedWorld
  have members : ∀ admission ∈ writing, IsOther admission.agent := by
    intro admission member
    simp only [writing, List.mem_cons, List.not_mem_nil, or_false] at member
    rcases member with rfl | rfl
    · exact Or.inl rfl
    · exact Or.inr rfl
  refine ⟨?_, no_escalation uncontrolled members writingTurns⟩
  rw [sharedWorld_eq]
  exact ⟨_, written_writing⟩

end Quadpod.Reference
