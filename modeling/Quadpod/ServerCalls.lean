import Quadpod.AuxiliaryReports
import Quadpod.ConditionalRaces
import Quadpod.ContainmentCoherence
import Quadpod.ServerRuns

namespace Quadpod

open AtomicProgram
open GraphStore

/-!
# Every call of the server

The calls that provisioning and the handlers issue, in one list, each with what
the code checked or read before it.  Whatever its own checks and the answers to
its own calls say, a handler issues calls of this list only: no other request
has to stand still for that, so it holds in every interleaving.
-/

variable [IriSyntax] [Sha256] [ObjectPath] {space : StorageSpace}

/-! ## The list -/

/-- The entry of a container for a direct child of it. -/
def ListsChild
    (container : ContainerUrl space) (triple : GroundTriple) : Prop :=
  ∃ child : ResourceUrl space,
    child.parent = some container ∧
      triple = containmentTriple container child.node

/--
What is known about some agents and the answers they get: the auxiliaries their
requests may write, those their deletions may take along, and the containers
that may be written or deleted themselves.
-/
structure Regime (space : StorageSpace) where
  agents : Agent → Prop
  writes : AuxUrl space → Prop
  drops : AuxUrl space → Prop
  rewrites : ContainerUrl space → Prop
  answers : (call : Call) → Except Text call.Reply → Prop

/-- A target is no container that is to be left alone. -/
def Regime.Takes (regime : Regime space) (target : Target space) : Prop :=
  ∀ container, target = .container container → regime.rewrites container

/-- The call that replaces an auxiliary behind its subject. -/
abbrev replaceAuxCall
    (aux : AuxUrl space) (triples : List GroundTriple) : Call :=
  .update
    [.clearWhere (graphIri aux) (subjectPresentGuard aux),
      .insertWhere
        [(graphIri aux, triples), (sysGraphIri aux, [presenceMarker aux.node])]
        (subjectPresentGuard aux)]

/-- The call that replaces a container. -/
abbrev replaceContainerCall
    (container : ContainerUrl space) (triples : List GroundTriple) : Call :=
  .update
    [.drop (graphIri container), .insertData [(graphIri container, triples)],
      markPresent container]

/-- One call of provisioning or of a handler. -/
inductive ServerCall (regime : Regime space) : Call → Prop where
  | read {call : Call} (reads : call.Reads) : ServerCall regime call
  | putObject
      (url : ResourceUrl space) (leaf : Text.endsWith ['/'] url.path = false)
      (key : BlobKey) (bytes : Bytes)
      (keyed : BlobKey.of url = some key) :
      ServerCall regime (.blobPut key bytes)
  | deleteObject (key : BlobKey) : ServerCall regime (.blobDelete key)
  | putDataset
      (url : ResourceUrl space) (leaf : Text.endsWith ['/'] url.path = false)
      (registered : List ShelfKey) (shelves : ShelvesOf url registered)
      (body : Skolemized) (format : Format) :
      ServerCall regime
        (.update
          (putDatasetUpdate url registered (Buckets.of url body)
            format.mediaType))
  | putBlob
      (url : ResourceUrl space) (leaf : Text.endsWith ['/'] url.path = false)
      (registered : List ShelfKey) (shelves : ShelvesOf url registered)
      (mediaType : MediaType) :
      ServerCall regime (.update (putBlobUpdate url registered mediaType))
  | deleteSubject
      (url : ResourceUrl space) (registered : List ShelfKey)
      (shelves : ShelvesOf url registered)
      (may : ∀ kind, regime.drops (url.aux kind))
      (takes :
        ∀ container : ContainerUrl space,
          url = container.resource → regime.rewrites container) :
      ServerCall regime (.update (deleteSubjectUpdate url registered))
  | patchResource
      (url : ResourceUrl space) (leaf : Text.endsWith ['/'] url.path = false)
      (deletions insertions : List TemplateTriple) :
      ServerCall regime (.modify (graphIri url) deletions insertions [])
  | patchContainer
      (container : ContainerUrl space) (may : regime.rewrites container)
      (deletions insertions : List TemplateTriple)
      (unlisted :
        ∀ template ∈ insertions, ∀ triple,
          template.ground = some triple → triple.predicate ≠ ldpContains) :
      ServerCall regime
        (.modify (graphIri container) deletions insertions [])
  | patchAux
      (aux : AuxUrl space) (may : regime.writes aux)
      (deletions insertions : List TemplateTriple) :
      ServerCall regime
        (.modify (graphIri aux) deletions insertions
          (subjectPresentGuard aux))
  | putAux
      (aux : AuxUrl space) (may : regime.writes aux)
      (triples : List GroundTriple) :
      ServerCall regime (replaceAuxCall aux triples)
  | deleteAux (aux : AuxUrl space) (may : regime.writes aux) :
      ServerCall regime
        (.update [.drop (graphIri aux), .drop (sysGraphIri aux)])
  | replaceContainer
      (container : ContainerUrl space) (may : regime.rewrites container)
      (triples : List GroundTriple)
      (listed :
        ∀ triple ∈ triples,
          triple.predicate = ldpContains → ListsChild container triple) :
      ServerCall regime (replaceContainerCall container triples)
  | ensure (container : ContainerUrl space) :
      ServerCall regime (ensureCall container)
  | link
      (container : ContainerUrl space) (child : ResourceUrl space)
      (isChild : child.parent = some container) :
      ServerCall regime (linkCall container child.node)

omit [Sha256] [ObjectPath] in
theorem Regime.Takes.subject
    {regime : Regime space} {target : Target space}
    (takes : regime.Takes target) (notAux : target.isAux = false)
    (container : ContainerUrl space)
    (same : target.subject = container.resource) :
    regime.rewrites container := by
  cases target with
  | resource url leaf =>
      obtain rfl : url = container.resource := same
      rw [container.slash] at leaf
      cases leaf
  | container url =>
      exact takes container
        (congrArg Target.container (ContainerUrl.ext_resource same))
  | aux url =>
      cases notAux

/-- What is known of the answer to a read of a container. -/
def ListingAnswer (space : StorageSpace) :
    (call : Call) → Except Text call.Reply → Prop
  | .queryTriples graph _ _, reply =>
      ∀ (container : ContainerUrl space) (triples : List Triple),
        graph = graphIri container →
        reply = .ok triples →
        ∀ triple ∈ triples,
          triple.predicate = ldpContains →
          ∃ stored : GroundTriple,
            triple = stored.toTriple ∧ ListsChild container stored
  | _, _ => True

/-- The rule the server follows. -/
def serverRule (regime : Regime space) : Rule stores where
  permits call := ServerCall regime call
  answers := regime.answers

/-- A program all of whose calls are calls of the server. -/
abbrev Scripted (regime : Regime space) {ε α : Type}
    (program : StoreProgram ε α) : Prop :=
  program.Obeys (serverRule regime) fun _ => True

/-- What a guard that admits a request says about auxiliaries. -/
structure Regime.Admits
    (regime : Regime space) (guard : Guard space) (target : Target space) :
    Prop where
  writes :
    ∀ aux mode decision,
      target = .aux aux →
      guard.authorize mode = .ok decision →
      regime.writes aux
  drops :
    ∀ decisions,
      AuxKind.all.mapM guard.authorizeAux = .ok decisions →
      ∀ kind, regime.drops (target.subject.aux kind)

/-- Answers and guards are what the regime takes them for. -/
structure Regime.Lawful (regime : Regime space) : Prop where
  registry :
    ∀ call reply, regime.answers call reply → RegistryAnswer space call reply
  listing :
    ∀ call reply, regime.answers call reply → ListingAnswer space call reply
  probed :
    ∀ (agent : Agent) (target : Target space),
      regime.agents agent →
      (Guard.probe agent target).Obeys (serverRule regime) fun result =>
        ∀ guard, result = .ok guard → regime.Admits guard target

/-! ## How programs are composed -/

variable {regime : Regime space}

namespace Scripted

variable {ε ε' α β : Type} {program : StoreProgram ε α}

theorem bind
    {next : α → StoreProgram ε β}
    (first : Scripted regime program)
    (continues : ∀ value, Scripted regime (next value)) :
    Scripted regime (program >>= next) :=
  Program.Obeys.bind first (fun value _ => continues value)
    fun _ _ => trivial

theorem mapError {translate : ε → ε'} (scripted : Scripted regime program) :
    Scripted regime (program.mapError translate) :=
  Program.Obeys.mapError scripted

theorem attempt (scripted : Scripted regime program) :
    Scripted regime (program.attempt : StoreProgram ε' (Except ε α)) :=
  Program.Obeys.attempt scripted

/-- After a check its result is known. -/
theorem ofExcept_bind
    {result : Except ε α} {next : α → StoreProgram ε β}
    (continues : ∀ value, result = .ok value → Scripted regime (next value)) :
    Scripted regime (Program.ofExcept result >>= next) := by
  cases result with
  | ok value =>
      exact continues value rfl
  | error error =>
      exact trivial

theorem issue
    {translate : StoreError → ε} {call : Call}
    (isCall : ServerCall regime call) :
    Scripted regime (StoreProgram.issue translate call) :=
  StoreProgram.obeys_issue isCall (fun _ _ => trivial) fun _ => trivial

end Scripted

theorem ReadsOnly.scripted
    {ε α : Type} {program : StoreProgram ε α} (reads : ReadsOnly program) :
    Scripted regime program :=
  Program.Uses.obeys reads fun _ isRead => .read isRead

theorem Scripted.ofExcept {ε α : Type} (result : Except ε α) :
    Scripted regime (Program.ofExcept result : StoreProgram ε α) :=
  ReadsOnly.scripted (Program.uses_ofExcept result)

/-! ## The storage operations -/

section Operations

/-- The registry is read before what it lists is dropped. -/
theorem scripted_registeredShelves_bind
    {α : Type} (lawful : regime.Lawful) {url : ResourceUrl space}
    {next : List ShelfKey → ResourceProgram α}
    (continues :
      ∀ registered,
        ShelvesOf url registered → Scripted regime (next registered)) :
    Scripted regime (registeredShelves url >>= next) := by
  have asked :
      (StoreProgram.issue ResourceError.store
        (.queryTriples (sysGraphIri url) (some url.node)
          (some sysHasSubgraph))).Obeys (serverRule regime) fun result =>
        ∀ triples,
          result = .ok triples →
          ShelvesOf url
            ((objectNodes triples).map ShelfKey.fromRegistry) := by
    refine StoreProgram.obeys_issue (.read ⟨rfl, fun _ => rfl⟩) ?_ ?_
    · rintro reply answered triples isReply
      cases isReply
      exact lawful.registry _ _ answered url reply rfl rfl rfl rfl
    · rintro message triples isReply
      cases isReply
  have read :
      (registeredShelves url).Obeys (serverRule regime) fun result =>
        ∀ registered, result = .ok registered → ShelvesOf url registered := by
    refine asked.bind ?_ ?_
    · rintro triples shelves registered isRegistered
      cases isRegistered
      exact shelves triples rfl
    · rintro error _ registered isRegistered
      cases isRegistered
  exact read.bind
    (fun registered shelves => continues registered (shelves registered rfl))
    fun _ _ => trivial

theorem scripted_deleteBlob (url : ResourceUrl space) :
    Scripted regime (deleteBlob url) := by
  unfold deleteBlob
  split
  · exact .issue (.deleteObject _)
  · trivial

theorem scripted_putDataset
    (lawful : regime.Lawful) {url : ResourceUrl space}
    (leaf : Text.endsWith ['/'] url.path = false)
    (body : Skolemized) (format : Format) :
    Scripted regime (putDataset url body format) := by
  refine scripted_registeredShelves_bind lawful fun registered shelves => ?_
  split
  · exact (Scripted.issue (.putDataset url leaf registered shelves _ _)).bind
      fun _ => scripted_deleteBlob url
  · trivial

theorem scripted_putBlob
    (lawful : regime.Lawful) {url : ResourceUrl space}
    (leaf : Text.endsWith ['/'] url.path = false)
    (bytes : Bytes) (mediaType : MediaType) :
    Scripted regime (putBlob url bytes mediaType) := by
  unfold putBlob
  split
  · trivial
  · next key keyed =>
      refine scripted_registeredShelves_bind lawful fun registered shelves => ?_
      exact (Scripted.issue (.putObject url leaf key bytes keyed)).bind
        fun _ => .issue (.putBlob url leaf registered shelves mediaType)

theorem scripted_deleteSubject
    (lawful : regime.Lawful) (url : ResourceUrl space)
    (may : ∀ kind, regime.drops (url.aux kind))
    (takes :
      ∀ container : ContainerUrl space,
        url = container.resource → regime.rewrites container) :
    Scripted regime (deleteSubject url) := by
  refine (ReadsOnly.scripted (readsOnly_exists url)).bind fun existed => ?_
  refine scripted_registeredShelves_bind lawful fun registered shelves => ?_
  refine (Scripted.issue (.deleteSubject url registered shelves may takes)).bind
    fun _ => ?_
  exact (scripted_deleteBlob url).bind fun _ => trivial

theorem scripted_deleteRdf {aux : AuxUrl space} (may : regime.writes aux) :
    Scripted regime (deleteRdf aux) :=
  (ReadsOnly.scripted (readsOnly_exists aux)).bind fun _ =>
    (Scripted.issue (.deleteAux aux may)).bind fun _ => trivial

theorem scripted_auxPut
    (fresh : Nat → Uuid) {aux : AuxUrl space} (may : regime.writes aux)
    (triples : List Triple) :
    Scripted regime (auxPut fresh aux triples) := by
  unfold auxPut
  split
  · trivial
  · refine (Scripted.issue (.putAux aux may _)).bind fun _ => ?_
    refine (ReadsOnly.scripted (readsOnly_exists aux).mapError).bind
      fun isPresent => ?_
    cases isPresent
    · trivial
    · trivial

/-- A patch reads, and changes the graph it is for by what it substituted. -/
theorem scripted_patchGuarded
    {Url : Type} [GraphUrl Url] {url : Url} {patch : Patch}
    {guard : Condition Text GroundTriple}
    (changes :
      ∀ bindings deletions insertions,
        substitute patch.insertions bindings = .ok insertions →
        ServerCall regime
          (.modify (graphIri url) deletions insertions guard)) :
    Scripted regime (patchGuarded url patch guard) := by
  have applies :
      ∀ bindings, Scripted regime (applyPatch url patch guard bindings) := by
    intro bindings
    refine Scripted.ofExcept_bind fun deletions _ => ?_
    refine Scripted.ofExcept_bind fun insertions substituted => ?_
    have modified :
        ∀ before : Bool,
          Scripted regime
            (do
              StoreProgram.issue .store
                (.modify (graphIri url) deletions insertions guard)
              if !deletions.isEmpty && !before then
                pure .deletionMissing
              else
                pure .applied : ResourceProgram PatchResult) := by
      intro before
      refine (Scripted.issue
        (changes bindings deletions insertions substituted)).bind fun _ => ?_
      split
      · trivial
      · trivial
    split
    · trivial
    · dsimp only
      split
      · exact modified false
      · exact (Scripted.issue (.read ⟨rfl, fun _ => rfl⟩)).bind modified
  unfold patchGuarded
  split
  · exact applies []
  · refine (Scripted.issue (.read ⟨rfl, fun _ => rfl⟩)).bind
      fun solutions => ?_
    split
    · trivial
    · exact applies _
    · trivial

theorem scripted_auxPatch
    {aux : AuxUrl space} (may : regime.writes aux) (patch : Patch) :
    Scripted regime (auxPatch aux patch) := by
  have present :
      ∀ {Url : Type} [GraphUrl Url] (url : Url),
        Scripted regime (AuxProgram.ofResource (exists? url)) := fun url =>
    ReadsOnly.scripted (readsOnly_exists url).mapError
  refine (present aux).bind fun isPresent => ?_
  cases isPresent with
  | false =>
      refine (present aux.subject).bind fun subjectPresent => ?_
      cases subjectPresent
      · trivial
      · trivial
  | true =>
      have patched :
          Scripted regime
            (AuxProgram.ofResource
              (patchGuarded aux patch (subjectPresentGuard aux))) :=
        (scripted_patchGuarded fun _ deletions insertions _ =>
          .patchAux aux may deletions insertions).mapError
      refine patched.bind fun result => ?_
      refine (present aux).bind fun stillPresent => ?_
      cases stillPresent
      · trivial
      · trivial

theorem scripted_ensureContainer (container : ContainerUrl space) :
    Scripted regime (ensureContainer container) :=
  .issue (.ensure container)

/-- A container is written with entries for direct children only. -/
theorem scripted_writeContainer
    {fresh : Nat → Uuid} {container : ContainerUrl space}
    (may : regime.rewrites container) {triples : List Triple}
    (listed :
      ∀ triple ∈ triples,
        triple.predicate = ldpContains →
        ∃ stored : GroundTriple,
          triple = stored.toTriple ∧ ListsChild container stored) :
    Scripted regime (writeContainer fresh container triples) := by
  have storedListed :
      ∀ stored ∈ skolemizedTriples fresh triples,
        stored.predicate = ldpContains → ListsChild container stored := by
    intro stored member isEntry
    obtain ⟨triple, inBody, same, isGround⟩ := mem_skolemizedTriples member
    obtain ⟨ground, isTriple, lists⟩ :=
      listed triple inBody (same.trans isEntry)
    rw [isGround ground isTriple]
    exact lists
  exact (Scripted.issue
    (.replaceContainer container may _ storedListed)).bind
      fun _ => scripted_ensureContainer container

end Operations

/-! ## Provisioning -/

theorem scripted_provision [RdfParser]
    (may : regime.writes space.root.resource.acl) (ownerWebId : NamedNode)
    (reset : Bool) (fresh : Nat → Uuid) :
    Scripted regime (provision space ownerWebId reset fresh) := by
  refine (scripted_ensureContainer space.root).bind fun _ => ?_
  refine (ReadsOnly.scripted (readsOnly_exists _)).bind fun present => ?_
  split
  · trivial
  · refine (scripted_ensureContainer space.root).bind fun _ => ?_
    refine Scripted.ofExcept_bind fun dataset _ => ?_
    refine (scripted_auxPut _ may _).attempt.bind fun result => ?_
    split
    · trivial
    · trivial
    · trivial

/-! ## The walk -/

omit [Sha256] [ObjectPath] in
/-- Whatever a guard has read, a walk records each element in its parent. -/
theorem Guard.walk_links
    {guard : Guard space} :
    ∀ (ancestors : List (ContainerUrl space)) (url : ResourceUrl space)
      (index : Nat) (child : NamedNode) (record : Bool)
      (walk : Guard.Walk space),
      url.ancestors = ancestors →
      (record = true → child = url.node) →
      guard.walk ancestors index child record = .ok walk →
      ∀ container linked,
        (container, some linked) ∈ walk.plan →
        ∃ member : ResourceUrl space,
          linked = member.node ∧ member.parent = some container := by
  intro ancestors
  induction ancestors with
  | nil =>
      intro url index child record walk _ _ walked container linked inPlan
      cases walked
      cases inPlan
  | cons ancestor rest inductionHypothesis =>
      intro url index child record walk isAbove isChild walked container
        linked inPlan
      obtain ⟨isParent, above⟩ :
          url.parent = some ancestor ∧
            ancestor.resource.ancestors = rest := by
        rw [ResourceUrl.ancestors_eq] at isAbove
        cases parent : url.parent with
        | none =>
            rw [parent] at isAbove
            cases isAbove
        | some first =>
            rw [parent] at isAbove
            cases isAbove
            exact ⟨rfl, rfl⟩
      have ofStep :
          (container, some linked) =
            (ancestor, if record = true then some child else none) →
          ∃ member : ResourceUrl space,
            linked = member.node ∧ member.parent = some container := by
        intro isStep
        rw [Prod.mk.injEq] at isStep
        obtain ⟨rfl, isLinked⟩ := isStep
        split at isLinked
        · next isRecorded =>
            cases isLinked
            exact ⟨url, isChild isRecorded, isParent⟩
        · cases isLinked
      unfold Guard.walk at walked
      dsimp only at walked
      split at walked
      · cases walked
        cases inPlan
      · cases decided : guard.decideFrom (index + 1) .append with
        | error denial =>
            rw [decided] at walked
            cases walked
        | ok decision =>
            rw [decided] at walked
            dsimp only [bind, Except.bind] at walked
            split at walked
            · cases walked
              exact ofStep (List.mem_singleton.mp inPlan)
            · cases recursion :
                  guard.walk rest (index + 1) ancestor.node true with
              | error denial =>
                  rw [recursion] at walked
                  cases walked
              | ok higher =>
                  rw [recursion] at walked
                  cases walked
                  rcases List.mem_cons.mp inPlan with isStep | inHigher
                  · exact ofStep isStep
                  · exact inductionHypothesis ancestor.resource _ _ _ _ above
                      (fun _ => rfl) recursion container linked inHigher

omit [Sha256] [ObjectPath] in
/-- What a request materializes is recorded in its parent. -/
theorem Guard.authorizeWalk_links
    {guard : Guard space} {walk : Guard.Walk space}
    (walked : guard.authorizeWalk = .ok walk)
    {container : ContainerUrl space} {linked : NamedNode}
    (inPlan : (container, some linked) ∈ walk.plan) :
    ∃ member : ResourceUrl space,
      linked = member.node ∧ member.parent = some container := by
  obtain ⟨rest, climbed, samePlan, _⟩ := Guard.authorizeWalk_eq_ok walked
  rw [samePlan] at inPlan
  refine Guard.walk_links guard.target.subject.ancestors
    guard.target.subject 0 _ _ rest rfl ?_ climbed container linked inPlan
  intro isMember
  refine Target.node_eq_subject ?_
  rw [Guard.isMember, Bool.and_eq_true, Bool.not_eq_true'] at isMember
  exact isMember.1

theorem scripted_materializeFor (guard : Guard space) (target : Target space) :
    Scripted regime (materializeFor guard target) := by
  refine Scripted.mapError (Scripted.ofExcept_bind fun walk walked => ?_)
  have performed : Scripted regime (performPlan walk.plan) := by
    refine Program.Uses.obeys
      (uses_performPlan walk.plan fun _ isCall => isCall) ?_
    intro call isCall
    obtain ⟨⟨container, recorded⟩, inPlan, rfl | ⟨linked, rfl, rfl⟩⟩ :=
      mem_planCalls.mp isCall
    · exact .ensure container
    · obtain ⟨member, rfl, isParent⟩ :=
        Guard.authorizeWalk_links walked inPlan
      exact .link container member isParent
  exact performed.bind fun linked => trivial

/-! ## The handlers -/

section Handlers

omit [Sha256] [ObjectPath] in
/-- Triples with no entry among them list nothing. -/
theorem listed_of_unlisted
    {container : ContainerUrl space} {triples : List Triple}
    (unlisted : ∀ triple ∈ triples, triple.predicate ≠ ldpContains) :
    ∀ triple ∈ triples,
      triple.predicate = ldpContains →
      ∃ stored : GroundTriple,
        triple = stored.toTriple ∧ ListsChild container stored :=
  fun triple member isEntry => (unlisted triple member isEntry).elim

/-- A probe resolves a guard the regime answers for. -/
theorem scripted_probeFor_bind
    {α : Type} (lawful : regime.Lawful) {agent : Agent}
    (isAgent : regime.agents agent) {target : Target space}
    {next : Guard space → HttpProgram α}
    (continues :
      ∀ guard, regime.Admits guard target → Scripted regime (next guard)) :
    Scripted regime (probeFor agent target >>= next) := by
  have probed :
      (probeFor agent target).Obeys (serverRule regime) fun result =>
        ∀ guard, result = .ok guard → regime.Admits guard target := by
    refine Program.Obeys.mapError
      ((lawful.probed agent target isAgent).mono fun result holds => ?_)
    intro guard isGuard
    cases result with
    | ok found =>
        cases isGuard
        exact holds _ rfl
    | error denial =>
        cases isGuard
  exact probed.bind (fun guard admits => continues guard (admits guard rfl))
    fun _ _ => trivial

/-- Behind a decision the request was granted what it asked for. -/
theorem scripted_orDeny_bind
    {α β : Type} {target : Target space} {decision : Except Denial α}
    {next : α → HttpProgram β}
    (continues :
      ∀ value, decision = .ok value → Scripted regime (next value)) :
    Scripted regime (orDeny target decision >>= next) := by
  refine Scripted.ofExcept_bind fun value isOk => continues value ?_
  cases decision with
  | ok found =>
      cases isOk
      rfl
  | error denial =>
      cases isOk

theorem scripted_respond
    {target : Target space} {write : ResourceProgram Unit}
    (scripted : Scripted regime write) :
    Scripted regime (respond target write) := by
  refine scripted.attempt.bind fun result => ?_
  split
  · trivial
  · trivial

theorem scripted_respondBlob
    {target : Target space} {write : ResourceProgram Unit}
    (scripted : Scripted regime write) :
    Scripted regime (respondBlob target write) := by
  refine scripted.attempt.bind fun result => ?_
  split
  · trivial
  · trivial
  · trivial

theorem scripted_putAux
    (fresh : Nat → Uuid) (target : Target space) {aux : AuxUrl space}
    (may : regime.writes aux) (triples : List Triple) :
    Scripted regime (putAux fresh target aux triples) := by
  refine (scripted_auxPut fresh may triples).attempt.bind fun result => ?_
  split
  · trivial
  · trivial
  · trivial
  · trivial
  · trivial

/-- The members a container write keeps are those a read of it answered. -/
theorem scripted_putContainer
    (lawful : regime.Lawful) {fresh : Nat → Uuid} {target : Target space}
    {container : ContainerUrl space} (may : regime.rewrites container)
    {triples : List Triple}
    (unlisted : ∀ triple ∈ triples, triple.predicate ≠ ldpContains) :
    Scripted regime (putContainer fresh target container triples) := by
  have asked :
      (StoreProgram.issue ResourceError.store
        (.queryTriples (graphIri container) none none)).Obeys
          (serverRule regime) fun result =>
        ∀ stored,
          result = .ok stored →
          ∀ triple ∈ stored,
            triple.predicate = ldpContains →
            ∃ ground : GroundTriple,
              triple = ground.toTriple ∧ ListsChild container ground := by
    refine StoreProgram.obeys_issue (.read ⟨rfl, fun _ => rfl⟩) ?_ ?_
    · rintro reply answered stored isReply
      cases isReply
      exact lawful.listing _ _ answered container reply rfl rfl
    · rintro message stored isReply
      cases isReply
  have read :
      (Program.mapError putError (getRdf container)).Obeys
        (serverRule regime) fun result =>
        ∀ stored,
          result = .ok (some stored) →
          ∀ triple ∈ stored,
            triple.predicate = ldpContains →
            ∃ ground : GroundTriple,
              triple = ground.toTriple ∧ ListsChild container ground := by
    refine Program.Obeys.mapError ?_
    refine Program.Obeys.bind
      (ReadsOnly.scripted (readsOnly_exists container))
      (fun isPresent _ => ?_) ?_
    · cases isPresent with
      | false =>
          rintro stored isStored
          cases isStored
      | true =>
          refine asked.bind ?_ ?_
          · rintro triples listed stored isStored
            cases isStored
            exact listed triples rfl
          · rintro error _ stored isStored
            cases isStored
    · rintro error _ stored isStored
      cases isStored
  refine read.bind (fun existing listed => ?_) fun _ _ => trivial
  refine scripted_respond (scripted_writeContainer may ?_)
  intro triple member isEntry
  rcases List.mem_append.mp member with inBody | isKept
  · exact (unlisted triple inBody isEntry).elim
  · cases existing with
    | none =>
        cases isKept
    | some stored =>
        exact listed stored rfl triple (List.mem_filter.mp isKept).1 isEntry

variable [QuadText] [RdfParser] [RdfSerializer] [ShapeEngine]

theorem scripted_putRdfRepr
    (lawful : regime.Lawful) (guard : Guard space) {target : Target space}
    (may : ∀ aux, target = .aux aux → regime.writes aux)
    (takes : regime.Takes target) (headers : HeaderMap)
    (fresh : Nat → Uuid) (dataset : Dataset) (format : Format)
    (declared : RdfVersion) :
    Scripted regime
      (putRdfRepr guard target headers fresh dataset format declared) := by
  refine Scripted.ofExcept_bind fun _ checked => ?_
  refine (ReadsOnly.scripted (readsOnly_checkExisting _ _ _)).bind
    fun _ => ?_
  refine (ReadsOnly.scripted (readsOnly_checkConditionals _ _)).bind
    fun _ => ?_
  refine (ReadsOnly.scripted (readsOnly_enforceShape _ _)).bind
    fun findings => ?_
  refine (scripted_materializeFor guard target).bind fun _ => ?_
  dsimp only
  cases target with
  | aux aux =>
      exact (scripted_putAux _ _ (may aux rfl) _).bind fun _ => trivial
  | container container =>
      refine Scripted.bind ?_ fun _ => trivial
      exact scripted_putContainer lawful (takes container rfl) fun triple member =>
        not_containment_of_checkBody checked member
  | resource url leaf =>
      exact (scripted_respond (scripted_putDataset lawful leaf _ _)).bind
        fun _ => trivial

omit [RdfParser] [RdfSerializer] [ShapeEngine] in
theorem scripted_putBlobRepr
    (lawful : regime.Lawful) (guard : Guard space) (target : Target space)
    (headers : HeaderMap) (bytes : Bytes) (mediaType : MediaType) :
    Scripted regime (putBlobRepr guard target headers bytes mediaType) := by
  unfold putBlobRepr
  split
  · next url leaf =>
      split
      · trivial
      · refine (ReadsOnly.scripted (readsOnly_checkConditionals _ _)).bind
          fun _ => ?_
        refine (scripted_materializeFor _ _).bind fun _ => ?_
        exact scripted_respondBlob (scripted_putBlob lawful leaf _ _)
  · trivial

theorem scripted_putWrite
    (lawful : regime.Lawful) (storeVersion : RdfVersion) {agent : Agent}
    (isAgent : regime.agents agent) (target : Target space)
    (takes : regime.Takes target)
    (headers : HeaderMap) (body : Bytes) (draws : Draws) :
    Scripted regime
      (putWrite storeVersion agent target headers body draws) := by
  refine scripted_probeFor_bind lawful isAgent fun guard admits => ?_
  refine scripted_orDeny_bind fun decision authorized => ?_
  refine Scripted.ofExcept_bind fun repr _ => ?_
  cases repr with
  | blob bytes mediaType =>
      exact scripted_putBlobRepr lawful _ _ _ _ _
  | rdf dataset format declared =>
      exact scripted_putRdfRepr lawful _
        (fun aux isAux => admits.writes aux _ decision isAux authorized)
        takes _ _ _ _ _

/-- A `POST` may write the child it settles on. -/
def Regime.Allocates
    (regime : Regime space) (agent : Agent) (headers : HeaderMap)
    (draws : Draws) : Prop :=
  ∀ parent : ContainerUrl space,
    (allocateChild agent parent headers draws).Obeys (serverRule regime)
      fun result => ∀ settled, result = .ok settled → regime.Takes settled.2

theorem scripted_postImpl
    (lawful : regime.Lawful) (storeVersion : RdfVersion) (agent : Agent)
    (target : Target space) (headers : HeaderMap) (body : Bytes)
    (draws : Draws) (allocates : regime.Allocates agent headers draws) :
    Scripted regime
      (postImpl storeVersion agent target headers body draws) := by
  refine (ReadsOnly.scripted (readsOnly_probeFor agent target)).bind
    fun parentGuard => ?_
  refine (ReadsOnly.scripted (readsOnly_orDeny target _)).bind fun _ => ?_
  cases target with
  | container parent =>
      refine Program.Obeys.bind (allocates parent) ?_ fun _ _ => trivial
      rintro ⟨guard, child⟩ settles
      have takes : regime.Takes child := settles _ rfl
      refine Scripted.ofExcept_bind fun repr _ => ?_
      cases repr with
      | blob bytes mediaType =>
          dsimp only
          cases child with
          | resource url leaf =>
              unfold postBlobRepr
              dsimp only
              split
              · trivial
              · refine (scripted_materializeFor _ _).bind fun _ => ?_
                exact scripted_respondBlob (scripted_putBlob lawful leaf _ _)
          | container container =>
              exact trivial
          | aux aux =>
              exact trivial
      | rdf dataset format declared =>
          refine Scripted.ofExcept_bind fun _ checked => ?_
          refine (ReadsOnly.scripted (readsOnly_enforceShape _ _)).bind
            fun findings => ?_
          refine (scripted_materializeFor _ _).bind fun _ => ?_
          cases child with
          | resource url leaf =>
              exact (scripted_respond (scripted_putDataset lawful leaf _ _)).bind
                fun _ => trivial
          | container container =>
              refine (scripted_respond (scripted_writeContainer
                (takes container rfl) ?_)).bind fun _ => trivial
              exact listed_of_unlisted fun triple member =>
                not_containment_of_checkBody checked member
          | aux aux =>
              exact trivial
  | resource url leaf =>
      exact trivial
  | aux url =>
      exact trivial

omit [RdfParser] [RdfSerializer] [ShapeEngine] in
theorem scripted_patchExisting
    {target : Target space} (takes : regime.Takes target) {patch : Patch}
    (notAux : target.isAux = false)
    (contained : refuseContainment patch target = .ok ()) :
    Scripted regime (patchExisting target patch) := by
  cases target with
  | aux url =>
      cases notAux
  | resource url leaf =>
      have patched : Scripted regime (patchDataset url patch) :=
        scripted_patchGuarded fun _ deletions insertions _ =>
          .patchResource url leaf deletions insertions
      refine patched.attempt.bind fun result => ?_
      split
      · trivial
      · trivial
  | container container =>
      have patched :
          Scripted regime (patchDataset container.resource patch) := by
        refine scripted_patchGuarded fun _ deletions insertions isOk => ?_
        refine .patchContainer container (takes container rfl) deletions
          insertions ?_
        intro template member triple grounded
        obtain ⟨pattern, isPattern, named⟩ :=
          predicate_of_substitute isOk member grounded
        obtain ⟨node, isNamed, notContains⟩ :=
          not_containment_of_refuseContainment contained
            (List.mem_append_left _ isPattern)
        rw [named node isNamed]
        exact notContains
      refine patched.attempt.bind fun result => ?_
      split
      · trivial
      · refine (scripted_ensureContainer container).attempt.bind
          fun ensured => ?_
        split
        · trivial
        · trivial

omit [RdfParser] [RdfSerializer] [ShapeEngine] in
theorem scripted_createByPatch
    (lawful : regime.Lawful) {guard : Guard space} {target : Target space}
    (takes : regime.Takes target) {patch : Patch}
    (contained : refuseContainment patch target = .ok ())
    (fresh : Nat → Uuid) :
    Scripted regime (createByPatch guard target patch fresh) := by
  unfold createByPatch
  split
  · trivial
  · next triples ground =>
      split
      · trivial
      · refine (scripted_materializeFor _ _).bind fun _ => ?_
        cases target with
        | resource url leaf =>
            dsimp only
            split
            · exact scripted_respond (scripted_putDataset lawful leaf _ _)
            · trivial
        | container container =>
            refine scripted_respond (scripted_writeContainer
              (takes container rfl) ?_)
            exact listed_of_unlisted
              (not_containment_of_groundInsertions contained ground)
        | aux aux =>
            exact trivial

omit [RdfParser] [ShapeEngine] in
theorem scripted_patchImpl [N3Parser]
    (lawful : regime.Lawful) {agent : Agent}
    (isAgent : regime.agents agent) (target : Target space)
    (takes : regime.Takes target) (headers : HeaderMap)
    (body : Bytes) (draws : Draws) :
    Scripted regime (patchImpl agent target headers body draws) := by
  refine scripted_probeFor_bind lawful isAgent fun guard admits => ?_
  refine scripted_orDeny_bind fun decision authorized => ?_
  refine Scripted.ofExcept_bind fun _ _ => ?_
  refine Scripted.ofExcept_bind fun patch _ => ?_
  split
  · trivial
  · refine (ReadsOnly.scripted (readsOnly_refuseBinary target)).bind
      fun _ => ?_
    refine (ReadsOnly.scripted (readsOnly_patchShapeConflict target)).bind
      fun _ => ?_
    refine Scripted.ofExcept_bind fun _ contained => ?_
    refine (ReadsOnly.scripted (readsOnly_checkConditionals _ _)).bind
      fun _ => ?_
    have creates :
        target.isAux = false →
        Scripted regime
          (if guard.targetExists then
            patchExisting target patch
          else
            createByPatch guard target patch draws.blank) := by
      intro notAux
      split
      · exact scripted_patchExisting takes notAux contained
      · exact scripted_createByPatch lawful takes contained _
    cases target with
    | aux aux =>
        have may : regime.writes aux :=
          admits.writes aux _ decision rfl authorized
        refine (scripted_auxPatch may patch).attempt.bind fun result => ?_
        split
        · trivial
        · trivial
        · trivial
        · trivial
        · trivial
    | resource url leaf =>
        exact creates rfl
    | container container =>
        exact creates rfl

omit [QuadText] [RdfParser] [RdfSerializer] [ShapeEngine] in
theorem scripted_deleteImpl
    (lawful : regime.Lawful) {agent : Agent}
    (isAgent : regime.agents agent) (target : Target space)
    (takes : regime.Takes target) :
    Scripted regime (deleteImpl agent target) := by
  have deletesAux {aux : AuxUrl space} (may : regime.writes aux) :
      Scripted regime (deleteAux aux) := by
    refine (scripted_deleteRdf may).attempt.bind fun result => ?_
    split
    · trivial
    · trivial
    · trivial
  have refuses : Scripted regime (refuseDelete target) := by
    unfold refuseDelete
    split
    · next container =>
        split
        · trivial
        · refine (ReadsOnly.scripted
            (readsOnly_containerIsEmpty container)).attempt.bind
              fun result => ?_
          split
          · trivial
          · trivial
          · trivial
    · trivial
  have cascades (may : ∀ kind, regime.drops (target.subject.aux kind))
      (notAux : target.isAux = false) :
      Scripted regime (deleteCascade target) := by
    refine (scripted_deleteSubject lawful target.subject may
      (takes.subject notAux)).attempt.bind fun result => ?_
    split
    · trivial
    · trivial
    · trivial
  refine scripted_probeFor_bind lawful isAgent fun guard admits => ?_
  refine scripted_orDeny_bind fun decision authorized => ?_
  split
  · exact deletesAux (admits.writes _ _ decision rfl authorized)
  · next notAux =>
      refine (ReadsOnly.scripted (readsOnly_orDeny target _)).bind fun _ => ?_
      refine scripted_orDeny_bind fun decisions granted => ?_
      refine refuses.bind fun _ => cascades (admits.drops decisions granted) ?_
      cases target with
      | aux url =>
          exact (notAux url rfl).elim
      | resource url leaf =>
          rfl
      | container url =>
          rfl

/-- What a handler does on its target, whatever it finds. -/
theorem scripted_handleTarget [N3Parser]
    (lawful : regime.Lawful) (storeVersion : RdfVersion) {request : Request}
    (isAgent : regime.agents request.agent) {target : Target space}
    (takes : request.method ≠ .post → regime.Takes target)
    (allocates :
      request.method = .post →
        regime.Allocates request.agent request.headers request.draws) :
    Scripted regime (handleTarget storeVersion request target) := by
  unfold handleTarget
  split
  · next isPut =>
      exact scripted_putWrite lawful _ isAgent _ (takes (by simp [isPut]))
        _ _ _
  · next isPost =>
      exact scripted_postImpl lawful _ _ _ _ _ _ (allocates isPost)
  · next isPatch =>
      exact scripted_patchImpl lawful isAgent _ (takes (by simp [isPatch]))
        _ _ _
  · next isDelete =>
      exact scripted_deleteImpl lawful isAgent _
        (takes (by simp [isDelete]))

/-- A request on the target its path names. -/
theorem scripted_handle [N3Parser]
    (lawful : regime.Lawful) (storeVersion : RdfVersion) {request : Request}
    (isAgent : regime.agents request.agent)
    (takes :
      ∀ target,
        classify space request.path = .ok target →
        request.method ≠ .post → regime.Takes target)
    (allocates :
      request.method = .post →
        regime.Allocates request.agent request.headers request.draws) :
    Scripted regime (handle space storeVersion request) :=
  Scripted.ofExcept_bind fun target classified =>
    scripted_handleTarget lawful storeVersion isAgent
      (takes target classified) allocates

omit [QuadText] [RdfParser] [RdfSerializer] [ShapeEngine] in
/-- Where every container may be written, so may every child. -/
theorem Regime.allocates_of_all
    (all : ∀ container, regime.rewrites container) (agent : Agent)
    (headers : HeaderMap) (draws : Draws) :
    regime.Allocates agent headers draws := by
  intro parent
  have allocated :
      Scripted regime (allocateChild agent parent headers draws) := by
    refine Scripted.ofExcept_bind fun child _ => ?_
    refine (ReadsOnly.scripted (readsOnly_probeFor agent child)).bind
      fun guard => ?_
    split
    · refine Scripted.ofExcept_bind fun retried _ => ?_
      exact (ReadsOnly.scripted (readsOnly_probeFor agent retried)).bind
        fun _ => trivial
    · trivial
  exact allocated.mono fun _ _ _ _ container _ => all container

variable [N3Parser] [Quality] [WireFormats] [Josekit] [JoseSigning]

/-- Whatever the router does with a request, it issues calls of the list. -/
theorem scripted_dispatch
    {app : AppState} {regime : Regime app.space} (lawful : regime.Lawful)
    (all : ∀ container, regime.rewrites container)
    {agent : Agent} (isAgent : regime.agents agent) (request : HttpRequest)
    (draws : Draws) :
    Scripted regime (dispatch app agent request draws) := by
  have handles (verb : Verb) (path : Text) :
      Scripted regime
        (handlePath app agent verb request draws path) := by
    unfold handlePath
    split
    · exact Scripted.ofExcept_bind fun _ _ => trivial
    · split
      · trivial
      · refine Scripted.ofExcept_bind fun target _ => ?_
        exact scripted_handleTarget lawful _ isAgent
          (fun _ container _ => all container)
          fun _ => Regime.allocates_of_all all _ _ _
    · exact ReadsOnly.scripted (readsOnly_handleGet _ _ _ _ _ _)
  unfold dispatch
  split
  · trivial
  · trivial
  · exact handles _ _
  · split
    · exact handles _ _
    · trivial
  · split
    · split
      · trivial
      · trivial
      · trivial
    · trivial

end Handlers

end Quadpod
