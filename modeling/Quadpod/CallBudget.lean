import Quadpod.AtomicProgramCost
import Quadpod.EntityTags
import Quadpod.PostedChildren
import Quadpod.ServerCalls

namespace Quadpod

open AtomicProgram
open GraphStore

/-!
# What a request costs the triple store

The calls a request makes to the triple store are bounded, whatever the answers:
by a constant for each method, two for each shelf a dataset is read from, and
two for each container above the target that a write may have to create.
Nothing is said about the world the calls are answered in, so the bound holds
whatever other requests do in between.  A request that is refused is bounded like
any other of its method.  A notification reads on its own account and is not
counted.
-/

variable [IriSyntax] {space : StorageSpace}

/-! ## Charges and answers -/

/-- Calls to the triple store are counted, calls to the object store are not. -/
def storeCharge : Call → Nat
  | .blobPut _ _ => 0
  | .blobGet _ => 0
  | .blobDelete _ => 0
  | _ => 1

/-- The shelves a resource turned out to have. -/
def shelvesAnswered : Utterance stores → Nat
  | ⟨.queryTriples _ _ predicate, .ok triples⟩ =>
      if predicate = some sysHasSubgraph then
        (objectNodes triples).length
      else
        0
  | _ => 0

/-- Whether a container turned out to have a shape. -/
def shapeAnswered : Utterance stores → Bool
  | ⟨.queryTriples _ _ predicate, .ok triples⟩ =>
      if predicate = some ldpConstrainedBy then
        !(triples : List Triple).isEmpty
      else
        false
  | _ => false

/-- What makes a request dearer. -/
structure Load where
  /-- shelves of one resource, at most -/
  shelves : Nat
  /-- whether a container has a shape -/
  constrained : Bool

/-- What a request met with. -/
def Load.met (conversation : List (Utterance stores)) : Load where
  shelves := (conversation.map shelvesAnswered).foldr max 0
  constrained := conversation.any shapeAnswered

/-- An answer that is within a load. -/
def Load.Answers (load : Load) (call : Call) (reply : Except Text call.Reply) :
    Prop :=
  shelvesAnswered ⟨call, reply⟩ ≤ load.shelves ∧
    (shapeAnswered ⟨call, reply⟩ = true → load.constrained = true)

/-- Every answer of a conversation is within the load it met with. -/
theorem Load.answers_met {conversation : List (Utterance stores)}
    {exchange : Utterance stores} (member : exchange ∈ conversation) :
    (Load.met conversation).Answers exchange.request exchange.answer := by
  refine ⟨?_, fun shaped =>
    List.any_eq_true.mpr ⟨exchange, member, shaped⟩⟩
  change shelvesAnswered exchange ≤ _
  induction conversation with
  | nil =>
      cases member
  | cons first rest inductionHypothesis =>
      rcases List.mem_cons.mp member with rfl | inRest
      · exact Nat.le_max_left _ _
      · exact (inductionHypothesis inRest).trans (Nat.le_max_right _ _)

/-- The cost of a dataset, read shelf by shelf. -/
def Load.datasetCost (load : Load) : Nat :=
  3 + 2 * load.shelves

/-- The cost of looking for a shape, and of loading it. -/
def Load.shapeCost (load : Load) : Nat :=
  if load.constrained then 5 else 1

/-- The cost of the tags a conditional request is compared with. -/
def Load.conditionalCost (load : Load) (headers : HeaderMap) : Nat :=
  if !headers.containsKey .ifMatch && !headers.containsKey .ifNoneMatch then
    0
  else
    2 + load.datasetCost

/-- How many containers are above a target. -/
def Target.depth (target : Target space) : Nat :=
  target.subject.ancestors.length

/-- Enough credit for a program, and what it leaves. -/
abbrev Load.Affords (load : Load) {ε α : Type}
    (program : StoreProgram ε α) (credit : Nat)
    (post : Except ε α → Nat → Prop) : Prop :=
  Program.Affords storeCharge load.Answers program credit post

variable {load : Load} {credit : Nat}

theorem affords_issue {ε : Type} {translate : StoreError → ε} {call : Call}
    {post : Except ε call.Reply → Nat → Prop}
    (enough : storeCharge call ≤ credit)
    (answered :
      ∀ reply,
        load.Answers call (.ok reply) →
        post (.ok reply) (credit - storeCharge call))
    (failed :
      ∀ message,
        post (.error (translate (.backend message)))
          (credit - storeCharge call)) :
    load.Affords (StoreProgram.issue translate call) credit post := by
  refine ⟨enough, fun answer known => ?_⟩
  cases answer with
  | ok reply =>
      exact answered reply known
  | error message =>
      exact failed message

/-- One call to the triple store takes one, whatever it is answered. -/
theorem affords_one {ε : Type} {translate : StoreError → ε} {call : Call}
    (isOne : storeCharge call = 1) (enough : 1 ≤ credit) :
    load.Affords (StoreProgram.issue translate call) credit
      fun _ left => credit ≤ left + 1 :=
  affords_issue (by omega) (fun _ _ => by omega) fun _ => by omega

/-- A call to the object store takes nothing. -/
theorem affords_free {ε : Type} {translate : StoreError → ε} {call : Call}
    (isFree : storeCharge call = 0) :
    load.Affords (StoreProgram.issue translate call) credit
      fun _ left => credit ≤ left :=
  affords_issue (by omega) (fun _ _ => by omega) fun _ => by omega

/-- A check makes no call. -/
theorem affords_check {ε α : Type} {result : Except ε α} :
    load.Affords (Program.ofExcept result) credit fun checked left =>
      left = credit ∧ checked = result :=
  Program.affords_ofExcept ⟨rfl, rfl⟩

/-! ## Reading -/

theorem affords_exists {Url : Type} [GraphUrl Url] (url : Url)
    (enough : 1 ≤ credit) :
    load.Affords (exists? url) credit fun _ left => credit ≤ left + 1 :=
  affords_one rfl enough

theorem affords_getRdf {Url : Type} [GraphUrl Url] (url : Url)
    (enough : 2 ≤ credit) :
    load.Affords (getRdf url) credit fun _ left => credit ≤ left + 2 := by
  refine (affords_exists url (by omega)).bind (fun present left isLeft => ?_)
    fun _ left isLeft => by omega
  cases present with
  | false =>
      change credit ≤ left + 2
      omega
  | true =>
      refine (affords_one rfl (by omega)).bind (fun triples rest isRest => ?_)
        fun _ rest isRest => by omega
      change credit ≤ rest + 2
      omega

theorem affords_registeredShelves (url : ResourceUrl space)
    (enough : 1 ≤ credit) :
    load.Affords (registeredShelves url) credit fun result left =>
      credit ≤ left + 1 ∧
        ∀ keys, result = .ok keys → keys.length ≤ load.shelves := by
  have asked :
      load.Affords
        (StoreProgram.issue ResourceError.store
          (.queryTriples (sysGraphIri url) (some url.node)
            (some sysHasSubgraph))) credit fun result left =>
        credit ≤ left + 1 ∧
          ∀ triples,
            result = .ok triples →
            (objectNodes triples).length ≤ load.shelves := by
    refine affords_issue enough (fun reply known => ⟨?_, ?_⟩)
      fun message => ⟨?_, ?_⟩
    · change credit ≤ credit - 1 + 1
      omega
    · rintro triples isReply
      cases isReply
      have within := known.1
      rwa [shelvesAnswered, if_pos rfl] at within
    · change credit ≤ credit - 1 + 1
      omega
    · rintro triples isReply
      cases isReply
  refine asked.bind (fun triples left holds => ?_) fun error left holds => ?_
  · refine ⟨holds.1, ?_⟩
    rintro keys isKeys
    cases isKeys
    rw [List.length_map]
    exact holds.2 triples rfl
  · refine ⟨holds.1, ?_⟩
    rintro keys isKeys
    cases isKeys

theorem affords_storedMediaType (url : ResourceUrl space)
    (enough : 1 ≤ credit) :
    load.Affords (storedMediaType url) credit
      fun _ left => credit ≤ left + 1 :=
  (affords_one rfl enough).bind (fun _ _ isLeft => isLeft) fun _ _ isLeft =>
    isLeft

/-- The kind of a dataset is known before that of an object. -/
theorem affords_kindOf (url : ResourceUrl space) (enough : 3 ≤ credit) :
    load.Affords (kindOf url) credit fun result left =>
      credit ≤ left + 3 ∧
        (result = .ok none → credit ≤ left + 1) ∧
        (result = .ok (some .rdf) → credit ≤ left + 2) := by
  refine (affords_exists url (by omega)).bind (fun present left isLeft => ?_) ?_
  · cases present with
    | false =>
        refine ⟨by omega, fun _ => isLeft, ?_⟩
        rintro isRdf
        cases isRdf
    | true =>
        refine (affords_one rfl (by omega)).bind
          (fun binary rest isRest => ?_) ?_
        · cases binary with
          | false =>
              refine ⟨by omega, ?_, fun _ => by omega⟩
              rintro isNone
              cases isNone
          | true =>
              refine (affords_storedMediaType url (by omega)).bind
                (fun mediaType last isLast => ?_) ?_
              · cases mediaType with
                | none =>
                    refine ⟨by omega, ?_, ?_⟩
                    · rintro isNone
                      cases isNone
                    · rintro isRdf
                      cases isRdf
                | some mediaType =>
                    refine ⟨by omega, ?_, ?_⟩
                    · rintro isNone
                      cases isNone
                    · rintro isRdf
                      cases isRdf
              · rintro error last isLast
                refine ⟨by omega, ?_, ?_⟩
                · rintro isNone
                  cases isNone
                · rintro isRdf
                  cases isRdf
        · rintro error rest isRest
          refine ⟨by omega, ?_, ?_⟩
          · rintro isNone
            cases isNone
          · rintro isRdf
            cases isRdf
  · rintro error left isLeft
    refine ⟨by omega, ?_, ?_⟩
    · rintro isNone
      cases isNone
    · rintro isRdf
      cases isRdf

theorem affords_shelfQuads (url : ResourceUrl space) (keys : List ShelfKey)
    (enough : 2 * keys.length ≤ credit) :
    load.Affords (shelfQuads url keys) credit fun _ left =>
      credit ≤ left + 2 * keys.length := by
  induction keys generalizing credit with
  | nil =>
      change credit ≤ credit + 2 * 0
      omega
  | cons key rest inductionHypothesis =>
      rw [List.length_cons] at enough ⊢
      refine (affords_one rfl (by omega)).bind (fun names left isLeft => ?_)
        fun _ left isLeft => by omega
      split
      · change credit ≤ left + _
        omega
      · refine (affords_one rfl (by omega)).bind
          (fun triples middle isMiddle => ?_) fun _ middle isMiddle => by omega
        refine (inductionHypothesis (by omega)).bind
          (fun others last isLast => ?_) fun _ last isLast => by omega
        change credit ≤ last + _
        omega

theorem affords_getDataset (url : ResourceUrl space)
    (enough : load.datasetCost ≤ credit) :
    load.Affords (getDataset url) credit fun _ left =>
      credit ≤ left + load.datasetCost := by
  rw [Load.datasetCost] at enough ⊢
  refine (affords_exists url (by omega)).bind (fun present left isLeft => ?_)
    fun _ left isLeft => by omega
  cases present with
  | false =>
      change credit ≤ left + _
      omega
  | true =>
      refine (affords_one rfl (by omega)).bind
        (fun triples second isSecond => ?_) fun _ second isSecond => by omega
      refine (affords_registeredShelves url (by omega)).bind
        (fun keys third isThird => ?_) fun _ third isThird => by omega
      have few := isThird.2 keys rfl
      refine (affords_shelfQuads url keys (by omega)).bind
        (fun shelved last isLast => ?_) fun _ last isLast => by omega
      dsimp only
      split
      · change credit ≤ last + _
        omega
      · change credit ≤ last + _
        omega

/-! ## Writing -/

section Writes

variable [ObjectPath]

theorem affords_deleteBlob (url : ResourceUrl space) :
    load.Affords (deleteBlob url) credit fun _ left => credit ≤ left := by
  unfold deleteBlob
  split
  · exact affords_free rfl
  · exact Nat.le_refl credit

theorem affords_putDataset [Sha256] (url : ResourceUrl space)
    (dataset : Skolemized) (format : Format) (enough : 2 ≤ credit) :
    load.Affords (putDataset url dataset format) credit fun _ left =>
      credit ≤ left + 2 := by
  refine (affords_registeredShelves url (by omega)).bind
    (fun registered left isLeft => ?_) fun _ left isLeft => by omega
  split
  · refine (affords_one rfl (by omega)).bind (fun _ rest isRest => ?_)
      fun _ rest isRest => by omega
    exact (affords_deleteBlob url).weaken fun _ last isLast => by omega
  · change credit ≤ left + 2
    omega

theorem affords_putBlob (url : ResourceUrl space)
    (bytes : Bytes) (mediaType : MediaType) (enough : 2 ≤ credit) :
    load.Affords (putBlob url bytes mediaType) credit fun _ left =>
      credit ≤ left + 2 := by
  unfold putBlob
  split
  · change credit ≤ credit + 2
    omega
  · refine (affords_registeredShelves url (by omega)).bind
      (fun registered left isLeft => ?_) fun _ left isLeft => by omega
    refine (affords_free rfl).bind (fun _ middle isMiddle => ?_)
      fun _ middle isMiddle => by omega
    exact (affords_one rfl (by omega)).weaken fun _ last isLast => by omega

theorem affords_deleteSubject (url : ResourceUrl space)
    (enough : 3 ≤ credit) :
    load.Affords (deleteSubject url) credit fun _ left =>
      credit ≤ left + 3 := by
  refine (affords_exists url (by omega)).bind (fun existed left isLeft => ?_)
    fun _ left isLeft => by omega
  refine (affords_registeredShelves url (by omega)).bind
    (fun registered middle isMiddle => ?_) fun _ middle isMiddle => by omega
  refine (affords_one rfl (by omega)).bind (fun _ third isThird => ?_)
    fun _ third isThird => by omega
  refine (affords_deleteBlob url).bind (fun _ last isLast => ?_)
    fun _ last isLast => by omega
  change credit ≤ last + 3
  omega

end Writes

theorem affords_deleteRdf {Url : Type} [DirectlyDeletable Url] (url : Url)
    (enough : 2 ≤ credit) :
    load.Affords (deleteRdf url) credit fun _ left => credit ≤ left + 2 := by
  refine (affords_exists url (by omega)).bind (fun existed left isLeft => ?_)
    fun _ left isLeft => by omega
  refine (affords_one rfl (by omega)).bind (fun _ rest isRest => ?_)
    fun _ rest isRest => by omega
  change credit ≤ rest + 2
  omega

theorem affords_ensureContainer (container : ContainerUrl space)
    (enough : 1 ≤ credit) :
    load.Affords (ensureContainer container) credit fun _ left =>
      credit ≤ left + 1 :=
  affords_one rfl enough

theorem affords_writeContainer (fresh : Nat → Uuid)
    (container : ContainerUrl space) (triples : List Triple)
    (enough : 2 ≤ credit) :
    load.Affords (writeContainer fresh container triples) credit
      fun _ left => credit ≤ left + 2 := by
  refine (affords_one rfl (by omega)).bind (fun _ left isLeft => ?_)
    fun _ left isLeft => by omega
  exact (affords_ensureContainer container (by omega)).weaken
    fun _ rest isRest => by omega

theorem affords_auxPut (fresh : Nat → Uuid) (aux : AuxUrl space)
    (triples : List Triple) (enough : 2 ≤ credit) :
    load.Affords (auxPut fresh aux triples) credit fun _ left =>
      credit ≤ left + 2 := by
  unfold auxPut
  split
  · change credit ≤ credit + 2
    omega
  · refine (affords_one rfl (by omega)).bind (fun _ left isLeft => ?_)
      fun _ left isLeft => by omega
    refine (affords_exists aux (by omega)).mapError_left.bind
      (fun present rest isRest => ?_) fun _ rest isRest => by omega
    cases present
    · change credit ≤ rest + 2
      omega
    · change credit ≤ rest + 2
      omega

/-! ## Patching -/

section Patching

variable {Url : Type} [GraphUrl Url]

theorem affords_applyPatch (url : Url) (patch : Patch)
    (guard : Condition Text GroundTriple) (bindings : List Solution)
    (enough : 2 ≤ credit) :
    load.Affords (applyPatch url patch guard bindings) credit
      fun _ left => credit ≤ left + 2 := by
  have modified :
      ∀ (deletions insertions : List TemplateTriple) (before : Bool)
        (left : Nat),
        1 ≤ left →
        credit ≤ left + 1 →
        load.Affords
          (do
            StoreProgram.issue .store
              (.modify (graphIri url) deletions insertions guard)
            if !deletions.isEmpty && !before then
              pure .deletionMissing
            else
              pure .applied : ResourceProgram PatchResult) left
          fun _ rest => credit ≤ rest + 2 := by
    intro deletions insertions before left isEnough isLeft
    refine (affords_one rfl isEnough).bind (fun _ rest isRest => ?_)
      fun _ rest isRest => by omega
    split
    · change credit ≤ rest + 2
      omega
    · change credit ≤ rest + 2
      omega
  refine affords_check.bind (fun deletions second isSecond => ?_)
    fun _ second isSecond => by omega
  refine affords_check.bind (fun insertions third isThird => ?_)
    fun _ third isThird => by omega
  split
  · change credit ≤ third + 2
    omega
  · dsimp only
    split
    · exact modified deletions insertions false third (by omega) (by omega)
    · refine (affords_one rfl (by omega)).bind (fun before left isLeft => ?_)
        fun _ left isLeft => by omega
      exact modified deletions insertions before left (by omega) (by omega)

theorem affords_patchGuarded (url : Url) (patch : Patch)
    (guard : Condition Text GroundTriple) (enough : 3 ≤ credit) :
    load.Affords (patchGuarded url patch guard) credit
      fun _ left => credit ≤ left + 3 := by
  unfold patchGuarded
  split
  · exact (affords_applyPatch url patch guard [] (by omega)).weaken
      fun _ left isLeft => by omega
  · refine (affords_one rfl (by omega)).bind
      (fun solutions left isLeft => ?_) fun _ left isLeft => by omega
    split
    · change credit ≤ left + 3
      omega
    · exact (affords_applyPatch url patch guard _ (by omega)).weaken
        fun _ rest isRest => by omega
    · change credit ≤ left + 3
      omega

end Patching

theorem affords_auxPatch (aux : AuxUrl space) (patch : Patch)
    (enough : 5 ≤ credit) :
    load.Affords (auxPatch aux patch) credit
      fun _ left => credit ≤ left + 5 := by
  have present {Url : Type} [GraphUrl Url] (url : Url) {credit : Nat}
      (isEnough : 1 ≤ credit) :
      load.Affords (AuxProgram.ofResource (exists? url)) credit
        fun _ left => credit ≤ left + 1 :=
    (affords_exists url isEnough).mapError_left
  refine (present aux (by omega)).bind (fun isPresent left isLeft => ?_)
    fun _ left isLeft => by omega
  cases isPresent with
  | false =>
      refine (present aux.subject (by omega)).bind
        (fun subjectPresent rest isRest => ?_) fun _ rest isRest => by omega
      cases subjectPresent
      · change credit ≤ rest + 5
        omega
      · change credit ≤ rest + 5
        omega
  | true =>
      have patched :
          load.Affords
            (AuxProgram.ofResource
              (patchGuarded aux patch (subjectPresentGuard aux))) left
            fun _ rest => left ≤ rest + 3 :=
        (affords_patchGuarded aux patch _ (by omega)).mapError_left
      refine patched.bind (fun result rest isRest => ?_)
        fun _ rest isRest => by omega
      refine (present aux (by omega)).bind
        (fun stillPresent last isLast => ?_) fun _ last isLast => by omega
      cases stillPresent
      · change credit ≤ last + 5
        omega
      · change credit ≤ last + 5
        omega

/-! ## The guard -/

theorem affords_probe (agent : Agent) (target : Target space)
    (enough : 2 ≤ credit) :
    load.Affords (Guard.probe agent target) credit fun result left =>
      credit ≤ left + 2 ∧
        ∀ guard, result = .ok guard → guard.target = target := by
  have counted :
      load.Affords
        (existsMany (Guard.candidates target.subject)) credit
        fun _ left => credit ≤ left + 1 := by
    unfold existsMany
    split
    · change credit ≤ credit + 1
      omega
    · exact (affords_one rfl (by omega)).bind (fun _ _ isLeft => isLeft)
        fun _ _ isLeft => isLeft
  have loaded (present : List Text) (left : Nat) (isEnough : 1 ≤ left) :
      load.Affords (loadChainAcls target.subject.chain present) left
        fun _ rest => left ≤ rest + 1 := by
    unfold loadChainAcls
    dsimp only
    split
    · change left ≤ left + 1
      omega
    · exact (affords_one rfl isEnough).bind (fun _ _ isRest => isRest)
        fun _ _ isRest => isRest
  have resolved :
      load.Affords
        (do
          let present ← existsMany (Guard.candidates target.subject)
          let acls ← loadChainAcls target.subject.chain present
          pure ⟨agent, target, present, acls⟩ :
            ResourceProgram (Guard space)) credit fun result left =>
        credit ≤ left + 2 ∧
          ∀ guard, result = .ok guard → guard.target = target := by
    refine counted.bind (fun present left isLeft => ?_)
      fun error left isLeft => ⟨by omega, ?_⟩
    · refine (loaded present left (by omega)).bind
        (fun acls rest isRest => ⟨by omega, ?_⟩)
        fun error rest isRest => ⟨by omega, ?_⟩
      · rintro guard isGuard
        cases isGuard
        rfl
      · rintro guard isGuard
        cases isGuard
    · rintro guard isGuard
      cases isGuard
  refine Program.Affords.mapError resolved fun result left holds => ?_
  refine ⟨holds.1, ?_⟩
  rintro guard isGuard
  cases result with
  | ok found =>
      cases isGuard
      exact holds.2 _ rfl
  | error error =>
      cases isGuard

/-- A walk writes at most once for each container above the target. -/
theorem Guard.walk_length_le (guard : Guard space)
    (ancestors : List (ContainerUrl space)) (index : Nat) (child : NamedNode)
    (record : Bool) (walk : Guard.Walk space)
    (walked : guard.walk ancestors index child record = .ok walk) :
    walk.plan.length ≤ ancestors.length := by
  induction ancestors generalizing index child record walk with
  | nil =>
      cases walked
      exact Nat.le_refl 0
  | cons ancestor rest inductionHypothesis =>
      rw [Guard.walk] at walked
      dsimp only at walked
      rw [List.length_cons]
      split at walked
      · cases walked
        exact Nat.zero_le _
      · cases decided : guard.decideFrom (index + 1) .append with
        | error denial =>
            rw [decided] at walked
            cases walked
        | ok decision =>
            rw [decided] at walked
            dsimp only [bind, Except.bind] at walked
            split at walked
            · cases walked
              exact Nat.le_add_left 1 rest.length
            · cases recursion :
                  guard.walk rest (index + 1) ancestor.node true with
              | error denial =>
                  rw [recursion] at walked
                  cases walked
              | ok higher =>
                  rw [recursion] at walked
                  cases walked
                  exact Nat.succ_le_succ
                    (inductionHypothesis _ _ _ _ recursion)

theorem affords_performPlan
    (plan : List (ContainerUrl space × Option NamedNode))
    (enough : 2 * plan.length ≤ credit) :
    load.Affords (performPlan plan) credit fun _ left =>
      credit ≤ left + 2 * plan.length := by
  induction plan generalizing credit with
  | nil =>
      change credit ≤ credit + 2 * 0
      omega
  | cons step rest inductionHypothesis =>
      obtain ⟨ancestor, child⟩ := step
      rw [List.length_cons] at enough ⊢
      refine (affords_ensureContainer ancestor (by omega)).mapError_left.bind
        (fun _ left isLeft => ?_) fun _ left isLeft => by omega
      cases child with
      | none =>
          exact (inductionHypothesis (by omega)).weaken
            fun _ last isLast => by omega
      | some child =>
          have linked :
              load.Affords (addContainment ancestor child) left
                fun _ middle => left ≤ middle + 1 :=
            affords_one rfl (by omega)
          refine linked.mapError_left.bind
            (fun _ middle isMiddle => ?_) fun _ middle isMiddle => by omega
          refine (inductionHypothesis (by omega)).bind
            (fun links last isLast => ?_) fun _ last isLast => by omega
          change credit ≤ last + _
          omega

theorem affords_materializeFor (guard : Guard space) (target : Target space)
    (enough : 2 * guard.target.depth ≤ credit) :
    load.Affords (materializeFor guard target) credit fun _ left =>
      credit ≤ left + 2 * guard.target.depth := by
  refine Program.Affords.mapError ?_ fun _ _ holds => holds
  unfold Guard.materialize
  cases walked : guard.authorizeWalk with
  | error denial =>
      change credit ≤ credit + _
      omega
  | ok walk =>
      have short : walk.plan.length ≤ guard.target.depth := by
        obtain ⟨rest, climbed, samePlan, _⟩ :=
          Guard.authorizeWalk_eq_ok walked
        rw [samePlan]
        exact guard.walk_length_le _ _ _ _ _ climbed
      refine (affords_performPlan walk.plan (by omega)).bind
        (fun linked left isLeft => ?_) fun _ left isLeft => by omega
      change credit ≤ left + _
      omega

/-! ## The handlers -/

section Handlers

/-- What a handler leaves of its credit does not matter. -/
abbrev Load.Allows (load : Load) {α : Type}
    (program : HttpProgram α) (credit : Nat) : Prop :=
  load.Affords program credit fun _ _ => True

theorem affords_probeFor (agent : Agent) (target : Target space)
    (enough : 2 ≤ credit) :
    load.Affords (probeFor agent target) credit fun result left =>
      credit ≤ left + 2 ∧
        ∀ guard, result = .ok guard → guard.target = target := by
  refine (affords_probe agent target enough).mapError
    fun result left holds => ⟨holds.1, ?_⟩
  rintro guard isGuard
  cases result with
  | ok found =>
      cases isGuard
      exact holds.2 _ rfl
  | error denial =>
      cases isGuard

theorem affords_respond (target : Target space)
    (write : ResourceProgram Unit)
    (affords : load.Affords write credit fun _ _ => True) :
    load.Allows (respond target write) credit := by
  refine affords.attempt_left.bind (fun result left _ => ?_)
    fun _ _ _ => trivial
  split
  · trivial
  · trivial

theorem affords_respondBlob (target : Target space)
    (write : ResourceProgram Unit)
    (affords : load.Affords write credit fun _ _ => True) :
    load.Allows (respondBlob target write) credit := by
  refine affords.attempt_left.bind (fun result left _ => ?_)
    fun _ _ _ => trivial
  split
  · trivial
  · trivial
  · trivial

theorem affords_currentTags [Sha256] [ObjectPath] [QuadText]
    (target : Target space)
    (enough : 2 + load.datasetCost ≤ credit) :
    load.Affords (currentTags target) credit fun _ left =>
      credit ≤ left + (2 + load.datasetCost) := by
  have least : 3 ≤ load.datasetCost := Nat.le_add_right 3 _
  have graph (other : Target space) :
      load.Affords (graphTags other) credit fun _ left =>
        credit ≤ left + (2 + load.datasetCost) := by
    refine (affords_getRdf other (by omega)).bind
      (fun triples left isLeft => ?_) fun _ left isLeft => by omega
    split
    · change credit ≤ left + _
      omega
    · split
      · change credit ≤ left + _
        omega
      · change credit ≤ left + _
        omega
  cases target with
  | resource url leaf =>
      refine (affords_kindOf url (by omega)).bind (fun kind left holds => ?_)
        fun _ left holds => by omega
      split
      · split
        · change credit ≤ left + _
          omega
        · refine (affords_free rfl).bind (fun stored rest isRest => ?_)
            fun _ rest isRest => by omega
          change credit ≤ rest + _
          omega
      · next notBinary =>
          have cheap : credit ≤ left + 2 := by
            cases kind with
            | none =>
                have := holds.2.1 rfl
                omega
            | some kind =>
                cases kind with
                | rdf => exact holds.2.2 rfl
                | binary mediaType => exact (notBinary mediaType rfl).elim
          refine (affords_getDataset url (by omega)).bind
            (fun stored rest isRest => ?_) fun _ rest isRest => by omega
          change credit ≤ rest + _
          omega
  | container container =>
      exact graph (Target.container container)
  | aux aux =>
      exact graph (Target.aux aux)

theorem affords_checkConditionals [Sha256] [ObjectPath] [QuadText]
    (headers : HeaderMap) (target : Target space)
    (enough : load.conditionalCost headers ≤ credit) :
    load.Affords (checkConditionals headers target) credit fun _ left =>
      credit ≤ left + load.conditionalCost headers := by
  unfold checkConditionals Load.conditionalCost at *
  split
  · change credit ≤ credit + 0
    omega
  · next conditional =>
      rw [if_neg conditional] at enough
      refine (affords_currentTags target enough).mapError_left.bind
        (fun current left isLeft => ?_) fun _ _ holds => holds
      dsimp only
      split
      · exact isLeft
      · split
        · exact isLeft
        · exact isLeft

/-- A container without a shape is known by one query. -/
theorem affords_loadShape [QuadText] [RdfSerializer]
    (container : ContainerUrl space)
    (enough : load.shapeCost ≤ credit) :
    load.Affords (loadShape container) credit fun result left =>
      credit ≤ left + load.shapeCost ∧
        (result = .ok none → credit ≤ left + 1) := by
  have least : 1 ≤ load.shapeCost := by
    unfold Load.shapeCost
    split <;> omega
  have failing {left : Nat} (isLeft : credit ≤ left + load.shapeCost)
      (error : ShapeError) :
      credit ≤ left + load.shapeCost ∧
        ((Except.error error : Except ShapeError (Option Shape)) = .ok none →
          credit ≤ left + 1) := by
    refine ⟨isLeft, ?_⟩
    rintro isNone
    cases isNone
  have asked :
      load.Affords
        (StoreProgram.issue
          (fun error => ShapeError.resource (.store error))
          (.queryTriples (graphIri container) (some container.node)
            (some ldpConstrainedBy))) credit fun result left =>
        credit ≤ left + 1 ∧
          ∀ triples : List Triple,
            result = .ok triples →
            load.constrained = false → triples = [] := by
    refine affords_issue (by change 1 ≤ credit; omega)
      (fun reply known => ⟨?_, ?_⟩) fun message => ⟨?_, ?_⟩
    · change credit ≤ credit - 1 + 1
      omega
    · rintro triples isReply unconstrained
      cases isReply
      have within := known.2
      rw [shapeAnswered, if_pos rfl, unconstrained] at within
      exact List.isEmpty_iff.mp (by simpa using within)
    · change credit ≤ credit - 1 + 1
      omega
    · rintro triples isReply
      cases isReply
  refine asked.bind (fun triples left holds => ?_)
    fun error left holds => failing (by omega) error
  obtain ⟨isLeft, free⟩ := holds
  refine affords_check.bind (fun bound rest isBound => ?_)
    fun error rest isBound => failing (by omega) error
  obtain ⟨rfl, isBound⟩ := isBound
  cases bound with
  | none =>
      exact ⟨by omega, fun _ => isLeft⟩
  | some iri =>
      have constrained : load.constrained = true := by
        by_contra unconstrained
        rw [Bool.not_eq_true] at unconstrained
        rw [free triples rfl unconstrained] at isBound
        cases isBound
      have isFive : load.shapeCost = 5 := by
        rw [Load.shapeCost, if_pos constrained]
      refine affords_check.bind (fun url second isSecond => ?_)
        fun error second isSecond => failing (by omega) error
      have kinded :
          load.Affords (Program.mapError ShapeError.resource (kindOf url))
            second fun result last =>
            second ≤ last + 3 ∧
              (result = .ok (some .rdf) → second ≤ last + 2) := by
        refine (affords_kindOf url (by omega)).mapError
          fun result last holds => ⟨holds.1, ?_⟩
        rintro isRdf
        cases result with
        | ok kind =>
            cases isRdf
            exact holds.2.2 rfl
        | error error =>
            cases isRdf
      refine kinded.bind (fun kind third isThird => ?_)
        fun error third isThird => failing (by omega) error
      cases kind with
      | none =>
          exact failing (by omega) _
      | some kind =>
          cases kind with
          | binary mediaType =>
              exact failing (by omega) _
          | rdf =>
              have isRdf := isThird.2 rfl
              refine (affords_getRdf url (by omega)).mapError_left.bind
                (fun triples last isLast => ?_)
                fun error last isLast => failing (by omega) error
              cases triples with
              | none =>
                  exact failing (by omega) _
              | some triples =>
                  refine affords_check.bind (fun shape final isFinal => ?_)
                    fun error final isFinal => failing (by omega) error
                  refine ⟨by omega, ?_⟩
                  rintro isNone
                  cases isNone

theorem affords_enforceShape
    [QuadText] [RdfParser] [RdfSerializer] [ShapeEngine]
    (target : Target space) (dataset : Dataset)
    (enough : load.shapeCost ≤ credit) :
    load.Affords (enforceShape target dataset) credit fun _ left =>
      credit ≤ left + load.shapeCost := by
  unfold enforceShape
  split
  · change credit ≤ credit + _
    omega
  · next container _ =>
      refine ((affords_loadShape container enough).weaken
        fun _ _ holds => holds.1).mapError_left.bind
          (fun shape left isLeft => ?_) fun _ left isLeft => isLeft
      cases shape with
      | none =>
          exact isLeft
      | some shape =>
          refine affords_check.bind (fun report rest isRest => ?_)
            fun error rest isRest => by omega
          split
          · change credit ≤ rest + _
            omega
          · change credit ≤ rest + _
            omega

/-- A patch that goes on found no shape. -/
theorem affords_patchShapeConflict [QuadText] [RdfSerializer]
    (target : Target space)
    (enough : load.shapeCost ≤ credit) :
    load.Affords (patchShapeConflict target) credit fun result left =>
      result = .ok () → credit ≤ left + 1 := by
  unfold patchShapeConflict
  split
  · intro _
    omega
  · next container _ =>
      have loaded :
          load.Affords (Program.mapError shapeStatus (loadShape container))
            credit fun result left =>
            result = .ok none → credit ≤ left + 1 := by
        refine (affords_loadShape container enough).mapError
          fun result left holds => ?_
        rintro isNone
        cases result with
        | ok shape =>
            cases isNone
            exact holds.2 rfl
        | error error =>
            cases isNone
      refine loaded.bind (fun shape left isLeft => ?_) fun error left _ => ?_
      · cases shape with
        | none =>
            exact fun _ => isLeft rfl
        | some shape =>
            rintro isOk
            cases isOk
      · rintro isOk
        cases isOk

/-- Only a resource holds a dataset that has to be read. -/
theorem affords_checkExisting (target : Target space) (format : Format)
    (declared : RdfVersion) (enough : 2 * load.datasetCost ≤ credit) :
    load.Affords (checkExisting target format declared) credit
      fun _ left =>
        credit ≤ left + 2 * load.datasetCost ∧
          ∀ container, target = .container container → credit ≤ left := by
  have ofResource (url : ResourceUrl space) (leaf : _) :
      load.Affords (checkExisting (.resource url leaf) format declared) credit
        fun _ left => credit ≤ left + 2 * load.datasetCost := by
    refine (affords_getDataset url (by omega)).mapError_left.bind
      (fun existing left isLeft => ?_) fun _ left isLeft => by omega
    dsimp only
    split
    · change credit ≤ left + _
      omega
    · split
      · change credit ≤ left + _
        omega
      · refine (affords_getDataset url (by omega)).mapError_left.bind
          (fun stored rest isRest => ?_) fun _ rest isRest => by omega
        split
        · change credit ≤ rest + _
          omega
        · split
          · change credit ≤ rest + _
            omega
          · change credit ≤ rest + _
            omega
  cases target with
  | aux aux =>
      exact ⟨Nat.le_add_right credit _, fun _ _ => Nat.le_refl credit⟩
  | container container =>
      exact ⟨Nat.le_add_right credit _, fun _ _ => Nat.le_refl credit⟩
  | resource url leaf =>
      refine (ofResource url leaf).weaken fun _ left isLeft => ⟨isLeft, ?_⟩
      rintro container isContainer
      cases isContainer

/-- `PUT`: the dataset is read twice, once for its version and once for its
names. -/
def Load.putCost (load : Load) (headers : HeaderMap) (target : Target space) :
    Nat :=
  2 + 2 * load.datasetCost + load.conditionalCost headers + load.shapeCost +
    2 * target.depth + 2

theorem allows_putAux (fresh : Nat → Uuid) (target : Target space)
    (aux : AuxUrl space) (triples : List Triple) (enough : 2 ≤ credit) :
    load.Allows (putAux fresh target aux triples) credit := by
  refine (affords_auxPut fresh aux triples enough).attempt_left.bind
    (fun result left _ => ?_) fun _ _ _ => trivial
  split
  · trivial
  · trivial
  · trivial
  · trivial
  · trivial

theorem allows_writeContainer (fresh : Nat → Uuid) (target : Target space)
    (container : ContainerUrl space) (triples : List Triple)
    (enough : 2 ≤ credit) :
    load.Allows (respond target (writeContainer fresh container triples))
      credit :=
  affords_respond _ _
    ((affords_writeContainer fresh container _ enough).weaken
      fun _ _ _ => trivial)

theorem allows_putContainer (fresh : Nat → Uuid) (target : Target space)
    (container : ContainerUrl space) (triples : List Triple)
    (enough : 4 ≤ credit) :
    load.Allows (putContainer fresh target container triples) credit := by
  refine (affords_getRdf container (by omega)).mapError_left.bind
    (fun existing left isLeft => ?_) fun _ _ _ => trivial
  exact allows_writeContainer _ _ _ _ (by omega)

theorem allows_putDataset [Sha256] [ObjectPath]
    (target : Target space) (url : ResourceUrl space)
    (dataset : Skolemized) (format : Format) (enough : 2 ≤ credit) :
    load.Allows (respond target (putDataset url dataset format)) credit :=
  affords_respond _ _
    ((affords_putDataset url dataset format enough).weaken
      fun _ _ _ => trivial)

theorem allows_putBlob [ObjectPath]
    (target : Target space) (url : ResourceUrl space)
    (bytes : Bytes) (mediaType : MediaType) (enough : 2 ≤ credit) :
    load.Allows (respondBlob target (putBlob url bytes mediaType)) credit :=
  affords_respondBlob _ _
    ((affords_putBlob url bytes mediaType enough).weaken fun _ _ _ => trivial)

/-- Nothing is left to do but to shape the response. -/
theorem Load.Allows.bind_pure {α β : Type} {program : HttpProgram α}
    {result : α → β} (allows : load.Allows program credit) :
    load.Allows (program >>= fun value => pure (result value)) credit :=
  Program.Affords.bind allows (fun _ _ _ => trivial) fun _ _ _ => trivial

section Bodies

variable [Sha256] [ObjectPath] [QuadText] [RdfParser] [RdfSerializer]
variable [ShapeEngine]

theorem allows_putRdfRepr (guard : Guard space)
    (target : Target space) (isTarget : guard.target = target)
    (headers : HeaderMap) (fresh : Nat → Uuid) (dataset : Dataset)
    (format : Format) (declared : RdfVersion)
    (enough : load.putCost headers target ≤ credit + 2) :
    load.Allows
      (putRdfRepr guard target headers fresh dataset format declared)
      credit := by
  rw [Load.putCost, ← isTarget] at enough
  have least : 3 ≤ load.datasetCost := Nat.le_add_right 3 _
  refine affords_check.bind (fun _ first isFirst => ?_) fun _ _ _ => trivial
  refine (affords_checkExisting target format declared (by omega)).bind
    (fun _ second isSecond => ?_) fun _ _ _ => trivial
  refine (affords_checkConditionals headers target (by omega)).bind
    (fun _ third isThird => ?_) fun _ _ _ => trivial
  refine (affords_enforceShape target dataset (by omega)).bind
    (fun findings fourth isFourth => ?_) fun _ _ _ => trivial
  refine (affords_materializeFor guard target (by omega)).bind
    (fun _ fifth isFifth => ?_) fun _ _ _ => trivial
  dsimp only
  cases target with
  | aux aux =>
      exact (allows_putAux _ _ _ _ (by omega)).bind_pure
  | container container =>
      have free := isSecond.2 container rfl
      exact (allows_putContainer _ _ _ _ (by omega)).bind_pure
  | resource url leaf =>
      exact (allows_putDataset _ _ _ _ (by omega)).bind_pure

omit [RdfParser] [RdfSerializer] [ShapeEngine] in
theorem allows_putBlobRepr (guard : Guard space) (target : Target space)
    (isTarget : guard.target = target) (headers : HeaderMap)
    (bytes : Bytes) (mediaType : MediaType)
    (enough : load.putCost headers target ≤ credit + 2) :
    load.Allows (putBlobRepr guard target headers bytes mediaType) credit := by
  rw [Load.putCost, ← isTarget] at enough
  unfold putBlobRepr
  split
  · split
    · trivial
    · refine (affords_checkConditionals headers _ (by omega)).bind
        (fun _ left isLeft => ?_) fun _ _ _ => trivial
      refine (affords_materializeFor guard _ (by omega)).bind
        (fun _ rest isRest => ?_) fun _ _ _ => trivial
      exact allows_putBlob _ _ _ _ (by omega)
  · trivial

theorem allows_putWrite (storeVersion : RdfVersion) (agent : Agent)
    (target : Target space) (headers : HeaderMap) (body : Bytes)
    (draws : Draws) (enough : load.putCost headers target ≤ credit) :
    load.Allows (putWrite storeVersion agent target headers body draws)
      credit := by
  have least : 2 ≤ load.putCost headers target := Nat.le_add_left 2 _
  refine (affords_probeFor agent target (by omega)).bind
    (fun guard left probed => ?_) fun _ _ _ => trivial
  have isTarget := probed.2 guard rfl
  refine affords_check.bind (fun _ second isSecond => ?_) fun _ _ _ => trivial
  refine affords_check.bind (fun repr third isThird => ?_) fun _ _ _ => trivial
  cases repr with
  | blob bytes mediaType =>
      exact allows_putBlobRepr _ _ isTarget _ _ _ (by omega)
  | rdf dataset format declared =>
      exact allows_putRdfRepr _ _ isTarget _ _ _ _ _ (by omega)

/-! ### `POST` -/

/-- `POST`: the container is probed, and the child it settles on, after one
retry at most. -/
def Load.postCost (load : Load) (target : Target space) : Nat :=
  6 + load.shapeCost + 2 * (target.depth + 1) + 2

omit [Sha256] [ObjectPath] [QuadText] [RdfParser] [RdfSerializer]
  [ShapeEngine] in
/-- A child is right below the container it was posted to. -/
theorem ContainerUrl.depth_child
    {parent : ContainerUrl space} {name ending : Text} {child : Target space}
    (nonempty : name ≠ []) (slashFree : '/' ∉ name)
    (isEnding : ending = [] ∨ ending = ['/'])
    (classified :
      classify space (parent.resource.path ++ (name ++ ending)) =
        .ok child) :
    child.depth = (Target.container parent).depth + 1 := by
  obtain ⟨url, rfl, isParent, _⟩ :=
    ContainerUrl.resolve_child nonempty slashFree isEnding classified
  rw [Target.depth, ResourceUrl.subject_toTarget,
    ResourceUrl.ancestors_of_parent isParent]
  rfl

theorem allows_postRdfRepr (guard : Guard space) (child : Target space)
    (isTarget : guard.target = child) (fresh : Nat → Uuid)
    (dataset : Dataset) (format : Format)
    (enough : load.shapeCost + 2 * child.depth + 2 ≤ credit) :
    load.Allows (postRdfRepr guard child fresh dataset format) credit := by
  rw [← isTarget] at enough
  refine affords_check.bind (fun _ first isFirst => ?_) fun _ _ _ => trivial
  refine (affords_enforceShape child dataset (by omega)).bind
    (fun findings second isSecond => ?_) fun _ _ _ => trivial
  refine (affords_materializeFor guard child (by omega)).bind
    (fun _ third isThird => ?_) fun _ _ _ => trivial
  dsimp only
  cases child with
  | aux aux =>
      trivial
  | container container =>
      exact (allows_writeContainer _ _ _ _ (by omega)).bind_pure
  | resource url leaf =>
      exact (allows_putDataset _ _ _ _ (by omega)).bind_pure

omit [Sha256] [QuadText] [RdfParser] [RdfSerializer] [ShapeEngine] in
theorem allows_postBlobRepr (guard : Guard space) (child : Target space)
    (isTarget : guard.target = child) (bytes : Bytes) (mediaType : MediaType)
    (enough : 2 * child.depth + 2 ≤ credit) :
    load.Allows (postBlobRepr guard child bytes mediaType) credit := by
  rw [← isTarget] at enough
  unfold postBlobRepr
  split
  · split
    · trivial
    · refine (affords_materializeFor guard _ (by omega)).bind
        (fun _ rest isRest => ?_) fun _ _ _ => trivial
      exact allows_putBlob _ _ _ _ (by omega)
  · trivial

omit [Sha256] [ObjectPath] [QuadText] [RdfParser] [RdfSerializer]
  [ShapeEngine] in
theorem affords_allocateChild (agent : Agent) (parent : ContainerUrl space)
    (headers : HeaderMap) (draws : Draws) (enough : 4 ≤ credit) :
    load.Affords (allocateChild agent parent headers draws) credit
      fun result left =>
        credit ≤ left + 4 ∧
          ∀ guard child,
            result = .ok (guard, child) →
            guard.target = child ∧
              child.depth = (Target.container parent).depth + 1 := by
  have isEnding := childEnding_cases headers
  have isName :=
    childName_nonempty (headers.str? .slug) draws.childName
  have isSlashFree :=
    childName_slashFree (headers.str? .slug) draws.childName
  have failing {left : Nat} (isLeft : credit ≤ left + 4) (error : Response) :
      credit ≤ left + 4 ∧
        ∀ (guard : Guard space) (child : Target space),
          (.error error : Except Response (Guard space × Target space)) =
            .ok (guard, child) →
          guard.target = child ∧
            child.depth = (Target.container parent).depth + 1 := by
    refine ⟨isLeft, ?_⟩
    rintro guard child isPair
    cases isPair
  have settles {left : Nat} {guard : Guard space} {child : Target space}
      (isLeft : credit ≤ left + 4) (isTarget : guard.target = child)
      (isBelow : child.depth = (Target.container parent).depth + 1) :
      load.Affords (pure (guard, child) : HttpProgram _) left
        fun result left =>
          credit ≤ left + 4 ∧
            ∀ guard child,
              result = .ok (guard, child) →
              guard.target = child ∧
                child.depth = (Target.container parent).depth + 1 := by
    refine ⟨isLeft, ?_⟩
    rintro found settled isPair
    cases isPair
    exact ⟨isTarget, isBelow⟩
  refine affords_check.bind (fun child first isFirst => ?_)
    fun error first isFirst => failing (by omega) error
  refine (affords_probeFor agent child (by omega)).bind
    (fun guard second probed => ?_)
    fun error second probed => failing (by omega) error
  split
  · refine affords_check.bind (fun retried third isThird => ?_)
      fun error third isThird => failing (by omega) error
    refine (affords_probeFor agent retried (by omega)).bind
      (fun found last again => ?_)
      fun error last again => failing (by omega) error
    refine settles (by omega) (again.2 found rfl) ?_
    refine ContainerUrl.depth_child (by simp) ?_ isEnding isThird.2.symm
    simp [childName_slashFree, uuid_slashFree]
  · refine settles (by omega) (probed.2 guard rfl) ?_
    refine ContainerUrl.depth_child isName isSlashFree isEnding ?_
    rw [← List.append_assoc]
    exact isFirst.2.symm

theorem allows_postImpl (storeVersion : RdfVersion) (agent : Agent)
    (target : Target space) (headers : HeaderMap) (body : Bytes)
    (draws : Draws) (enough : load.postCost target ≤ credit) :
    load.Allows (postImpl storeVersion agent target headers body draws)
      credit := by
  rw [Load.postCost] at enough
  refine (affords_probeFor agent target (by omega)).bind
    (fun parentGuard left probed => ?_) fun _ _ _ => trivial
  refine affords_check.bind (fun _ second isSecond => ?_) fun _ _ _ => trivial
  cases target with
  | aux aux =>
      trivial
  | resource url leaf =>
      trivial
  | container parent =>
      refine (affords_allocateChild agent parent headers draws (by omega)).bind
        (fun settled third isThird => ?_) fun _ _ _ => trivial
      obtain ⟨guard, child⟩ := settled
      obtain ⟨isTarget, isBelow⟩ := isThird.2 guard child rfl
      refine affords_check.bind (fun repr fourth isFourth => ?_)
        fun _ _ _ => trivial
      cases repr with
      | blob bytes mediaType =>
          exact allows_postBlobRepr _ _ isTarget _ _ (by omega)
      | rdf dataset format declared =>
          exact allows_postRdfRepr _ _ isTarget _ _ _ (by omega)

/-! ### `PATCH` -/

/-- What is left to do when every check of a patch has passed. -/
def Load.patchedCost (target : Target space) : Nat :=
  max 5 (2 * target.depth + 2)

/-- `PATCH`: the kind of a resource and the shape above it are looked up. -/
def Load.patchCost (load : Load) (headers : HeaderMap)
    (target : Target space) : Nat :=
  4 + load.shapeCost + load.conditionalCost headers + patchedCost target

omit [Sha256] [ObjectPath] [QuadText] [RdfParser] [RdfSerializer]
  [ShapeEngine] in
/-- A patch that goes on is not for an object. -/
theorem affords_refuseBinary (target : Target space) (enough : 3 ≤ credit) :
    load.Affords (refuseBinary target) credit fun result left =>
      credit ≤ left + 3 ∧ (result = .ok () → credit ≤ left + 2) := by
  have free :
      credit ≤ credit + 3 ∧
        ((.ok () : Except Response Unit) = .ok () → credit ≤ credit + 2) :=
    ⟨by omega, fun _ => by omega⟩
  cases target with
  | aux aux =>
      exact free
  | container container =>
      exact free
  | resource url leaf =>
      have kinded :
          load.Affords (Program.mapError putError (kindOf url)) credit
            fun result left =>
            credit ≤ left + 3 ∧
              (result = .ok none → credit ≤ left + 1) ∧
              (result = .ok (some .rdf) → credit ≤ left + 2) := by
        refine (affords_kindOf url enough).mapError
          fun result left holds => ?_
        cases result with
        | ok kind =>
            exact ⟨holds.1, fun isNone => holds.2.1 (by cases isNone; rfl),
              fun isRdf => holds.2.2 (by cases isRdf; rfl)⟩
        | error error =>
            refine ⟨holds.1, ?_, ?_⟩
            · rintro isNone
              cases isNone
            · rintro isRdf
              cases isRdf
      refine kinded.bind (fun kind left holds => ?_)
        fun error left holds => ⟨holds.1, ?_⟩
      · cases kind with
        | none =>
            have cheap := holds.2.1 rfl
            exact ⟨holds.1, fun _ => by omega⟩
        | some kind =>
            cases kind with
            | rdf =>
                exact ⟨holds.1, fun _ => holds.2.2 rfl⟩
            | binary mediaType =>
                refine ⟨holds.1, ?_⟩
                rintro isOk
                cases isOk
      · rintro isOk
        cases isOk

omit [Sha256] [ObjectPath] [RdfParser] [RdfSerializer] [ShapeEngine] in
theorem allows_patchAux (aux : AuxUrl space) (patch : Patch)
    (enough : 5 ≤ credit) : load.Allows (patchAux aux patch) credit := by
  refine (affords_auxPatch aux patch enough).attempt_left.bind
    (fun result left _ => ?_) fun _ _ _ => trivial
  split
  · trivial
  · trivial
  · trivial
  · trivial
  · trivial

omit [Sha256] [ObjectPath] [RdfParser] [RdfSerializer] [ShapeEngine] in
theorem allows_patchExisting (target : Target space) (patch : Patch)
    (enough : 4 ≤ credit) :
    load.Allows (patchExisting target patch) credit := by
  have patched :
      load.Affords (patchDataset target.subject patch) credit
        fun _ left => credit ≤ left + 3 :=
    affords_patchGuarded _ patch _ (by omega)
  refine patched.attempt_left.bind (fun result left isLeft => ?_)
    fun _ _ _ => trivial
  split
  · trivial
  · split
    · next container =>
        refine (affords_ensureContainer container (by omega)).attempt_left.bind
          (fun ensured rest _ => ?_) fun _ _ _ => trivial
        split
        · trivial
        · trivial
    · trivial

omit [RdfParser] [RdfSerializer] [ShapeEngine] in
theorem allows_createByPatch (guard : Guard space) (target : Target space)
    (isTarget : guard.target = target) (patch : Patch) (fresh : Nat → Uuid)
    (enough : 2 * target.depth + 2 ≤ credit) :
    load.Allows (createByPatch guard target patch fresh) credit := by
  rw [← isTarget] at enough
  unfold createByPatch
  split
  · trivial
  · split
    · trivial
    · refine (affords_materializeFor guard target (by omega)).bind
        (fun _ left isLeft => ?_) fun _ _ _ => trivial
      split
      · split
        · exact allows_putDataset _ _ _ _ (by omega)
        · trivial
      · exact allows_writeContainer _ _ _ _ (by omega)
      · trivial

omit [RdfParser] [RdfSerializer] [ShapeEngine] in
theorem allows_patchWrite (guard : Guard space) (target : Target space)
    (isTarget : guard.target = target) (patch : Patch) (fresh : Nat → Uuid)
    (enough : Load.patchedCost target ≤ credit) :
    load.Allows (patchWrite guard target patch fresh) credit := by
  rw [Load.patchedCost] at enough
  unfold patchWrite
  split
  · exact allows_patchAux _ patch (by omega)
  · split
    · exact allows_patchExisting target patch (by omega)
    · exact allows_createByPatch guard target isTarget patch fresh (by omega)

omit [RdfParser] [ShapeEngine] in
theorem allows_patchImpl [N3Parser] (agent : Agent) (target : Target space)
    (headers : HeaderMap) (body : Bytes) (draws : Draws)
    (enough : load.patchCost headers target ≤ credit) :
    load.Allows (patchImpl agent target headers body draws) credit := by
  have positive : 1 ≤ load.shapeCost := by
    unfold Load.shapeCost
    split <;> omega
  rw [Load.patchCost] at enough
  refine (affords_probeFor agent target (by omega)).bind
    (fun guard first probed => ?_) fun _ _ _ => trivial
  have isTarget := probed.2 guard rfl
  refine affords_check.bind (fun _ second isSecond => ?_) fun _ _ _ => trivial
  refine affords_check.bind (fun _ third isThird => ?_) fun _ _ _ => trivial
  refine affords_check.bind (fun patch fourth isFourth => ?_)
    fun _ _ _ => trivial
  split
  · trivial
  · refine (affords_refuseBinary target (by omega)).bind
      (fun _ fifth isFifth => ?_) fun _ _ _ => trivial
    have isRdf := isFifth.2 rfl
    refine (affords_patchShapeConflict target (by omega)).bind
      (fun _ sixth isSixth => ?_) fun _ _ _ => trivial
    have unshaped := isSixth rfl
    refine affords_check.bind (fun _ seventh isSeventh => ?_)
      fun _ _ _ => trivial
    refine (affords_checkConditionals headers target (by omega)).bind
      (fun _ last isLast => ?_) fun _ _ _ => trivial
    exact allows_patchWrite guard target isTarget patch _ (by omega)

/-! ### `DELETE` -/

omit [Sha256] [QuadText] [RdfParser] [RdfSerializer] [ShapeEngine] in
theorem allows_deleteImpl (agent : Agent) (target : Target space)
    (enough : 6 ≤ credit) :
    load.Allows (deleteImpl agent target) credit := by
  have cascade {left : Nat} (isEnough : 3 ≤ left) :
      load.Allows (deleteCascade target) left := by
    refine (affords_deleteSubject target.subject isEnough).attempt_left.bind
      (fun result rest _ => ?_) fun _ _ _ => trivial
    split
    · trivial
    · trivial
    · trivial
  have refused {left : Nat} (isEnough : 1 ≤ left) :
      load.Affords (refuseDelete target) left fun _ rest =>
        left ≤ rest + 1 := by
    unfold refuseDelete
    split
    · split
      · change left ≤ left + 1
        omega
      · refine Program.Affords.bind
          (Program.Affords.attempt_left ((affords_one rfl isEnough).bind
            (fun _ rest isRest => (isRest : left ≤ rest + 1))
            fun _ rest isRest => isRest))
          (fun result rest isRest => ?_) fun _ rest isRest => isRest
        split
        · exact isRest
        · exact isRest
        · exact isRest
    · change left ≤ left + 1
      omega
  refine (affords_probeFor agent target (by omega)).bind
    (fun guard first probed => ?_) fun _ _ _ => trivial
  refine affords_check.bind (fun _ second isSecond => ?_) fun _ _ _ => trivial
  split
  · next aux =>
      refine (affords_deleteRdf aux (by omega)).attempt_left.bind
        (fun result rest _ => ?_) fun _ _ _ => trivial
      split
      · trivial
      · trivial
      · trivial
  · refine affords_check.bind (fun _ third isThird => ?_) fun _ _ _ => trivial
    refine affords_check.bind (fun _ fourth isFourth => ?_)
      fun _ _ _ => trivial
    exact (refused (by omega)).bind
      (fun _ fifth isFifth => cascade (by omega)) fun _ _ _ => trivial

/-! ### `GET` -/

omit [RdfParser] [ShapeEngine] in
theorem allows_getImpl [Quality] (storeVersion : RdfVersion) (agent : Agent)
    (target : Target space) (headers : HeaderMap)
    (enough : 5 + load.datasetCost ≤ credit) :
    load.Allows (getImpl storeVersion agent target headers) credit := by
  have least : 3 ≤ load.datasetCost := Nat.le_add_right 3 _
  have graph (decision : Decision) {left : Nat} (isEnough : 2 ≤ left) :
      load.Allows (legacyGraphRead storeVersion decision target headers)
        left := by
    unfold legacyGraphRead
    split
    · trivial
    · refine (affords_getRdf target isEnough).attempt_left.bind
        (fun result rest _ => ?_) fun _ _ _ => trivial
      split
      · split
        · trivial
        · trivial
      · trivial
      · trivial
      · trivial
  have blob (url : ResourceUrl space) (mediaType : MediaType) (left : Nat) :
      load.Allows (blobRead storeVersion target url headers mediaType)
        left := by
    unfold blobRead
    split
    · trivial
    · split
      · trivial
      · refine (affords_free rfl).attempt_left.bind
          (fun result rest _ => ?_) fun _ _ _ => trivial
        split
        · trivial
        · trivial
        · dsimp only
          split
          · trivial
          · trivial
  have dataset (url : ResourceUrl space) (decision : Decision) {left : Nat}
      (isEnough : load.datasetCost + 1 ≤ left) :
      load.Allows (resourceRead storeVersion target url decision headers)
        left := by
    refine (affords_getDataset url (by omega)).attempt_left.bind
      (fun result rest isRest => ?_) fun _ _ _ => trivial
    split
    · refine (affords_storedMediaType url (by omega)).attempt_left.bind
        (fun answer last _ => ?_) fun _ _ _ => trivial
      split
      · trivial
      · trivial
    · trivial
    · trivial
    · trivial
  refine (affords_probeFor agent target (by omega)).bind
    (fun guard first probed => ?_) fun _ _ _ => trivial
  refine affords_check.bind (fun decision second isSecond => ?_)
    fun _ _ _ => trivial
  split
  · next url _ =>
      have kinded :
          load.Affords (kindOf url).attempt second
            fun (result : Except Response (Except ResourceError _)) left =>
            result = .ok (.ok (some .rdf)) → second ≤ left + 2 := by
        refine (affords_kindOf url (by omega)).attempt
          fun result left holds => ?_
        rintro isRdf
        cases isRdf
        exact holds.2.2 rfl
      refine kinded.bind (fun kind third isThird => ?_) fun _ _ _ => trivial
      split
      · exact blob _ _ _
      · have isRdf := isThird rfl
        exact dataset _ _ (by omega)
      · trivial
      · trivial
      · trivial
  · exact graph decision (by omega)

omit [Sha256] [ObjectPath] in
theorem allows_validateView [Quality] (agent : Agent)
    (target : Target space) (headers : HeaderMap)
    (enough : 5 + load.shapeCost + load.datasetCost ≤ credit) :
    load.Allows (validateView agent target headers) credit := by
  have least : 3 ≤ load.datasetCost := Nat.le_add_right 3 _
  have content {left : Nat} (isEnough : 3 + load.datasetCost ≤ left) :
      load.Allows (validatedContent target) left := by
    unfold validatedContent
    split
    · trivial
    · refine (affords_getRdf _ (by omega)).mapError_left.bind
        (fun triples rest _ => ?_) fun _ _ _ => trivial
      split
      · split
        · trivial
        · trivial
      · trivial
    · next url _ =>
        have kinded :
            load.Affords (kindOf url) left fun _ rest => left ≤ rest + 3 :=
          (affords_kindOf url (by omega)).weaken fun _ _ holds => holds.1
        refine kinded.attempt_left.bind (fun kind rest isRest => ?_)
          fun _ _ _ => trivial
        split
        · trivial
        · refine (affords_getDataset url (by omega)).mapError_left.bind
            (fun stored last _ => ?_) fun _ _ _ => trivial
          split
          · trivial
          · trivial
  refine (affords_probeFor agent target (by omega)).bind
    (fun guard first probed => ?_) fun _ _ _ => trivial
  refine affords_check.bind (fun _ second isSecond => ?_) fun _ _ _ => trivial
  split
  · trivial
  · next container _ =>
      have loaded :
          load.Affords (loadShape container) second
            fun _ left => second ≤ left + load.shapeCost :=
        (affords_loadShape container (by omega)).weaken fun _ _ holds => holds.1
      refine loaded.mapError_left.bind (fun shape third isThird => ?_)
        fun _ _ _ => trivial
      split
      · trivial
      · refine (content (by omega)).bind (fun dataset fourth _ => ?_)
          fun _ _ _ => trivial
        refine affords_check.bind (fun report fifth _ => ?_)
          fun _ _ _ => trivial
        split
        · trivial
        · split
          · trivial
          · trivial

end Bodies

end Handlers

/-! ## One request -/

/-- What a method costs on a target at most. -/
def Load.verbCost (load : Load) (request : HttpRequest)
    (target : Target space) : Verb → Nat
  | .options => 0
  | .write .put => load.putCost request.fields target
  | .write .post => load.postCost target
  | .write .patch => load.patchCost request.fields target
  | .write .delete => 6
  | _ =>
      if wantsValidation request.query then
        5 + load.shapeCost + load.datasetCost
      else
        5 + load.datasetCost

/-- What a request costs at most, by its method and by where it goes. -/
def Load.budget (load : Load) (space : StorageSpace) (request : HttpRequest) :
    Nat :=
  match request.path?, Verb.ofText request.method with
  | some path, some verb =>
      match classify space path with
      | .ok target => load.verbCost request target verb
      | .error _ => 0
  | _, _ => 0

section Dispatch

variable [Sha256] [ObjectPath] [QuadText]
variable [RdfParser] [RdfSerializer] [ShapeEngine] [N3Parser] [Quality]
variable [Josekit]

theorem allows_handlePath
    (app : AppState) (agent : Agent) (verb : Verb) (request : HttpRequest)
    (draws : Draws) (path : Text) {target : Target app.space}
    (isTarget : classify app.space path = .ok target)
    (enough : load.verbCost request target verb ≤ credit) :
    load.Allows (handlePath app agent verb request draws path) credit := by
  have reading (isEnough :
      (if wantsValidation request.query then
        5 + load.shapeCost + load.datasetCost
      else
        5 + load.datasetCost) ≤ credit) :
      load.Allows
        (handleGet app.space app.storeVersion path request.query agent
          request.fields) credit := by
    unfold handleGet
    rw [isTarget]
    change load.Allows (if _ then _ else _) credit
    split
    · next validates =>
        rw [if_pos validates] at isEnough
        exact allows_validateView _ _ _ isEnough
    · next plain =>
        rw [if_neg plain] at isEnough
        exact allows_getImpl _ _ _ _ isEnough
  cases verb with
  | get =>
      exact reading enough
  | head =>
      exact reading enough
  | options =>
      unfold handlePath handleOptions
      dsimp only
      rw [isTarget]
      trivial
  | write method =>
      rcases handlePath_write app agent method request draws path with
        tooLarge | handled
      · rw [tooLarge]
        trivial
      · rw [handled, handle]
        change load.Allows
          (Program.ofExcept (classify app.space path) >>= _) credit
        rw [isTarget]
        change load.Allows (handleTarget _ _ target) credit
        cases method with
        | put =>
            exact allows_putWrite _ _ _ _ _ _ enough
        | post =>
            exact allows_postImpl _ _ _ _ _ _ enough
        | patch =>
            exact allows_patchImpl _ _ _ _ _ enough
        | delete =>
            exact allows_deleteImpl _ _ enough

/-- A path that is no target's ends the request before its first call. -/
theorem handlePath_unclassified
    (app : AppState) (agent : Agent) (verb : Verb) (request : HttpRequest)
    (draws : Draws) (path : Text) {refusal : Response}
    (isRefused : classify app.space path = .error refusal) :
    ∃ result,
      handlePath app agent verb request draws path =
        Program.ofExcept result := by
  have reading :
      handleGet app.space app.storeVersion path request.query agent
        request.fields = Program.ofExcept (.error refusal) := by
    rw [handleGet, isRefused]
    rfl
  cases verb with
  | get =>
      exact ⟨_, reading⟩
  | head =>
      exact ⟨_, reading⟩
  | options =>
      refine ⟨Except.error refusal, ?_⟩
      unfold handlePath handleOptions
      dsimp only
      rw [isRefused]
      rfl
  | write method =>
      rcases handlePath_write app agent method request draws path with
        tooLarge | handled
      · exact ⟨Except.error (.ofStatus 413), tooLarge⟩
      · refine ⟨Except.error refusal, ?_⟩
        rw [handled, handle]
        change (Program.ofExcept (classify app.space path) >>= _) = _
        rw [isRefused]
        rfl

variable [WireFormats] [JoseSigning]

/--
Whatever the stores answer, a request calls the triple store no more often than
its method, its query, its preconditions and the depth of its target account for.
-/
theorem calls_within_budget
    (app : AppState) (agent : Agent) (request : HttpRequest) (draws : Draws)
    (conversation : List (Utterance stores))
    (converses :
      (dispatch app agent request draws).Converses conversation) :
    spent storeCharge conversation ≤
      (Load.met conversation).budget app.space request := by
  have free :
      ∀ result : Except Response Response,
        dispatch app agent request draws = Program.ofExcept result →
        spent storeCharge conversation = 0 := by
    intro result isResult
    rw [isResult] at converses
    have silent : conversation = [] := by
      cases result with
      | ok response => cases converses; rfl
      | error response => cases converses; rfl
    rw [silent]
    rfl
  rcases dispatch_cases app agent request draws with
    ⟨result, same⟩ | ⟨verb, path, isVerb, routed, same⟩
  · rw [free result same]
    exact Nat.zero_le _
  · cases classified : classify app.space path with
    | error refusal =>
        obtain ⟨result, isResult⟩ :=
          handlePath_unclassified app agent verb request draws path classified
        rw [free result (same.trans isResult)]
        exact Nat.zero_le _
    | ok target =>
        rw [Load.budget, routed, isVerb]
        dsimp only
        rw [classified]
        rw [same] at converses
        exact (allows_handlePath app agent verb request draws path classified
          (Nat.le_refl _)).spent_le converses
            fun exchange member => Load.answers_met member

end Dispatch

end Quadpod

namespace Quadpod.Reference

open AtomicProgram

/-- A request for `/note`. -/
def readNote : HttpRequest where
  method := "GET".toList
  path := "/note".toList
  headers := []
  query := none
  body := []

/-- What the stores are asked and answer when the owner reads `/note`. -/
def readNoteCalls : List (Utterance stores) :=
  Program.conversation backend (dispatch podApp ownerAgent readNote draws) []
    notedWorld

/-- A read of a resource in one graph takes eight calls at most. -/
theorem calls_within_budget_readNote :
    (Program.eval backend (dispatch podApp ownerAgent readNote draws)
        notedWorld).1.toOption.any Response.isSuccess = true ∧
      (Load.met readNoteCalls).budget podSpace readNote = 8 ∧
        spent storeCharge readNoteCalls ≤
          (Load.met readNoteCalls).budget podSpace readNote := by
  refine ⟨by decide +kernel, by decide +kernel, ?_⟩
  exact calls_within_budget podApp ownerAgent readNote draws _
    (Program.converses_conversation backend _ [] notedWorld)

end Quadpod.Reference
