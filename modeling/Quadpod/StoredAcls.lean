import Quadpod.DeclaredAccess
import Quadpod.SkolemBijection

namespace Quadpod

/-!
# An ACL document in the store

The warning about an ACL is decided on the triples a client sent, the access to
its subject on those the store holds, where every blank node is an IRI minted
for it.  Distinct blank nodes are minted distinct IRIs and no client names one,
so the two documents declare the same access, for everyone whose WebID is not
itself a minted IRI.
-/

variable [IriSyntax]

/-- An agent that is not named by one of the server's own IRIs. -/
def Agent.Unreserved : Agent → Prop
  | .anonymous => True
  | .webId iri => isReservedIri iri = false

namespace Skolemized

variable {fresh : Nat → Uuid} {table : Minted}

/-- The IRI a subject is stored under. -/
inductive StoredAs (table : Minted) : NamedOrBlankNode → NamedNode → Prop where
  | named (node : NamedNode) : StoredAs table (.namedNode node) node
  | minted (blank : BlankNode) (node : NamedNode)
      (isMinted : table.lookup blank.label = some node) :
      StoredAs table (.blankNode blank) node

/-- What an IRI in the place of an object stands for. -/
structure ObjectStoredAs (table : Minted) (object : Term) (term : GroundTerm) :
    Prop where
  kept : ∀ node, object = .namedNode node → term = .namedNode node
  stands :
    ∀ node, term = .namedNode node →
      object = .namedNode node ∨
        ∃ blank : BlankNode, table.lookup blank.label = some node

/-- A triple and the one it is stored as. -/
structure TripleStoredAs
    (table : Minted) (triple : Triple) (stored : GroundTriple) : Prop where
  subject : StoredAs table triple.subject stored.subject
  predicate : triple.predicate = stored.predicate
  object : ObjectStoredAs table triple.object stored.object

theorem storedAs_groundSubject
    {subject : NamedOrBlankNode} {minted : Minted}
    (grows : Grows fresh (groundSubject fresh subject minted).2 table) :
    StoredAs table subject (groundSubject fresh subject minted).1 := by
  cases subject with
  | namedNode node =>
      exact .named node
  | blankNode blank =>
      exact .minted blank _
        (grows.kept _ _ (grows_iriFor blank minted).2)

theorem objectStoredAs_ground
    {object : Term} {minted : Minted}
    (grows : Grows fresh (ground fresh object minted).2 table) :
    ObjectStoredAs table object (ground fresh object minted).1 := by
  cases object with
  | namedNode node =>
      refine ⟨?_, ?_⟩
      · rintro other ⟨⟩
        rfl
      · rintro other ⟨⟩
        exact Or.inl rfl
  | blankNode blank =>
      refine ⟨by rintro other ⟨⟩, ?_⟩
      rintro other ⟨⟩
      exact Or.inr
        ⟨blank, grows.kept _ _ (grows_iriFor blank minted).2⟩
  | literal content =>
      exact ⟨by rintro other ⟨⟩, by rintro other ⟨⟩⟩
  | triple subject predicate inner =>
      exact ⟨by rintro other ⟨⟩, by rintro other ⟨⟩⟩

theorem forall₂_groundQuads
    {triples : List Triple} {minted : Minted}
    (grows : Grows fresh (tableAfter fresh (asQuads triples) minted) table) :
    List.Forall₂ (TripleStoredAs table) triples
      ((groundQuads fresh (asQuads triples) minted).map
        GroundQuad.toTriple) := by
  induction triples generalizing minted with
  | nil =>
      exact .nil
  | cons triple rest inductionHypothesis =>
      let quad : Quad :=
        ⟨triple.subject, triple.predicate, triple.object, .defaultGraph⟩
      have known : Grows fresh (groundQuad fresh quad minted).2 table :=
        (grows_tableAfter (asQuads rest) _).trans grows
      have objectKnown :
          Grows fresh (ground fresh triple.object
            (groundSubject fresh triple.subject minted).2).2 table :=
        (grows_groundGraphName .defaultGraph _).trans known
      refine .cons ⟨?_, rfl, ?_⟩ (inductionHypothesis grows)
      · exact storedAs_groundSubject
          ((grows_ground triple.object _).trans objectKnown)
      · exact objectStoredAs_ground objectKnown

/-- The table a document is stored with. -/
def tableOf (fresh : Nat → Uuid) (triples : List Triple) : Minted :=
  tableAfter fresh (asQuads triples) []

theorem drawn_tableOf (fresh : Nat → Uuid) (triples : List Triple) :
    Drawn fresh (tableOf fresh triples) :=
  (grows_tableAfter (asQuads triples) []).drawn .nil

/-- The triples of a document are stored one for one. -/
theorem forall₂_skolemizedTriples (fresh : Nat → Uuid)
    (triples : List Triple) :
    List.Forall₂ (TripleStoredAs (tableOf fresh triples)) triples
      (skolemizedTriples fresh triples) :=
  forall₂_groundQuads (Grows.refl _)

/-- Every IRI of a table is reserved. -/
theorem isReserved_of_lookup
    (drawn : Drawn fresh table) {label : Text} {node : NamedNode}
    (isKnown : table.lookup label = some node) : node.isReserved = true := by
  obtain ⟨before, after, isSplit, _⟩ := List.lookup_eq_some_iff.mp isKnown
  have inTable : (label, node) ∈ table := by
    rw [isSplit]
    simp
  obtain ⟨number, _, isMinted⟩ := drawn.index _ inTable
  dsimp only at isMinted
  rw [isMinted]
  exact isReserved_of_blankFor (blankFor_skolemIri _)

/-- Distinct subjects without reserved IRIs are stored under distinct IRIs. -/
theorem StoredAs.injective
    (distinct : DistinctBelow fresh table.length)
    (drawn : Drawn fresh table)
    {first second : NamedOrBlankNode} {node : NamedNode}
    (firstFree : first.namesReserved = false)
    (secondFree : second.namesReserved = false)
    (firstStored : StoredAs table first node)
    (secondStored : StoredAs table second node) : first = second := by
  cases firstStored with
  | named =>
      cases secondStored with
      | named =>
          rfl
      | minted blank _ isMinted =>
          have reserved := isReserved_of_lookup drawn isMinted
          rw [NamedOrBlankNode.namesReserved, reserved] at firstFree
          cases firstFree
  | minted blank _ isMinted =>
      cases secondStored with
      | named =>
          have reserved := isReserved_of_lookup drawn isMinted
          rw [NamedOrBlankNode.namesReserved, reserved] at secondFree
          cases secondFree
      | minted other _ otherMinted =>
          obtain ⟨back, isBack, isRestored⟩ :=
            drawn.restore_lookup distinct isMinted
          obtain ⟨otherBack, isOther, otherRestored⟩ :=
            drawn.restore_lookup distinct otherMinted
          rw [isBack, Option.some.injEq] at isOther
          rw [← isOther, isRestored] at otherRestored
          rw [label_injective (BlankNode.mk.inj otherRestored)]

/-- A subject is stored under one IRI. -/
theorem StoredAs.functional
    {subject : NamedOrBlankNode} {first second : NamedNode}
    (firstStored : StoredAs table subject first)
    (secondStored : StoredAs table subject second) : first = second := by
  cases firstStored with
  | named =>
      cases secondStored
      rfl
  | minted blank _ isMinted =>
      cases secondStored with
      | minted _ _ otherMinted =>
          exact Option.some.inj (isMinted.symm.trans otherMinted)

/-- Every triple of a document is stored. -/
theorem stored_of_sent
    {triples : List Triple} {stored : List GroundTriple}
    (matched : List.Forall₂ (TripleStoredAs table) triples stored)
    {triple : Triple} (member : triple ∈ triples) :
    ∃ ground ∈ stored, TripleStoredAs table triple ground := by
  induction matched with
  | nil =>
      cases member
  | cons first rest inductionHypothesis =>
      rcases List.mem_cons.mp member with rfl | inRest
      · exact ⟨_, List.mem_cons_self, first⟩
      · obtain ⟨ground, isStored, isMatch⟩ := inductionHypothesis inRest
        exact ⟨ground, List.mem_cons_of_mem _ isStored, isMatch⟩

/-- Every stored triple was sent. -/
theorem sent_of_stored
    {triples : List Triple} {stored : List GroundTriple}
    (matched : List.Forall₂ (TripleStoredAs table) triples stored)
    {ground : GroundTriple} (member : ground ∈ stored) :
    ∃ triple ∈ triples, TripleStoredAs table triple ground := by
  induction matched with
  | nil =>
      cases member
  | cons first rest inductionHypothesis =>
      rcases List.mem_cons.mp member with rfl | inRest
      · exact ⟨_, List.mem_cons_self, first⟩
      · obtain ⟨triple, isSent, isMatch⟩ := inductionHypothesis inRest
        exact ⟨triple, List.mem_cons_of_mem _ isSent, isMatch⟩

end Skolemized

/-! ## What both documents declare -/

section Documents

open Skolemized

variable {fresh : Nat → Uuid} {triples : List Triple}

/-- The triples the guard reads of a stored document. -/
def readTriples (fresh : Nat → Uuid) (triples : List Triple) : List Triple :=
  (skolemizedTriples fresh triples).map GroundTriple.toTriple

/-- What a subject states is stated of the IRI it is stored under. -/
theorem States.stored
    {subject : NamedOrBlankNode} {node : NamedNode} {predicate object : Text}
    (isStored : StoredAs (tableOf fresh triples) subject node)
    (states : States triples subject predicate object) :
    States (readTriples fresh triples) (.namedNode node) predicate object := by
  obtain ⟨triple, isSent, rfl, isPredicate, other, isObject, isIri⟩ := states
  obtain ⟨ground, isGround, matched⟩ :=
    stored_of_sent (forall₂_skolemizedTriples fresh triples) isSent
  refine ⟨ground.toTriple, List.mem_map_of_mem isGround, ?_, ?_, other, ?_,
    isIri⟩
  · rw [isStored.functional matched.subject]
    rfl
  · rw [← isPredicate, matched.predicate]
    rfl
  · rw [GroundTriple.toTriple, matched.object.kept other isObject]
    rfl

/-- What is stated of a stored IRI is stated of a subject stored under it. -/
theorem States.sent
    {node : NamedNode} {predicate object : Text}
    (unreserved : isReservedIri object = false)
    (states :
      States (readTriples fresh triples) (.namedNode node) predicate
        object) :
    ∃ subject,
      StoredAs (tableOf fresh triples) subject node ∧
        States triples subject predicate object := by
  obtain ⟨read, isRead, isSubject, isPredicate, other, isObject, isIri⟩ :=
    states
  obtain ⟨ground, isGround, rfl⟩ := List.mem_map.mp isRead
  obtain ⟨triple, isSent, matched⟩ :=
    sent_of_stored (forall₂_skolemizedTriples fresh triples) isGround
  have isNode : ground.subject = node :=
    NamedOrBlankNode.namedNode.inj isSubject
  have isTerm : ground.object = .namedNode other := by
    cases isKind : ground.object with
    | namedNode stored =>
        rw [GroundTriple.toTriple, isKind] at isObject
        exact congrArg GroundTerm.namedNode (Term.namedNode.inj isObject)
    | literal content =>
        rw [GroundTriple.toTriple, isKind] at isObject
        cases isObject
    | triple subject predicate object =>
        rw [GroundTriple.toTriple, isKind] at isObject
        cases isObject
  refine ⟨triple.subject, isNode ▸ matched.subject, triple, isSent, rfl, ?_,
    other, ?_, isIri⟩
  · rw [← isPredicate, matched.predicate]
    rfl
  · rcases matched.object.stands other isTerm with kept | ⟨blank, isMinted⟩
    · exact kept
    · have reserved :=
        isReserved_of_lookup (drawn_tableOf fresh triples) isMinted
      rw [NamedNode.isReserved, isIri, unreserved] at reserved
      cases reserved

/-- No triple of the document is about a reserved IRI. -/
def OpenSubjects (triples : List Triple) : Prop :=
  ∀ triple ∈ triples, triple.subject.namesReserved = false

theorem States.subject_unreserved
    (isOpen : OpenSubjects triples) {subject : NamedOrBlankNode}
    {predicate object : Text}
    (states : States triples subject predicate object) :
    subject.namesReserved = false := by
  obtain ⟨triple, isSent, rfl, _⟩ := states
  exact isOpen triple isSent

section Stored

variable {subject : NamedOrBlankNode} {node : NamedNode}
variable (distinct : DistinctBelow fresh (tableOf fresh triples).length)
variable (isOpen : OpenSubjects triples)
variable (isStored : StoredAs (tableOf fresh triples) subject node)
variable (subjectFree : subject.namesReserved = false)

include distinct isOpen isStored subjectFree

/-- A stored document states of a subject's IRI what the sent one states. -/
theorem states_readTriples_iff
    (predicate : Text) {object : Text}
    (unreserved : isReservedIri object = false) :
    States (readTriples fresh triples) (.namedNode node) predicate object ↔
      States triples subject predicate object := by
  refine ⟨fun states => ?_, States.stored isStored⟩
  obtain ⟨other, otherStored, otherStates⟩ := states.sent unreserved
  have same : subject = other :=
    isStored.injective distinct (drawn_tableOf fresh triples) subjectFree
      (otherStates.subject_unreserved isOpen) otherStored
  rw [same]
  exact otherStates

/-- Both documents cover the same agents under a subject. -/
theorem covers_readTriples_iff
    {agent : Agent} (unreserved : agent.Unreserved) :
    Covers (readTriples fresh triples) (.namedNode node) agent ↔
      Covers triples subject agent := by
  have states (predicate : Text) {object : Text}
      (free : isReservedIri object = false) :=
    states_readTriples_iff distinct isOpen isStored subjectFree predicate free
  unfold Covers
  refine or_congr (states _ (by decide)) (exists_congr fun webId => ?_)
  refine and_congr_right fun isWebId => ?_
  rw [isWebId] at unreserved
  exact or_congr (states _ (by decide)) (states _ unreserved)

/-- Both documents declare the same under a subject. -/
theorem declares_readTriples_iff
    {agent : Agent} {governedIri : Text} {inherited : Bool} {mode : Mode}
    (unreserved : agent.Unreserved)
    (governedFree : isReservedIri governedIri = false) :
    Declares (readTriples fresh triples) agent governedIri inherited mode
        (.namedNode node) ↔
      Declares triples agent governedIri inherited mode subject := by
  have states (predicate : Text) {object : Text}
      (free : isReservedIri object = false) :=
    states_readTriples_iff distinct isOpen isStored subjectFree predicate free
  have covers :=
    covers_readTriples_iff distinct isOpen isStored subjectFree unreserved
  have modeFree : isReservedIri mode.iri = false := by
    cases mode <;> decide
  constructor
  · rintro ⟨scope, covered, hasMode⟩
    exact ⟨(states _ governedFree).mp scope, covers.mp covered,
      (states _ modeFree).mp hasMode⟩
  · rintro ⟨scope, covered, hasMode⟩
    exact ⟨(states _ governedFree).mpr scope, covers.mpr covered,
      (states _ modeFree).mpr hasMode⟩

end Stored

/-- A stored document declares to an agent what the sent one does. -/
theorem exists_declares_readTriples_iff
    (distinct : DistinctBelow fresh (tableOf fresh triples).length)
    (isOpen : OpenSubjects triples)
    {agent : Agent} {governedIri : Text} {inherited : Bool} {mode : Mode}
    (unreserved : agent.Unreserved)
    (governedFree : isReservedIri governedIri = false) :
    (∃ subject,
        Declares (readTriples fresh triples) agent governedIri inherited mode
          subject) ↔
      ∃ subject,
        Declares triples agent governedIri inherited mode subject := by
  constructor
  · rintro ⟨subject, declares⟩
    obtain ⟨read, isRead, isSubject, _⟩ := id declares.scope
    obtain ⟨ground, isGround, rfl⟩ := List.mem_map.mp isRead
    rw [← isSubject] at declares
    obtain ⟨sent, isStored, states⟩ := declares.scope.sent governedFree
    exact ⟨sent,
      (declares_readTriples_iff distinct isOpen isStored
        (states.subject_unreserved isOpen) unreserved governedFree).mp
        declares⟩
  · rintro ⟨subject, declares⟩
    obtain ⟨triple, isSent, isSubject, _⟩ := id declares.scope
    obtain ⟨ground, isGround, matched⟩ :=
      stored_of_sent (forall₂_skolemizedTriples fresh triples) isSent
    rw [← isSubject] at declares
    exact ⟨.namedNode ground.subject,
      (declares_readTriples_iff distinct isOpen matched.subject
        (isOpen triple isSent) unreserved governedFree).mpr declares⟩

end Documents

end Quadpod
