import Quadpod.Resource
import Quadpod.Traversal

namespace Quadpod

/-!
# Reserved IRIs in terms

The server keeps the namespace `urn:quadpod:` to itself.  What a client sees
names a reserved IRI when one occurs in it at any position and any depth.  A
stored term shows none when every IRI in it is unreserved, except that an IRI
minted for a blank node may stand where it is read back as a blank node: as a
subject, an object or a graph name, and not as a predicate.
-/

variable [IriSyntax]

/-! ## What a client sees -/

/-- Whether an IRI is in the reserved namespace. -/
def NamedNode.isReserved (node : NamedNode) : Bool :=
  isReservedIri node.iri

/-- Whether the datatype of a literal is reserved. -/
def Literal.namesReserved (content : Literal) : Bool :=
  content.datatype.isReserved

def NamedOrBlankNode.namesReserved : NamedOrBlankNode → Bool
  | .namedNode node => node.isReserved
  | .blankNode _ => false

/-- Whether a term names a reserved IRI, at any depth. -/
def Term.namesReserved : Term → Bool
  | .namedNode node => node.isReserved
  | .blankNode _ => false
  | .literal content => content.namesReserved
  | .triple subject predicate object =>
      subject.namesReserved || predicate.isReserved || object.namesReserved

def GraphName.namesReserved : GraphName → Bool
  | .defaultGraph => false
  | .namedNode node => node.isReserved
  | .blankNode _ => false

/-- Whether a quad names a reserved IRI in any position. -/
def Quad.namesReserved (quad : Quad) : Bool :=
  quad.subject.namesReserved || quad.predicate.isReserved ||
    quad.object.namesReserved || quad.graphName.namesReserved

/-- Whether a dataset names a reserved IRI anywhere. -/
def Dataset.namesReserved (dataset : Dataset) : Bool :=
  dataset.quads.any Quad.namesReserved

/-! ## What may be stored -/

/-- An IRI a client may see, or one that is read back as a blank node. -/
def NamedNode.Masked (node : NamedNode) : Prop :=
  node.isReserved = false ∨ (Skolemized.blankFor node).isSome = true

/-- A stored term that is read back without a reserved IRI. -/
def GroundTerm.Masked : GroundTerm → Prop
  | .namedNode node => node.Masked
  | .literal content => content.namesReserved = false
  | .triple subject predicate object =>
      subject.Masked ∧ predicate.isReserved = false ∧ object.Masked

/-- A stored triple that is read back without a reserved IRI. -/
structure GroundTriple.Masked (triple : GroundTriple) : Prop where
  subject : triple.subject.Masked
  predicate : triple.predicate.isReserved = false
  object : triple.object.Masked

def GroundGraphName.Masked : GroundGraphName → Prop
  | .defaultGraph => True
  | .namedNode node => node.Masked

/-- A stored quad that is read back without a reserved IRI. -/
structure GroundQuad.Masked (quad : GroundQuad) : Prop where
  triple : quad.toTriple.Masked
  graphName : quad.graphName.Masked

/-! ## Reading back -/

namespace Skolemized

theorem subjectFor_masked
    {node : NamedNode} (masked : node.Masked) :
    (subjectFor node).namesReserved = false := by
  unfold subjectFor
  cases isBlank : blankFor node with
  | some blank =>
      rfl
  | none =>
      rcases masked with unreserved | minted
      · exact unreserved
      · rw [isBlank] at minted
        cases minted

theorem termFor_masked
    {term : GroundTerm} (masked : term.Masked) :
    (termFor term).namesReserved = false := by
  induction term with
  | namedNode node =>
      unfold termFor
      cases isBlank : blankFor node with
      | some blank =>
          rfl
      | none =>
          rcases masked with unreserved | minted
          · exact unreserved
          · rw [isBlank] at minted
            cases minted
  | literal content =>
      exact masked
  | triple subject predicate object inductionHypothesis =>
      obtain ⟨subjectMasked, unreserved, objectMasked⟩ := masked
      rw [termFor, Term.namesReserved, subjectFor_masked subjectMasked,
        unreserved, inductionHypothesis objectMasked]
      rfl

theorem graphNameFor_masked
    {name : GroundGraphName} (masked : name.Masked) :
    (graphNameFor name).namesReserved = false := by
  cases name with
  | defaultGraph =>
      rfl
  | namedNode node =>
      unfold graphNameFor
      dsimp only
      cases isBlank : blankFor node with
      | some blank =>
          rfl
      | none =>
          rcases masked with unreserved | minted
          · exact unreserved
          · rw [isBlank] at minted
            cases minted

/-- What is stored masked is seen without a reserved IRI. -/
theorem deskolemize_masked
    {dataset : Skolemized}
    (masked : ∀ quad ∈ dataset.quads, quad.Masked) :
    dataset.deskolemize.namesReserved = false := by
  rw [Dataset.namesReserved, List.any_eq_false]
  intro quad isSeen
  obtain ⟨stored, isStored, rfl⟩ := List.mem_map.mp isSeen
  have isMasked := masked stored isStored
  have subject := subjectFor_masked isMasked.triple.subject
  have predicate := isMasked.triple.predicate
  have object := termFor_masked isMasked.triple.object
  have graphName := graphNameFor_masked isMasked.graphName
  simp only [GroundQuad.toTriple] at subject predicate object
  simp [Quad.namesReserved, subject, predicate, object, graphName]

end Skolemized

/-! ## Storing -/

def NamedOrBlankNode.Storable : NamedOrBlankNode → Prop
  | .namedNode node => node.Masked
  | .blankNode _ => True

/-- A term whose stored form is masked. -/
def Term.Storable : Term → Prop
  | .namedNode node => node.Masked
  | .blankNode _ => True
  | .literal content => content.namesReserved = false
  | .triple subject predicate object =>
      subject.Storable ∧ predicate.isReserved = false ∧ object.Storable

def GraphName.Storable : GraphName → Prop
  | .defaultGraph => True
  | .namedNode node => node.Masked
  | .blankNode _ => True

/-- A quad whose stored form is masked. -/
structure Quad.Storable (quad : Quad) : Prop where
  subject : quad.subject.Storable
  predicate : quad.predicate.isReserved = false
  object : quad.object.Storable
  graphName : quad.graphName.Storable

theorem NamedOrBlankNode.storable
    {node : NamedOrBlankNode} (unreserved : node.namesReserved = false) :
    node.Storable := by
  cases node with
  | namedNode node =>
      exact Or.inl unreserved
  | blankNode blank =>
      trivial

theorem Term.storable
    {term : Term} (unreserved : term.namesReserved = false) :
    term.Storable := by
  induction term with
  | namedNode node =>
      exact Or.inl unreserved
  | blankNode blank =>
      trivial
  | literal content =>
      exact unreserved
  | triple subject predicate object inductionHypothesis =>
      simp only [namesReserved, Bool.or_eq_false_iff] at unreserved
      obtain ⟨⟨subjectFree, predicateFree⟩, objectFree⟩ := unreserved
      exact ⟨NamedOrBlankNode.storable subjectFree, predicateFree,
        inductionHypothesis objectFree⟩

/-- A client's quad that names nothing reserved may be stored. -/
theorem Quad.storable
    {quad : Quad} (unreserved : quad.namesReserved = false) :
    quad.Storable := by
  simp only [namesReserved, Bool.or_eq_false_iff] at unreserved
  obtain ⟨⟨⟨subject, predicate⟩, object⟩, graphName⟩ := unreserved
  refine ⟨NamedOrBlankNode.storable subject, predicate, Term.storable object,
    ?_⟩
  cases isName : quad.graphName with
  | namedNode node =>
      rw [isName] at graphName
      exact Or.inl graphName
  | defaultGraph =>
      trivial
  | blankNode blank =>
      trivial

theorem GroundTerm.Masked.storable
    {term : GroundTerm} (masked : term.Masked) : term.toTerm.Storable := by
  induction term with
  | namedNode node =>
      exact masked
  | literal content =>
      exact masked
  | triple subject predicate object inductionHypothesis =>
      obtain ⟨subjectMasked, unreserved, objectMasked⟩ := masked
      exact ⟨subjectMasked, unreserved, inductionHypothesis objectMasked⟩

namespace Skolemized

/-- Every IRI minted so far is read back as a blank node. -/
def MintedMasked (minted : Minted) : Prop :=
  ∀ entry ∈ minted, entry.2.Masked

theorem skolemIri_masked (uuid : Uuid) : (skolemIri uuid).Masked := by
  right
  have stripped :
      Text.stripPrefix skolemPrefix (skolemIri uuid).iri = some uuid.text :=
    Text.stripPrefix_append skolemPrefix uuid.text
  rw [blankFor, stripped]
  rfl

section Minting

variable {fresh : Nat → Uuid} {minted : Minted}

theorem iriFor_masked
    (known : MintedMasked minted) (blank : BlankNode) :
    (iriFor fresh blank minted).1.Masked ∧
      MintedMasked (iriFor fresh blank minted).2 := by
  unfold iriFor
  split
  · next node isKnown =>
      obtain ⟨before, after, isMinted, _⟩ :=
        List.lookup_eq_some_iff.mp isKnown
      refine ⟨known (blank.label, node) ?_, known⟩
      rw [isMinted]
      exact List.mem_append_right _ List.mem_cons_self
  · refine ⟨skolemIri_masked _, ?_⟩
    intro entry member
    rcases List.mem_cons.mp member with rfl | older
    · exact skolemIri_masked _
    · exact known entry older

theorem groundSubject_masked
    (known : MintedMasked minted) {subject : NamedOrBlankNode}
    (storable : subject.Storable) :
    (groundSubject fresh subject minted).1.Masked ∧
      MintedMasked (groundSubject fresh subject minted).2 := by
  cases subject with
  | namedNode node =>
      exact ⟨storable, known⟩
  | blankNode blank =>
      exact iriFor_masked known blank

theorem ground_masked
    {term : Term} (storable : term.Storable) (known : MintedMasked minted) :
    (ground fresh term minted).1.Masked ∧
      MintedMasked (ground fresh term minted).2 := by
  induction term generalizing minted with
  | namedNode node =>
      exact ⟨storable, known⟩
  | blankNode blank =>
      exact iriFor_masked known blank
  | literal content =>
      exact ⟨storable, known⟩
  | triple subject predicate object inductionHypothesis =>
      obtain ⟨subjectStorable, unreserved, objectStorable⟩ := storable
      obtain ⟨subjectMasked, afterSubject⟩ :=
        groundSubject_masked known subjectStorable
      obtain ⟨objectMasked, afterObject⟩ :=
        inductionHypothesis objectStorable afterSubject
      exact ⟨⟨subjectMasked, unreserved, objectMasked⟩, afterObject⟩

theorem groundGraphName_masked
    (known : MintedMasked minted) {name : GraphName}
    (storable : name.Storable) :
    (groundGraphName fresh name minted).1.Masked ∧
      MintedMasked (groundGraphName fresh name minted).2 := by
  cases name with
  | defaultGraph =>
      exact ⟨trivial, known⟩
  | namedNode node =>
      exact ⟨storable, known⟩
  | blankNode blank =>
      exact iriFor_masked known blank

theorem groundQuad_masked
    (known : MintedMasked minted) {quad : Quad} (storable : quad.Storable) :
    (groundQuad fresh quad minted).1.Masked ∧
      MintedMasked (groundQuad fresh quad minted).2 := by
  obtain ⟨subject, afterSubject⟩ :=
    groundSubject_masked known storable.subject
  obtain ⟨object, afterObject⟩ :=
    ground_masked storable.object afterSubject
  obtain ⟨graphName, afterName⟩ :=
    groundGraphName_masked afterObject storable.graphName
  exact ⟨⟨⟨subject, storable.predicate, object⟩, graphName⟩, afterName⟩

theorem groundQuads_masked
    {quads : List Quad}
    (storable : ∀ quad ∈ quads, quad.Storable)
    (known : MintedMasked minted) :
    ∀ quad ∈ groundQuads fresh quads minted, quad.Masked := by
  induction quads generalizing minted with
  | nil =>
      intro quad member
      cases member
  | cons first rest inductionHypothesis =>
      obtain ⟨firstMasked, afterFirst⟩ :=
        groundQuad_masked known (storable first (by simp))
      intro quad member
      rcases List.mem_cons.mp member with rfl | inRest
      · exact firstMasked
      · exact inductionHypothesis
          (fun other isOther => storable other (by simp [isOther]))
          afterFirst quad inRest

end Minting

/-- What is skolemized from storable quads is masked. -/
theorem skolemize_masked
    (fresh : Nat → Uuid) {dataset : Dataset}
    (storable : ∀ quad ∈ dataset.quads, quad.Storable) :
    ∀ quad ∈ (skolemize fresh dataset).quads, quad.Masked :=
  groundQuads_masked storable fun entry member => by cases member

end Skolemized

/-! ### Quads without blank nodes -/

namespace Skolemized

theorem groundOf_masked
    {term : Term} {result : GroundTerm}
    (storable : term.Storable) (isGround : groundOf term = some result) :
    result.Masked := by
  induction term generalizing result with
  | namedNode node =>
      cases isGround
      exact storable
  | blankNode blank =>
      cases isGround
  | literal content =>
      cases isGround
      exact storable
  | triple subject predicate object inductionHypothesis =>
      obtain ⟨subjectStorable, unreserved, objectStorable⟩ := storable
      cases subject with
      | namedNode node =>
          obtain ⟨inner, isInner, rfl⟩ := Option.map_eq_some_iff.mp isGround
          exact ⟨subjectStorable, unreserved,
            inductionHypothesis objectStorable isInner⟩
      | blankNode blank =>
          cases isGround

/-- Ground quads that may be stored are masked as they are. -/
theorem fromStore_masked
    {quads : List Quad} {dataset : Skolemized}
    (storable : ∀ quad ∈ quads, quad.Storable)
    (isGround : fromStore quads = some dataset) :
    ∀ quad ∈ dataset.quads, quad.Masked := by
  obtain ⟨grounded, isGrounded, rfl⟩ := Option.map_eq_some_iff.mp isGround
  intro quad member
  obtain ⟨original, isOriginal, isQuad⟩ :=
    Traversal.mem_of_some isGrounded member
  have may := storable original isOriginal
  obtain ⟨subject, predicate, object, graphName⟩ := original
  cases subject with
  | blankNode blank =>
      cases isQuad
  | namedNode node =>
      cases isTerm : groundOf object with
      | none =>
          simp [groundQuadOf, isTerm] at isQuad
      | some term =>
          have triple : GroundTriple.Masked ⟨node, predicate, term⟩ :=
            ⟨may.subject, may.predicate, groundOf_masked may.object isTerm⟩
          cases graphName with
          | blankNode blank =>
              simp [groundQuadOf, isTerm] at isQuad
          | defaultGraph =>
              simp only [groundQuadOf, isTerm, Option.bind_eq_bind,
                Option.bind_some, Option.some.injEq] at isQuad
              subst isQuad
              exact ⟨triple, trivial⟩
          | namedNode name =>
              simp only [groundQuadOf, isTerm, Option.bind_eq_bind,
                Option.bind_some, Option.some.injEq] at isQuad
              subst isQuad
              exact ⟨triple, may.graphName⟩

end Skolemized

/-- Triples of a client that may be stored are stored masked. -/
theorem skolemizedTriples_masked
    (fresh : Nat → Uuid) {triples : List Triple}
    (storable : ∀ quad ∈ asQuads triples, quad.Storable) :
    ∀ triple ∈ skolemizedTriples fresh triples, triple.Masked := by
  intro triple member
  obtain ⟨quad, isQuad, rfl⟩ := List.mem_map.mp member
  exact (Skolemized.skolemize_masked fresh storable quad isQuad).triple

end Quadpod
