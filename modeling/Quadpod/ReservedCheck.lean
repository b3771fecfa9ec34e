import Quadpod.ReferencePod
import Quadpod.ReservedTerms

namespace Quadpod

/-!
# The reserved-namespace check

`uses_reserved_namespace` looks at the subject, the predicate, the object and
the graph name of every quad.  An IRI can also stand inside the object: as the
datatype of a literal, or anywhere within a triple term.  The check is right
about a dataset exactly when no reserved IRI is buried there alone.
-/

/-! ## The IRIs of a dataset -/

section

variable [IriSyntax]

/-- An IRI that begins with `urn:quadpod:`, in upper or lower case. -/
def NamedNode.BeginsReserved (node : NamedNode) : Prop :=
  ∃ start rest,
    node.iri = start ++ rest ∧ Text.toAsciiLowercase start = reservedPrefix

def NamedOrBlankNode.iris : NamedOrBlankNode → List NamedNode
  | .namedNode node => [node]
  | .blankNode _ => []

/-- The IRIs of a term, at any depth. -/
def Term.iris : Term → List NamedNode
  | .namedNode node => [node]
  | .blankNode _ => []
  | .literal content => [content.datatype]
  | .triple subject predicate object =>
      subject.iris ++ predicate :: object.iris

def GraphName.iris : GraphName → List NamedNode
  | .defaultGraph => []
  | .namedNode node => [node]
  | .blankNode _ => []

/-- The IRIs of a quad, in any position and at any depth. -/
def Quad.iris (quad : Quad) : List NamedNode :=
  quad.subject.iris ++ quad.predicate :: quad.object.iris ++
    quad.graphName.iris

/-- The IRIs of a dataset, in any position and at any depth. -/
def Dataset.iris (dataset : Dataset) : List NamedNode :=
  dataset.quads.flatMap Quad.iris

/-- The IRI that a term is. -/
def Term.ownIris : Term → List NamedNode
  | .namedNode node => [node]
  | _ => []

/-- The IRIs inside a literal or a triple term. -/
def Term.buriedIris : Term → List NamedNode
  | .namedNode _ => []
  | .blankNode _ => []
  | .literal content => [content.datatype]
  | .triple subject predicate object =>
      subject.iris ++ predicate :: object.iris

/-- The IRIs that are a position of a quad. -/
def Quad.ownIris (quad : Quad) : List NamedNode :=
  quad.subject.iris ++ quad.predicate :: quad.object.ownIris ++
    quad.graphName.iris

/-- A dataset with a reserved IRI as a position of one of its quads. -/
def Dataset.HoldsReserved (dataset : Dataset) : Prop :=
  ∃ quad ∈ dataset.quads, ∃ node ∈ quad.ownIris, node.BeginsReserved

/-- A dataset with a reserved IRI inside one of its objects. -/
def Dataset.BuriesReserved (dataset : Dataset) : Prop :=
  ∃ quad ∈ dataset.quads,
    ∃ node ∈ quad.object.buriedIris, node.BeginsReserved

/-! ## The prefix -/

/-- `is_reserved_iri` compares the beginning of the IRI, whatever its case. -/
theorem NamedNode.isReserved_iff (node : NamedNode) :
    node.isReserved = true ↔ node.BeginsReserved := by
  unfold isReserved isReservedIri
  rw [beq_iff_eq]
  constructor
  · intro same
    exact ⟨_, _, (List.take_append_drop _ _).symm, same⟩
  · rintro ⟨start, rest, split, same⟩
    have length : start.length = reservedPrefix.length := by
      rw [← same, Text.toAsciiLowercase, List.length_map]
    rw [split, ← length, List.take_left, same]

/-! ## What the check sees -/

theorem NamedOrBlankNode.exists_reserved_iff (subject : NamedOrBlankNode) :
    subject.namesReserved = true ↔
      ∃ node ∈ subject.iris, node.BeginsReserved := by
  cases subject with
  | namedNode node =>
      simp [namesReserved, iris, NamedNode.isReserved_iff]
  | blankNode blank =>
      simp [namesReserved, iris]

theorem GraphName.exists_reserved_iff (name : GraphName) :
    name.namesReserved = true ↔
      ∃ node ∈ name.iris, node.BeginsReserved := by
  cases name with
  | defaultGraph =>
      simp [namesReserved, iris]
  | namedNode node =>
      simp [namesReserved, iris, NamedNode.isReserved_iff]
  | blankNode blank =>
      simp [namesReserved, iris]

/-- One quad of the check. -/
def Quad.usesReserved (quad : Quad) : Bool :=
  quad.subject.namesReserved ||
    (match quad.object with
      | .namedNode node => node.isReserved
      | _ => false) ||
    quad.graphName.namesReserved || quad.predicate.isReserved

theorem Quad.usesReserved_iff (quad : Quad) :
    quad.usesReserved = true ↔
      ∃ node ∈ quad.ownIris, node.BeginsReserved := by
  have object :
      (match quad.object with
        | .namedNode node => node.isReserved
        | _ => false) = true ↔
        ∃ node ∈ quad.object.ownIris, node.BeginsReserved := by
    cases quad.object with
    | namedNode node =>
        simp [Term.ownIris, NamedNode.isReserved_iff]
    | blankNode blank =>
        simp [Term.ownIris]
    | literal content =>
        simp [Term.ownIris]
    | triple subject predicate object =>
        simp [Term.ownIris]
  unfold usesReserved ownIris
  rw [Bool.or_eq_true, Bool.or_eq_true, Bool.or_eq_true, object,
    NamedOrBlankNode.exists_reserved_iff, GraphName.exists_reserved_iff,
    NamedNode.isReserved_iff]
  simp only [List.mem_append, List.mem_cons, or_and_right, exists_or,
    exists_eq_left]
  simp only [or_comm, or_left_comm]

namespace Dataset

theorem usesReservedNamespace_eq (dataset : Dataset) :
    dataset.usesReservedNamespace = dataset.quads.any Quad.usesReserved := by
  unfold usesReservedNamespace
  congr 1
  funext quad
  obtain ⟨subject, predicate, object, graphName⟩ := quad
  cases subject <;> cases object <;> cases graphName <;> rfl

/-- The check sees the IRIs that are a position of a quad, and no others. -/
theorem usesReservedNamespace_iff (dataset : Dataset) :
    dataset.usesReservedNamespace = true ↔ dataset.HoldsReserved := by
  rw [usesReservedNamespace_eq, List.any_eq_true]
  exact exists_congr fun quad =>
    and_congr_right fun _ => quad.usesReserved_iff

theorem mem_iris_iff (quad : Quad) (node : NamedNode) :
    node ∈ quad.iris ↔
      node ∈ quad.ownIris ∨ node ∈ quad.object.buriedIris := by
  have object :
      node ∈ quad.object.iris ↔
        node ∈ quad.object.ownIris ∨ node ∈ quad.object.buriedIris := by
    cases quad.object <;>
      simp [Term.iris, Term.ownIris, Term.buriedIris]
  unfold Quad.iris Quad.ownIris
  simp only [List.mem_append, List.mem_cons, object]
  tauto

/-- A reserved IRI is a position of a quad or is buried in an object. -/
theorem exists_reserved_iff (dataset : Dataset) :
    (∃ node ∈ dataset.iris, node.BeginsReserved) ↔
      dataset.HoldsReserved ∨ dataset.BuriesReserved := by
  unfold iris HoldsReserved BuriesReserved
  constructor
  · rintro ⟨node, member, reserved⟩
    obtain ⟨quad, isQuad, inQuad⟩ := List.mem_flatMap.mp member
    rcases (mem_iris_iff quad node).mp inQuad with own | buried
    · exact Or.inl ⟨quad, isQuad, node, own, reserved⟩
    · exact Or.inr ⟨quad, isQuad, node, buried, reserved⟩
  · rintro (⟨quad, isQuad, node, own, reserved⟩ |
      ⟨quad, isQuad, node, buried, reserved⟩)
    · exact ⟨node, List.mem_flatMap.mpr
        ⟨quad, isQuad, (mem_iris_iff quad node).mpr (Or.inl own)⟩, reserved⟩
    · exact ⟨node, List.mem_flatMap.mpr
        ⟨quad, isQuad, (mem_iris_iff quad node).mpr (Or.inr buried)⟩,
        reserved⟩

/-- The check is complete exactly when no reserved IRI is only buried. -/
theorem check_complete_iff (dataset : Dataset) :
    (dataset.usesReservedNamespace = true ↔
        ∃ node ∈ dataset.iris, node.BeginsReserved) ↔
      (dataset.BuriesReserved → dataset.HoldsReserved) := by
  rw [usesReservedNamespace_iff, exists_reserved_iff]
  tauto

end Dataset

end

namespace Reference

/-- A statement about a statement whose subject is an IRI of the server's. -/
def buriedQuad : Quad where
  subject := .namedNode owner
  predicate := plainPredicate
  object :=
    .triple
      (.namedNode ⟨"urn:quadpod:bnode:1".toList, by decide⟩)
      plainPredicate
      (.literal (.simple "x".toList))
  graphName := .defaultGraph

/-- The check misses a reserved IRI inside a triple term. -/
theorem check_misses_buriedQuad :
    ¬ ((⟨[buriedQuad]⟩ : Dataset).usesReservedNamespace = true ↔
      ∃ node ∈ (⟨[buriedQuad]⟩ : Dataset).iris, node.BeginsReserved) := by
  intro complete
  have unseen :
      (⟨[buriedQuad]⟩ : Dataset).usesReservedNamespace = false := by
    decide
  have seen := complete.mpr
    ⟨⟨"urn:quadpod:bnode:1".toList, by decide⟩,
      by simp [Dataset.iris, Quad.iris, buriedQuad, Term.iris,
        NamedOrBlankNode.iris],
      "urn:quadpod:".toList, "bnode:1".toList, by decide, by decide⟩
  rw [unseen] at seen
  cases seen

end Reference

end Quadpod
