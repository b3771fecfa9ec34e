import Quadpod.DatasetVersions

namespace Quadpod

/-!
# Datasets up to the names of blank nodes

Two datasets say the same when their blank nodes can be renamed there and back
so that the quads of one become those of the other.  What a dataset needs of an
RDF version, and every part of it that is chosen without looking at a blank
node, is the same on both sides.
-/

variable [IriSyntax]

/-! ## Renaming -/

/-- A subject with its blank node renamed. -/
def NamedOrBlankNode.rename (relabel : BlankNode → BlankNode) :
    NamedOrBlankNode → NamedOrBlankNode
  | .namedNode node => .namedNode node
  | .blankNode blank => .blankNode (relabel blank)

/-- A term with its blank nodes renamed. -/
def Term.rename (relabel : BlankNode → BlankNode) : Term → Term
  | .namedNode node => .namedNode node
  | .blankNode blank => .blankNode (relabel blank)
  | .literal content => .literal content
  | .triple subject predicate object =>
      .triple (subject.rename relabel) predicate (object.rename relabel)

/-- A graph name with its blank node renamed. -/
def GraphName.rename (relabel : BlankNode → BlankNode) :
    GraphName → GraphName
  | .defaultGraph => .defaultGraph
  | .namedNode node => .namedNode node
  | .blankNode blank => .blankNode (relabel blank)

/-- A quad with its blank nodes renamed. -/
def Quad.rename (relabel : BlankNode → BlankNode) (quad : Quad) : Quad where
  subject := quad.subject.rename relabel
  predicate := quad.predicate
  object := quad.object.rename relabel
  graphName := quad.graphName.rename relabel

theorem NamedOrBlankNode.rename_rename
    (first second : BlankNode → BlankNode) (subject : NamedOrBlankNode) :
    (subject.rename first).rename second = subject.rename (second ∘ first) := by
  cases subject with
  | namedNode node =>
      rfl
  | blankNode blank =>
      rfl

theorem Term.rename_rename
    (first second : BlankNode → BlankNode) (object : Term) :
    (object.rename first).rename second = object.rename (second ∘ first) := by
  induction object with
  | namedNode node =>
      rfl
  | blankNode blank =>
      rfl
  | literal content =>
      rfl
  | triple subject predicate object inductionHypothesis =>
      simp only [rename, inductionHypothesis, subject.rename_rename]

theorem GraphName.rename_rename
    (first second : BlankNode → BlankNode) (name : GraphName) :
    (name.rename first).rename second = name.rename (second ∘ first) := by
  cases name with
  | defaultGraph =>
      rfl
  | namedNode node =>
      rfl
  | blankNode blank =>
      rfl

theorem Quad.rename_rename
    (first second : BlankNode → BlankNode) (quad : Quad) :
    (quad.rename first).rename second = quad.rename (second ∘ first) := by
  simp only [rename, NamedOrBlankNode.rename_rename, Term.rename_rename,
    GraphName.rename_rename]

theorem Term.rename_id (object : Term) : object.rename id = object := by
  induction object with
  | namedNode node =>
      rfl
  | blankNode blank =>
      rfl
  | literal content =>
      rfl
  | triple subject predicate object inductionHypothesis =>
      rw [rename, inductionHypothesis]
      cases subject with
      | namedNode node =>
          rfl
      | blankNode blank =>
          rfl

theorem Quad.rename_id (quad : Quad) : quad.rename id = quad := by
  obtain ⟨subject, predicate, object, name⟩ := quad
  rw [rename, Term.rename_id]
  cases subject with
  | namedNode node =>
      cases name <;> rfl
  | blankNode blank =>
      cases name <;> rfl

theorem Dataset.objectVersion_rename
    (relabel : BlankNode → BlankNode) (object : Term) :
    objectVersion (object.rename relabel) = objectVersion object := by
  cases object with
  | namedNode node =>
      rfl
  | blankNode blank =>
      rfl
  | literal content =>
      rfl
  | triple subject predicate object =>
      rfl

/-! ## Isomorphism -/

/-- Renamings that take two datasets to each other. -/
structure Dataset.Renames
    (first second : Dataset) (there back : BlankNode → BlankNode) :
    Prop where
  forth :
    ∀ quad ∈ first.quads,
      quad.rename there ∈ second.quads ∧
        (quad.rename there).rename back = quad
  back :
    ∀ quad ∈ second.quads,
      quad.rename back ∈ first.quads ∧
        (quad.rename back).rename there = quad

/-- Equality of datasets up to the names of blank nodes. -/
def Dataset.Isomorphic (first second : Dataset) : Prop :=
  ∃ there back, first.Renames second there back

namespace Dataset

/-- The order of the quads and their repetition do not matter. -/
theorem Isomorphic.of_mem_iff {first second : Dataset}
    (same : ∀ quad, quad ∈ first.quads ↔ quad ∈ second.quads) :
    first.Isomorphic second := by
  refine ⟨id, id, ?_, ?_⟩
  · intro quad member
    rw [Quad.rename_id, Quad.rename_id]
    exact ⟨(same quad).mp member, rfl⟩
  · intro quad member
    rw [Quad.rename_id, Quad.rename_id]
    exact ⟨(same quad).mpr member, rfl⟩

theorem Isomorphic.symm {first second : Dataset}
    (isomorphic : first.Isomorphic second) : second.Isomorphic first := by
  obtain ⟨there, back, renames⟩ := isomorphic
  exact ⟨back, there, renames.back, renames.forth⟩

theorem Renames.trans {first second third : Dataset}
    {there back otherThere otherBack : BlankNode → BlankNode}
    (lower : first.Renames second there back)
    (upper : second.Renames third otherThere otherBack) :
    first.Renames third (otherThere ∘ there) (back ∘ otherBack) := by
  constructor
  · intro quad member
    obtain ⟨inSecond, returns⟩ := lower.forth quad member
    obtain ⟨inThird, returnsToo⟩ := upper.forth _ inSecond
    rw [← Quad.rename_rename there otherThere,
      ← Quad.rename_rename otherBack back, returnsToo]
    exact ⟨inThird, returns⟩
  · intro quad member
    obtain ⟨inSecond, returns⟩ := upper.back quad member
    obtain ⟨inFirst, returnsToo⟩ := lower.back _ inSecond
    rw [← Quad.rename_rename otherBack back,
      ← Quad.rename_rename there otherThere, returnsToo]
    exact ⟨inFirst, returns⟩

theorem Isomorphic.trans {first second third : Dataset}
    (lower : first.Isomorphic second) (upper : second.Isomorphic third) :
    first.Isomorphic third := by
  obtain ⟨there, back, renames⟩ := lower
  obtain ⟨otherThere, otherBack, renamesToo⟩ := upper
  exact ⟨_, _, renames.trans renamesToo⟩

/-- Isomorphic datasets need the same version of RDF. -/
theorem Isomorphic.rdfVersion_eq {first second : Dataset}
    (isomorphic : first.Isomorphic second) :
    first.rdfVersion = second.rdfVersion := by
  obtain ⟨there, back, renames⟩ := isomorphic
  refine RdfVersion.eq_of_le_iff fun version => ?_
  rw [rdfVersion_le_iff, rdfVersion_le_iff]
  constructor
  · intro fits quad member here isHere
    obtain ⟨inFirst, _⟩ := renames.back quad member
    refine fits _ inFirst here ?_
    rw [← isHere]
    exact objectVersion_rename back quad.object
  · intro fits quad member here isHere
    obtain ⟨inSecond, _⟩ := renames.forth quad member
    refine fits _ inSecond here ?_
    rw [← isHere]
    exact objectVersion_rename there quad.object

/-- A part chosen without looking at blank nodes is isomorphic too. -/
theorem Isomorphic.filter {first second : Dataset} (part : Quad → Bool)
    (blind : ∀ relabel quad, part (quad.rename relabel) = part quad)
    (isomorphic : first.Isomorphic second) :
    Isomorphic ⟨first.quads.filter part⟩ ⟨second.quads.filter part⟩ := by
  obtain ⟨there, back, renames⟩ := isomorphic
  refine ⟨there, back, ?_, ?_⟩
  · intro quad member
    rw [List.mem_filter] at member
    obtain ⟨inSecond, returns⟩ := renames.forth quad member.1
    exact ⟨List.mem_filter.mpr ⟨inSecond, by rw [blind]; exact member.2⟩,
      returns⟩
  · intro quad member
    rw [List.mem_filter] at member
    obtain ⟨inFirst, returns⟩ := renames.back quad member.1
    exact ⟨List.mem_filter.mpr ⟨inFirst, by rw [blind]; exact member.2⟩,
      returns⟩

end Dataset

end Quadpod
