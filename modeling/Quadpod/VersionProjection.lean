import Quadpod.DatasetVersions

namespace Quadpod

/-!
# The laws of projection

`project_to` returns a dataset that fits unchanged, and otherwise drops or
rewrites its objects one by one.  The two agree: on an object that fits, the
rewriting does nothing, so a projection is always the same map over the quads
and projections compose as their versions do.
-/

variable [IriSyntax]

/-! ## One object -/

/-- An object that fits is kept as it is. -/
theorem projectObject_of_fits {version : RdfVersion} {object : Term}
    (fits : object.FitsInto version) :
    projectObject version object = some object := by
  unfold projectObject
  split
  · next subject predicate inner =>
      have enough : .rdf12 ≤ version := fits .rdf12 rfl
      rw [if_neg fun below => RdfVersion.not_le.mpr below enough]
  · next value language direction =>
      have enough : .rdf12Basic ≤ version := fits .rdf12Basic rfl
      rw [if_neg fun below => RdfVersion.not_le.mpr below enough]
  · rfl

theorem projectQuad_of_fits {version : RdfVersion} {quad : Quad}
    (fits : quad.object.FitsInto version) :
    projectQuad version quad = some quad := by
  unfold projectQuad
  rw [projectObject_of_fits fits]
  rfl

/-- Projecting an object twice projects it to the lower version. -/
theorem projectObject_projectObject
    (lower upper : RdfVersion) (object : Term) :
    (projectObject upper object).bind (projectObject lower) =
      projectObject (lower.min upper) object := by
  cases object with
  | namedNode node =>
      rfl
  | blankNode blank =>
      rfl
  | literal content =>
      cases content with
      | directional value language direction =>
          cases lower <;> cases upper <;> rfl
      | simple value =>
          rfl
      | languageTagged value language =>
          rfl
      | typed value datatype =>
          rfl
  | triple subject predicate inner =>
      cases lower <;> cases upper <;> rfl

theorem projectQuad_projectQuad
    (lower upper : RdfVersion) (quad : Quad) :
    (projectQuad upper quad).bind (projectQuad lower) =
      projectQuad (lower.min upper) quad := by
  unfold projectQuad
  rw [← projectObject_projectObject, Option.bind_map, Option.map_bind]
  rfl

/-! ## What is shown of a quad -/

/-- A quad as it is, or without the base direction of its object. -/
inductive Quad.ShownAs (quad : Quad) : Quad → Prop where
  | unchanged : ShownAs quad quad
  | undirected (value language : Text) (direction : BaseDirection)
      (directional :
        quad.object = .literal (.directional value language direction)) :
      ShownAs quad
        { quad with object := .literal (.languageTagged value language) }

def Term.isTriple : Term → Bool
  | .triple _ _ _ => true
  | _ => false

/-- A quad that cannot be shown at a version. -/
def Quad.isDropped (version : RdfVersion) (quad : Quad) : Bool :=
  quad.object.isTriple && decide (version < .rdf12)

/-- A quad is dropped, or shown with its object as the version allows. -/
theorem projectQuad_cases (version : RdfVersion) (quad : Quad) :
    (quad.isDropped version = true ∧ projectQuad version quad = none) ∨
      (quad.isDropped version = false ∧
        ∃ shown,
          projectQuad version quad = some shown ∧ quad.ShownAs shown) := by
  obtain ⟨subject, predicate, object, name⟩ := quad
  cases object with
  | namedNode node =>
      exact Or.inr ⟨rfl, _, rfl, .unchanged⟩
  | blankNode blank =>
      exact Or.inr ⟨rfl, _, rfl, .unchanged⟩
  | literal content =>
      cases content with
      | directional value language direction =>
          by_cases below : version < .rdf12Basic
          · refine Or.inr ⟨rfl, _, ?_, .undirected value language direction rfl⟩
            simp [projectQuad, projectObject, below]
          · refine Or.inr ⟨rfl, _, ?_, .unchanged⟩
            simp [projectQuad, projectObject, below]
      | simple value =>
          exact Or.inr ⟨rfl, _, rfl, .unchanged⟩
      | languageTagged value language =>
          exact Or.inr ⟨rfl, _, rfl, .unchanged⟩
      | typed value datatype =>
          exact Or.inr ⟨rfl, _, rfl, .unchanged⟩
  | triple tripleSubject triplePredicate inner =>
      by_cases below : version < .rdf12
      · left
        simp [Quad.isDropped, Term.isTriple, projectQuad, projectObject, below]
      · refine Or.inr ⟨?_, _, ?_, .unchanged⟩
        · simp [Quad.isDropped, below]
        · simp [projectQuad, projectObject, below]

/-- The quads shown are those not dropped, one for one and in their order. -/
theorem forall₂_projectQuad (version : RdfVersion) (quads : List Quad) :
    List.Forall₂ Quad.ShownAs
      (quads.filter fun quad => !quad.isDropped version)
      (quads.filterMap (projectQuad version)) := by
  induction quads with
  | nil =>
      exact .nil
  | cons quad rest inductionHypothesis =>
      rcases projectQuad_cases version quad with
        ⟨dropped, isNone⟩ | ⟨kept, shown, isShown, asShown⟩
      · rw [List.filter_cons_of_neg (by simp [dropped]),
          List.filterMap_cons_none isNone]
        exact inductionHypothesis
      · rw [List.filter_cons_of_pos (by simp [kept]),
          List.filterMap_cons_some isShown]
        exact .cons asShown inductionHypothesis

/-! ## Datasets -/

namespace Dataset

/-- The shortcut of `project_to` changes nothing. -/
theorem projectTo_eq_filterMap (dataset : Dataset) (version : RdfVersion) :
    dataset.projectTo version =
      ⟨dataset.quads.filterMap (projectQuad version)⟩ := by
  unfold projectTo
  split
  · next fits =>
      rw [rdfVersion_le_iff] at fits
      have same :
          dataset.quads.filterMap (projectQuad version) = dataset.quads := by
        rw [List.filterMap_congr fun quad member =>
          projectQuad_of_fits (fits quad member)]
        exact List.filterMap_some
      rw [same]
  · rfl

theorem projectTo_of_fits {dataset : Dataset} {version : RdfVersion}
    (fits : dataset.rdfVersion ≤ version) :
    dataset.projectTo version = dataset := by
  unfold projectTo
  rw [if_pos fits]

theorem projectTo_projectTo
    (dataset : Dataset) (lower upper : RdfVersion) :
    (dataset.projectTo upper).projectTo lower =
      dataset.projectTo (lower.min upper) := by
  simp only [projectTo_eq_filterMap, List.filterMap_filterMap,
    projectQuad_projectQuad]

/-- What is shown of a dataset is shown of one of its quads. -/
theorem shown_of_projectTo
    {dataset : Dataset} {version : RdfVersion} {shown : Quad}
    (member : shown ∈ (dataset.projectTo version).quads) :
    ∃ quad ∈ dataset.quads, quad.ShownAs shown := by
  rw [projectTo_eq_filterMap] at member
  obtain ⟨quad, isQuad, isShown⟩ := List.mem_filterMap.mp member
  rcases projectQuad_cases version quad with
    ⟨_, isNone⟩ | ⟨_, other, isOther, asOther⟩
  · rw [isNone] at isShown
    cases isShown
  · rw [isOther] at isShown
    cases isShown
    exact ⟨quad, isQuad, asOther⟩

/-- A quad not shown is dropped. -/
theorem dropped_of_not_shown
    {dataset : Dataset} {version : RdfVersion} {quad : Quad}
    (member : quad ∈ dataset.quads)
    (missing :
      ∀ shown ∈ (dataset.projectTo version).quads, ¬ quad.ShownAs shown) :
    quad.object.isTriple = true ∧ version < .rdf12 := by
  rw [projectTo_eq_filterMap] at missing
  rcases projectQuad_cases version quad with
    ⟨dropped, _⟩ | ⟨_, shown, isShown, asShown⟩
  · simpa [Quad.isDropped] using dropped
  · exact (missing shown
      (List.mem_filterMap.mpr ⟨quad, member, isShown⟩) asShown).elim

/--
Projection fits its version, keeps what fits already and composes with the
lower version; it shows every quad as it is or without a base direction, one
for one and in order, except the triple terms below RDF 1.2.
-/
theorem projection_laws (dataset : Dataset) (first second : RdfVersion) :
    (dataset.projectTo first).rdfVersion ≤ first ∧
      (dataset.rdfVersion ≤ first → dataset.projectTo first = dataset) ∧
      (dataset.projectTo second).projectTo first =
        dataset.projectTo (first.min second) ∧
      (∀ shown ∈ (dataset.projectTo first).quads,
        ∃ quad ∈ dataset.quads, quad.ShownAs shown) ∧
      (∀ quad ∈ dataset.quads,
        (∀ shown ∈ (dataset.projectTo first).quads, ¬ quad.ShownAs shown) →
          quad.object.isTriple = true ∧ first < .rdf12) ∧
      List.Forall₂ Quad.ShownAs
        (dataset.quads.filter fun quad => !quad.isDropped first)
        (dataset.projectTo first).quads := by
  refine ⟨dataset.projectTo_fits first, projectTo_of_fits,
    dataset.projectTo_projectTo first second,
    fun shown member => shown_of_projectTo member,
    fun quad member missing => dropped_of_not_shown member missing, ?_⟩
  rw [projectTo_eq_filterMap]
  exact forall₂_projectQuad first dataset.quads

end Dataset

end Quadpod
