import Quadpod.HttpRead

namespace Quadpod

/-!
# The version of a dataset

The loop of `rdf_version` stops at the first triple term it meets, but what it
returns is the least version every object fits into.  A projection is therefore
a function of the multiset of quads, keeps everything that fits and loses
whatever does not.
-/

namespace RdfVersion

theorem le_iff {first second : RdfVersion} :
    first ≤ second ↔ first.rank ≤ second.rank :=
  Iff.rfl

theorem rank_injective : Function.Injective rank := by
  intro first second same
  cases first <;> cases second <;>
    first
    | rfl
    | cases same

theorem le_refl (version : RdfVersion) : version ≤ version :=
  Nat.le_refl version.rank

theorem not_le {first second : RdfVersion} :
    ¬ first ≤ second ↔ second < first :=
  Nat.not_le

/-- A version is determined by the versions it fits into. -/
theorem eq_of_le_iff {first second : RdfVersion}
    (same : ∀ version, first ≤ version ↔ second ≤ version) :
    first = second := by
  have upper := (same first).mp (le_refl first)
  have lower := (same second).mpr (le_refl second)
  exact rank_injective (Nat.le_antisymm lower upper)

theorem min_le_left (first second : RdfVersion) :
    first.min second ≤ first := by
  cases first <;> cases second <;> decide

theorem min_le_right (first second : RdfVersion) :
    first.min second ≤ second := by
  cases first <;> cases second <;> decide

theorem le_min {version first second : RdfVersion}
    (lower : version ≤ first) (upper : version ≤ second) :
    version ≤ first.min second := by
  unfold RdfVersion.min
  split
  · exact lower
  · exact upper

/-- The lower of two versions is the second one, or falls short of it. -/
theorem min_eq_right_iff (first second : RdfVersion) :
    first.min second = second ↔ second ≤ first := by
  cases first <;> cases second <;> decide

end RdfVersion

variable [IriSyntax]

/-- An object that a version can express. -/
def Term.FitsInto (version : RdfVersion) (object : Term) : Prop :=
  ∀ here, Dataset.objectVersion object = some here → here ≤ version

namespace Dataset

theorem versionFrom_le_iff
    (quads : List Quad) (found version : RdfVersion) :
    versionFrom quads found ≤ version ↔
      found ≤ version ∧
        ∀ quad ∈ quads, quad.object.FitsInto version := by
  induction quads generalizing found with
  | nil =>
      simp [versionFrom]
  | cons quad rest inductionHypothesis =>
      unfold versionFrom
      cases here : objectVersion quad.object with
      | none =>
          dsimp only
          rw [inductionHypothesis, List.forall_mem_cons]
          have fits : quad.object.FitsInto version := by
            intro other isOther
            rw [here] at isOther
            cases isOther
          exact and_congr Iff.rfl (by simp [fits])
      | some needed =>
          have fits : quad.object.FitsInto version ↔ needed ≤ version := by
            constructor
            · intro fitting
              exact fitting needed here
            · intro enough other isOther
              rw [here] at isOther
              cases isOther
              exact enough
          have highest :
              (if found ≤ needed then needed else found) ≤ version ↔
                found ≤ version ∧ needed ≤ version := by
            cases found <;> cases needed <;> cases version <;> decide
          dsimp only
          rw [List.forall_mem_cons, fits, ← and_assoc, ← highest]
          generalize (if found ≤ needed then needed else found) = raised
          split
          · next isTop =>
              rw [isTop]
              constructor
              · intro reached
                refine ⟨reached, fun other _ otherNeeded isOther => ?_⟩
                have topmost : otherNeeded ≤ .rdf12 := by
                  cases otherNeeded <;> decide
                exact Nat.le_trans topmost reached
              · rintro ⟨reached, _⟩
                exact reached
          · exact inductionHypothesis _

/-- The version of a dataset is the least one all its objects fit into. -/
theorem rdfVersion_le_iff {dataset : Dataset} {version : RdfVersion} :
    dataset.rdfVersion ≤ version ↔
      ∀ quad ∈ dataset.quads, quad.object.FitsInto version := by
  rw [rdfVersion, versionFrom_le_iff]
  refine and_iff_right ?_
  cases version <;> decide

/-- Datasets with the same quads have the same version. -/
theorem rdfVersion_congr {first second : Dataset}
    (same : ∀ quad, quad ∈ first.quads ↔ quad ∈ second.quads) :
    first.rdfVersion = second.rdfVersion := by
  refine RdfVersion.eq_of_le_iff fun version => ?_
  rw [rdfVersion_le_iff, rdfVersion_le_iff]
  exact forall_congr' fun quad => imp_congr_left (same quad)

/-- A projection does not depend on the order of the quads. -/
theorem projectTo_perm {first second : Dataset} (version : RdfVersion)
    (perm : first.quads.Perm second.quads) :
    (first.projectTo version).quads.Perm
      (second.projectTo version).quads := by
  unfold projectTo
  rw [rdfVersion_congr fun quad => perm.mem_iff]
  split
  · exact perm
  · exact perm.filterMap _

end Dataset

/-- What a projection keeps fits into its version. -/
theorem projectObject_fits {version : RdfVersion} {object kept : Term}
    (isKept : projectObject version object = some kept) :
    kept.FitsInto version := by
  unfold projectObject at isKept
  split at isKept
  · split at isKept
    · cases isKept
    · next enough =>
        cases isKept
        rintro here ⟨⟩
        revert enough
        cases version <;> decide
  · split at isKept
    · cases isKept
      rintro here ⟨⟩
    · next enough =>
        cases isKept
        rintro here ⟨⟩
        revert enough
        cases version <;> decide
  · next notTriple notDirectional =>
      cases isKept
      intro here needs
      unfold Dataset.objectVersion at needs
      split at needs
      · exact (notTriple _ _ _ rfl).elim
      · next content =>
          cases content with
          | directional value language direction =>
              exact (notDirectional _ _ _ rfl).elim
          | simple value =>
              cases needs
          | languageTagged value language =>
              cases needs
          | typed value datatype =>
              cases needs
      · cases needs

/-- A projection fits into its version. -/
theorem Dataset.projectTo_fits (dataset : Dataset) (version : RdfVersion) :
    (dataset.projectTo version).rdfVersion ≤ version := by
  unfold projectTo
  split
  · next fits =>
      exact fits
  · rw [rdfVersion_le_iff]
    intro quad member
    obtain ⟨before, _, isKept⟩ := List.mem_filterMap.mp member
    obtain ⟨object, isObject, rfl⟩ := Option.map_eq_some_iff.mp isKept
    exact projectObject_fits isObject

end Quadpod
