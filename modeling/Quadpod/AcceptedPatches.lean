import Quadpod.PatchDocuments
import Quadpod.ReferencePod

namespace Quadpod

/-!
# What every accepted patch is like

The later stages of a patch, the SPARQL it becomes included, rely on its shape
without checking it again.  Here is what they may rely on, read off the document
the patch was accepted from.
-/

variable [IriSyntax]

/-- A term has the number of its name, if it has one, as its variable. -/
theorem N3Term.variables_of_numbered {met : List ClientName}
    {value : N3Term} {result : PatternTerm}
    (isNumbered : value.numbered met = some result) :
    result.variables = value.names.map met.idxOf := by
  cases value <;> cases isNumbered <;> rfl

theorem N3Quad.variables_of_numbered {met : List ClientName}
    {quad : N3Quad} {result : Pattern}
    (isNumbered : quad.numbered met = some result) :
    result.variables = quad.names.map met.idxOf := by
  obtain ⟨subject, predicate, object⟩ :=
    Patch.numbered_eq_some_iff.mp isNumbered
  rw [Pattern.variables, N3Term.variables_of_numbered subject,
    N3Term.variables_of_numbered predicate,
    N3Term.variables_of_numbered object, names, List.map_append,
    List.map_append]

namespace Patch

namespace Reads

variable {quads : List N3Quad} {met : List ClientName} {binding : Binding}
variable {patterns : List Pattern}

/-- Every pattern comes from a quad of its formula. -/
theorem exists_quad (reads : Reads quads met binding patterns)
    {pattern : Pattern} (member : pattern ∈ patterns) :
    ∃ quad ∈ quads,
      quad.Admitted met binding ∧ quad.numbered met = some pattern := by
  have isNumbered : some pattern ∈ quads.map (N3Quad.numbered met) := by
    rw [reads.numbered]
    exact List.mem_map_of_mem member
  obtain ⟨quad, isQuad, same⟩ := List.mem_map.mp isNumbered
  exact ⟨quad, isQuad, reads.admitted quad isQuad, same⟩

/-- Every quad of a formula becomes a pattern. -/
theorem exists_pattern (reads : Reads quads met binding patterns)
    {quad : N3Quad} (member : quad ∈ quads) :
    ∃ pattern ∈ patterns, quad.numbered met = some pattern := by
  have isNumbered : quad.numbered met ∈ patterns.map some := by
    rw [← reads.numbered]
    exact List.mem_map_of_mem member
  obtain ⟨pattern, isPattern, same⟩ := List.mem_map.mp isNumbered
  exact ⟨pattern, isPattern, same.symm⟩

end Reads

/-- A pattern of which no term is one that a patch may not write. -/
structure WellFormed (pattern : Pattern) : Prop where
  positioned : Positioned pattern
  unreserved : pattern.Unreserved
  undirected :
    ∀ content,
      pattern.subject = .literal content ∨
          pattern.predicate = .literal content ∨
          pattern.object = .literal content →
        content.direction = none

theorem unreserved_of_numbered {met : List ClientName} {value : N3Term}
    {result : PatternTerm} (plain : value.Plain)
    (isNumbered : value.numbered met = some result) :
    result.Unreserved := by
  cases value with
  | namedNode node =>
      cases isNumbered
      exact plain
  | triple content =>
      cases isNumbered
  | _ =>
      cases isNumbered
      trivial

theorem undirected_of_numbered {met : List ClientName} {value : N3Term}
    {content : Literal} (plain : value.Plain)
    (isNumbered : value.numbered met = some (.literal content)) :
    content.direction = none := by
  rw [N3Term.numbered_eq_literal] at isNumbered
  rw [isNumbered] at plain
  exact plain

/-- What is read from a quad that may stand in a formula is well formed. -/
theorem wellFormed_of_numbered {met : List ClientName} {binding : Binding}
    {quad : N3Quad} {pattern : Pattern}
    (admitted : quad.Admitted met binding)
    (isNumbered : quad.numbered met = some pattern) :
    WellFormed pattern := by
  obtain ⟨subject, predicate, object⟩ := numbered_eq_some_iff.mp isNumbered
  refine ⟨⟨?_, ?_⟩, ⟨?_, ?_, ?_⟩, ?_⟩
  · intro content isLiteral
    rw [isLiteral, N3Term.numbered_eq_literal] at subject
    exact admitted.subjectNoLiteral content subject
  · intro content isLiteral
    rw [isLiteral, N3Term.numbered_eq_literal] at predicate
    exact admitted.predicateNoLiteral content predicate
  · exact unreserved_of_numbered admitted.subject.plain subject
  · exact unreserved_of_numbered admitted.predicate.plain predicate
  · exact unreserved_of_numbered admitted.object.plain object
  · rintro content (isSubject | isPredicate | isObject)
    · rw [isSubject] at subject
      exact undirected_of_numbered admitted.subject.plain subject
    · rw [isPredicate] at predicate
      exact undirected_of_numbered admitted.predicate.plain predicate
    · rw [isObject] at object
      exact undirected_of_numbered admitted.object.plain object

/-- A pattern without variables is a triple. -/
theorem groundInsertion_of_noVariable {pattern : Pattern}
    (positioned : Positioned pattern)
    (noVariable : ∀ index, index ∉ pattern.variables) :
    ∃ triple, groundInsertion pattern = some triple := by
  obtain ⟨subject, predicate, object⟩ := pattern
  cases subject with
  | literal content =>
      exact (positioned.subject content rfl).elim
  | var index =>
      refine (noVariable index ?_).elim
      simp [Pattern.variables, PatternTerm.variables]
  | named subject =>
      cases predicate with
      | literal content =>
          exact (positioned.predicate content rfl).elim
      | var index =>
          refine (noVariable index ?_).elim
          simp [Pattern.variables, PatternTerm.variables]
      | named predicate =>
          cases object with
          | named object =>
              exact ⟨_, rfl⟩
          | literal content =>
              exact ⟨_, rfl⟩
          | var index =>
              refine (noVariable index ?_).elim
              simp [Pattern.variables, PatternTerm.variables]

namespace Describes

variable {quads : List N3Quad} {subject : N3Term} {formulae : Formulae}
variable {patch : Patch}
variable (described : Describes quads subject formulae patch)

include described

theorem wellFormed {pattern : Pattern}
    (member :
      pattern ∈ patch.conditions ++ patch.deletions ++ patch.insertions) :
    WellFormed pattern := by
  have ofReads {formula : List N3Quad} {binding : Binding}
      {patterns : List Pattern}
      (reads :
        Reads formula (boundNames quads formulae.conditions) binding
          patterns)
      (isPattern : pattern ∈ patterns) : WellFormed pattern := by
    obtain ⟨quad, _, admitted, isNumbered⟩ := reads.exists_quad isPattern
    exact wellFormed_of_numbered admitted isNumbered
  rw [List.mem_append, List.mem_append] at member
  rcases member with (isCondition | isDeletion) | isInsertion
  · exact ofReads described.conditions isCondition
  · exact ofReads described.deletions isDeletion
  · exact ofReads described.insertions isInsertion

/-- The numbers below the count are those of the conditions. -/
theorem lt_variableCount_iff (index : Nat) :
    index < patch.variableCount ↔
      ∃ condition ∈ patch.conditions, index ∈ condition.variables := by
  rw [described.variableCount]
  constructor
  · intro small
    have isMet := List.getElem_mem small
    have isIndex :
        (boundNames quads formulae.conditions).idxOf
          (boundNames quads formulae.conditions)[index] = index :=
      (nodup_boundNames quads formulae.conditions).idxOf_getElem index small
    rcases FirstOccurrence.mem_meetAll.mp isMet with impossible | ofFormula
    · cases impossible
    · obtain ⟨quad, isQuad, ofQuad⟩ := List.mem_flatMap.mp ofFormula
      obtain ⟨condition, isCondition, isNumbered⟩ :=
        described.conditions.exists_pattern isQuad
      refine ⟨condition, isCondition, ?_⟩
      rw [N3Quad.variables_of_numbered isNumbered, ← isIndex]
      exact List.mem_map_of_mem ofQuad
  · rintro ⟨condition, isCondition, isVariable⟩
    obtain ⟨quad, isQuad, _, isNumbered⟩ :=
      described.conditions.exists_quad isCondition
    rw [N3Quad.variables_of_numbered isNumbered] at isVariable
    obtain ⟨name, isName, rfl⟩ := List.mem_map.mp isVariable
    refine List.idxOf_lt_length_of_mem (FirstOccurrence.mem_meetAll.mpr ?_)
    exact Or.inr (List.mem_flatMap.mpr ⟨quad, isQuad, isName⟩)

/-- A deletion or an insertion brings in no name. -/
theorem lt_of_lookup {formula : List N3Quad} {patterns : List Pattern}
    (reads :
      Reads formula (boundNames quads formulae.conditions) .lookup patterns)
    {pattern : Pattern} (member : pattern ∈ patterns) {index : Nat}
    (isVariable : index ∈ pattern.variables) :
    index < patch.variableCount := by
  obtain ⟨quad, _, admitted, isNumbered⟩ := reads.exists_quad member
  rw [N3Quad.variables_of_numbered isNumbered] at isVariable
  obtain ⟨name, isName, rfl⟩ := List.mem_map.mp isVariable
  rw [described.variableCount]
  exact List.idxOf_lt_length_of_mem (isMet_of_admitted admitted isName)

/-- The variables of deletions and insertions are those of conditions. -/
theorem bound {pattern : Pattern}
    (member : pattern ∈ patch.deletions ++ patch.insertions) {index : Nat}
    (isVariable : index ∈ pattern.variables) :
    ∃ condition ∈ patch.conditions, index ∈ condition.variables := by
  rw [← described.lt_variableCount_iff]
  rcases List.mem_append.mp member with isDeletion | isInsertion
  · exact described.lt_of_lookup described.deletions isDeletion isVariable
  · exact described.lt_of_lookup described.insertions isInsertion isVariable

/-- The insertions are ground exactly when there is nothing to match. -/
theorem groundInsertions_isSome_iff :
    patch.groundInsertions.isSome = true ↔ patch.conditions = [] := by
  unfold groundInsertions
  split
  · next isEmpty =>
      have noCondition : patch.conditions = [] := List.isEmpty_iff.mp isEmpty
      refine iff_of_true ?_ noCondition
      rw [Option.isSome_iff_exists]
      refine Traversal.exists_some fun pattern isInsertion => ?_
      have noVariable : ∀ index, index ∉ pattern.variables := by
        intro index isVariable
        obtain ⟨condition, isCondition, _⟩ :=
          described.bound (List.mem_append_right _ isInsertion) isVariable
        rw [noCondition] at isCondition
        cases isCondition
      have formed :=
        described.wellFormed (List.mem_append_right _ isInsertion)
      exact groundInsertion_of_noVariable formed.positioned noVariable
  · next isFilled =>
      refine iff_of_false (by simp) fun noCondition => isFilled ?_
      rw [noCondition]
      rfl

end Describes

/--
An accepted document has one patch resource and at most one formula for each
predicate, and each formula's quads, in their order and with their names
numbered, are the patterns.  Names have numbers of their own, which are exactly
those below the count and those of the conditions; deletions and insertions use
no others.  No pattern has a term that a patch may not write, the insertions are
ground exactly when there are no conditions, and a renaming that keeps the names
apart changes nothing.
-/
theorem ofQuads_shape
    {quads : List N3Quad} {patch : Patch}
    (written : ∀ quad ∈ quads, ∀ name ∈ quad.names, name.Written)
    (accepted : ofQuads quads = .ok patch) :
    ∃ subject formulae,
      Describes quads subject formulae patch ∧
        (∀ first ∈ boundNames quads formulae.conditions,
          ∀ second ∈ boundNames quads formulae.conditions,
            (boundNames quads formulae.conditions).idxOf first =
                (boundNames quads formulae.conditions).idxOf second →
              first = second) ∧
        (∀ index,
          index < patch.variableCount ↔
            ∃ condition ∈ patch.conditions, index ∈ condition.variables) ∧
        (∀ pattern ∈ patch.deletions ++ patch.insertions,
          ∀ index ∈ pattern.variables,
            ∃ condition ∈ patch.conditions,
              index ∈ condition.variables) ∧
        (∀ pattern ∈ patch.conditions ++ patch.deletions ++ patch.insertions,
          WellFormed pattern) ∧
        (patch.groundInsertions.isSome = true ↔ patch.conditions = []) ∧
        ∀ relabel : Relabeling,
          relabel.KeepsApart quads →
          (∀ quad ∈ quads, ∀ name ∈ quad.names,
            (name.rename relabel).Written) →
          ofQuads (quads.map (N3Quad.rename relabel)) = .ok patch := by
  obtain ⟨subject, formulae, described⟩ :=
    (ofQuads_eq_ok_iff written).mp accepted
  refine ⟨subject, formulae, described, ?_, described.lt_variableCount_iff,
    fun pattern member index => described.bound member,
    fun pattern => described.wellFormed,
    described.groundInsertions_isSome_iff, ?_⟩
  · intro first isMet second _ same
    exact (List.idxOf_inj isMet).mp same
  · intro relabel apart stillWritten
    refine (ofQuads_eq_ok_iff ?_).mpr ⟨_, _, described.rename apart⟩
    intro quad isQuad name isName
    obtain ⟨original, isOriginal, rfl⟩ := List.mem_map.mp isQuad
    rw [N3Quad.names_rename] at isName
    obtain ⟨before, isBefore, rfl⟩ := List.mem_map.mp isName
    exact stillWritten original isOriginal before isBefore

end Patch

end Quadpod

namespace Quadpod.Reference

/-- Every name with one more letter in front. -/
def prefixed : Relabeling where
  onVariable name := 'v' :: name
  onBlank node := ⟨'v' :: node.label⟩

/-- The names of a patch are replaced and it stays what it is. -/
theorem predicatePatch_prefixed :
    ∃ patch,
      Patch.ofQuads predicatePatchQuads = .ok patch ∧
        patch.variableCount = 1 ∧
        Patch.ofQuads
            (predicatePatchQuads.map (N3Quad.rename prefixed)) =
          .ok patch := by
  have accepted :
      (Patch.ofQuads predicatePatchQuads).toOption.map
        Patch.variableCount = some 1 := by
    decide
  have written :
      ∀ quad ∈ predicatePatchQuads, ∀ name ∈ quad.names,
        name.Written ∧ (name.rename prefixed).Written := by
    decide
  obtain ⟨patch, isPatch, counted⟩ := Option.map_eq_some_iff.mp accepted
  have isAccepted : Patch.ofQuads predicatePatchQuads = .ok patch := by
    cases isResult : Patch.ofQuads predicatePatchQuads with
    | error error =>
        rw [isResult] at isPatch
        cases isPatch
    | ok other =>
        rw [isResult] at isPatch
        cases isPatch
        rfl
  obtain ⟨subject, formulae, _, _, _, _, _, _, renamed⟩ :=
    Patch.ofQuads_shape
      (fun quad isQuad name isName => (written quad isQuad name isName).1)
      isAccepted
  refine ⟨patch, isAccepted, counted, renamed prefixed ⟨?_, ?_⟩
    fun quad isQuad name isName => (written quad isQuad name isName).2⟩
  · rintro ⟨first⟩ _ ⟨second⟩ _ same
    cases same
    rfl
  · intro first _ second _ same
    exact (List.cons.inj same).2

end Quadpod.Reference
