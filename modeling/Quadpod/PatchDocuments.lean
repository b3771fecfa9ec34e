import Quadpod.PatchNumbering

namespace Quadpod

/-!
# The documents `Patch::parse` accepts

A document is accepted exactly when it describes a patch: one subject of the
type, at most one formula for each predicate, and in each formula only what may
stand there.  The patch is determined by the document up to its names, so a
client that renames them sends the same patch.
-/

variable [IriSyntax]

namespace Patch

/-! ## The patch resource -/

/-- A quad that types its subject as a patch. -/
structure TypesPatch (quad : N3Quad) : Prop where
  graphName : quad.graphName = .defaultGraph
  predicate : isNode quad.predicate rdfTypeIri = true
  object : isNode quad.object solidInsertDeletePatchIri = true

instance (quad : N3Quad) : Decidable (TypesPatch quad) :=
  decidable_of_iff
    (quad.graphName = .defaultGraph ∧
      isNode quad.predicate rdfTypeIri = true ∧
      isNode quad.object solidInsertDeletePatchIri = true)
    ⟨fun ⟨graphName, predicate, object⟩ => ⟨graphName, predicate, object⟩,
      fun ⟨graphName, predicate, object⟩ => ⟨graphName, predicate, object⟩⟩

/-- The subjects `patch_subject` collects. -/
theorem foldl_typed (quads : List N3Quad) (found : List N3Term) :
    quads.foldl
        (fun found quad =>
          if quad.graphName == .defaultGraph &&
              isNode quad.predicate rdfTypeIri &&
              isNode quad.object solidInsertDeletePatchIri &&
              !found.contains quad.subject then
            found ++ [quad.subject]
          else
            found) found =
      FirstOccurrence.meetAll found
        ((quads.filter fun quad => TypesPatch quad).map N3Quad.subject) := by
  induction quads generalizing found with
  | nil =>
      rfl
  | cons quad rest inductionHypothesis =>
      rw [List.foldl_cons, inductionHypothesis]
      by_cases isTyped : TypesPatch quad
      · rw [List.filter_cons_of_pos (by simpa using isTyped), List.map_cons,
          FirstOccurrence.meetAll_cons, FirstOccurrence.meet]
        obtain ⟨graphName, predicate, object⟩ := isTyped
        by_cases isMet : quad.subject ∈ found
        · simp [graphName, predicate, object, isMet]
        · simp [graphName, predicate, object, isMet]
      · rw [List.filter_cons_of_neg (by simpa using isTyped)]
        congr 1
        rw [if_neg]
        intro isAdded
        simp only [Bool.and_eq_true, beq_iff_eq] at isAdded
        exact isTyped ⟨isAdded.1.1.1, isAdded.1.1.2, isAdded.1.2⟩

/-- `patch_subject` finds the one subject of the type. -/
theorem patchSubject_eq_ok_iff {quads : List N3Quad} {subject : N3Term} :
    patchSubject quads = .ok subject ↔
      ∀ other,
        (∃ quad ∈ quads, TypesPatch quad ∧ quad.subject = other) ↔
          other = subject := by
  have collected :
      ∀ other,
        other ∈ ((quads.filter fun quad => TypesPatch quad).map
            N3Quad.subject) ↔
          ∃ quad ∈ quads, TypesPatch quad ∧ quad.subject = other := by
    intro other
    simp [List.mem_map, and_assoc]
  unfold patchSubject
  simp only [foldl_typed, ← collected]
  rw [← FirstOccurrence.meetAll_eq_singleton_iff]
  split
  · next first isSingle =>
      rw [isSingle]
      simp
  · next isEmpty =>
      rw [isEmpty]
      simp
  · next several isEmpty =>
      constructor
      · intro impossible
        cases impossible
      · intro isSingle
        exact (several subject isSingle).elim

/-! ## Formulae -/

/-- The objects the patch resource has for a predicate. -/
def formulaObjects
    (quads : List N3Quad) (subject : N3Term) (predicate : Text) :
    List N3Term :=
  (quads.filter fun quad =>
    quad.graphName == .defaultGraph && quad.subject == subject &&
      isNode quad.predicate predicate).map N3Quad.object

/-- The one formula the patch resource has for a predicate, if any. -/
structure IsFormula
    (quads : List N3Quad) (subject : N3Term) (predicate : Text)
    (name : Option BlankNode) : Prop where
  objects :
    formulaObjects quads subject predicate =
      (name.map N3Term.blankNode).toList
  filled :
    ∀ blank, name = some blank →
      ∃ quad ∈ quads, quad.graphName = .blankNode blank

theorem namesAFormula_iff {quads : List N3Quad} {blank : BlankNode} :
    namesAFormula quads blank = true ↔
      ∃ quad ∈ quads, quad.graphName = .blankNode blank := by
  simp [namesAFormula]

/-- `formula` finds the one formula of a predicate. -/
theorem formula_eq_ok_iff
    {quads : List N3Quad} {subject : N3Term} {predicate : Text}
    {name : Option BlankNode} :
    formula quads subject predicate = .ok name ↔
      IsFormula quads subject predicate name := by
  unfold formula
  dsimp only
  rw [← formulaObjects]
  split
  · next isEmpty =>
      constructor
      · intro isName
        cases isName
        exact ⟨isEmpty, by simp⟩
      · rintro ⟨objects, _⟩
        rw [isEmpty] at objects
        cases name with
        | none =>
            rfl
        | some blank =>
            cases objects
  · next blank isSingle =>
      split
      · next isFilled =>
          constructor
          · intro isName
            cases isName
            refine ⟨isSingle, ?_⟩
            rintro other ⟨⟩
            exact namesAFormula_iff.mp isFilled
          · rintro ⟨objects, _⟩
            rw [isSingle] at objects
            cases name with
            | none =>
                cases objects
            | some other =>
                cases objects
                rfl
      · next isBare =>
          constructor
          · intro impossible
            cases impossible
          · rintro ⟨objects, filled⟩
            rw [isSingle] at objects
            cases name with
            | none =>
                cases objects
            | some other =>
                cases objects
                exact (isBare (namesAFormula_iff.mpr
                  (filled blank rfl))).elim
  · next other notBlank isSingle =>
      constructor
      · intro impossible
        cases impossible
      · rintro ⟨objects, _⟩
        rw [isSingle] at objects
        cases name with
        | none =>
            cases objects
        | some blank =>
            cases objects
            exact (notBlank blank rfl).elim
  · next notEmpty notBlank several =>
      constructor
      · intro impossible
        cases impossible
      · rintro ⟨objects, _⟩
        cases name with
        | none =>
            exact (notEmpty objects).elim
        | some blank =>
            exact (several _ objects).elim

/-- The quads of a formula, in the order of the document. -/
def contents (quads : List N3Quad) : Option BlankNode → List N3Quad
  | none => []
  | some blank => quads.filter (·.graphName == .blankNode blank)

theorem patterns_eq
    (quads : List N3Quad) (name : Option BlankNode) (names : Renumber)
    (binding : Binding) :
    patterns quads name names binding =
      patternsOf (contents quads name) names binding := by
  cases name <;> rfl

theorem mem_of_mem_contents {quads : List N3Quad} {name : Option BlankNode}
    {quad : N3Quad} (member : quad ∈ contents quads name) :
    quad ∈ quads := by
  cases name with
  | none =>
      cases member
  | some blank =>
      exact (List.mem_filter.mp member).1

/-! ## Documents -/

/-- The names of the conditions, in the order of their first occurrence. -/
def boundNames (quads : List N3Quad) (conditions : Option BlankNode) :
    List ClientName :=
  FirstOccurrence.meetAll []
    ((contents quads conditions).flatMap N3Quad.names)

theorem nodup_boundNames (quads : List N3Quad)
    (conditions : Option BlankNode) : (boundNames quads conditions).Nodup :=
  FirstOccurrence.nodup_meetAll List.nodup_nil _

/-- The patterns of a formula: its quads, with their names numbered. -/
structure Reads
    (quads : List N3Quad) (met : List ClientName) (binding : Binding)
    (patterns : List Pattern) : Prop where
  admitted : ∀ quad ∈ quads, quad.Admitted met binding
  numbered : quads.map (N3Quad.numbered met) = patterns.map some

/-- The names of the three formulae of a patch. -/
structure Formulae where
  conditions : Option BlankNode
  deletions : Option BlankNode
  insertions : Option BlankNode

/-- What a document has to say for `parse` to read a patch from it. -/
structure Describes
    (quads : List N3Quad) (subject : N3Term) (formulae : Formulae)
    (patch : Patch) : Prop where
  onlySubject :
    ∀ other,
      (∃ quad ∈ quads, TypesPatch quad ∧ quad.subject = other) ↔
        other = subject
  conditionsFormula :
    IsFormula quads subject solidWhereIri formulae.conditions
  deletionsFormula :
    IsFormula quads subject solidDeletesIri formulae.deletions
  insertionsFormula :
    IsFormula quads subject solidInsertsIri formulae.insertions
  conditions :
    Reads (contents quads formulae.conditions)
      (boundNames quads formulae.conditions) .bind patch.conditions
  deletions :
    Reads (contents quads formulae.deletions)
      (boundNames quads formulae.conditions) .lookup patch.deletions
  insertions :
    Reads (contents quads formulae.insertions)
      (boundNames quads formulae.conditions) .lookup patch.insertions
  variableCount :
    patch.variableCount = (boundNames quads formulae.conditions).length

section Accepted

variable {quads : List N3Quad}
variable (written : ∀ quad ∈ quads, ∀ name ∈ quad.names, name.Written)

include written

theorem written_contents {formula : Option BlankNode} {name : ClientName}
    (ofFormula : name ∈ (contents quads formula).flatMap N3Quad.names) :
    name.Written := by
  obtain ⟨quad, isQuad, ofQuad⟩ := List.mem_flatMap.mp ofFormula
  exact written quad (mem_of_mem_contents isQuad) name ofQuad

theorem written_boundNames {conditions : Option BlankNode}
    {name : ClientName} (isMet : name ∈ boundNames quads conditions) :
    name.Written := by
  rcases FirstOccurrence.mem_meetAll.mp isMet with impossible | ofFormula
  · cases impossible
  · exact written_contents written ofFormula

/-- The walk of the conditions. -/
theorem patterns_bind_iff {name : Option BlankNode}
    {result : List Pattern} {later : Renumber} :
    patterns quads name [] .bind = .ok (result, later) ↔
      Reads (contents quads name) (boundNames quads name) .bind result ∧
        later = .ofNames (boundNames quads name) := by
  have start : ([] : Renumber) = Renumber.ofNames [] :=
    rfl
  rw [patterns_eq, start, patternsOf_eq_ok_iff ?_ List.nodup_nil]
  · constructor
    · rintro ⟨admitted, isNumbered, isLater⟩
      refine ⟨⟨fun quad isQuad => ?_, isNumbered⟩, isLater⟩
      exact (admitted_quad_meetAll_iff [] _).mpr (admitted quad isQuad)
    · rintro ⟨⟨admitted, isNumbered⟩, isLater⟩
      refine ⟨fun quad isQuad => ?_, isNumbered, isLater⟩
      exact (admitted_quad_meetAll_iff [] _).mp (admitted quad isQuad)
  · rintro other (impossible | ofFormula)
    · cases impossible
    · exact written_contents written ofFormula

/-- The walk of the deletions and that of the insertions. -/
theorem patterns_lookup_iff {conditions name : Option BlankNode}
    {result : List Pattern} {later : Renumber} :
    patterns quads name (.ofNames (boundNames quads conditions)) .lookup =
        .ok (result, later) ↔
      Reads (contents quads name) (boundNames quads conditions) .lookup
          result ∧
        later = .ofNames (boundNames quads conditions) := by
  rw [patterns_eq, patternsOf_eq_ok_iff ?_ (nodup_boundNames _ _)]
  · constructor
    · rintro ⟨admitted, isNumbered, isLater⟩
      exact ⟨⟨admitted, isNumbered⟩, isLater⟩
    · rintro ⟨⟨admitted, isNumbered⟩, isLater⟩
      exact ⟨admitted, isNumbered, isLater⟩
  · rintro other (isMet | ofFormula)
    · exact written_boundNames written isMet
    · exact written_contents written ofFormula

/-- `parse` accepts the documents that describe a patch, and no others. -/
theorem ofQuads_eq_ok_iff {patch : Patch} :
    ofQuads quads = .ok patch ↔
      ∃ subject formulae, Describes quads subject formulae patch := by
  unfold ofQuads
  simp only [Traversal.ok_bind_iff, Prod.exists, patchSubject_eq_ok_iff,
    formula_eq_ok_iff]
  constructor
  · rintro ⟨subject, isSubject, conditions, isConditions, deletions,
      isDeletions, insertions, isInsertions, conditionPatterns, names,
      readConditions, deletionPatterns, sameNames, readDeletions,
      insertionPatterns, lastNames, readInsertions, isPatch⟩
    cases isPatch
    obtain ⟨conditionsRead, rfl⟩ :=
      (patterns_bind_iff written).mp readConditions
    obtain ⟨deletionsRead, rfl⟩ :=
      (patterns_lookup_iff written).mp readDeletions
    obtain ⟨insertionsRead, rfl⟩ :=
      (patterns_lookup_iff written).mp readInsertions
    exact ⟨subject, ⟨conditions, deletions, insertions⟩, isSubject,
      isConditions, isDeletions, isInsertions, conditionsRead,
      deletionsRead, insertionsRead, by simp [Renumber.ofNames]⟩
  · rintro ⟨subject, formulae, described⟩
    refine ⟨subject, described.onlySubject, _, described.conditionsFormula, _,
      described.deletionsFormula, _, described.insertionsFormula, _, _,
      (patterns_bind_iff written).mpr ⟨described.conditions, rfl⟩, _, _,
      (patterns_lookup_iff written).mpr ⟨described.deletions, rfl⟩, _, _,
      (patterns_lookup_iff written).mpr ⟨described.insertions, rfl⟩, ?_⟩
    have counted := described.variableCount
    obtain ⟨conditions, deletions, insertions, variableCount⟩ := patch
    rw [show variableCount = _ from counted]
    simp [Renumber.ofNames]

end Accepted

end Patch

/-! ## Renaming -/

/-- A replacement of the names a client chose. -/
structure Relabeling where
  onVariable : Text → Text
  onBlank : BlankNode → BlankNode

/-- A name and what it is replaced with. -/
def ClientName.rename (relabel : Relabeling) : ClientName → ClientName
  | .var name => .var (relabel.onVariable name)
  | .blank node => .blank (relabel.onBlank node)

/-- A term with its names replaced, those inside a triple term too. -/
def N3Term.rename (relabel : Relabeling) : N3Term → N3Term
  | .namedNode node => .namedNode node
  | .blankNode node => .blankNode (relabel.onBlank node)
  | .literal content => .literal content
  | .variable name => .variable (relabel.onVariable name)
  | .triple content =>
      .triple
        ⟨content.subject.rename relabel.onBlank, content.predicate,
          content.object.rename relabel.onBlank⟩

/-- A quad with its names replaced. -/
def N3Quad.rename (relabel : Relabeling) (quad : N3Quad) : N3Quad where
  subject := quad.subject.rename relabel
  predicate := quad.predicate.rename relabel
  object := quad.object.rename relabel
  graphName := quad.graphName.rename relabel.onBlank

/-- The blank nodes of a term. -/
def N3Term.blanks : N3Term → List BlankNode
  | .blankNode node => [node]
  | .triple content => content.subject.blanks ++ content.object.blanks
  | _ => []

/-- The variables of a term. -/
def N3Term.variableNames : N3Term → List Text
  | .variable name => [name]
  | _ => []

/-- The blank nodes of a quad. -/
def N3Quad.blanks (quad : N3Quad) : List BlankNode :=
  quad.subject.blanks ++ quad.predicate.blanks ++ quad.object.blanks ++
    quad.graphName.blanks

/-- The variables of a quad. -/
def N3Quad.variableNames (quad : N3Quad) : List Text :=
  quad.subject.variableNames ++ quad.predicate.variableNames ++
    quad.object.variableNames

/-- A renaming that keeps the names of a document apart. -/
structure Relabeling.KeepsApart
    (relabel : Relabeling) (quads : List N3Quad) : Prop where
  blanks :
    Set.InjOn relabel.onBlank {node | ∃ quad ∈ quads, node ∈ quad.blanks}
  variableNames :
    Set.InjOn relabel.onVariable
      {name | ∃ quad ∈ quads, name ∈ quad.variableNames}

section Injective

variable {onBlank : BlankNode → BlankNode} {known : Set BlankNode}
variable (injective : Set.InjOn onBlank known)

include injective

theorem NamedOrBlankNode.rename_inj
    {first second : NamedOrBlankNode}
    (firstKnown : ∀ node ∈ first.blanks, node ∈ known)
    (secondKnown : ∀ node ∈ second.blanks, node ∈ known)
    (same : first.rename onBlank = second.rename onBlank) :
    first = second := by
  cases first with
  | namedNode node =>
      cases second with
      | namedNode other =>
          cases same
          rfl
      | blankNode other =>
          cases same
  | blankNode node =>
      cases second with
      | namedNode other =>
          cases same
      | blankNode other =>
          rw [injective (firstKnown node (by simp [blanks]))
            (secondKnown other (by simp [blanks]))
            (NamedOrBlankNode.blankNode.inj same)]

theorem Term.rename_inj
    {first second : Term}
    (firstKnown : ∀ node ∈ first.blanks, node ∈ known)
    (secondKnown : ∀ node ∈ second.blanks, node ∈ known)
    (same : first.rename onBlank = second.rename onBlank) :
    first = second := by
  induction first generalizing second with
  | namedNode node =>
      cases second <;> cases same
      rfl
  | literal content =>
      cases second <;> cases same
      rfl
  | blankNode node =>
      cases second with
      | blankNode other =>
          rw [injective (firstKnown node (by simp [blanks]))
            (secondKnown other (by simp [blanks]))
            (Term.blankNode.inj same)]
      | _ =>
          cases same
  | triple subject predicate object inductionHypothesis =>
      cases second with
      | triple otherSubject otherPredicate otherObject =>
          rw [rename, rename, Term.triple.injEq] at same
          obtain ⟨sameSubject, rfl, sameObject⟩ := same
          rw [NamedOrBlankNode.rename_inj injective
            (fun node isBlank => firstKnown node (by simp [blanks, isBlank]))
            (fun node isBlank => secondKnown node (by simp [blanks, isBlank]))
            sameSubject,
            inductionHypothesis
            (fun node isBlank => firstKnown node (by simp [blanks, isBlank]))
            (fun node isBlank => secondKnown node (by simp [blanks, isBlank]))
            sameObject]
      | _ =>
          cases same

end Injective

theorem N3Term.rename_inj
    {relabel : Relabeling} {known : Set BlankNode} {spelled : Set Text}
    (blanksApart : Set.InjOn relabel.onBlank known)
    (namesApart : Set.InjOn relabel.onVariable spelled)
    {first second : N3Term}
    (firstKnown : ∀ node ∈ first.blanks, node ∈ known)
    (secondKnown : ∀ node ∈ second.blanks, node ∈ known)
    (firstSpelled : ∀ name ∈ first.variableNames, name ∈ spelled)
    (secondSpelled : ∀ name ∈ second.variableNames, name ∈ spelled)
    (same : first.rename relabel = second.rename relabel) :
    first = second := by
  cases first with
  | namedNode node =>
      cases second <;> cases same
      rfl
  | literal content =>
      cases second <;> cases same
      rfl
  | blankNode node =>
      cases second with
      | blankNode other =>
          rw [blanksApart (firstKnown node (by simp [blanks]))
            (secondKnown other (by simp [blanks]))
            (N3Term.blankNode.inj same)]
      | _ =>
          cases same
  | «variable» name =>
      cases second with
      | «variable» other =>
          rw [namesApart (firstSpelled name (by simp [variableNames]))
            (secondSpelled other (by simp [variableNames]))
            (N3Term.variable.inj same)]
      | _ =>
          cases same
  | triple content =>
      cases second with
      | triple other =>
          obtain ⟨subject, predicate, object⟩ := content
          obtain ⟨otherSubject, otherPredicate, otherObject⟩ := other
          simp only [rename, N3Term.triple.injEq, Triple.mk.injEq] at same
          obtain ⟨sameSubject, rfl, sameObject⟩ := same
          have isSubject : subject = otherSubject :=
            NamedOrBlankNode.rename_inj blanksApart
              (fun node isBlank =>
                firstKnown node (by simp [blanks, isBlank]))
              (fun node isBlank =>
                secondKnown node (by simp [blanks, isBlank])) sameSubject
          have isObject : object = otherObject :=
            Term.rename_inj blanksApart
              (fun node isBlank =>
                firstKnown node (by simp [blanks, isBlank]))
              (fun node isBlank =>
                secondKnown node (by simp [blanks, isBlank])) sameObject
          rw [isSubject, isObject]
      | _ =>
          cases same

theorem N3Term.names_rename (relabel : Relabeling) (value : N3Term) :
    (value.rename relabel).names =
      value.names.map (ClientName.rename relabel) := by
  cases value <;> rfl

theorem N3Quad.names_rename (relabel : Relabeling) (quad : N3Quad) :
    (quad.rename relabel).names =
      quad.names.map (ClientName.rename relabel) := by
  simp only [names, rename, N3Term.names_rename, List.map_append]

theorem Patch.isNode_rename (relabel : Relabeling) (value : N3Term)
    (iri : Text) : isNode (value.rename relabel) iri = isNode value iri := by
  cases value <;> rfl

theorem GraphName.rename_eq_defaultGraph
    {onBlank : BlankNode → BlankNode} {name : GraphName} :
    name.rename onBlank = .defaultGraph ↔ name = .defaultGraph := by
  cases name <;> simp [rename]

theorem Patch.typesPatch_rename {relabel : Relabeling} {quad : N3Quad} :
    TypesPatch (quad.rename relabel) ↔ TypesPatch quad := by
  constructor
  · rintro ⟨graphName, predicate, object⟩
    exact ⟨GraphName.rename_eq_defaultGraph.mp graphName,
      (isNode_rename relabel quad.predicate _).symm.trans predicate,
      (isNode_rename relabel quad.object _).symm.trans object⟩
  · rintro ⟨graphName, predicate, object⟩
    exact ⟨GraphName.rename_eq_defaultGraph.mpr graphName,
      (isNode_rename relabel quad.predicate _).trans predicate,
      (isNode_rename relabel quad.object _).trans object⟩

/-- A name of a quad is a variable of it or a blank node. -/
theorem N3Quad.mem_names {quad : N3Quad} {name : ClientName}
    (isName : name ∈ quad.names) :
    (∃ variableName ∈ quad.variableNames, name = .var variableName) ∨
      ∃ node ∈ quad.blanks, name = .blank node := by
  have ofTerm {value : N3Term} (isName : name ∈ value.names) :
      (∃ variableName ∈ value.variableNames, name = .var variableName) ∨
        ∃ node ∈ value.blanks, name = .blank node := by
    cases value <;>
      simp_all [N3Term.names, N3Term.variableNames, N3Term.blanks]
  rw [names, List.mem_append, List.mem_append] at isName
  rcases isName with (ofSubject | ofPredicate) | ofObject
  · rcases ofTerm ofSubject with ⟨found, isFound, rfl⟩ | ⟨found, isFound, rfl⟩
    · exact Or.inl ⟨found, by simp [variableNames, isFound], rfl⟩
    · exact Or.inr ⟨found, by simp [blanks, isFound], rfl⟩
  · rcases ofTerm ofPredicate with
      ⟨found, isFound, rfl⟩ | ⟨found, isFound, rfl⟩
    · exact Or.inl ⟨found, by simp [variableNames, isFound], rfl⟩
    · exact Or.inr ⟨found, by simp [blanks, isFound], rfl⟩
  · rcases ofTerm ofObject with ⟨found, isFound, rfl⟩ | ⟨found, isFound, rfl⟩
    · exact Or.inl ⟨found, by simp [variableNames, isFound], rfl⟩
    · exact Or.inr ⟨found, by simp [blanks, isFound], rfl⟩

namespace Relabeling.KeepsApart

variable {relabel : Relabeling} {quads : List N3Quad}
variable (apart : relabel.KeepsApart quads)

include apart

/-- The names of the document are kept apart. -/
theorem names_injOn :
    Set.InjOn (ClientName.rename relabel)
      {name | ∃ quad ∈ quads, name ∈ quad.names} := by
  rintro first ⟨quad, isQuad, ofQuad⟩ second ⟨other, isOther, ofOther⟩ same
  rcases quad.mem_names ofQuad with
    ⟨found, isFound, rfl⟩ | ⟨found, isFound, rfl⟩
  · rcases other.mem_names ofOther with
      ⟨match_, isMatch, rfl⟩ | ⟨match_, isMatch, rfl⟩
    · rw [apart.variableNames ⟨quad, isQuad, isFound⟩
        ⟨other, isOther, isMatch⟩ (ClientName.var.inj same)]
    · cases same
  · rcases other.mem_names ofOther with
      ⟨match_, isMatch, rfl⟩ | ⟨match_, isMatch, rfl⟩
    · cases same
    · rw [apart.blanks ⟨quad, isQuad, isFound⟩
        ⟨other, isOther, isMatch⟩ (ClientName.blank.inj same)]

/-- The subjects of the document are kept apart. -/
theorem subject_inj {first second : N3Quad}
    (isFirst : first ∈ quads) (isSecond : second ∈ quads)
    (same :
      first.subject.rename relabel = second.subject.rename relabel) :
    first.subject = second.subject := by
  refine N3Term.rename_inj apart.blanks apart.variableNames
    (fun node isBlank => ⟨first, isFirst, ?_⟩)
    (fun node isBlank => ⟨second, isSecond, ?_⟩)
    (fun name isName => ⟨first, isFirst, ?_⟩)
    (fun name isName => ⟨second, isSecond, ?_⟩) same
  · simp [N3Quad.blanks, isBlank]
  · simp [N3Quad.blanks, isBlank]
  · simp [N3Quad.variableNames, isName]
  · simp [N3Quad.variableNames, isName]

/-- The graph names of the document are kept apart. -/
theorem graphName_iff {quad other : N3Quad} {blank : BlankNode}
    (isQuad : quad ∈ quads) (isOther : other ∈ quads)
    (named : other.graphName = .blankNode blank) :
    quad.graphName.rename relabel.onBlank =
        .blankNode (relabel.onBlank blank) ↔
      quad.graphName = .blankNode blank := by
  cases isName : quad.graphName with
  | defaultGraph =>
      simp [GraphName.rename]
  | namedNode node =>
      simp [GraphName.rename]
  | blankNode node =>
      simp only [GraphName.rename, GraphName.blankNode.injEq]
      refine ⟨fun same => ?_, congrArg _⟩
      exact apart.blanks
        ⟨quad, isQuad, by simp [N3Quad.blanks, isName, GraphName.blanks]⟩
        ⟨other, isOther, by simp [N3Quad.blanks, named, GraphName.blanks]⟩
        same

section Formulae

open Patch

theorem contents_rename {name : Option BlankNode}
    (filled :
      ∀ blank, name = some blank →
        ∃ quad ∈ quads, quad.graphName = .blankNode blank) :
    contents (quads.map (N3Quad.rename relabel))
        (name.map relabel.onBlank) =
      (contents quads name).map (N3Quad.rename relabel) := by
  cases name with
  | none =>
      rfl
  | some blank =>
      obtain ⟨other, isOther, named⟩ := filled blank rfl
      rw [Option.map_some, contents, contents, List.filter_map]
      congr 1
      refine List.filter_congr fun quad isQuad => ?_
      rw [Function.comp_apply, Bool.eq_iff_iff, beq_iff_eq, beq_iff_eq]
      exact apart.graphName_iff isQuad isOther named

theorem boundNames_rename {name : Option BlankNode}
    (filled :
      ∀ blank, name = some blank →
        ∃ quad ∈ quads, quad.graphName = .blankNode blank) :
    boundNames (quads.map (N3Quad.rename relabel))
        (name.map relabel.onBlank) =
      (boundNames quads name).map (ClientName.rename relabel) := by
  have names :
      (contents (quads.map (N3Quad.rename relabel))
          (name.map relabel.onBlank)).flatMap N3Quad.names =
        ((contents quads name).flatMap N3Quad.names).map
          (ClientName.rename relabel) := by
    rw [apart.contents_rename filled, List.flatMap_map, List.map_flatMap]
    simp only [N3Quad.names_rename]
  rw [boundNames, names, boundNames, FirstOccurrence.map_meetAll,
    List.map_nil]
  refine apart.names_injOn.mono ?_
  rintro other (impossible | ofFormula)
  · cases impossible
  · obtain ⟨quad, isQuad, ofQuad⟩ := List.mem_flatMap.mp ofFormula
    exact ⟨quad, mem_of_mem_contents isQuad, ofQuad⟩

theorem isFormula_rename {subject : N3Term} {predicate : Text}
    {name : Option BlankNode}
    (isSubject : ∃ quad ∈ quads, quad.subject = subject)
    (isFormula : IsFormula quads subject predicate name) :
    IsFormula (quads.map (N3Quad.rename relabel)) (subject.rename relabel)
      predicate (name.map relabel.onBlank) := by
  obtain ⟨source, isSource, rfl⟩ := isSubject
  refine ⟨?_, ?_⟩
  · have objects :
        formulaObjects (quads.map (N3Quad.rename relabel))
            (source.subject.rename relabel) predicate =
          (formulaObjects quads source.subject predicate).map
            (N3Term.rename relabel) := by
      unfold formulaObjects
      rw [List.filter_map, List.map_map, List.map_map]
      refine congrArg₂ List.map rfl
        (List.filter_congr fun quad isQuad => ?_)
      have sameSubject :
          quad.subject.rename relabel = source.subject.rename relabel ↔
            quad.subject = source.subject :=
        ⟨apart.subject_inj isQuad isSource, fun same => by rw [same]⟩
      rw [Function.comp_apply, Bool.eq_iff_iff]
      simp only [N3Quad.rename, Bool.and_eq_true, beq_iff_eq, isNode_rename,
        GraphName.rename_eq_defaultGraph, sameSubject]
    rw [objects, isFormula.objects]
    cases name <;> rfl
  · rintro blank isBlank
    obtain ⟨original, isOriginal, rfl⟩ := Option.map_eq_some_iff.mp isBlank
    obtain ⟨quad, isQuad, named⟩ := isFormula.filled original isOriginal
    refine ⟨quad.rename relabel, List.mem_map_of_mem isQuad, ?_⟩
    rw [N3Quad.rename, named]
    rfl

/-- A term is numbered alike whatever its name is. -/
theorem numbered_rename {met : List ClientName}
    (ofDocument : ∀ name ∈ met, ∃ quad ∈ quads, name ∈ quad.names)
    {value : N3Term} {quad : N3Quad} (isQuad : quad ∈ quads)
    (ofQuad : ∀ name ∈ value.names, name ∈ quad.names) :
    (value.rename relabel).numbered
        (met.map (ClientName.rename relabel)) = value.numbered met := by
  have sameNumber (name : ClientName) (isName : name ∈ value.names) :
      (met.map (ClientName.rename relabel)).idxOf (name.rename relabel) =
        met.idxOf name := by
    refine FirstOccurrence.idxOf_map (apart.names_injOn.mono ?_)
    rintro other (isMet | rfl)
    · exact ofDocument other isMet
    · exact ⟨quad, isQuad, ofQuad other isName⟩
  cases value with
  | namedNode node =>
      rfl
  | literal content =>
      rfl
  | triple content =>
      rfl
  | «variable» name =>
      have same := sameNumber (.var name) (by simp [N3Term.names])
      exact congrArg (fun index => some (PatternTerm.var index)) same
  | blankNode node =>
      have same := sameNumber (.blank node) (by simp [N3Term.names])
      exact congrArg (fun index => some (PatternTerm.var index)) same

end Formulae

end Relabeling.KeepsApart

section Admitted

variable {relabel : Relabeling} {met : List ClientName} {binding : Binding}

theorem N3Term.Admitted.rename {value : N3Term}
    (admitted : value.Admitted met binding) :
    (value.rename relabel).Admitted
      (met.map (ClientName.rename relabel)) binding := by
  refine ⟨?_, ?_, ?_⟩
  · have plain := admitted.plain
    cases value <;> exact plain
  · intro isLookup node isBlank
    cases value with
    | blankNode original =>
        exact admitted.noBlank isLookup original rfl
    | _ =>
        cases isBlank
  · intro isLookup name isName
    rw [N3Term.names_rename] at isName
    obtain ⟨original, isOriginal, rfl⟩ := List.mem_map.mp isName
    exact List.mem_map_of_mem (admitted.known isLookup original isOriginal)

theorem N3Quad.Admitted.rename {quad : N3Quad}
    (admitted : quad.Admitted met binding) :
    (quad.rename relabel).Admitted
      (met.map (ClientName.rename relabel)) binding := by
  refine ⟨admitted.subject.rename, admitted.predicate.rename,
    admitted.object.rename, ?_, ?_⟩
  · intro content isLiteral
    refine admitted.subjectNoLiteral content ?_
    cases isValue : quad.subject <;>
      simp [N3Quad.rename, N3Term.rename, isValue] at isLiteral ⊢
    exact isLiteral
  · intro content isLiteral
    refine admitted.predicateNoLiteral content ?_
    cases isValue : quad.predicate <;>
      simp [N3Quad.rename, N3Term.rename, isValue] at isLiteral ⊢
    exact isLiteral

end Admitted

namespace Patch

variable {relabel : Relabeling} {quads : List N3Quad}

theorem Reads.rename (apart : relabel.KeepsApart quads)
    {met : List ClientName} {binding : Binding} {formula : List N3Quad}
    {patterns : List Pattern}
    (ofDocument : ∀ name ∈ met, ∃ quad ∈ quads, name ∈ quad.names)
    (contained : ∀ quad ∈ formula, quad ∈ quads)
    (reads : Reads formula met binding patterns) :
    Reads (formula.map (N3Quad.rename relabel))
      (met.map (ClientName.rename relabel)) binding patterns := by
  refine ⟨?_, ?_⟩
  · intro quad isQuad
    obtain ⟨original, isOriginal, rfl⟩ := List.mem_map.mp isQuad
    exact (reads.admitted original isOriginal).rename
  · rw [← reads.numbered, List.map_map]
    refine List.map_congr_left fun quad isQuad => ?_
    have numbered {value : N3Term}
        (ofQuad : ∀ name ∈ value.names, name ∈ quad.names) :=
      apart.numbered_rename ofDocument (contained quad isQuad) ofQuad
    rw [Function.comp_apply, N3Quad.numbered, N3Quad.numbered]
    simp only [N3Quad.rename]
    rw [numbered (by simp +contextual [N3Quad.names]),
      numbered (by simp +contextual [N3Quad.names]),
      numbered (by simp +contextual [N3Quad.names])]

theorem mem_document_of_boundNames {conditions : Option BlankNode}
    {name : ClientName} (isMet : name ∈ boundNames quads conditions) :
    ∃ quad ∈ quads, name ∈ quad.names := by
  rcases FirstOccurrence.mem_meetAll.mp isMet with impossible | ofFormula
  · cases impossible
  · obtain ⟨quad, isQuad, ofQuad⟩ := List.mem_flatMap.mp ofFormula
    exact ⟨quad, mem_of_mem_contents isQuad, ofQuad⟩

/-- A document with its names replaced describes the same patch. -/
theorem Describes.rename (apart : relabel.KeepsApart quads)
    {subject : N3Term} {formulae : Formulae} {patch : Patch}
    (described : Describes quads subject formulae patch) :
    Describes (quads.map (N3Quad.rename relabel)) (subject.rename relabel)
      ⟨formulae.conditions.map relabel.onBlank,
        formulae.deletions.map relabel.onBlank,
        formulae.insertions.map relabel.onBlank⟩ patch := by
  obtain ⟨source, isSource, typed, isSubject⟩ :=
    (described.onlySubject subject).mpr rfl
  have inDocument : ∃ quad ∈ quads, quad.subject = subject :=
    ⟨source, isSource, isSubject⟩
  have bound := apart.boundNames_rename described.conditionsFormula.filled
  have read {name : Option BlankNode} {binding : Binding}
      {patterns : List Pattern}
      (filled :
        ∀ blank, name = some blank →
          ∃ quad ∈ quads, quad.graphName = .blankNode blank)
      (reads :
        Reads (contents quads name) (boundNames quads formulae.conditions)
          binding patterns) :
      Reads
        (contents (quads.map (N3Quad.rename relabel))
          (name.map relabel.onBlank))
        (boundNames (quads.map (N3Quad.rename relabel))
          (formulae.conditions.map relabel.onBlank)) binding patterns := by
    rw [apart.contents_rename filled, bound]
    exact reads.rename apart (fun name => mem_document_of_boundNames)
      fun quad => mem_of_mem_contents
  exact
    { onlySubject := by
        intro other
        constructor
        · rintro ⟨quad, isQuad, isTyped, rfl⟩
          obtain ⟨original, isOriginal, rfl⟩ := List.mem_map.mp isQuad
          rw [N3Quad.rename, ← (described.onlySubject original.subject).mp
            ⟨original, isOriginal, typesPatch_rename.mp isTyped, rfl⟩]
        · rintro rfl
          refine ⟨source.rename relabel, List.mem_map_of_mem isSource,
            typesPatch_rename.mpr typed, ?_⟩
          rw [N3Quad.rename, isSubject]
      conditionsFormula :=
        apart.isFormula_rename inDocument described.conditionsFormula
      deletionsFormula :=
        apart.isFormula_rename inDocument described.deletionsFormula
      insertionsFormula :=
        apart.isFormula_rename inDocument described.insertionsFormula
      conditions :=
        read described.conditionsFormula.filled described.conditions
      deletions := read described.deletionsFormula.filled described.deletions
      insertions :=
        read described.insertionsFormula.filled described.insertions
      variableCount := by
        rw [bound, List.length_map]
        exact described.variableCount }

end Patch

end Quadpod
