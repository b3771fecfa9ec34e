import Quadpod.ReferencePod
import Quadpod.ReservedTerms
import Quadpod.SkolemRoundTrip
import Mathlib.Data.List.Dedup
import Mathlib.Data.List.Perm.Subperm

namespace Quadpod

/-!
# The bijection of blank nodes

What a client writes comes back with its blank nodes renamed by one bijection,
whatever position and depth they stand at.  The label a blank node comes back
with is its UUID without the hyphens; since UUIDs print with their hyphens at
fixed places, distinct UUIDs give distinct labels.  As many UUIDs are drawn as
the document has blank nodes.
-/

/-! ## The labels of UUIDs -/

/-- Where a UUID in hyphenated form has digits and where it has hyphens. -/
def hyphenation : List Bool :=
  List.replicate 8 true ++ false :: List.replicate 4 true ++
    false :: List.replicate 4 true ++ false :: List.replicate 4 true ++
      false :: List.replicate 12 true

/-- The hyphenated form, in which the `uuid` crate prints. -/
def Uuid.Hyphenated (uuid : Uuid) : Prop :=
  uuid.text.map Char.isAlphanum = hyphenation

/-- Texts with hyphens at the same places differ in their other characters. -/
theorem eq_of_filter_isAlphanum {first second : Text}
    (firstPlain : ∀ c ∈ first, c.isAlphanum = true ∨ c = '-')
    (secondPlain : ∀ c ∈ second, c.isAlphanum = true ∨ c = '-')
    (samePlaces :
      first.map Char.isAlphanum = second.map Char.isAlphanum)
    (sameDigits :
      first.filter Char.isAlphanum = second.filter Char.isAlphanum) :
    first = second := by
  induction first generalizing second with
  | nil =>
      exact (List.map_eq_nil_iff.mp samePlaces.symm).symm
  | cons c rest inductionHypothesis =>
      cases second with
      | nil =>
          cases samePlaces
      | cons d others =>
          obtain ⟨samePlace, sameRest⟩ := List.cons.inj samePlaces
          have restPlain := fun e member =>
            firstPlain e (List.mem_cons_of_mem c member)
          have othersPlain := fun e member =>
            secondPlain e (List.mem_cons_of_mem d member)
          cases isDigit : c.isAlphanum with
          | true =>
              rw [List.filter_cons_of_pos isDigit,
                List.filter_cons_of_pos (samePlace ▸ isDigit)] at sameDigits
              obtain ⟨rfl, sameOthers⟩ := List.cons.inj sameDigits
              rw [inductionHypothesis restPlain othersPlain sameRest
                sameOthers]
          | false =>
              have firstHyphen : c = '-' := by
                simpa [isDigit] using firstPlain c List.mem_cons_self
              have secondHyphen : d = '-' := by
                simpa [← samePlace, isDigit] using
                  secondPlain d List.mem_cons_self
              rw [List.filter_cons_of_neg (by simp [isDigit]),
                List.filter_cons_of_neg (by simp [← samePlace, isDigit])]
                at sameDigits
              rw [firstHyphen, secondHyphen,
                inductionHypothesis restPlain othersPlain sameRest sameDigits]

theorem Uuid.eq_of_text {first second : Uuid}
    (same : first.text = second.text) : first = second := by
  cases first
  cases second
  cases same
  rfl

/-- Distinct UUIDs in hyphenated form have distinct labels. -/
theorem Skolemized.distinctBelow_of_hyphenated
    {fresh : Nat → Uuid} {count : Nat}
    (hyphenated : ∀ number < count, (fresh number).Hyphenated)
    (distinct : Set.InjOn fresh (Set.Iio count)) :
    DistinctBelow fresh count := by
  intro first firstSmall second secondSmall same
  refine distinct firstSmall secondSmall (Uuid.eq_of_text ?_)
  refine eq_of_filter_isAlphanum (fresh first).plain (fresh second).plain
    ?_ same
  exact (hyphenated first firstSmall).trans (hyphenated second secondSmall).symm

/-! ## The blank nodes of a dataset -/

section

variable [IriSyntax]

def NamedOrBlankNode.blanks : NamedOrBlankNode → List BlankNode
  | .namedNode _ => []
  | .blankNode blank => [blank]

/-- The blank nodes of a term, at any depth. -/
def Term.blanks : Term → List BlankNode
  | .namedNode _ => []
  | .blankNode blank => [blank]
  | .literal _ => []
  | .triple subject _ object => subject.blanks ++ object.blanks

def GraphName.blanks : GraphName → List BlankNode
  | .defaultGraph => []
  | .namedNode _ => []
  | .blankNode blank => [blank]

/-- The blank nodes of a quad, in any position and at any depth. -/
def Quad.blanks (quad : Quad) : List BlankNode :=
  quad.subject.blanks ++ quad.object.blanks ++ quad.graphName.blanks

/-- The blank nodes of a dataset, in any position and at any depth. -/
def Dataset.blanks (dataset : Dataset) : List BlankNode :=
  dataset.quads.flatMap Quad.blanks

section Renaming

variable (relabel : BlankNode → BlankNode)

theorem NamedOrBlankNode.blanks_rename (subject : NamedOrBlankNode) :
    (subject.rename relabel).blanks = subject.blanks.map relabel := by
  cases subject <;> rfl

theorem Term.blanks_rename (object : Term) :
    (object.rename relabel).blanks = object.blanks.map relabel := by
  induction object with
  | namedNode node =>
      rfl
  | blankNode blank =>
      rfl
  | literal content =>
      rfl
  | triple subject predicate object inductionHypothesis =>
      rw [rename, blanks, blanks, List.map_append, inductionHypothesis,
        NamedOrBlankNode.blanks_rename]

theorem GraphName.blanks_rename (name : GraphName) :
    (name.rename relabel).blanks = name.blanks.map relabel := by
  cases name <;> rfl

theorem Quad.blanks_rename (quad : Quad) :
    (quad.rename relabel).blanks = quad.blanks.map relabel := by
  simp only [blanks, rename, NamedOrBlankNode.blanks_rename,
    Term.blanks_rename, GraphName.blanks_rename, List.map_append]

end Renaming

/-- A renaming that gives a quad back fixes each of its blank nodes. -/
theorem Quad.fixed_of_rename {quad : Quad} {relabel : BlankNode → BlankNode}
    (same : quad.rename relabel = quad) {blank : BlankNode}
    (member : blank ∈ quad.blanks) : relabel blank = blank := by
  have fixed : quad.blanks.map relabel = quad.blanks.map id := by
    rw [← blanks_rename, same, List.map_id]
  exact List.map_inj_left.mp fixed blank member

/-! ## How many UUIDs are drawn -/

namespace Skolemized

section Draws

variable {fresh : Nat → Uuid}

/-- The labels of a table are distinct. -/
theorem Drawn.nodup {minted : Minted} (drawn : Drawn fresh minted) :
    (minted.map Prod.fst).Nodup := by
  induction drawn with
  | nil =>
      exact List.nodup_nil
  | cons label minted drawn isNew inductionHypothesis =>
      rw [List.map_cons, List.nodup_cons]
      refine ⟨fun member => ?_, inductionHypothesis⟩
      obtain ⟨entry, isEntry, isLabel⟩ := List.mem_map.mp member
      rw [List.lookup_eq_none_iff] at isNew
      have differs := isNew entry isEntry
      rw [isLabel, bne_self_eq_false] at differs
      cases differs

theorem label_of_iriFor {blank : BlankNode} {minted : Minted} {label : Text}
    (member : label ∈ (iriFor fresh blank minted).2.map Prod.fst) :
    label ∈ minted.map Prod.fst ∨ label = blank.label := by
  unfold iriFor at member
  split at member
  · exact Or.inl member
  · rw [List.map_cons, List.mem_cons] at member
    exact member.symm

theorem label_of_groundSubject
    {subject : NamedOrBlankNode} {minted : Minted} {label : Text}
    (member : label ∈ (groundSubject fresh subject minted).2.map Prod.fst) :
    label ∈ minted.map Prod.fst ∨
      label ∈ subject.blanks.map BlankNode.label := by
  cases subject with
  | namedNode node =>
      exact Or.inl member
  | blankNode blank =>
      simpa [NamedOrBlankNode.blanks] using label_of_iriFor member

theorem label_of_ground
    {object : Term} {minted : Minted} {label : Text}
    (member : label ∈ (ground fresh object minted).2.map Prod.fst) :
    label ∈ minted.map Prod.fst ∨
      label ∈ object.blanks.map BlankNode.label := by
  induction object generalizing minted with
  | namedNode node =>
      exact Or.inl member
  | blankNode blank =>
      simpa [Term.blanks] using label_of_iriFor member
  | literal content =>
      exact Or.inl member
  | triple subject predicate object inductionHypothesis =>
      rw [Term.blanks, List.map_append, List.mem_append]
      rcases inductionHypothesis member with earlier | ofObject
      · rcases label_of_groundSubject earlier with known | ofSubject
        · exact Or.inl known
        · exact Or.inr (Or.inl ofSubject)
      · exact Or.inr (Or.inr ofObject)

theorem label_of_groundGraphName
    {name : GraphName} {minted : Minted} {label : Text}
    (member : label ∈ (groundGraphName fresh name minted).2.map Prod.fst) :
    label ∈ minted.map Prod.fst ∨
      label ∈ name.blanks.map BlankNode.label := by
  cases name with
  | defaultGraph =>
      exact Or.inl member
  | namedNode node =>
      exact Or.inl member
  | blankNode blank =>
      simpa [GraphName.blanks] using label_of_iriFor member

/-- A quad adds labels of its own blank nodes to the table. -/
theorem label_of_groundQuad
    {quad : Quad} {minted : Minted} {label : Text}
    (member : label ∈ (groundQuad fresh quad minted).2.map Prod.fst) :
    label ∈ minted.map Prod.fst ∨
      label ∈ quad.blanks.map BlankNode.label := by
  rw [Quad.blanks, List.map_append, List.map_append, List.mem_append,
    List.mem_append]
  rcases label_of_groundGraphName member with afterObject | ofName
  · rcases label_of_ground afterObject with afterSubject | ofObject
    · rcases label_of_groundSubject afterSubject with known | ofSubject
      · exact Or.inl known
      · exact Or.inr (Or.inl (Or.inl ofSubject))
    · exact Or.inr (Or.inl (Or.inr ofObject))
  · exact Or.inr (Or.inr ofName)

theorem label_of_tableAfter
    {quads : List Quad} {minted : Minted} {label : Text}
    (member : label ∈ (tableAfter fresh quads minted).map Prod.fst) :
    label ∈ minted.map Prod.fst ∨
      label ∈ (quads.flatMap Quad.blanks).map BlankNode.label := by
  induction quads generalizing minted with
  | nil =>
      exact Or.inl member
  | cons quad rest inductionHypothesis =>
      rw [List.flatMap_cons, List.map_append, List.mem_append]
      rcases inductionHypothesis member with earlier | ofRest
      · rcases label_of_groundQuad earlier with known | ofQuad
        · exact Or.inl known
        · exact Or.inr (Or.inl ofQuad)
      · exact Or.inr (Or.inr ofRest)

omit [IriSyntax] in
theorem label_injective : Function.Injective BlankNode.label := by
  intro first second same
  cases first
  cases second
  cases same
  rfl

/-- No more UUIDs are drawn than the dataset has blank nodes. -/
theorem length_tableAfter_le (dataset : Dataset) :
    (tableAfter fresh dataset.quads []).length ≤
      dataset.blanks.dedup.length := by
  have drawn : Drawn fresh (tableAfter fresh dataset.quads []) :=
    (grows_tableAfter dataset.quads []).drawn .nil
  have contained :
      (tableAfter fresh dataset.quads []).map Prod.fst ⊆
        dataset.blanks.dedup.map BlankNode.label := by
    intro label member
    rcases label_of_tableAfter member with impossible | ofBlank
    · cases impossible
    · obtain ⟨blank, isBlank, rfl⟩ := List.mem_map.mp ofBlank
      exact List.mem_map_of_mem (List.mem_dedup.mpr isBlank)
  have bound := (List.subperm_of_subset drawn.nodup contained).length_le
  rwa [List.length_map, List.length_map] at bound

end Draws

/-! ## The round trip -/

/-- A reserved IRI is the only one read back as a blank node. -/
theorem isReserved_of_blankFor {node : NamedNode} {blank : BlankNode}
    (isBlank : blankFor node = some blank) : node.isReserved = true := by
  unfold blankFor at isBlank
  obtain ⟨rest, isStripped, _⟩ := Option.map_eq_some_iff.mp isBlank
  rw [Text.stripPrefix_eq_some] at isStripped
  rw [NamedNode.isReserved, isReservedIri, isStripped]
  rfl

theorem blankFor_eq_none {node : NamedNode}
    (unreserved : node.isReserved = false) : blankFor node = none := by
  cases isBlank : blankFor node with
  | none =>
      rfl
  | some blank =>
      rw [isReserved_of_blankFor isBlank] at unreserved
      cases unreserved

theorem clear_of_unreserved_subject {subject : NamedOrBlankNode}
    (unreserved : subject.namesReserved = false) : subject.Clear := by
  cases subject with
  | namedNode node =>
      exact blankFor_eq_none unreserved
  | blankNode blank =>
      trivial

theorem clear_of_unreserved_term {object : Term}
    (unreserved : object.namesReserved = false) : object.Clear := by
  induction object with
  | namedNode node =>
      exact blankFor_eq_none unreserved
  | blankNode blank =>
      trivial
  | literal content =>
      trivial
  | triple subject predicate object inductionHypothesis =>
      simp only [Term.namesReserved, Bool.or_eq_false_iff] at unreserved
      exact ⟨clear_of_unreserved_subject unreserved.1.1,
        inductionHypothesis unreserved.2⟩

/-- A dataset without reserved IRIs has none that looks minted. -/
theorem clear_of_unreserved {dataset : Dataset}
    (unreserved : dataset.namesReserved = false) : dataset.Clear := by
  rw [Dataset.namesReserved, List.any_eq_false] at unreserved
  intro quad member
  have free := unreserved quad member
  rw [Bool.not_eq_true] at free
  simp only [Quad.namesReserved, Bool.or_eq_false_iff] at free
  refine ⟨clear_of_unreserved_subject free.1.1.1,
    clear_of_unreserved_term free.1.2, ?_⟩
  cases isName : quad.graphName with
  | namedNode node =>
      rw [isName] at free
      exact blankFor_eq_none free.2
  | defaultGraph =>
      trivial
  | blankNode blank =>
      trivial

/-- One bijection of blank nodes takes a document to what comes back. -/
theorem exists_bijection_deskolemize_skolemize
    {fresh : Nat → Uuid} {dataset : Dataset}
    (distinct : DistinctBelow fresh dataset.blanks.dedup.length)
    (clear : dataset.Clear) :
    ∃ relabel : BlankNode → BlankNode,
      (skolemize fresh dataset).deskolemize.quads =
          dataset.quads.map (Quad.rename relabel) ∧
        Set.BijOn relabel
          {blank | blank ∈ dataset.blanks}
          {blank |
            blank ∈ (skolemize fresh dataset).deskolemize.blanks} := by
  have drawn : Drawn fresh (tableAfter fresh dataset.quads []) :=
    (grows_tableAfter dataset.quads []).drawn .nil
  obtain ⟨sameQuads, restored⟩ :=
    deskolemize_groundQuads
      (distinct.mono (Set.Iio_subset_Iio (length_tableAfter_le dataset)))
      drawn clear (Grows.refl _)
  refine ⟨relabel (tableAfter fresh dataset.quads []), sameQuads, ?_, ?_, ?_⟩
  · intro blank member
    obtain ⟨quad, isQuad, inQuad⟩ := List.mem_flatMap.mp member
    refine List.mem_flatMap.mpr
      ⟨quad.rename (relabel (tableAfter fresh dataset.quads [])), ?_, ?_⟩
    · rw [skolemize, sameQuads]
      exact List.mem_map_of_mem isQuad
    · rw [Quad.blanks_rename]
      exact List.mem_map_of_mem inQuad
  · have inverse :
        Set.LeftInvOn (restore (tableAfter fresh dataset.quads []))
          (relabel (tableAfter fresh dataset.quads []))
          {blank | blank ∈ dataset.blanks} := by
      intro blank member
      obtain ⟨quad, isQuad, inQuad⟩ := List.mem_flatMap.mp member
      have same := restored quad isQuad
      rw [Quad.rename_rename] at same
      exact Quad.fixed_of_rename same inQuad
    exact inverse.injOn
  · intro blank member
    obtain ⟨quad, isQuad, inQuad⟩ := List.mem_flatMap.mp member
    rw [skolemize, sameQuads] at isQuad
    obtain ⟨original, isOriginal, rfl⟩ := List.mem_map.mp isQuad
    rw [Quad.blanks_rename] at inQuad
    obtain ⟨before, isBefore, rfl⟩ := List.mem_map.mp inQuad
    exact ⟨before,
      List.mem_flatMap.mpr ⟨original, isOriginal, isBefore⟩, rfl⟩

/-! ## Ground quads -/

theorem blanks_toTerm (term : GroundTerm) : term.toTerm.blanks = [] := by
  induction term with
  | namedNode node =>
      rfl
  | literal content =>
      rfl
  | triple subject predicate object inductionHypothesis =>
      rw [GroundTerm.toTerm, Term.blanks, inductionHypothesis]
      rfl

/-- A stored quad holds no blank node. -/
theorem blanks_toQuad (quad : GroundQuad) : quad.toQuad.blanks = [] := by
  rw [Quad.blanks, GroundQuad.toQuad, blanks_toTerm]
  cases quad.graphName <;> rfl

theorem groundQuadOf_toQuad (quad : GroundQuad) :
    groundQuadOf quad.toQuad = some quad := by
  obtain ⟨subject, predicate, object, name⟩ := quad
  cases name <;> simp [groundQuadOf, GroundQuad.toQuad, groundOf_toTerm]

/-- Stored quads are read back as they are. -/
theorem fromStore_toQuad (stored : Skolemized) :
    fromStore (stored.quads.map GroundQuad.toQuad) = some stored := by
  rw [fromStore, Traversal.map_some groundQuadOf_toQuad]
  rfl

theorem blanks_of_groundOf {object : Term} {term : GroundTerm}
    (isGround : groundOf object = some term) : object.blanks = [] := by
  induction object generalizing term with
  | namedNode node =>
      rfl
  | blankNode blank =>
      cases isGround
  | literal content =>
      rfl
  | triple subject predicate object inductionHypothesis =>
      cases subject with
      | namedNode node =>
          obtain ⟨inner, isInner, _⟩ := Option.map_eq_some_iff.mp isGround
          rw [Term.blanks, inductionHypothesis isInner]
          rfl
      | blankNode blank =>
          cases isGround

theorem blanks_of_groundQuadOf {quad : Quad} {stored : GroundQuad}
    (isGround : groundQuadOf quad = some stored) : quad.blanks = [] := by
  obtain ⟨subject, predicate, object, name⟩ := quad
  cases subject with
  | blankNode blank =>
      cases isGround
  | namedNode node =>
      cases isTerm : groundOf object with
      | none =>
          simp [groundQuadOf, isTerm] at isGround
      | some term =>
          cases name with
          | blankNode blank =>
              simp [groundQuadOf, isTerm] at isGround
          | defaultGraph =>
              simp [Quad.blanks, NamedOrBlankNode.blanks, GraphName.blanks,
                blanks_of_groundOf isTerm]
          | namedNode name =>
              simp [Quad.blanks, NamedOrBlankNode.blanks, GraphName.blanks,
                blanks_of_groundOf isTerm]

/-- Quads with a blank node anywhere are refused. -/
theorem fromStore_eq_none {quads : List Quad} {quad : Quad}
    (member : quad ∈ quads) (holds : quad.blanks ≠ []) :
    fromStore quads = none := by
  rw [fromStore, Option.map_eq_none_iff, Option.eq_none_iff_forall_ne_some]
  intro grounded isGrounded
  obtain ⟨stored, _, isGround⟩ := Traversal.some_of_mem isGrounded member
  exact holds (blanks_of_groundQuadOf isGround)

/--
Skolemizing leaves no blank node, de-skolemizing gives the document back up to
one bijection of its blank nodes, and the quads of the store are read back
exactly while any quad with a blank node is refused.
-/
theorem skolem_round_trip
    {fresh : Nat → Uuid} {dataset : Dataset}
    (hyphenated :
      ∀ number < dataset.blanks.dedup.length, (fresh number).Hyphenated)
    (distinct : Set.InjOn fresh (Set.Iio dataset.blanks.dedup.length)) :
    (dataset.namesReserved = false →
        ∃ relabel : BlankNode → BlankNode,
          (skolemize fresh dataset).deskolemize.quads =
              dataset.quads.map (Quad.rename relabel) ∧
            Set.BijOn relabel
              {blank | blank ∈ dataset.blanks}
              {blank |
                blank ∈ (skolemize fresh dataset).deskolemize.blanks}) ∧
      (∀ quad ∈ (skolemize fresh dataset).quads, quad.toQuad.blanks = []) ∧
      (∀ stored : Skolemized,
        fromStore (stored.quads.map GroundQuad.toQuad) = some stored) ∧
      (∀ quads : List Quad,
        (∃ quad ∈ quads, quad.blanks ≠ []) → fromStore quads = none) := by
  refine ⟨fun unreserved => ?_, fun quad _ => blanks_toQuad quad,
    fromStore_toQuad, fun quads => ?_⟩
  · exact exists_bijection_deskolemize_skolemize
      (distinctBelow_of_hyphenated hyphenated distinct)
      (clear_of_unreserved unreserved)
  · rintro ⟨quad, member, holds⟩
    exact fromStore_eq_none member holds

end Skolemized

end

namespace Reference

/-- A UUID that repeats one digit. -/
def repeatedUuid (number : Nat) : Uuid where
  text :=
    hyphenation.map fun isDigit =>
      if isDigit then hexDigit (number % 16) else '-'
  nonempty := by simp [hyphenation]
  plain c member := by
    obtain ⟨isDigit, _, rfl⟩ := List.mem_map.mp member
    cases isDigit with
    | true =>
        exact Or.inl (hexDigit_isAlphanum _ (Nat.mod_lt _ (by decide)))
    | false =>
        exact Or.inr rfl

/-- A blank node as subject, as graph name and inside a triple term. -/
def sharedBlanks : Dataset where
  quads :=
    [⟨.blankNode ⟨"x".toList⟩, plainPredicate,
      .triple (.blankNode ⟨"y".toList⟩) plainPredicate
        (.blankNode ⟨"x".toList⟩),
      .blankNode ⟨"x".toList⟩⟩]

/-- Two blank nodes, one of them shared, make the round trip. -/
theorem sharedBlanks_round_trip :
    sharedBlanks.blanks.dedup.length = 2 ∧
      ∃ relabel : BlankNode → BlankNode,
        (Skolemized.skolemize repeatedUuid sharedBlanks).deskolemize.quads =
            sharedBlanks.quads.map (Quad.rename relabel) ∧
          Set.BijOn relabel
            {blank | blank ∈ sharedBlanks.blanks}
            {blank |
              blank ∈ (Skolemized.skolemize repeatedUuid
                sharedBlanks).deskolemize.blanks} := by
  have count : sharedBlanks.blanks.dedup.length = 2 := by
    decide
  refine ⟨count, (Skolemized.skolem_round_trip ?_ ?_).1 (by decide)⟩
  · rw [count]
    have checked :
        ∀ number < 2,
          (repeatedUuid number).text.map Char.isAlphanum = hyphenation := by
      decide
    exact checked
  · rw [count]
    intro first firstSmall second secondSmall same
    have checked :
        ∀ first < 2, ∀ second < 2,
          repeatedUuid first = repeatedUuid second → first = second := by
      decide
    exact checked first firstSmall second secondSmall same

end Reference

end Quadpod
