import Mathlib.Order.Interval.Set.Basic
import Mathlib.Data.Set.Function
import Quadpod.BlankRenaming
import Quadpod.HttpRead

namespace Quadpod

/-!
# Blank nodes through the store

`skolemize` mints one IRI for each blank node of a document and `deskolemize`
turns it into a blank node again.  While the minted UUIDs are distinct, the two
together only rename the blank nodes of a document, provided that none of its
own IRIs looks like a minted one; nothing a client is shown does.
-/

variable [IriSyntax]

/-! ## Documents without minted IRIs -/

/-- A subject that is no minted IRI. -/
def NamedOrBlankNode.Clear : NamedOrBlankNode → Prop
  | .namedNode node => Skolemized.blankFor node = none
  | .blankNode _ => True

/-- A term without minted IRIs, where blank nodes may stand. -/
def Term.Clear : Term → Prop
  | .namedNode node => Skolemized.blankFor node = none
  | .blankNode _ => True
  | .literal _ => True
  | .triple subject _ object => subject.Clear ∧ object.Clear

/-- A graph name that is no minted IRI. -/
def GraphName.Clear : GraphName → Prop
  | .namedNode node => Skolemized.blankFor node = none
  | .blankNode _ => True
  | .defaultGraph => True

/-- A quad without minted IRIs, where blank nodes may stand. -/
structure Quad.Clear (quad : Quad) : Prop where
  subject : quad.subject.Clear
  object : quad.object.Clear
  graphName : quad.graphName.Clear

/-- A dataset without minted IRIs, where blank nodes may stand. -/
def Dataset.Clear (dataset : Dataset) : Prop :=
  ∀ quad ∈ dataset.quads, quad.Clear

theorem NamedOrBlankNode.Clear.rename {subject : NamedOrBlankNode}
    (clear : subject.Clear) (relabel : BlankNode → BlankNode) :
    (subject.rename relabel).Clear := by
  cases subject with
  | namedNode node =>
      exact clear
  | blankNode blank =>
      trivial

theorem Term.Clear.rename {object : Term}
    (clear : object.Clear) (relabel : BlankNode → BlankNode) :
    (object.rename relabel).Clear := by
  induction object with
  | namedNode node =>
      exact clear
  | blankNode blank =>
      trivial
  | literal content =>
      trivial
  | triple subject predicate object inductionHypothesis =>
      exact ⟨clear.1.rename relabel, inductionHypothesis clear.2⟩

theorem Quad.Clear.rename {quad : Quad}
    (clear : quad.Clear) (relabel : BlankNode → BlankNode) :
    (quad.rename relabel).Clear := by
  refine ⟨clear.subject.rename relabel, clear.object.rename relabel, ?_⟩
  have isClear := clear.graphName
  unfold Quad.rename
  dsimp only
  revert isClear
  cases quad.graphName with
  | defaultGraph =>
      exact id
  | namedNode node =>
      exact id
  | blankNode blank =>
      exact id

theorem Dataset.Clear.isomorphic {first second : Dataset}
    (clear : first.Clear) (isomorphic : first.Isomorphic second) :
    second.Clear := by
  obtain ⟨there, back, renames⟩ := isomorphic
  intro quad member
  obtain ⟨inFirst, returns⟩ := renames.back quad member
  rw [← returns]
  exact (clear _ inFirst).rename there

namespace Skolemized

theorem clear_subjectFor (node : NamedNode) : (subjectFor node).Clear := by
  unfold subjectFor
  split
  · trivial
  · next isNone =>
      exact isNone

theorem clear_termFor (object : GroundTerm) : (termFor object).Clear := by
  induction object with
  | namedNode node =>
      unfold termFor
      split
      · trivial
      · next isNone =>
          exact isNone
  | literal content =>
      trivial
  | triple subject predicate object inductionHypothesis =>
      exact ⟨clear_subjectFor subject, inductionHypothesis⟩

/-- Nothing a client is shown is a minted IRI. -/
theorem clear_deskolemize (stored : Skolemized) : stored.deskolemize.Clear := by
  intro quad member
  obtain ⟨ground, _, rfl⟩ := List.mem_map.mp member
  refine ⟨clear_subjectFor _, clear_termFor _, ?_⟩
  dsimp only
  cases ground.graphName with
  | defaultGraph =>
      trivial
  | namedNode node =>
      unfold graphNameFor
      dsimp only
      split
      · trivial
      · next isNone =>
          exact isNone

/-! ## The table of minted IRIs -/

variable (fresh : Nat → Uuid)

/-- A UUID as it stands in the label of a blank node, without its hyphens. -/
def Distinct : Prop :=
  Function.Injective fun number =>
    (fresh number).text.filter Char.isAlphanum

/-- The first UUIDs can be told apart by those labels. -/
def DistinctBelow (count : Nat) : Prop :=
  Set.InjOn (fun number => (fresh number).text.filter Char.isAlphanum)
    (Set.Iio count)

/-- A table whose IRIs were minted one after the other. -/
inductive Drawn : Minted → Prop where
  | nil : Drawn []
  | cons (label : Text) (minted : Minted)
      (drawn : Drawn minted)
      (isNew : minted.lookup label = none) :
      Drawn ((label, skolemIri (fresh minted.length)) :: minted)

/-- One table extends another: what was minted stays. -/
structure Grows (before after : Minted) : Prop where
  drawn : Drawn fresh before → Drawn fresh after
  kept :
    ∀ label node,
      before.lookup label = some node → after.lookup label = some node

variable {fresh}

theorem Grows.refl (minted : Minted) : Grows fresh minted minted :=
  ⟨id, fun _ _ => id⟩

theorem Grows.trans {first second third : Minted}
    (lower : Grows fresh first second) (upper : Grows fresh second third) :
    Grows fresh first third :=
  ⟨upper.drawn ∘ lower.drawn, fun label node isKnown =>
    upper.kept label node (lower.kept label node isKnown)⟩

/-- The blank node that another one comes back as. -/
def relabel (minted : Minted) (blank : BlankNode) : BlankNode :=
  ((minted.lookup blank.label).bind blankFor).getD blank

/-- The blank node that comes back as another one. -/
def restore (minted : Minted) (blank : BlankNode) : BlankNode :=
  match minted.find? fun entry => blankFor entry.2 == some blank with
  | some entry => ⟨entry.1⟩
  | none => blank

/-- The blank node of a minted IRI. -/
theorem blankFor_skolemIri (uuid : Uuid) :
    blankFor (skolemIri uuid) =
      some ⟨'b' :: uuid.text.filter Char.isAlphanum⟩ := by
  unfold blankFor
  have stripped :
      Text.stripPrefix skolemPrefix (skolemIri uuid).iri = some uuid.text := by
    exact Text.stripPrefix_append _ _
  rw [stripped]
  rfl

theorem Drawn.index {minted : Minted} (drawn : Drawn fresh minted) :
    ∀ entry ∈ minted,
      ∃ number < minted.length, entry.2 = skolemIri (fresh number) := by
  induction drawn with
  | nil =>
      intro entry member
      cases member
  | cons label minted drawn isNew inductionHypothesis =>
      intro entry member
      rcases List.mem_cons.mp member with rfl | inRest
      · exact ⟨minted.length, by simp, rfl⟩
      · obtain ⟨number, isSmall, isMinted⟩ := inductionHypothesis entry inRest
        exact ⟨number, by simp; omega, isMinted⟩

/-- Every blank node of the table can be told from the others. -/
theorem Drawn.restore_lookup {minted : Minted}
    (distinct : DistinctBelow fresh minted.length)
    (drawn : Drawn fresh minted)
    {label : Text} {node : NamedNode}
    (isKnown : minted.lookup label = some node) :
    ∃ blank, blankFor node = some blank ∧ restore minted blank = ⟨label⟩ := by
  induction drawn with
  | nil =>
      cases isKnown
  | cons other minted drawn isNew inductionHypothesis =>
      rw [List.lookup_cons] at isKnown
      split at isKnown
      · next isLabel =>
          cases isKnown
          rw [beq_iff_eq] at isLabel
          refine ⟨_, blankFor_skolemIri _, ?_⟩
          rw [restore, List.find?_cons_of_pos
            (by rw [blankFor_skolemIri, beq_self_eq_true]), isLabel]
      · obtain ⟨blank, isBlank, isRestored⟩ :=
          inductionHypothesis
            (distinct.mono (Set.Iio_subset_Iio (Nat.le_succ _))) isKnown
        refine ⟨blank, isBlank, ?_⟩
        obtain ⟨before, after, isSplit, _⟩ :=
          List.lookup_eq_some_iff.mp isKnown
        have inTable : (label, node) ∈ minted := by
          rw [isSplit]
          simp
        obtain ⟨number, isSmall, isMinted⟩ := drawn.index _ inTable
        have different :
            (blankFor (skolemIri (fresh minted.length)) == some blank) =
              false := by
          rw [beq_eq_false_iff_ne, blankFor_skolemIri, ← isBlank]
          dsimp only at isMinted
          rw [isMinted, blankFor_skolemIri]
          intro same
          have sameNumber : minted.length = number := by
            refine distinct ?_ ?_ ?_
            · simp
            · simp only [Set.mem_Iio, List.length_cons]
              omega
            · simpa using same
          omega
        rw [restore, List.find?_cons, different]
        exact isRestored

/-! ## One document -/

theorem grows_iriFor (blank : BlankNode) (minted : Minted) :
    Grows fresh minted (iriFor fresh blank minted).2 ∧
      (iriFor fresh blank minted).2.lookup blank.label =
        some (iriFor fresh blank minted).1 := by
  unfold iriFor
  split
  · next node isKnown =>
      exact ⟨Grows.refl minted, isKnown⟩
  · next isNew =>
      refine ⟨⟨fun drawn => .cons _ _ drawn isNew, ?_⟩, ?_⟩
      · intro label node isKnown
        rw [List.lookup_cons]
        split
        · next isLabel =>
            rw [beq_iff_eq] at isLabel
            rw [isLabel, isNew] at isKnown
            cases isKnown
        · exact isKnown
      · simp

theorem grows_groundSubject (subject : NamedOrBlankNode) (minted : Minted) :
    Grows fresh minted (groundSubject fresh subject minted).2 := by
  cases subject with
  | namedNode node =>
      exact Grows.refl minted
  | blankNode blank =>
      exact (grows_iriFor blank minted).1

theorem grows_ground (object : Term) (minted : Minted) :
    Grows fresh minted (ground fresh object minted).2 := by
  induction object generalizing minted with
  | namedNode node =>
      exact Grows.refl minted
  | blankNode blank =>
      exact (grows_iriFor blank minted).1
  | literal content =>
      exact Grows.refl minted
  | triple subject predicate object inductionHypothesis =>
      exact (grows_groundSubject subject minted).trans
        (inductionHypothesis _)

theorem grows_groundGraphName (name : GraphName) (minted : Minted) :
    Grows fresh minted (groundGraphName fresh name minted).2 := by
  cases name with
  | defaultGraph =>
      exact Grows.refl minted
  | namedNode node =>
      exact Grows.refl minted
  | blankNode blank =>
      exact (grows_iriFor blank minted).1

theorem grows_groundQuad (quad : Quad) (minted : Minted) :
    Grows fresh minted (groundQuad fresh quad minted).2 :=
  ((grows_groundSubject quad.subject minted).trans
    (grows_ground quad.object _)).trans
      (grows_groundGraphName quad.graphName _)

section Table

variable {table : Minted}

/-- A blank node comes back relabelled, and can be restored. -/
theorem blankFor_iriFor
    (distinct : DistinctBelow fresh table.length)
    (drawn : Drawn fresh table)
    {blank : BlankNode} {minted : Minted}
    (grows : Grows fresh (iriFor fresh blank minted).2 table) :
    blankFor (iriFor fresh blank minted).1 = some (relabel table blank) ∧
      restore table (relabel table blank) = blank := by
  have isKnown :=
    grows.kept _ _ (grows_iriFor blank minted).2
  obtain ⟨other, isBlank, isRestored⟩ :=
    drawn.restore_lookup distinct isKnown
  have isRelabelled : relabel table blank = other := by
    rw [relabel, isKnown, Option.bind_some, isBlank]
    rfl
  rw [isRelabelled]
  exact ⟨isBlank, isRestored⟩

theorem subjectFor_groundSubject
    (distinct : DistinctBelow fresh table.length)
    (drawn : Drawn fresh table)
    {subject : NamedOrBlankNode} (clear : subject.Clear) {minted : Minted}
    (grows : Grows fresh (groundSubject fresh subject minted).2 table) :
    subjectFor (groundSubject fresh subject minted).1 =
        subject.rename (relabel table) ∧
      (subject.rename (relabel table)).rename (restore table) = subject := by
  cases subject with
  | namedNode node =>
      have isNone : blankFor node = none := clear
      simp only [groundSubject, subjectFor, isNone, NamedOrBlankNode.rename,
        and_self]
  | blankNode blank =>
      obtain ⟨isBlank, isRestored⟩ := blankFor_iriFor distinct drawn grows
      simp only [groundSubject, subjectFor, isBlank, NamedOrBlankNode.rename,
        isRestored, and_self]

theorem termFor_ground
    (distinct : DistinctBelow fresh table.length)
    (drawn : Drawn fresh table)
    {object : Term} (clear : object.Clear) {minted : Minted}
    (grows : Grows fresh (ground fresh object minted).2 table) :
    termFor (ground fresh object minted).1 =
        object.rename (relabel table) ∧
      (object.rename (relabel table)).rename (restore table) = object := by
  induction object generalizing minted with
  | namedNode node =>
      have isNone : blankFor node = none := clear
      simp only [ground, termFor, isNone, Term.rename, and_self]
  | blankNode blank =>
      obtain ⟨isBlank, isRestored⟩ := blankFor_iriFor distinct drawn grows
      simp only [ground, termFor, isBlank, Term.rename, isRestored, and_self]
  | literal content =>
      simp only [ground, termFor, Term.rename, and_self]
  | triple subject predicate object inductionHypothesis =>
      have ofSubject :=
        subjectFor_groundSubject distinct drawn clear.1
          ((grows_ground object _).trans grows)
      have ofObject :
          termFor (ground fresh object
                (groundSubject fresh subject minted).2).1 =
              object.rename (relabel table) ∧
            (object.rename (relabel table)).rename (restore table) = object :=
        inductionHypothesis clear.2 grows
      simp only [ground, termFor, Term.rename, ofSubject.1, ofSubject.2,
        ofObject.1, ofObject.2, and_self]

theorem graphNameFor_groundGraphName
    (distinct : DistinctBelow fresh table.length)
    (drawn : Drawn fresh table)
    {name : GraphName} (clear : name.Clear) {minted : Minted}
    (grows : Grows fresh (groundGraphName fresh name minted).2 table) :
    graphNameFor (groundGraphName fresh name minted).1 =
        name.rename (relabel table) ∧
      (name.rename (relabel table)).rename (restore table) = name := by
  cases name with
  | defaultGraph =>
      exact ⟨rfl, rfl⟩
  | namedNode node =>
      have isNone : blankFor node = none := clear
      simp only [groundGraphName, graphNameFor, isNone, GraphName.rename,
        and_self]
  | blankNode blank =>
      obtain ⟨isBlank, isRestored⟩ := blankFor_iriFor distinct drawn grows
      simp only [groundGraphName, graphNameFor, isBlank, GraphName.rename,
        isRestored, and_self]

/-- A quad comes back with its blank nodes relabelled. -/
theorem quadFor_groundQuad
    (distinct : DistinctBelow fresh table.length)
    (drawn : Drawn fresh table)
    {quad : Quad} (clear : quad.Clear) {minted : Minted}
    (grows : Grows fresh (groundQuad fresh quad minted).2 table) :
    (⟨subjectFor (groundQuad fresh quad minted).1.subject,
          (groundQuad fresh quad minted).1.predicate,
          termFor (groundQuad fresh quad minted).1.object,
          graphNameFor (groundQuad fresh quad minted).1.graphName⟩ : Quad) =
        quad.rename (relabel table) ∧
      (quad.rename (relabel table)).rename (restore table) = quad := by
  have ofName :=
    graphNameFor_groundGraphName distinct drawn clear.graphName grows
  have objectGrows :=
    (grows_groundGraphName quad.graphName _).trans grows
  have ofObject := termFor_ground distinct drawn clear.object objectGrows
  have ofSubject :=
    subjectFor_groundSubject distinct drawn clear.subject
      ((grows_ground quad.object _).trans objectGrows)
  constructor
  · unfold Quad.rename
    rw [← ofSubject.1, ← ofObject.1, ← ofName.1]
    rfl
  · unfold Quad.rename
    dsimp only
    rw [ofSubject.2, ofObject.2, ofName.2]

end Table

/-- The table after a document. -/
def tableAfter (fresh : Nat → Uuid) (quads : List Quad) (minted : Minted) :
    Minted :=
  quads.foldl (fun minted quad => (groundQuad fresh quad minted).2) minted

theorem grows_tableAfter (quads : List Quad) (minted : Minted) :
    Grows fresh minted (tableAfter fresh quads minted) := by
  induction quads generalizing minted with
  | nil =>
      exact Grows.refl minted
  | cons quad rest inductionHypothesis =>
      exact (grows_groundQuad quad minted).trans (inductionHypothesis _)

/-- A document comes back with its blank nodes relabelled. -/
theorem deskolemize_groundQuads
    {table : Minted} (distinct : DistinctBelow fresh table.length)
    (drawn : Drawn fresh table) {quads : List Quad}
    (clear : ∀ quad ∈ quads, quad.Clear) {minted : Minted}
    (grows : Grows fresh (tableAfter fresh quads minted) table) :
    (deskolemize ⟨groundQuads fresh quads minted⟩).quads =
        quads.map (Quad.rename (relabel table)) ∧
      ∀ quad ∈ quads,
        (quad.rename (relabel table)).rename (restore table) = quad := by
  induction quads generalizing minted with
  | nil =>
      simp [groundQuads, deskolemize]
  | cons quad rest inductionHypothesis =>
      have isClear := clear quad (by simp)
      obtain ⟨sameRest, restored⟩ :=
        inductionHypothesis (fun other member => clear other (by simp [member]))
          grows
      have known :
          Grows fresh (groundQuad fresh quad minted).2 table :=
        (grows_tableAfter rest _).trans grows
      obtain ⟨sameQuad, isRestored⟩ :=
        quadFor_groundQuad distinct drawn isClear known
      constructor
      · simp only [deskolemize, groundQuads, List.map_cons] at sameRest ⊢
        rw [sameRest, ← sameQuad]
      · intro other member
        rcases List.mem_cons.mp member with rfl | inRest
        · exact isRestored
        · exact restored other inRest

/-- Storing a document and showing it again only renames blank nodes. -/
theorem isomorphic_of_distinctBelow
    {dataset : Dataset}
    (distinct : DistinctBelow fresh (tableAfter fresh dataset.quads []).length)
    (clear : dataset.Clear) :
    dataset.Isomorphic (skolemize fresh dataset).deskolemize := by
  have grows :
      Grows fresh [] (tableAfter fresh dataset.quads []) :=
    grows_tableAfter dataset.quads []
  obtain ⟨sameQuads, restored⟩ :=
    deskolemize_groundQuads distinct (grows.drawn .nil) clear (Grows.refl _)
  refine ⟨relabel (tableAfter fresh dataset.quads []),
    restore (tableAfter fresh dataset.quads []), ?_, ?_⟩
  · intro quad member
    refine ⟨?_, restored quad member⟩
    rw [skolemize, sameQuads]
    exact List.mem_map_of_mem member
  · intro quad member
    rw [skolemize, sameQuads] at member
    obtain ⟨original, isOriginal, rfl⟩ := List.mem_map.mp member
    rw [restored original isOriginal]
    exact ⟨isOriginal, rfl⟩

theorem isomorphic_deskolemize_skolemize
    (distinct : Distinct fresh) {dataset : Dataset} (clear : dataset.Clear) :
    dataset.Isomorphic (skolemize fresh dataset).deskolemize :=
  isomorphic_of_distinctBelow distinct.injOn clear

end Skolemized

end Quadpod
