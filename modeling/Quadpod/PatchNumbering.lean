import Quadpod.FirstOccurrence
import Quadpod.PatchSubstitution
import Quadpod.SkolemBijection
import Quadpod.Traversal

namespace Quadpod

/-!
# The numbers of a patch's names

`Patch::parse` threads one renumbering through three walks.  What it amounts to
does not mention the walk: a name has the number of its first occurrence in the
conditions, and every formula is its own quads with the names replaced by their
numbers.
-/

/-! ## Names -/

/-- A name a client chose: of a variable or of a blank node. -/
inductive ClientName where
  | var (name : Text)
  | blank (node : BlankNode)
  deriving DecidableEq

namespace ClientName

/-- The key a name is renumbered under. -/
def key : ClientName → Text
  | .var name => name
  | .blank node => "_:".toList ++ node.label

/-- Whether a name can be written in N3: no variable has a colon. -/
def Written : ClientName → Prop
  | .var name => ':' ∉ name
  | .blank _ => True

instance (name : ClientName) : Decidable name.Written :=
  match name with
  | .var name => inferInstanceAs (Decidable (':' ∉ name))
  | .blank _ => inferInstanceAs (Decidable True)

/-- Names that can be written have keys of their own. -/
theorem key_injOn : Set.InjOn key {name | name.Written} := by
  intro first firstWritten second secondWritten same
  cases first with
  | var name =>
      cases second with
      | var other =>
          exact congrArg ClientName.var same
      | blank node =>
          refine (firstWritten ?_).elim
          rw [show name = "_:".toList ++ node.label from same]
          simp
  | blank node =>
      cases second with
      | var other =>
          refine (secondWritten ?_).elim
          rw [show other = "_:".toList ++ node.label from same.symm]
          simp
      | blank other =>
          rw [Skolemized.label_injective (List.append_cancel_left same)]

end ClientName

/-- The renumbering after some names were met. -/
def Renumber.ofNames (met : List ClientName) : Renumber :=
  FirstOccurrence.entries (met.map ClientName.key)

section Keys

variable {met : List ClientName} {name : ClientName}
variable (written : ∀ other, other ∈ met ∨ other = name → other.Written)

include written

theorem mem_keys_iff : name.key ∈ met.map ClientName.key ↔ name ∈ met := by
  rw [List.mem_map]
  constructor
  · rintro ⟨other, isMet, same⟩
    rw [← ClientName.key_injOn (written other (Or.inl isMet))
      (written name (Or.inr rfl)) same]
    exact isMet
  · exact fun isMet => ⟨name, isMet, rfl⟩

theorem Renumber.lookup_ofNames (distinct : met.Nodup) :
    (Renumber.ofNames met).lookup name.key =
      if name ∈ met then some (met.idxOf name) else none := by
  have keysDistinct : (met.map ClientName.key).Nodup :=
    List.Nodup.map_on
      (fun first firstMet second secondMet same =>
        ClientName.key_injOn (written first (Or.inl firstMet))
          (written second (Or.inl secondMet)) same) distinct
  unfold ofNames
  split
  · next isMet =>
      rw [FirstOccurrence.lookup_entries_of_mem keysDistinct
        ((mem_keys_iff written).mpr isMet), FirstOccurrence.idxOf_map
          (ClientName.key_injOn.mono fun other => written other)]
  · next isNew =>
      exact FirstOccurrence.lookup_entries_of_notMem fun isKey =>
        isNew ((mem_keys_iff written).mp isKey)

/-- Binding a name meets it. -/
theorem Renumber.bind_ofNames (distinct : met.Nodup) :
    (Renumber.ofNames met).bind name.key =
      ((FirstOccurrence.meet met name).idxOf name,
        Renumber.ofNames (FirstOccurrence.meet met name)) := by
  unfold Renumber.bind
  rw [Renumber.lookup_ofNames written distinct]
  by_cases isMet : name ∈ met
  · rw [if_pos isMet, FirstOccurrence.meet, if_pos isMet]
  · rw [if_neg isMet, FirstOccurrence.meet, if_neg isMet,
      List.idxOf_append_of_notMem isMet, List.idxOf_cons_self]
    simp [Renumber.ofNames, FirstOccurrence.entries_concat]

end Keys

variable [IriSyntax]

/-! ## Terms and patterns by number -/

/-- The name that stands for a term, if one does. -/
def N3Term.names : N3Term → List ClientName
  | .variable name => [.var name]
  | .blankNode node => [.blank node]
  | _ => []

/-- A term with its name replaced by the number of its first occurrence. -/
def N3Term.numbered (met : List ClientName) : N3Term → Option PatternTerm
  | .namedNode node => some (.named node)
  | .literal content => some (.literal content)
  | .variable name => some (.var (met.idxOf (.var name)))
  | .blankNode node => some (.var (met.idxOf (.blank node)))
  | .triple _ => none

/-- A term a patch may write: no reserved IRI and nothing of RDF 1.2. -/
def N3Term.Plain : N3Term → Prop
  | .namedNode node => isReservedIri node.iri = false
  | .literal content => content.direction = none
  | .variable _ => True
  | .blankNode _ => True
  | .triple _ => False

/-- A term a formula may use: insertions and deletions bring in no names. -/
structure N3Term.Admitted (met : List ClientName) (binding : Binding)
    (value : N3Term) : Prop where
  plain : value.Plain
  noBlank : binding = .lookup → ∀ node, value ≠ .blankNode node
  known : binding = .lookup → ∀ name ∈ value.names, name ∈ met

theorem N3Term.admitted_iff {met : List ClientName} {binding : Binding}
    {value : N3Term} :
    value.Admitted met binding ↔
      value.Plain ∧
        (binding = .lookup →
          (∀ node, value ≠ .blankNode node) ∧
            ∀ name ∈ value.names, name ∈ met) := by
  constructor
  · rintro ⟨plain, noBlank, known⟩
    exact ⟨plain, fun isLookup => ⟨noBlank isLookup, known isLookup⟩⟩
  · rintro ⟨plain, lookup⟩
    exact ⟨plain, fun isLookup => (lookup isLookup).1,
      fun isLookup => (lookup isLookup).2⟩

/-- The names met after some more were read. -/
def Binding.meetAll (binding : Binding) (met names : List ClientName) :
    List ClientName :=
  match binding with
  | .bind => FirstOccurrence.meetAll met names
  | .lookup => met

omit [IriSyntax] in
@[simp] theorem Binding.meetAll_nil (binding : Binding)
    (met : List ClientName) : binding.meetAll met [] = met := by
  cases binding <;> rfl

namespace Patch

variable {met : List ClientName} {binding : Binding}

/-- `term` numbers the name it finds. -/
theorem term_eq_ok_iff
    (binding : Binding) (value : N3Term) (result : PatternTerm)
    (later : Renumber)
    (written : ∀ name, name ∈ met ∨ name ∈ value.names → name.Written)
    (distinct : met.Nodup) :
    term value (.ofNames met) binding = .ok (result, later) ↔
      value.Admitted met binding ∧
        value.numbered (binding.meetAll met value.names) = some result ∧
        later = .ofNames (binding.meetAll met value.names) := by
  cases value with
  | namedNode node =>
      by_cases reserved : isReservedIri node.iri = true
      · simp [term, reserved, N3Term.admitted_iff, N3Term.Plain]
      · simp [term, reserved, N3Term.admitted_iff, N3Term.Plain,
          N3Term.names, N3Term.numbered, eq_comm]
  | literal content =>
      cases isDirected : content.direction with
      | some direction =>
          simp [term, isDirected, N3Term.admitted_iff, N3Term.Plain]
      | none =>
          simp [term, isDirected, N3Term.admitted_iff, N3Term.Plain,
            N3Term.names, N3Term.numbered, eq_comm]
  | triple content =>
      simp [term, N3Term.admitted_iff, N3Term.Plain]
  | «variable» name =>
      have known :
          ∀ other, other ∈ met ∨ other = .var name → other.Written := by
        simpa [N3Term.names] using written
      cases binding with
      | bind =>
          have bound := Renumber.bind_ofNames known distinct
          simp only [ClientName.key] at bound
          simp [term, bound, N3Term.admitted_iff, N3Term.Plain, N3Term.names,
            N3Term.numbered, Binding.meetAll, eq_comm]
      | lookup =>
          have found := Renumber.lookup_ofNames known distinct
          simp only [ClientName.key] at found
          by_cases isMet : ClientName.var name ∈ met
          · rw [if_pos isMet] at found
            simp [term, found, isMet, N3Term.admitted_iff, N3Term.Plain,
              N3Term.names, N3Term.numbered, Binding.meetAll, eq_comm]
          · rw [if_neg isMet] at found
            simp [term, found, isMet, N3Term.admitted_iff, N3Term.names]
  | blankNode node =>
      have known :
          ∀ other, other ∈ met ∨ other = .blank node → other.Written := by
        simpa [N3Term.names] using written
      cases binding with
      | bind =>
          have bound :
              (Renumber.ofNames met).bind ('_' :: ':' :: node.label) = _ :=
            Renumber.bind_ofNames known distinct
          simp [term, bound, N3Term.admitted_iff, N3Term.Plain, N3Term.names,
            N3Term.numbered, Binding.meetAll, eq_comm]
      | lookup =>
          simp [term, N3Term.admitted_iff]

end Patch

/-! ## Quads -/

/-- The names of a quad in their order, that of its graph left out. -/
def N3Quad.names (quad : N3Quad) : List ClientName :=
  quad.subject.names ++ quad.predicate.names ++ quad.object.names

/-- A quad with its names replaced by their numbers. -/
def N3Quad.numbered (met : List ClientName) (quad : N3Quad) :
    Option Pattern := do
  let subject ← quad.subject.numbered met
  let predicate ← quad.predicate.numbered met
  let object ← quad.object.numbered met
  some ⟨subject, predicate, object⟩

/-- A quad a formula may hold. -/
structure N3Quad.Admitted (met : List ClientName) (binding : Binding)
    (quad : N3Quad) : Prop where
  subject : quad.subject.Admitted met binding
  predicate : quad.predicate.Admitted met binding
  object : quad.object.Admitted met binding
  subjectNoLiteral : ∀ content, quad.subject ≠ .literal content
  predicateNoLiteral : ∀ content, quad.predicate ≠ .literal content

namespace Binding

variable (binding : Binding) (met : List ClientName)

omit [IriSyntax] in
theorem meetAll_append (first second : List ClientName) :
    binding.meetAll met (first ++ second) =
      binding.meetAll (binding.meetAll met first) second := by
  cases binding with
  | bind =>
      exact FirstOccurrence.meetAll_append met first second
  | lookup =>
      rfl

omit [IriSyntax] in
theorem prefix_meetAll (names : List ClientName) :
    met <+: binding.meetAll met names := by
  cases binding with
  | bind =>
      exact FirstOccurrence.prefix_meetAll met names
  | lookup =>
      exact List.prefix_rfl

omit [IriSyntax] in
theorem nodup_meetAll {met : List ClientName} (distinct : met.Nodup)
    (names : List ClientName) : (binding.meetAll met names).Nodup := by
  cases binding with
  | bind =>
      exact FirstOccurrence.nodup_meetAll distinct names
  | lookup =>
      exact distinct

omit [IriSyntax] in
theorem mem_of_mem_meetAll {met names : List ClientName} {name : ClientName}
    (isMet : name ∈ binding.meetAll met names) :
    name ∈ met ∨ name ∈ names := by
  cases binding with
  | bind =>
      exact FirstOccurrence.mem_meetAll.mp isMet
  | lookup =>
      exact Or.inl isMet

end Binding

section Stages

variable {met : List ClientName} {binding : Binding}

/-- Whether a term is admitted does not depend on what is met on the way. -/
theorem N3Term.admitted_meetAll_iff {value : N3Term}
    (met names : List ClientName) :
    value.Admitted (binding.meetAll met names) binding ↔
      value.Admitted met binding := by
  cases binding with
  | bind =>
      simp [admitted_iff]
  | lookup =>
      exact Iff.rfl

/-- The name of a term that was read has been met. -/
theorem N3Term.Admitted.isMet {value : N3Term}
    (admitted : value.Admitted met binding) {name : ClientName}
    (isName : name ∈ value.names) :
    name ∈ binding.meetAll met value.names := by
  cases binding with
  | bind =>
      exact FirstOccurrence.mem_meetAll.mpr (Or.inr isName)
  | lookup =>
      exact admitted.known rfl name isName

/-- A term keeps its number. -/
theorem N3Term.numbered_of_prefix {value : N3Term}
    {later : List ClientName} (grown : met <+: later)
    (known : ∀ name ∈ value.names, name ∈ met) :
    value.numbered later = value.numbered met := by
  cases value with
  | namedNode node =>
      rfl
  | literal content =>
      rfl
  | triple content =>
      rfl
  | «variable» name =>
      rw [numbered, numbered,
        FirstOccurrence.idxOf_of_prefix grown (known _ (by simp [names]))]
  | blankNode node =>
      rw [numbered, numbered,
        FirstOccurrence.idxOf_of_prefix grown (known _ (by simp [names]))]

theorem N3Term.numbered_meetAll {value : N3Term}
    (admitted : value.Admitted met binding) (names : List ClientName) :
    value.numbered
        (binding.meetAll (binding.meetAll met value.names) names) =
      value.numbered (binding.meetAll met value.names) :=
  numbered_of_prefix (binding.prefix_meetAll _ names) fun _ => admitted.isMet

/-- Only a literal becomes a literal. -/
theorem N3Term.numbered_eq_literal {value : N3Term} {content : Literal} :
    value.numbered met = some (.literal content) ↔
      value = .literal content := by
  cases value <;> simp [numbered]

end Stages

namespace Patch

variable {met : List ClientName} {binding : Binding}

theorem nonLiteral_eq_ok_iff {value result : PatternTerm}
    {violation : Text} :
    nonLiteral value violation = .ok result ↔
      result = value ∧ ∀ content, value ≠ .literal content := by
  cases value with
  | named node =>
      simp [nonLiteral, eq_comm]
  | var index =>
      simp [nonLiteral, eq_comm]
  | literal content =>
      simp [nonLiteral]

/-- A quad is read term by term. -/
theorem pattern_stages
    {quad : N3Quad} {names later : Renumber} {result : Pattern} :
    pattern quad names binding = .ok (result, later) ↔
      ∃ subjectNames predicateNames,
        term quad.subject names binding =
            .ok (result.subject, subjectNames) ∧
          (∀ content, result.subject ≠ .literal content) ∧
          term quad.predicate subjectNames binding =
            .ok (result.predicate, predicateNames) ∧
          (∀ content, result.predicate ≠ .literal content) ∧
          term quad.object predicateNames binding =
            .ok (result.object, later) := by
  unfold pattern
  simp only [Traversal.ok_bind_iff, nonLiteral_eq_ok_iff, Prod.exists]
  constructor
  · rintro ⟨subject, subjectNames, isSubject, _, ⟨rfl, noLiteral⟩, predicate,
      predicateNames, isPredicate, _, ⟨rfl, noLiteralToo⟩, object, rest,
      isObject, isResult⟩
    cases isResult
    exact ⟨subjectNames, predicateNames, isSubject, noLiteral, isPredicate,
      noLiteralToo, isObject⟩
  · rintro ⟨subjectNames, predicateNames, isSubject, noLiteral, isPredicate,
      noLiteralToo, isObject⟩
    exact ⟨_, subjectNames, isSubject, _, ⟨rfl, noLiteral⟩, _,
      predicateNames, isPredicate, _, ⟨rfl, noLiteralToo⟩, _, _, isObject,
      rfl⟩

/-- A quad is numbered term by term. -/
theorem numbered_eq_some_iff {quad : N3Quad} {result : Pattern} :
    quad.numbered met = some result ↔
      quad.subject.numbered met = some result.subject ∧
        quad.predicate.numbered met = some result.predicate ∧
        quad.object.numbered met = some result.object := by
  obtain ⟨subject, predicate, object⟩ := result
  simp only [N3Quad.numbered, Option.bind_eq_bind, Option.bind_eq_some_iff,
    Option.some.injEq, Pattern.mk.injEq]
  constructor
  · rintro ⟨_, isSubject, _, isPredicate, _, isObject, rfl, rfl, rfl⟩
    exact ⟨isSubject, isPredicate, isObject⟩
  · rintro ⟨isSubject, isPredicate, isObject⟩
    exact ⟨_, isSubject, _, isPredicate, _, isObject, rfl, rfl, rfl⟩

/-- One quad is read as its names are numbered. -/
theorem pattern_eq_ok_iff
    {quad : N3Quad} {result : Pattern} {later : Renumber}
    (written : ∀ name, name ∈ met ∨ name ∈ quad.names → name.Written)
    (distinct : met.Nodup) :
    pattern quad (.ofNames met) binding = .ok (result, later) ↔
      quad.Admitted met binding ∧
        quad.numbered (binding.meetAll met quad.names) = some result ∧
        later = .ofNames (binding.meetAll met quad.names) := by
  let afterSubject := binding.meetAll met quad.subject.names
  let afterPredicate := binding.meetAll afterSubject quad.predicate.names
  have all :
      binding.meetAll met quad.names =
        binding.meetAll afterPredicate quad.object.names := by
    rw [N3Quad.names, binding.meetAll_append, binding.meetAll_append]
  have subjectWritten :
      ∀ name, name ∈ afterSubject → name.Written := by
    intro name isMet
    rcases binding.mem_of_mem_meetAll isMet with older | ofSubject
    · exact written name (Or.inl older)
    · exact written name (Or.inr (by simp [N3Quad.names, ofSubject]))
  have predicateWritten :
      ∀ name, name ∈ afterPredicate → name.Written := by
    intro name isMet
    rcases binding.mem_of_mem_meetAll isMet with older | ofPredicate
    · exact subjectWritten name older
    · exact written name (Or.inr (by simp [N3Quad.names, ofPredicate]))
  have subjectDistinct : afterSubject.Nodup :=
    binding.nodup_meetAll distinct _
  have predicateDistinct : afterPredicate.Nodup :=
    binding.nodup_meetAll subjectDistinct _
  have readSubject (result : PatternTerm) (later : Renumber) :=
    term_eq_ok_iff binding quad.subject result later
      (fun name isName => written name
        (isName.imp id (by simp +contextual [N3Quad.names]))) distinct
  have readPredicate (result : PatternTerm) (later : Renumber) :=
    term_eq_ok_iff binding quad.predicate result later
      (fun name isName => isName.elim (subjectWritten name) fun ofPredicate =>
        written name (Or.inr (by simp [N3Quad.names, ofPredicate])))
      subjectDistinct
  have readObject (result : PatternTerm) (later : Renumber) :=
    term_eq_ok_iff binding quad.object result later
      (fun name isName => isName.elim (predicateWritten name) fun ofObject =>
        written name (Or.inr (by simp [N3Quad.names, ofObject])))
      predicateDistinct
  have grown : afterSubject <+:
      binding.meetAll afterPredicate quad.object.names :=
    (binding.prefix_meetAll _ _).trans (binding.prefix_meetAll _ _)
  rw [pattern_stages, numbered_eq_some_iff, all]
  constructor
  · rintro ⟨subjectNames, predicateNames, isSubject, noLiteral, isPredicate,
      noLiteralToo, isObject⟩
    obtain ⟨subjectAdmitted, subjectNumbered, rfl⟩ := (readSubject _ _).mp isSubject
    obtain ⟨predicateAdmitted, predicateNumbered, rfl⟩ :=
      (readPredicate _ _).mp isPredicate
    obtain ⟨objectAdmitted, objectNumbered, rfl⟩ := (readObject _ _).mp isObject
    refine ⟨⟨subjectAdmitted,
      (N3Term.admitted_meetAll_iff _ _).mp predicateAdmitted,
      (N3Term.admitted_meetAll_iff _ _).mp
        ((N3Term.admitted_meetAll_iff _ _).mp objectAdmitted), ?_, ?_⟩,
      ⟨?_, ?_, objectNumbered⟩, rfl⟩
    · rintro content isLiteral
      rw [isLiteral] at subjectNumbered
      exact noLiteral content (Option.some.inj subjectNumbered).symm
    · rintro content isLiteral
      rw [isLiteral] at predicateNumbered
      exact noLiteralToo content (Option.some.inj predicateNumbered).symm
    · rw [N3Term.numbered_of_prefix grown fun _ => subjectAdmitted.isMet]
      exact subjectNumbered
    · rw [N3Term.numbered_meetAll predicateAdmitted]
      exact predicateNumbered
  · rintro ⟨admitted, ⟨subjectNumbered, predicateNumbered, objectNumbered⟩,
      rfl⟩
    have predicateAdmitted :=
      (N3Term.admitted_meetAll_iff met
        quad.subject.names).mpr admitted.predicate
    have objectAdmitted :=
      (N3Term.admitted_meetAll_iff afterSubject quad.predicate.names).mpr
        ((N3Term.admitted_meetAll_iff met
          quad.subject.names).mpr admitted.object)
    rw [N3Term.numbered_of_prefix grown fun _ => admitted.subject.isMet]
      at subjectNumbered
    rw [N3Term.numbered_meetAll predicateAdmitted] at predicateNumbered
    refine ⟨_, _, (readSubject _ _).mpr ⟨admitted.subject, subjectNumbered, rfl⟩,
      ?_, (readPredicate _ _).mpr ⟨predicateAdmitted, predicateNumbered, rfl⟩, ?_,
      (readObject _ _).mpr ⟨objectAdmitted, objectNumbered, rfl⟩⟩
    · intro content isLiteral
      rw [isLiteral, N3Term.numbered_eq_literal] at subjectNumbered
      exact admitted.subjectNoLiteral content subjectNumbered
    · intro content isLiteral
      rw [isLiteral, N3Term.numbered_eq_literal] at predicateNumbered
      exact admitted.predicateNoLiteral content predicateNumbered

/-- A quad keeps its numbers. -/
theorem numbered_quad_of_prefix {quad : N3Quad}
    {later : List ClientName} (grown : met <+: later)
    (known : ∀ name ∈ quad.names, name ∈ met) :
    quad.numbered later = quad.numbered met := by
  have kept {value : N3Term}
      (ofQuad : ∀ name ∈ value.names, name ∈ quad.names) :
      value.numbered later = value.numbered met :=
    N3Term.numbered_of_prefix grown fun name isName =>
      known name (ofQuad name isName)
  unfold N3Quad.numbered
  rw [kept (by simp +contextual [N3Quad.names]),
    kept (by simp +contextual [N3Quad.names]),
    kept (by simp +contextual [N3Quad.names])]

/-- The names of a quad that was read have been met. -/
theorem isMet_of_admitted {quad : N3Quad}
    (admitted : quad.Admitted met binding) {name : ClientName}
    (isName : name ∈ quad.names) :
    name ∈ binding.meetAll met quad.names := by
  cases binding with
  | bind =>
      exact FirstOccurrence.mem_meetAll.mpr (Or.inr isName)
  | lookup =>
      rw [N3Quad.names, List.mem_append, List.mem_append] at isName
      rcases isName with (ofSubject | ofPredicate) | ofObject
      · exact admitted.subject.known rfl name ofSubject
      · exact admitted.predicate.known rfl name ofPredicate
      · exact admitted.object.known rfl name ofObject

theorem admitted_quad_meetAll_iff {quad : N3Quad}
    (met names : List ClientName) :
    quad.Admitted (binding.meetAll met names) binding ↔
      quad.Admitted met binding := by
  constructor
  · rintro ⟨subject, predicate, object, noLiteral, noLiteralToo⟩
    exact ⟨(N3Term.admitted_meetAll_iff _ _).mp subject,
      (N3Term.admitted_meetAll_iff _ _).mp predicate,
      (N3Term.admitted_meetAll_iff _ _).mp object, noLiteral, noLiteralToo⟩
  · rintro ⟨subject, predicate, object, noLiteral, noLiteralToo⟩
    exact ⟨(N3Term.admitted_meetAll_iff _ _).mpr subject,
      (N3Term.admitted_meetAll_iff _ _).mpr predicate,
      (N3Term.admitted_meetAll_iff _ _).mpr object, noLiteral, noLiteralToo⟩

theorem patternsOf_stages
    {quad : N3Quad} {rest : List N3Quad} {names later : Renumber}
    {result : List Pattern} :
    patternsOf (quad :: rest) names binding = .ok (result, later) ↔
      ∃ first others middle,
        result = first :: others ∧
          pattern quad names binding = .ok (first, middle) ∧
          patternsOf rest middle binding = .ok (others, later) := by
  rw [patternsOf]
  simp only [Traversal.ok_bind_iff, Prod.exists]
  constructor
  · rintro ⟨first, middle, isFirst, others, last, isRest, isResult⟩
    cases isResult
    exact ⟨first, others, middle, rfl, isFirst, isRest⟩
  · rintro ⟨first, others, middle, rfl, isFirst, isRest⟩
    exact ⟨first, middle, isFirst, others, later, isRest, rfl⟩

/-- A formula is read as its names are numbered. -/
theorem patternsOf_eq_ok_iff
    {quads : List N3Quad} {result : List Pattern} {later : Renumber}
    (written :
      ∀ name, name ∈ met ∨ name ∈ quads.flatMap N3Quad.names → name.Written)
    (distinct : met.Nodup) :
    patternsOf quads (.ofNames met) binding = .ok (result, later) ↔
      (∀ quad ∈ quads, quad.Admitted met binding) ∧
        quads.map (N3Quad.numbered
            (binding.meetAll met (quads.flatMap N3Quad.names))) =
          result.map some ∧
        later =
          .ofNames (binding.meetAll met (quads.flatMap N3Quad.names)) := by
  induction quads generalizing met result with
  | nil =>
      constructor
      · intro isResult
        cases isResult
        simp
      · rintro ⟨_, isEmpty, rfl⟩
        have nothing : result = [] := by
          simpa using isEmpty
        rw [nothing, List.flatMap_nil, Binding.meetAll_nil]
        rfl
  | cons quad rest inductionHypothesis =>
      have quadWritten :
          ∀ name, name ∈ met ∨ name ∈ quad.names → name.Written :=
        fun name isName => written name
          (isName.imp id (by simp +contextual))
      have restWritten :
          ∀ name,
            name ∈ binding.meetAll met quad.names ∨
                name ∈ rest.flatMap N3Quad.names →
              name.Written := by
        rintro name (isMet | ofRest)
        · exact quadWritten name (binding.mem_of_mem_meetAll isMet)
        · refine written name (Or.inr ?_)
          rw [List.flatMap_cons]
          exact List.mem_append_right _ ofRest
      have restDistinct := binding.nodup_meetAll distinct quad.names
      have grown :=
        binding.prefix_meetAll (binding.meetAll met quad.names)
          (rest.flatMap N3Quad.names)
      have kept (admitted : quad.Admitted met binding) :=
        numbered_quad_of_prefix grown fun name => isMet_of_admitted admitted
      rw [patternsOf_stages, List.flatMap_cons, binding.meetAll_append]
      constructor
      · rintro ⟨first, others, middle, rfl, isFirst, isRest⟩
        obtain ⟨admitted, isNumbered, rfl⟩ :=
          (pattern_eq_ok_iff quadWritten distinct).mp isFirst
        obtain ⟨restAdmitted, restNumbered, rfl⟩ :=
          (inductionHypothesis restWritten restDistinct).mp isRest
        refine ⟨?_, ?_, rfl⟩
        · intro other isOther
          rcases List.mem_cons.mp isOther with rfl | inRest
          · exact admitted
          · exact (admitted_quad_meetAll_iff _ _).mp
              (restAdmitted other inRest)
        · rw [List.map_cons, List.map_cons, restNumbered, kept admitted,
            isNumbered]
      · rintro ⟨admitted, isNumbered, rfl⟩
        have quadAdmitted := admitted quad List.mem_cons_self
        cases result with
        | nil =>
            cases isNumbered
        | cons first others =>
            rw [List.map_cons, List.map_cons, List.cons.injEq,
              kept quadAdmitted] at isNumbered
            refine ⟨first, others, _, rfl,
              (pattern_eq_ok_iff quadWritten distinct).mpr
                ⟨quadAdmitted, isNumbered.1, rfl⟩,
              (inductionHypothesis restWritten restDistinct).mpr
                ⟨?_, isNumbered.2, rfl⟩⟩
            intro other inRest
            exact (admitted_quad_meetAll_iff _ _).mpr
              (admitted other (List.mem_cons_of_mem _ inRest))

end Patch

end Quadpod
