import Quadpod.ReservedTerms
import Quadpod.StorageWrites
import Quadpod.Traversal

namespace Quadpod

open GraphStore

/-!
# Reserved IRIs in patches

`Patch::parse` refuses a reserved IRI written in a patch, in any of its three
formulae.  What it does not look at is the datatype of a literal, and what it
cannot see is what a variable will be bound to: a variable that matched the IRI
minted for a blank node carries it into every position the patch uses it in.
-/

variable [IriSyntax]

/-! ## Patterns -/

/-- A pattern term that writes no reserved IRI itself. -/
def PatternTerm.Unreserved : PatternTerm → Prop
  | .named node => node.isReserved = false
  | _ => True

/-- A pattern that writes no reserved IRI itself. -/
structure Pattern.Unreserved (pattern : Pattern) : Prop where
  subject : pattern.subject.Unreserved
  predicate : pattern.predicate.Unreserved
  object : pattern.object.Unreserved

namespace Patch

theorem term_unreserved
    {value : N3Term} {names later : Renumber} {binding : Binding}
    {result : PatternTerm}
    (isTerm : term value names binding = .ok (result, later)) :
    result.Unreserved := by
  unfold term at isTerm
  split at isTerm
  · next node =>
      split at isTerm
      · cases isTerm
      · next unreserved =>
          cases isTerm
          exact Bool.eq_false_iff.mpr unreserved
  · split at isTerm
    · cases isTerm
    · cases isTerm
      trivial
  · cases binding with
    | bind =>
        cases isTerm
        trivial
    | lookup =>
        dsimp only at isTerm
        split at isTerm
        · cases isTerm
          trivial
        · cases isTerm
  · cases binding with
    | bind =>
        cases isTerm
        trivial
    | lookup =>
        cases isTerm
  · cases isTerm

theorem nonLiteral_eq
    {value result : PatternTerm} {violation : Text}
    (isTerm : nonLiteral value violation = .ok result) :
    result = value := by
  cases value with
  | literal content =>
      cases isTerm
  | named node =>
      cases isTerm
      rfl
  | var index =>
      cases isTerm
      rfl

theorem pattern_unreserved
    {quad : N3Quad} {names later : Renumber} {binding : Binding}
    {result : Pattern}
    (isPattern : pattern quad names binding = .ok (result, later)) :
    result.Unreserved := by
  unfold pattern at isPattern
  simp only [bind, Except.bind] at isPattern
  split at isPattern
  · cases isPattern
  · next subject isSubject =>
      split at isPattern
      · cases isPattern
      · next keptSubject isKept =>
          split at isPattern
          · cases isPattern
          · next predicate isPredicate =>
              split at isPattern
              · cases isPattern
              · next keptPredicate isKeptToo =>
                  split at isPattern
                  · cases isPattern
                  · next object isObject =>
                      cases isPattern
                      refine ⟨?_, ?_, term_unreserved isObject⟩
                      · rw [nonLiteral_eq isKept]
                        exact term_unreserved isSubject
                      · rw [nonLiteral_eq isKeptToo]
                        exact term_unreserved isPredicate

theorem patternsOf_unreserved
    {quads : List N3Quad} {names later : Renumber} {binding : Binding}
    {result : List Pattern}
    (isResult : patternsOf quads names binding = .ok (result, later)) :
    ∀ pattern ∈ result, pattern.Unreserved := by
  induction quads generalizing names result with
  | nil =>
      cases isResult
      intro pattern member
      cases member
  | cons quad rest inductionHypothesis =>
      unfold patternsOf at isResult
      simp only [bind, Except.bind] at isResult
      split at isResult
      · cases isResult
      · next first isFirst =>
          split at isResult
          · cases isResult
          · next others isOthers =>
              cases isResult
              intro pattern member
              rcases List.mem_cons.mp member with rfl | inOthers
              · exact pattern_unreserved isFirst
              · exact inductionHypothesis isOthers pattern inOthers

/-- No insertion of an accepted patch writes a reserved IRI. -/
theorem parse_unreserved [N3Parser]
    {body : Bytes} {base : Text} {patch : Patch}
    (parsed : parse body base = .ok patch) :
    ∀ pattern ∈ patch.insertions, pattern.Unreserved := by
  have formulae :
      ∀ {quads : List N3Quad} {formula : Option BlankNode}
        {names later : Renumber} {binding : Binding} {result : List Pattern},
        patterns quads formula names binding = .ok (result, later) →
        ∀ pattern ∈ result, pattern.Unreserved := by
    intro quads formula names later binding result isResult
    cases formula with
    | none =>
        cases isResult
        intro pattern member
        cases member
    | some blank =>
        exact patternsOf_unreserved isResult
  unfold parse at parsed
  split at parsed
  · cases parsed
  · unfold ofQuads at parsed
    simp only [bind, Except.bind] at parsed
    iterate 6
      split at parsed
      · cases parsed
    split at parsed
    · cases parsed
    · next inserted isInserted =>
        cases parsed
        exact formulae isInserted

/-- A literal an insertion writes has no reserved datatype. -/
def LiteralsUnreserved (patch : Patch) : Prop :=
  ∀ pattern ∈ patch.insertions,
    ∀ content,
      pattern.object = .literal content → content.namesReserved = false

/--
No mapping of the conditions on a graph binds a variable that an insertion uses
as a predicate to a reserved IRI.
-/
def PredicatesUnreserved (patch : Patch) (graph : List GroundTriple) : Prop :=
  ∀ pattern ∈ patch.insertions,
    ∀ index,
      pattern.predicate = .var index →
      ∀ solution ∈ solutionsFrom graph patch.conditions [],
        ∀ node,
          solution.lookup index = some (.namedNode node) →
          node.isReserved = false

end Patch

/-! ## Solutions -/

/-- Every term a solution binds is masked. -/
def Solution.Masked (solution : Solution) : Prop :=
  ∀ entry ∈ solution, entry.2.Masked

theorem matchTerm_masked
    {pattern : PatternTerm} {value : GroundTerm} {solution extended : Solution}
    (masked : value.Masked)
    (known : Solution.Masked solution)
    (isMatch : pattern.matchTerm value solution = some extended) :
    Solution.Masked extended := by
  unfold PatternTerm.matchTerm at isMatch
  split at isMatch
  · split at isMatch
    · cases isMatch
      exact known
    · cases isMatch
  · split at isMatch
    · cases isMatch
      exact known
    · cases isMatch
  · split at isMatch
    · split at isMatch
      · cases isMatch
        exact known
      · cases isMatch
    · cases isMatch
      intro entry member
      rcases List.mem_cons.mp member with rfl | older
      · exact masked
      · exact known entry older

theorem matchTriple_masked
    {pattern : Pattern} {triple : GroundTriple} {solution extended : Solution}
    (masked : triple.Masked)
    (known : Solution.Masked solution)
    (isMatch : pattern.matchTriple triple solution = some extended) :
    Solution.Masked extended := by
  unfold Pattern.matchTriple at isMatch
  simp only [Option.bind_eq_bind, Option.bind_eq_some_iff] at isMatch
  obtain ⟨withSubject, isSubject, withPredicate, isPredicate, isObject⟩ :=
    isMatch
  have subjectMasked : (GroundTerm.namedNode triple.subject).Masked :=
    masked.subject
  have predicateMasked : (GroundTerm.namedNode triple.predicate).Masked :=
    Or.inl masked.predicate
  exact matchTerm_masked masked.object
    (matchTerm_masked predicateMasked
      (matchTerm_masked subjectMasked known isSubject) isPredicate) isObject

/-- A solution over a masked graph binds masked terms. -/
theorem solutionsFrom_masked
    {graph : List GroundTriple} {patterns : List Pattern}
    {started solution : Solution}
    (masked : ∀ triple ∈ graph, triple.Masked)
    (known : Solution.Masked started)
    (member : solution ∈ solutionsFrom graph patterns started) :
    Solution.Masked solution := by
  induction patterns generalizing started with
  | nil =>
      rw [solutionsFrom, List.mem_singleton] at member
      rw [member]
      exact known
  | cons pattern rest inductionHypothesis =>
      rw [solutionsFrom, List.mem_flatMap] at member
      obtain ⟨triple, inGraph, member⟩ := member
      split at member
      · cases member
      · next extended isMatch =>
          exact inductionHypothesis
            (matchTriple_masked (masked triple inGraph) known isMatch) member

/-! ## Substitution -/

/-- What a variable stands for was bound by one of the solutions. -/
theorem groundTerm_var
    {index : Nat} {bindings : List Solution} {result : GroundTerm}
    (isGround : groundTerm (.var index) bindings = .ok result) :
    ∃ solution ∈ bindings, solution.lookup index = some result := by
  unfold groundTerm at isGround
  dsimp only at isGround
  split at isGround
  · cases isGround
  · next bound isBound =>
      obtain ⟨solution, isHead, isLookup⟩ :=
        Option.bind_eq_some_iff.mp isBound
      refine ⟨solution, List.mem_of_mem_head? isHead, ?_⟩
      cases bound with
      | namedNode node =>
          cases isGround
          exact isLookup
      | literal content =>
          cases isGround
          exact isLookup
      | triple subject predicate object =>
          cases isGround

/-- A term put in for a pattern term is masked. -/
theorem groundTerm_masked
    {term : PatternTerm} {bindings : List Solution} {result : GroundTerm}
    (unreserved : term.Unreserved)
    (literals :
      ∀ content, term = .literal content → content.namesReserved = false)
    (known : ∀ solution ∈ bindings, Solution.Masked solution)
    (isGround : groundTerm term bindings = .ok result) :
    result.Masked := by
  cases term with
  | named node =>
      cases isGround
      exact Or.inl unreserved
  | literal content =>
      cases isGround
      exact literals content rfl
  | var index =>
      obtain ⟨solution, isSolution, isLookup⟩ := groundTerm_var isGround
      obtain ⟨before, after, isSplit, _⟩ :=
        List.lookup_eq_some_iff.mp isLookup
      refine known solution isSolution (index, result) ?_
      rw [isSplit]
      exact List.mem_append_right _ List.mem_cons_self

/-- A pattern never puts a literal in front of the object. -/
theorem substituteOne_ok
    {bindings : List Solution} {pattern : Pattern} {template : TemplateTriple}
    (isTemplate : substituteOne bindings pattern = .ok template) :
    groundTerm pattern.subject bindings = .ok template.subject ∧
      groundTerm pattern.predicate bindings = .ok template.predicate ∧
      groundTerm pattern.object bindings = .ok template.object := by
  unfold substituteOne at isTemplate
  simp only [bind, Except.bind] at isTemplate
  split at isTemplate
  · cases isTemplate
  · next subject isSubject =>
      split at isTemplate
      · cases isTemplate
      · next predicate isPredicate =>
          split at isTemplate
          · cases isTemplate
          · next object isObject =>
              cases isTemplate
              exact ⟨isSubject, isPredicate, isObject⟩

/-- What a patch puts into a masked graph is masked. -/
theorem PatchChange.masked
    {world : World} {graph : Text} {patch : Patch}
    {change : List TemplateTriple × List TemplateTriple}
    {template : TemplateTriple} {triple : GroundTriple}
    (changes : PatchChange world graph patch change)
    (masked : ∀ stored ∈ world.graphs graph, stored.Masked)
    (unreserved : ∀ pattern ∈ patch.insertions, pattern.Unreserved)
    (literals : patch.LiteralsUnreserved)
    (predicates : patch.PredicatesUnreserved (world.graphs graph).triples)
    (inserted : template ∈ change.2)
    (isGround : template.ground = some triple) :
    triple.Masked := by
  obtain ⟨bindings, found, _, isSubstituted⟩ := changes.substituted
  obtain ⟨pattern, isPattern, isTemplate⟩ :=
    Traversal.mem_of_ok isSubstituted inserted
  have known : ∀ solution ∈ bindings, Solution.Masked solution := by
    intro solution isSolution
    refine solutionsFrom_masked masked ?_ (found.solves solution isSolution)
    intro entry member
    cases member
  obtain ⟨isSubject, isPredicate, isObject⟩ := substituteOne_ok isTemplate
  have pure := unreserved pattern isPattern
  obtain ⟨subject, predicate, object⟩ := template
  unfold TemplateTriple.ground at isGround
  split at isGround
  · next subjectNode predicateNode isSubjectNode isPredicateNode =>
      cases isGround
      dsimp only at isSubjectNode isPredicateNode
      rw [isSubjectNode] at isSubject
      rw [isPredicateNode] at isPredicate
      refine ⟨?_, ?_, ?_⟩
      · have subjectMasked :=
          groundTerm_masked pure.subject
            (fun content isLiteral => by
              rw [isLiteral] at isSubject
              cases isSubject)
            known isSubject
        exact subjectMasked
      · have predicateFree := pure.predicate
        cases isTerm : pattern.predicate with
        | named node =>
            rw [isTerm] at isPredicate predicateFree
            cases isPredicate
            exact predicateFree
        | literal content =>
            rw [isTerm] at isPredicate
            cases isPredicate
        | var index =>
            rw [isTerm] at isPredicate
            obtain ⟨solution, isSolution, isLookup⟩ :=
              groundTerm_var isPredicate
            exact predicates pattern isPattern index isTerm solution
              (found.solves solution isSolution) predicateNode isLookup
      · exact groundTerm_masked pure.object (literals pattern isPattern) known
          isObject
  · cases isGround

/-- The ground insertions of a patch may be stored. -/
theorem groundInsertions_storable
    {patch : Patch} {triples : List Triple}
    (unreserved : ∀ pattern ∈ patch.insertions, pattern.Unreserved)
    (literals : patch.LiteralsUnreserved)
    (isGround : patch.groundInsertions = some triples) :
    ∀ quad ∈ asQuads triples, quad.Storable := by
  intro quad member
  obtain ⟨triple, isTriple, rfl⟩ := List.mem_map.mp member
  unfold Patch.groundInsertions at isGround
  split at isGround
  · obtain ⟨pattern, isPattern, isInsertion⟩ :=
      Traversal.mem_of_some isGround isTriple
    have pure := unreserved pattern isPattern
    have literal := literals pattern isPattern
    obtain ⟨subject, predicate, object⟩ := pattern
    unfold Patch.groundInsertion at isInsertion
    split at isInsertion
    · next isSubject isPredicate isObject =>
        cases isInsertion
        dsimp only at isSubject isPredicate isObject
        subst isSubject isPredicate isObject
        exact ⟨Or.inl pure.subject, pure.predicate, Or.inl pure.object,
          trivial⟩
    · next isSubject isPredicate isObject =>
        cases isInsertion
        dsimp only at isSubject isPredicate isObject
        subst isSubject isPredicate isObject
        exact ⟨Or.inl pure.subject, pure.predicate, literal _ rfl, trivial⟩
    · cases isInsertion
  · cases isGround

end Quadpod
