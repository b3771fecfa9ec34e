import Quadpod.Stores

namespace Quadpod

/-!
# Mappings of basic graph patterns

What the conditions of a patch mean: a mapping gives terms to exactly the
variables of the patterns, and every pattern under it is a triple of the graph.
The solutions that matching enumerates are these mappings, each once.
-/

variable [IriSyntax]

/-- Terms for some of the variables. -/
abbrev Mapping := Nat → Option GroundTerm

/-- What a solution binds its variables to. -/
def Solution.mapping (solution : Solution) : Mapping :=
  fun index => solution.lookup index

/-- A position of a pattern under a mapping. -/
def PatternTerm.instantiate (mapping : Mapping) :
    PatternTerm → Option GroundTerm
  | .named node => some (.namedNode node)
  | .literal content => some (.literal content)
  | .var index => mapping index

/-- A pattern under a mapping, where it is a triple. -/
def Pattern.instantiate (mapping : Mapping) (pattern : Pattern) :
    Option GroundTriple := do
  let subject ← pattern.subject.instantiate mapping
  let predicate ← pattern.predicate.instantiate mapping
  let object ← pattern.object.instantiate mapping
  TemplateTriple.ground ⟨subject, predicate, object⟩

/-- The variables of a position. -/
def PatternTerm.variables : PatternTerm → List Nat
  | .var index => [index]
  | _ => []

/-- The variables of a pattern. -/
def Pattern.variables (pattern : Pattern) : List Nat :=
  pattern.subject.variables ++ pattern.predicate.variables ++
    pattern.object.variables

/-- A mapping of some patterns in a graph. -/
structure Mapping.Solves
    (mapping : Mapping)
    (patterns : List Pattern)
    (graph : List GroundTriple) :
    Prop where
  domain :
    ∀ index,
      mapping index ≠ none ↔ ∃ pattern ∈ patterns, index ∈ pattern.variables
  present :
    ∀ pattern ∈ patterns, ∃ triple ∈ graph,
      pattern.instantiate mapping = some triple

/-- One mapping keeps what another binds. -/
def Mapping.Extends (larger smaller : Mapping) : Prop :=
  ∀ index value, smaller index = some value → larger index = some value

theorem Mapping.Extends.trans {first second third : Mapping}
    (upper : first.Extends second) (lower : second.Extends third) :
    first.Extends third :=
  fun index value bound => upper index value (lower index value bound)

/-- A position keeps its term under a larger mapping. -/
theorem PatternTerm.instantiate_extends
    {larger smaller : Mapping} (extends_ : larger.Extends smaller)
    {term : PatternTerm} {value : GroundTerm}
    (isValue : term.instantiate smaller = some value) :
    term.instantiate larger = some value := by
  cases term with
  | named node =>
      exact isValue
  | literal content =>
      exact isValue
  | var index =>
      exact extends_ index value isValue

/-- The terms of an instance. -/
theorem Pattern.instantiate_eq_some_iff
    {mapping : Mapping} {pattern : Pattern} {triple : GroundTriple} :
    pattern.instantiate mapping = some triple ↔
      pattern.subject.instantiate mapping = some (.namedNode triple.subject) ∧
      pattern.predicate.instantiate mapping =
        some (.namedNode triple.predicate) ∧
      pattern.object.instantiate mapping = some triple.object := by
  unfold Pattern.instantiate
  constructor
  · intro isTriple
    cases subject : pattern.subject.instantiate mapping with
    | none =>
        rw [subject] at isTriple
        cases isTriple
    | some subjectTerm =>
        cases predicate : pattern.predicate.instantiate mapping with
        | none =>
            rw [subject, predicate] at isTriple
            cases isTriple
        | some predicateTerm =>
            cases object : pattern.object.instantiate mapping with
            | none =>
                rw [subject, predicate, object] at isTriple
                cases isTriple
            | some objectTerm =>
                rw [subject, predicate, object] at isTriple
                cases subjectTerm with
                | literal _ => cases isTriple
                | triple _ _ _ => cases isTriple
                | namedNode subjectNode =>
                    cases predicateTerm with
                    | literal _ => cases isTriple
                    | triple _ _ _ => cases isTriple
                    | namedNode predicateNode =>
                        have same := Option.some.inj isTriple
                        subst same
                        exact ⟨rfl, rfl, rfl⟩
  · rintro ⟨subject, predicate, object⟩
    rw [subject, predicate, object]
    rfl

/-- An instance is the same under a larger mapping. -/
theorem Pattern.instantiate_extends
    {larger smaller : Mapping} (extends_ : larger.Extends smaller)
    {pattern : Pattern} {triple : GroundTriple}
    (isTriple : pattern.instantiate smaller = some triple) :
    pattern.instantiate larger = some triple := by
  rw [Pattern.instantiate_eq_some_iff] at isTriple ⊢
  obtain ⟨subject, predicate, object⟩ := isTriple
  exact ⟨PatternTerm.instantiate_extends extends_ subject,
    PatternTerm.instantiate_extends extends_ predicate,
    PatternTerm.instantiate_extends extends_ object⟩

/-! ## Matching one triple -/

/-- What matching one position does to a solution. -/
structure Matched
    (terms : List Nat)
    (before after : Solution) :
    Prop where
  extends_ : after.mapping.Extends before.mapping
  domain :
    ∀ index,
      after.mapping index ≠ none ↔
        before.mapping index ≠ none ∨ index ∈ terms

theorem Matched.refl (solution : Solution) : Matched [] solution solution where
  extends_ _ _ bound := bound
  domain index := by simp

theorem Matched.trans
    {first second : List Nat} {before middle after : Solution}
    (firstly : Matched first before middle)
    (secondly : Matched second middle after) :
    Matched (first ++ second) before after where
  extends_ := secondly.extends_.trans firstly.extends_
  domain index := by
    rw [secondly.domain, firstly.domain, List.mem_append, or_assoc]

theorem PatternTerm.matchTerm_sound
    {term : PatternTerm} {value : GroundTerm} {before after : Solution}
    (isMatch : term.matchTerm value before = some after) :
    Matched term.variables before after ∧
      term.instantiate after.mapping = some value := by
  cases term with
  | named node =>
      simp only [PatternTerm.matchTerm] at isMatch
      split at isMatch
      next same =>
          cases isMatch
          rw [same]
          exact ⟨.refl before, rfl⟩
      next =>
          cases isMatch
  | literal content =>
      simp only [PatternTerm.matchTerm] at isMatch
      split at isMatch
      next same =>
          cases isMatch
          rw [same]
          exact ⟨.refl before, rfl⟩
      next =>
          cases isMatch
  | var variable_ =>
      simp only [PatternTerm.matchTerm] at isMatch
      cases bound : before.lookup variable_ with
      | some held =>
          rw [bound] at isMatch
          simp only at isMatch
          split at isMatch
          next same =>
              cases isMatch
              refine ⟨⟨fun _ _ bound => bound, ?_⟩, ?_⟩
              · intro index
                constructor
                · exact Or.inl
                · rintro (isBound | isVariable)
                  · exact isBound
                  · rw [List.mem_singleton.mp isVariable]
                    unfold Solution.mapping
                    rw [bound]
                    exact Option.some_ne_none held
              · rw [← same]
                exact bound
          next =>
              cases isMatch
      | none =>
          rw [bound] at isMatch
          cases isMatch
          refine ⟨⟨?_, ?_⟩, ?_⟩
          · intro index value isBound
            unfold Solution.mapping at isBound ⊢
            rw [List.lookup_cons]
            by_cases isVariable : index = variable_
            · rw [isVariable, bound] at isBound
              cases isBound
            · rw [beq_false_of_ne isVariable]
              exact isBound
          · intro index
            unfold Solution.mapping
            rw [List.lookup_cons]
            by_cases isVariable : index = variable_
            · simp [isVariable, PatternTerm.variables]
            · rw [beq_false_of_ne isVariable]
              simp [isVariable, PatternTerm.variables]
          · exact List.lookup_cons_self

theorem PatternTerm.matchTerm_complete
    {term : PatternTerm} {value : GroundTerm} {before : Solution}
    {mapping : Mapping}
    (agrees : mapping.Extends before.mapping)
    (isValue : term.instantiate mapping = some value) :
    ∃ after,
      term.matchTerm value before = some after ∧
        mapping.Extends after.mapping := by
  cases term with
  | named node =>
      refine ⟨before, ?_, agrees⟩
      exact if_pos (Option.some.inj isValue).symm
  | literal content =>
      refine ⟨before, ?_, agrees⟩
      exact if_pos (Option.some.inj isValue).symm
  | var variable_ =>
      simp only [PatternTerm.matchTerm]
      cases bound : before.lookup variable_ with
      | some held =>
          have same : held = value := by
            have isHeld := agrees variable_ held bound
            exact Option.some.inj (isHeld.symm.trans isValue)
          exact ⟨before, if_pos same, agrees⟩
      | none =>
          refine ⟨(variable_, value) :: before, rfl, ?_⟩
          intro index other isBound
          unfold Solution.mapping at isBound
          rw [List.lookup_cons] at isBound
          by_cases isVariable : index = variable_
          · subst isVariable
            rw [beq_self_eq_true] at isBound
            rw [← Option.some.inj isBound]
            exact isValue
          · rw [beq_false_of_ne isVariable] at isBound
            exact agrees index other isBound

/-- A matched triple is the pattern's instance. -/
theorem Pattern.matchTriple_sound
    {pattern : Pattern} {triple : GroundTriple} {before after : Solution}
    (isMatch : pattern.matchTriple triple before = some after) :
    Matched pattern.variables before after ∧
      pattern.instantiate after.mapping = some triple := by
  unfold Pattern.matchTriple at isMatch
  obtain ⟨first, subjectMatch, isMatch⟩ := Option.bind_eq_some_iff.mp isMatch
  obtain ⟨second, predicateMatch, objectMatch⟩ :=
    Option.bind_eq_some_iff.mp isMatch
  obtain ⟨subjectMatched, subject⟩ := PatternTerm.matchTerm_sound subjectMatch
  obtain ⟨predicateMatched, predicate⟩ :=
    PatternTerm.matchTerm_sound predicateMatch
  obtain ⟨objectMatched, object⟩ := PatternTerm.matchTerm_sound objectMatch
  refine ⟨(subjectMatched.trans predicateMatched).trans objectMatched, ?_⟩
  rw [Pattern.instantiate_eq_some_iff]
  refine ⟨?_, ?_, object⟩
  · exact PatternTerm.instantiate_extends
      (objectMatched.extends_.trans predicateMatched.extends_) subject
  · exact PatternTerm.instantiate_extends objectMatched.extends_ predicate

/-- An instance under a larger mapping is matched. -/
theorem Pattern.matchTriple_complete
    {pattern : Pattern} {triple : GroundTriple} {before : Solution}
    {mapping : Mapping}
    (agrees : mapping.Extends before.mapping)
    (isTriple : pattern.instantiate mapping = some triple) :
    ∃ after,
      pattern.matchTriple triple before = some after ∧
        mapping.Extends after.mapping := by
  obtain ⟨subject, predicate, object⟩ :=
    Pattern.instantiate_eq_some_iff.mp isTriple
  obtain ⟨first, subjectMatch, agrees⟩ :=
    PatternTerm.matchTerm_complete agrees subject
  obtain ⟨second, predicateMatch, agrees⟩ :=
    PatternTerm.matchTerm_complete agrees predicate
  obtain ⟨third, objectMatch, agrees⟩ :=
    PatternTerm.matchTerm_complete agrees object
  refine ⟨third, ?_, agrees⟩
  unfold Pattern.matchTriple
  rw [subjectMatch]
  change (pattern.predicate.matchTerm _ first).bind _ = _
  rw [predicateMatch]
  exact objectMatch

/-! ## Matching patterns -/

/-- A solution binds the variables of the patterns and makes each a triple. -/
theorem solutionsFrom_sound
    {graph : List GroundTriple} {patterns : List Pattern}
    {before after : Solution}
    (member : after ∈ solutionsFrom graph patterns before) :
    Matched (patterns.flatMap Pattern.variables) before after ∧
      ∀ pattern ∈ patterns, ∃ triple ∈ graph,
        pattern.instantiate after.mapping = some triple := by
  induction patterns generalizing before with
  | nil =>
      rw [solutionsFrom, List.mem_singleton] at member
      subst member
      refine ⟨.refl after, ?_⟩
      intro pattern inNone
      cases inNone
  | cons first rest inductionHypothesis =>
      rw [solutionsFrom, List.mem_flatMap] at member
      obtain ⟨triple, inGraph, member⟩ := member
      cases isMatch : first.matchTriple triple before with
      | none =>
          rw [isMatch] at member
          cases member
      | some middle =>
          rw [isMatch] at member
          obtain ⟨matched, instances⟩ := inductionHypothesis member
          obtain ⟨firstMatched, isTriple⟩ := Pattern.matchTriple_sound isMatch
          refine ⟨firstMatched.trans matched, ?_⟩
          intro pattern inPatterns
          rcases List.mem_cons.mp inPatterns with isFirst | inRest
          · rw [isFirst]
            exact ⟨triple, inGraph,
              Pattern.instantiate_extends matched.extends_ isTriple⟩
          · exact instances pattern inRest

/-- Every mapping of the patterns is larger than some solution. -/
theorem solutionsFrom_complete
    {graph : List GroundTriple} {patterns : List Pattern} {before : Solution}
    {mapping : Mapping}
    (agrees : mapping.Extends before.mapping)
    (present :
      ∀ pattern ∈ patterns, ∃ triple ∈ graph,
        pattern.instantiate mapping = some triple) :
    ∃ after ∈ solutionsFrom graph patterns before,
      mapping.Extends after.mapping := by
  induction patterns generalizing before with
  | nil =>
      exact ⟨before, List.mem_singleton.mpr rfl, agrees⟩
  | cons first rest inductionHypothesis =>
      obtain ⟨triple, inGraph, isTriple⟩ := present first List.mem_cons_self
      obtain ⟨middle, isMatch, agrees⟩ :=
        Pattern.matchTriple_complete agrees isTriple
      obtain ⟨after, member, agrees⟩ :=
        inductionHypothesis agrees fun pattern inRest =>
          present pattern (List.mem_cons_of_mem first inRest)
      refine ⟨after, ?_, agrees⟩
      rw [solutionsFrom, List.mem_flatMap]
      refine ⟨triple, inGraph, ?_⟩
      rw [isMatch]
      exact member

/-- The solutions that begin with one triple make the first pattern that triple. -/
private theorem instance_of_mem
    {graph : List GroundTriple} {pattern : Pattern} {rest : List Pattern}
    {triple : GroundTriple} {before after : Solution}
    (member :
      after ∈
        match pattern.matchTriple triple before with
        | none => []
        | some extended => solutionsFrom graph rest extended) :
    pattern.instantiate after.mapping = some triple := by
  cases isMatch : pattern.matchTriple triple before with
  | none =>
      rw [isMatch] at member
      cases member
  | some middle =>
      rw [isMatch] at member
      exact Pattern.instantiate_extends (solutionsFrom_sound member).1.extends_
        (Pattern.matchTriple_sound isMatch).2

/-- No mapping is enumerated twice. -/
theorem solutionsFrom_distinct
    {graph : List GroundTriple} (nodup : graph.Nodup)
    (patterns : List Pattern) (before : Solution) :
    (solutionsFrom graph patterns before).Pairwise fun first second =>
      first.mapping ≠ second.mapping := by
  induction patterns generalizing before with
  | nil =>
      exact List.pairwise_singleton _ _
  | cons pattern rest inductionHypothesis =>
      rw [solutionsFrom, List.pairwise_flatMap]
      refine ⟨?_, ?_⟩
      · intro triple _
        cases pattern.matchTriple triple before with
        | none =>
            exact .nil
        | some middle =>
            exact inductionHypothesis middle
      · refine nodup.imp ?_
        intro first second different firstSolution inFirst secondSolution
          inSecond same
        apply different
        have isFirst := instance_of_mem inFirst
        have isSecond := instance_of_mem inSecond
        rw [same, isSecond] at isFirst
        exact (Option.some.inj isFirst).symm

/-- A mapping solves the patterns where it is that of a solution. -/
theorem solves_iff_mem_solutions
    {graph : List GroundTriple} {patterns : List Pattern} {mapping : Mapping} :
    mapping.Solves patterns graph ↔
      ∃ solution ∈ solutionsFrom graph patterns [],
        solution.mapping = mapping := by
  constructor
  · intro solves
    have unbound : mapping.Extends (Solution.mapping []) := by
      intro index value bound
      cases bound
    obtain ⟨solution, member, agrees⟩ :=
      solutionsFrom_complete unbound solves.present
    refine ⟨solution, member, ?_⟩
    obtain ⟨matched, _⟩ := solutionsFrom_sound member
    funext index
    cases bound : solution.mapping index with
    | some value =>
        exact (agrees index value bound).symm
    | none =>
        by_contra isBound
        obtain ⟨pattern, inPatterns, inPattern⟩ :=
          (solves.domain index).mp (Ne.symm isBound)
        have isMatched :=
          (matched.domain index).mpr (.inr (List.mem_flatMap.mpr
            ⟨pattern, inPatterns, inPattern⟩))
        exact isMatched bound
  · rintro ⟨solution, member, rfl⟩
    obtain ⟨matched, present⟩ := solutionsFrom_sound member
    refine ⟨?_, present⟩
    intro index
    rw [matched.domain, List.mem_flatMap]
    constructor
    · rintro (isBound | inPatterns)
      · exact (isBound rfl).elim
      · exact inPatterns
    · exact Or.inr

end Quadpod
