import Quadpod.PatchSemantics
import Quadpod.ReservedPatches

namespace Quadpod

open AtomicProgram
open GraphStore

/-!
# What an accepted patch can be substituted with

`Patch::parse` keeps literals out of the subjects and predicates that a client
writes, and every variable of a deletion or an insertion is one of the
conditions.  The terms that the store binds these variables to are not checked:
a literal or a triple term can come to stand where only an IRI may.
-/

/-! ## Names -/

/-- The indices that names have been given. -/
def Renumber.indices (names : Renumber) : List Nat :=
  names.map Prod.snd

/-- What reading some terms does to the names. -/
structure Numbered
    (binding : Binding) (names later : Renumber) (met : List Nat) :
    Prop where
  indices :
    ∀ index, index ∈ later.indices ↔ index ∈ names.indices ∨ index ∈ met
  kept : binding = .lookup → later = names

theorem Numbered.refl (binding : Binding) (names : Renumber) :
    Numbered binding names names [] where
  indices index := by simp
  kept _ := rfl

theorem Numbered.trans
    {binding : Binding} {names middle later : Renumber}
    {first second : List Nat}
    (firstly : Numbered binding names middle first)
    (secondly : Numbered binding middle later second) :
    Numbered binding names later (first ++ second) where
  indices index := by
    rw [secondly.indices, firstly.indices, List.mem_append, or_assoc]
  kept isLookup := (secondly.kept isLookup).trans (firstly.kept isLookup)

theorem Renumber.mem_indices_of_lookup
    {names : Renumber} {name : Text} {index : Nat}
    (isIndex : names.lookup name = some index) :
    index ∈ names.indices := by
  obtain ⟨before, after, isSplit, _⟩ := List.lookup_eq_some_iff.mp isIndex
  unfold Renumber.indices
  rw [isSplit]
  simp

/-- A name is bound to an index that is then taken. -/
theorem numbered_bind (names : Renumber) (name : Text) :
    Numbered .bind names (names.bind name).2 [(names.bind name).1] := by
  unfold Renumber.bind
  split
  next index isIndex =>
      refine ⟨?_, fun isLookup => by cases isLookup⟩
      intro other
      constructor
      · exact Or.inl
      · rintro (taken | isOther)
        · exact taken
        · rw [List.mem_singleton.mp isOther]
          exact Renumber.mem_indices_of_lookup isIndex
  next =>
      refine ⟨?_, fun isLookup => by cases isLookup⟩
      intro other
      simp [Renumber.indices, or_comm]

/-! ## Substituted patterns -/

section Substituted

variable [IriSyntax]

/-- Each template is a pattern with its variables replaced. -/
def Substituted
    (mapping : Mapping) (patterns : List Pattern)
    (templates : List TemplateTriple) : Prop :=
  List.Forall₂
    (fun pattern template =>
      pattern.subject.instantiate mapping = some template.subject ∧
      pattern.predicate.instantiate mapping = some template.predicate ∧
      pattern.object.instantiate mapping = some template.object)
    patterns templates

theorem substituted_of_substitute
    {patterns : List Pattern} {bindings : List Solution}
    {templates : List TemplateTriple}
    (isSubstituted : substitute patterns bindings = .ok templates) :
    Substituted (bindingsMapping bindings) patterns templates := by
  induction patterns generalizing templates with
  | nil =>
      cases isSubstituted
      exact .nil
  | cons first rest inductionHypothesis =>
      obtain ⟨template, others, isFirst, isRest, rfl⟩ :=
        Traversal.ok_cons isSubstituted
      obtain ⟨subject, predicate, object⟩ := substituteOne_ok isFirst
      refine .cons ⟨?_, ?_, ?_⟩ (inductionHypothesis isRest)
      · exact (instantiate_of_groundTerm subject).1
      · exact (instantiate_of_groundTerm predicate).1
      · exact (instantiate_of_groundTerm object).1

end Substituted

/-! ## Parsed patterns -/

namespace Patch

variable [IriSyntax]

theorem numbered_term
    {value : N3Term} {names later : Renumber} {binding : Binding}
    {result : PatternTerm}
    (isTerm : term value names binding = .ok (result, later)) :
    Numbered binding names later result.variables := by
  unfold term at isTerm
  split at isTerm
  next node =>
      split at isTerm
      · cases isTerm
      · cases isTerm
        exact .refl binding names
  next content =>
      split at isTerm
      · cases isTerm
      · cases isTerm
        exact .refl binding names
  next name =>
      cases binding with
      | bind =>
          cases isTerm
          exact numbered_bind names name
      | lookup =>
          dsimp only at isTerm
          split at isTerm
          next index isIndex =>
              cases isTerm
              refine ⟨?_, fun _ => rfl⟩
              intro other
              constructor
              · exact Or.inl
              · rintro (taken | isOther)
                · exact taken
                · rw [List.mem_singleton.mp isOther]
                  exact Renumber.mem_indices_of_lookup isIndex
          next =>
              cases isTerm
  next blank =>
      cases binding with
      | bind =>
          cases isTerm
          exact numbered_bind names _
      | lookup =>
          cases isTerm
  next =>
      cases isTerm

/-- No literal stands before the object of a pattern. -/
structure Positioned (pattern : Pattern) : Prop where
  subject : ∀ content, pattern.subject ≠ .literal content
  predicate : ∀ content, pattern.predicate ≠ .literal content

theorem not_literal_of_nonLiteral
    {value result : PatternTerm} {violation : Text}
    (isTerm : nonLiteral value violation = .ok result) (content : Literal) :
    result ≠ .literal content := by
  intro isLiteral
  rw [nonLiteral_eq isTerm] at isLiteral
  rw [isLiteral] at isTerm
  cases isTerm

theorem numbered_pattern
    {quad : N3Quad} {names later : Renumber} {binding : Binding}
    {result : Pattern}
    (isPattern : pattern quad names binding = .ok (result, later)) :
    Numbered binding names later result.variables ∧ Positioned result := by
  unfold pattern at isPattern
  simp only [bind, Except.bind] at isPattern
  split at isPattern
  · cases isPattern
  · next subject isSubject =>
      split at isPattern
      · cases isPattern
      · next keptSubject isKept =>
          split at isPattern
          · cases isPattern
          · next predicate isPredicate =>
              split at isPattern
              · cases isPattern
              · next keptPredicate isKeptToo =>
                  split at isPattern
                  · cases isPattern
                  · next object isObject =>
                      cases isPattern
                      have subjectNumbered := numbered_term isSubject
                      have predicateNumbered := numbered_term isPredicate
                      rw [← nonLiteral_eq isKept] at subjectNumbered
                      rw [← nonLiteral_eq isKeptToo] at predicateNumbered
                      refine ⟨?_, ?_, ?_⟩
                      · exact (subjectNumbered.trans predicateNumbered).trans
                          (numbered_term isObject)
                      · exact not_literal_of_nonLiteral isKept
                      · exact not_literal_of_nonLiteral isKeptToo

theorem numbered_patternsOf
    {quads : List N3Quad} {names later : Renumber} {binding : Binding}
    {result : List Pattern}
    (isResult : patternsOf quads names binding = .ok (result, later)) :
    Numbered binding names later (result.flatMap Pattern.variables) ∧
      ∀ pattern ∈ result, Positioned pattern := by
  induction quads generalizing names result with
  | nil =>
      cases isResult
      refine ⟨.refl _ _, ?_⟩
      intro pattern member
      cases member
  | cons quad rest inductionHypothesis =>
      unfold patternsOf at isResult
      simp only [bind, Except.bind] at isResult
      split at isResult
      · cases isResult
      · next first isFirst =>
          split at isResult
          · cases isResult
          · next others isOthers =>
              cases isResult
              obtain ⟨firstNumbered, firstPositioned⟩ :=
                numbered_pattern isFirst
              obtain ⟨restNumbered, restPositioned⟩ :=
                inductionHypothesis isOthers
              refine ⟨firstNumbered.trans restNumbered, ?_⟩
              intro pattern member
              rcases List.mem_cons.mp member with rfl | inOthers
              · exact firstPositioned
              · exact restPositioned pattern inOthers

theorem numbered_patterns
    {quads : List N3Quad} {formula : Option BlankNode}
    {names later : Renumber} {binding : Binding} {result : List Pattern}
    (isResult : patterns quads formula names binding = .ok (result, later)) :
    Numbered binding names later (result.flatMap Pattern.variables) ∧
      ∀ pattern ∈ result, Positioned pattern := by
  cases formula with
  | none =>
      cases isResult
      refine ⟨.refl binding names, ?_⟩
      intro pattern member
      cases member
  | some blank =>
      exact numbered_patternsOf isResult

/-- What every deletion and insertion of an accepted patch is like. -/
structure Grounded (patch : Patch) (pattern : Pattern) : Prop where
  positioned : Positioned pattern
  bound :
    ∀ index ∈ pattern.variables, ∃ condition ∈ patch.conditions,
      index ∈ condition.variables

/-- The variables of an accepted patch are those of its conditions. -/
theorem parse_grounded [N3Parser]
    {body : Bytes} {base : Text} {patch : Patch}
    (parsed : parse body base = .ok patch) :
    ∀ pattern ∈ patch.deletions ++ patch.insertions, patch.Grounded pattern := by
  unfold parse at parsed
  split at parsed
  · cases parsed
  · unfold ofQuads at parsed
    simp only [bind, Except.bind] at parsed
    iterate 4
      split at parsed
      · cases parsed
    split at parsed
    · cases parsed
    next conditions isConditions =>
        split at parsed
        · cases parsed
        next deletions isDeletions =>
            split at parsed
            · cases parsed
            next insertions isInsertions =>
                cases parsed
                obtain ⟨bound, _⟩ := numbered_patterns isConditions
                obtain ⟨deleted, deletionsPositioned⟩ :=
                  numbered_patterns isDeletions
                obtain ⟨inserted, insertionsPositioned⟩ :=
                  numbered_patterns isInsertions
                have sameNames := deleted.kept rfl
                have bindable {patterns : List Pattern} {later : Renumber}
                    (numbered :
                      Numbered .lookup conditions.2 later
                        (patterns.flatMap Pattern.variables))
                    {pattern : Pattern} (inPatterns : pattern ∈ patterns)
                    {index : Nat} (inPattern : index ∈ pattern.variables) :
                    ∃ condition ∈ conditions.1,
                      index ∈ condition.variables := by
                  have taken :=
                    (numbered.indices index).mpr (.inr (List.mem_flatMap.mpr
                      ⟨pattern, inPatterns, inPattern⟩))
                  rw [numbered.kept rfl, bound.indices] at taken
                  rcases taken with inNone | inConditions
                  · cases inNone
                  · exact List.mem_flatMap.mp inConditions
                intro pattern inPatterns
                rcases List.mem_append.mp inPatterns with
                  inDeletions | inInsertions
                · exact ⟨deletionsPositioned pattern inDeletions,
                    fun index => bindable deleted inDeletions⟩
                · rw [sameNames] at inserted
                  exact ⟨insertionsPositioned pattern inInsertions,
                    fun index => bindable inserted inInsertions⟩

/-- What the one mapping binds can stand where the patch puts it. -/
structure Fits (pattern : Pattern) (mapping : Mapping) : Prop where
  subject :
    ∀ index, pattern.subject = .var index →
      ∃ node, mapping index = some (.namedNode node)
  predicate :
    ∀ index, pattern.predicate = .var index →
      ∃ node, mapping index = some (.namedNode node)
  object :
    ∀ index, pattern.object = .var index →
      ∀ subject predicate object,
        mapping index ≠ some (.triple subject predicate object)

/-- A position before the object that fits becomes an IRI. -/
theorem instantiate_fitting
    {term : PatternTerm} {mapping : Mapping}
    (notLiteral : ∀ content, term ≠ .literal content)
    (fits :
      ∀ index, term = .var index →
        ∃ node, mapping index = some (.namedNode node)) :
    ∃ node, term.instantiate mapping = some (.namedNode node) := by
  cases term with
  | named node =>
      exact ⟨node, rfl⟩
  | literal content =>
      exact (notLiteral content rfl).elim
  | var index =>
      exact fits index rfl

/-- A pattern that fits becomes a triple. -/
theorem Fits.instantiate
    {patch : Patch} {graph : List GroundTriple} {pattern : Pattern}
    {mapping : Mapping}
    (fits : Fits pattern mapping)
    (grounded : patch.Grounded pattern)
    (solves : mapping.Solves patch.conditions graph) :
    ∃ triple, pattern.instantiate mapping = some triple := by
  obtain ⟨subject, isSubject⟩ :=
    instantiate_fitting grounded.positioned.subject fits.subject
  obtain ⟨predicate, isPredicate⟩ :=
    instantiate_fitting grounded.positioned.predicate fits.predicate
  have isObject : ∃ object, pattern.object.instantiate mapping = some object := by
    cases written : pattern.object with
    | named node =>
        exact ⟨.namedNode node, rfl⟩
    | literal content =>
        exact ⟨.literal content, rfl⟩
    | var index =>
        apply Option.ne_none_iff_exists'.mp
        apply (solves.domain index).mpr
        apply grounded.bound
        simp [Pattern.variables, written, PatternTerm.variables]
  obtain ⟨object, isObject⟩ := isObject
  exact ⟨⟨subject, predicate, object⟩,
    Pattern.instantiate_eq_some_iff.mpr ⟨isSubject, isPredicate, isObject⟩⟩

theorem Fits.renders
    {pattern : Pattern} {mapping : Mapping} (fits : Fits pattern mapping) :
    pattern.Renders mapping := by
  intro subject predicate object isTriple
  cases written : pattern.object with
  | named node =>
      rw [written] at isTriple
      cases isTriple
  | literal content =>
      rw [written] at isTriple
      cases isTriple
  | var index =>
      rw [written] at isTriple
      exact fits.object index written subject predicate object isTriple

/-- A pattern that becomes a triple without a triple term fits. -/
theorem fits_of_instantiate
    {pattern : Pattern} {mapping : Mapping} {triple : GroundTriple}
    (isTriple : pattern.instantiate mapping = some triple)
    (renders : pattern.Renders mapping) :
    Fits pattern mapping := by
  obtain ⟨subject, predicate, _⟩ := Pattern.instantiate_eq_some_iff.mp isTriple
  refine ⟨?_, ?_, ?_⟩
  · intro index written
    rw [written] at subject
    exact ⟨triple.subject, subject⟩
  · intro index written
    rw [written] at predicate
    exact ⟨triple.predicate, predicate⟩
  · intro index written
    unfold Pattern.Renders at renders
    rw [written] at renders
    exact renders

end Patch

/-- The mapping of a solution that is the only one. -/
theorem mapsOnly_of_solutions [IriSyntax]
    {patch : Patch} {graph : Graph GroundTriple} {solution : Solution}
    (isOnly :
      (solutionsFrom graph.triples patch.conditions []).take 2 =
        [solution]) :
    patch.MapsOnly graph solution.mapping := by
  have counted := counted_take patch graph
  rw [isOnly] at counted
  cases counted with
  | one solution only =>
      exact only

/-- Substitution is total exactly where what is bound fits where it is put. -/
theorem substitution_total_iff [IriSyntax] [N3Parser]
    {space : StorageSpace} (resource : ResourceUrl space) (world : World)
    {body : Bytes} {base : Text} {patch : Patch}
    (parsed : Patch.parse body base = .ok patch)
    {mapping : Mapping}
    (only : patch.MapsOnly (world.graphs (graphIri resource)) mapping) :
    ((∀ pattern ∈ patch.deletions ++ patch.insertions, ∃ triple,
        pattern.instantiate mapping = some triple) ∧
      ∃ result,
        (Program.eval backend (patchDataset resource patch) world).1 =
          .ok result) ↔
    ∀ pattern ∈ patch.deletions ++ patch.insertions,
      Patch.Fits pattern mapping := by
  have grounded := Patch.parse_grounded parsed
  unfold patchDataset
  constructor
  · rintro ⟨areTriples, result, isResult⟩ pattern inPatterns
    obtain ⟨triple, isTriple⟩ := areTriples pattern inPatterns
    refine Patch.fits_of_instantiate isTriple ?_
    by_contra unrendered
    obtain ⟨error, fails⟩ :=
      eval_patchGuarded_unrendered only
        (fun renders => unrendered (renders pattern inPatterns)) []
    rw [fails] at isResult
    cases isResult
  · intro fits
    have areTriples :
        ∀ pattern ∈ patch.deletions ++ patch.insertions, ∃ triple,
          pattern.instantiate mapping = some triple :=
      fun pattern inPatterns =>
        (fits pattern inPatterns).instantiate (grounded pattern inPatterns)
          only.solves
    refine ⟨areTriples, ?_⟩
    rw [eval_patchGuarded_rendered only areTriples
      fun pattern inPatterns => (fits pattern inPatterns).renders]
    dsimp only
    split
    · exact ⟨.applied, rfl⟩
    · exact ⟨.deletionMissing, rfl⟩

end Quadpod

namespace Quadpod.Reference

open AtomicProgram
open GraphStore

/-- What the two patches are parsed to. -/
def parsedPatch (text : Text) : Patch :=
  ((Patch.parse (Text.utf8 text) podBase).toOption).getD
    { conditions := [], deletions := [], insertions := [], variableCount := 0 }

/-- What the subject of the statement without a name is bound to. -/
def boundSubject : Solution :=
  ((solutionsFrom (notedWorld.graphs (graphIri note)).triples
    (parsedPatch predicatePatch).conditions []).head?).getD []

/-- The first patch inserts one triple, whose predicate is bound to an IRI. -/
theorem run_predicatePatch :
    Patch.parse (Text.utf8 predicatePatch) podBase =
        .ok (parsedPatch predicatePatch) ∧
      (solutionsFrom (notedWorld.graphs (graphIri note)).triples
        (parsedPatch predicatePatch).conditions []).take 2 =
          [boundSubject] ∧
      (parsedPatch predicatePatch).deletions ++
          (parsedPatch predicatePatch).insertions =
        [⟨.named plainPredicate, .var 0, .literal (.simple "y".toList)⟩] ∧
      (boundSubject.mapping 0).any
        (fun value => value matches .namedNode _) = true := by
  decide +kernel

/-- A variable bound to an IRI is put in as a predicate. -/
theorem predicatePatch_substituted :
    ∃ result,
      (Program.eval backend
        (patchDataset note (parsedPatch predicatePatch)) notedWorld).1 =
        .ok result := by
  obtain ⟨parsed, isOnly, isPatterns, isBound⟩ := run_predicatePatch
  have fits :
      ∀ pattern ∈ (parsedPatch predicatePatch).deletions ++
          (parsedPatch predicatePatch).insertions,
        Patch.Fits pattern boundSubject.mapping := by
    intro pattern inPatterns
    rw [isPatterns, List.mem_singleton] at inPatterns
    subst inPatterns
    refine ⟨?_, ?_, ?_⟩
    · intro index written
      cases written
    · intro index written
      cases written
      cases value : boundSubject.mapping 0 with
      | none =>
          rw [value] at isBound
          cases isBound
      | some term =>
          rw [value] at isBound
          cases term with
          | namedNode node =>
              exact ⟨node, rfl⟩
          | literal content =>
              cases isBound
          | triple subject predicate object =>
              cases isBound
    · intro index written
      cases written
  exact ((substitution_total_iff note notedWorld parsed
    (mapsOnly_of_solutions isOnly)).mpr fits).2

/-- What the object of the statement without a name is bound to. -/
def boundObject : Solution :=
  ((solutionsFrom (notedWorld.graphs (graphIri note)).triples
    (parsedPatch objectPatch).conditions []).head?).getD []

/-- The second patch matches the note once, and is not applied. -/
theorem run_objectPatch :
    Patch.parse (Text.utf8 objectPatch) podBase =
        .ok (parsedPatch objectPatch) ∧
      (solutionsFrom (notedWorld.graphs (graphIri note)).triples
        (parsedPatch objectPatch).conditions []).take 2 = [boundObject] ∧
      (Program.eval backend
        (patchDataset note (parsedPatch objectPatch)) notedWorld).1.toBool =
          false := by
  decide +kernel

/-- A literal that the store binds is put in as a predicate, and the patch fails. -/
theorem objectPatch_unsubstituted :
    Reachable podSpace .rdf12 (Provisioned podSpace) anyRequest notedWorld ∧
      Patch.parse (Text.utf8 objectPatch) podBase =
        .ok (parsedPatch objectPatch) ∧
      (∃ mapping,
        (parsedPatch objectPatch).MapsOnly
          (notedWorld.graphs (graphIri note)) mapping) ∧
      (Program.eval backend
        (patchDataset note (parsedPatch objectPatch)) notedWorld).1.toBool =
          false := by
  obtain ⟨parsed, isOnly, unapplied⟩ := run_objectPatch
  exact ⟨reachable_notedWorld, parsed,
    ⟨boundObject.mapping, mapsOnly_of_solutions isOnly⟩, unapplied⟩

end Quadpod.Reference
