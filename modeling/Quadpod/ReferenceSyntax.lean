import Quadpod.Dataset

namespace Quadpod

/-!
# IRIs and quads as text

A concrete IRI syntax, and the N-Quads form in which quads print themselves: no
two quads print alike, and none prints a line break.  Names that the real types
cannot hold (a label with a space in it, a language tag with two hyphens in a
row) are escaped, so that the form is unambiguous on every value of the model.
-/

namespace Reference

/-! ## IRIs -/

/-- The printable ASCII characters that may not stand in an IRI. -/
def forbiddenChars : List Nat :=
  [0x22, 0x3C, 0x3E, 0x5C, 0x5E, 0x60, 0x7B, 0x7C, 0x7D]

/-- A character that may stand in an IRI. -/
def iriChar (c : Char) : Bool :=
  0x20 < c.toNat && !forbiddenChars.contains c.toNat

/-- A text of IRI characters with a scheme. -/
def iriValid (text : Text) : Bool :=
  text.contains ':' && text.all iriChar

theorem iriChar_of_isPlain {c : Char} (plain : isPlain c = true) :
    iriChar c = true := by
  have bounds :
      (0x2D ≤ c.toNat ∧ c.toNat ≤ 0x39) ∨ (0x41 ≤ c.toNat ∧ c.toNat ≤ 0x5A) ∨
        (0x61 ≤ c.toNat ∧ c.toNat ≤ 0x7A) := by
    have isAlphanum :
        c.isAlphanum =
          ((decide (c.val ≥ 65 ∧ c.val ≤ 90) ||
            (decide (c.val ≥ 97) && decide (c.val ≤ 122))) ||
              (decide (c.val ≥ 48) && decide (c.val ≤ 57))) :=
      rfl
    simp only [isPlain, isAlphanum, Bool.or_eq_true, beq_iff_eq,
      Bool.and_eq_true, decide_eq_true_eq, ge_iff_le, UInt32.le_iff_toNat_le]
      at plain
    rcases plain with ((((upper | lower) | digit) | rfl) | rfl) | rfl
    · exact Or.inr (Or.inl upper)
    · exact Or.inr (Or.inr lower)
    · have low : 48 ≤ c.toNat := digit.1
      have high : c.toNat ≤ 57 := digit.2
      omega
    · decide
    · decide
    · decide
  simp only [iriChar, forbiddenChars, Bool.and_eq_true, decide_eq_true_eq,
    Bool.not_eq_true',
    List.contains_eq_mem, decide_eq_false_iff_not, List.mem_cons,
    List.not_mem_nil, or_false, not_or]
  omega

theorem iriValid_iff {text : Text} :
    iriValid text = true ↔ ':' ∈ text ∧ ∀ c ∈ text, iriChar c = true := by
  simp [iriValid]

theorem iriChar_reservedPrefix : ∀ c ∈ reservedPrefix, iriChar c = true := by
  have checked : reservedPrefix.all iriChar = true := by decide
  exact List.all_eq_true.mp checked

scoped instance : IriSyntax where
  valid := iriValid
  truncate base path rest isBase _ isLonger := by
    rw [iriValid_iff] at *
    refine ⟨by simp [isBase.1], fun c member => isLonger.2 c ?_⟩
    simp only [List.mem_append, List.mem_cons, List.not_mem_nil,
      or_false] at member ⊢
    rcases member with inFront | isSlash
    · exact Or.inl inFront
    · exact Or.inr (Or.inl isSlash)
  unslash base path isBase _ isLonger := by
    rw [iriValid_iff] at *
    refine ⟨by simp [isBase.1], fun c member => isLonger.2 c ?_⟩
    exact List.mem_append_left _ member
  extend base path tail isBase _ plain isShorter := by
    rw [iriValid_iff] at *
    refine ⟨by simp [isBase.1], fun c member => ?_⟩
    rcases List.mem_append.mp member with inFront | inTail
    · exact isShorter.2 c inFront
    · exact iriChar_of_isPlain (List.all_eq_true.mp plain c inTail)
  descend base name path isBase _ plain isShorter := by
    rw [iriValid_iff] at *
    refine ⟨by simp [isBase.1], fun c member => ?_⟩
    simp only [List.mem_append, List.mem_cons] at member
    rcases member with (inBase | inName) | rfl | inPath
    · exact isBase.2 c inBase
    · exact iriChar_of_isPlain (List.all_eq_true.mp plain c inName)
    · decide
    · exact isShorter.2 c (List.mem_append_right _ inPath)
  noNul text isValid member := by
    have allowed := (iriValid_iff.mp isValid).2 _ member
    revert allowed
    decide
  vocabulary := by decide
  minted name plain := by
    rw [iriValid_iff]
    refine ⟨List.mem_append_left _ (by decide), fun c member => ?_⟩
    rcases List.mem_append.mp member with inPrefix | inName
    · exact iriChar_reservedPrefix c inPrefix
    · rcases plain c inName with isPlain | rfl
      · exact iriChar_of_isPlain isPlain
      · decide

/-! ## Escaping -/

/-- One character between quotation marks. -/
def escapeChar (c : Char) : Text :=
  if c = '"' then
    ['\\', '"']
  else if c = '\\' then
    ['\\', '\\']
  else if c = '\n' then
    ['\\', 'n']
  else if c = '\r' then
    ['\\', 'r']
  else
    [c]

/-- The text between quotation marks. -/
def escape (text : Text) : Text :=
  text.flatMap escapeChar

/-- One character of a label or a language tag. -/
def escapeNameChar (c : Char) : Text :=
  if c = '\\' then
    ['\\', '\\']
  else if c = '\n' then
    ['\\', 'n']
  else if c = ' ' then
    ['\\', 's']
  else
    [c]

/-- A name; a hyphen right after another one is escaped where that is asked. -/
def escapeName (hyphens : Bool) : Bool → Text → Text
  | _, [] => []
  | afterHyphen, c :: rest =>
      (if hyphens && afterHyphen && c == '-' then
        ['\\', '-']
      else
        escapeNameChar c) ++
        escapeName hyphens (c == '-') rest

/-- Reading an escaped name back. -/
def unescapeName : Text → Text
  | '\\' :: 'n' :: rest => '\n' :: unescapeName rest
  | '\\' :: 's' :: rest => ' ' :: unescapeName rest
  | '\\' :: c :: rest => c :: unescapeName rest
  | c :: rest => c :: unescapeName rest
  | [] => []

/-! ## Terms and quads -/

/-- A base direction as a language tag ends in it. -/
def directionText : BaseDirection → Text
  | .ltr => "--ltr".toList
  | .rtl => "--rtl".toList

section Display

variable [IriSyntax]

/-- `impl Display for NamedNode` -/
def displayNamed (node : NamedNode) : Text :=
  '<' :: node.iri ++ ['>']

/-- `impl Display for BlankNode` -/
def displayBlank (blank : BlankNode) : Text :=
  '_' :: ':' :: escapeName false false blank.label

/-- What follows the value of a literal. -/
def literalTail : Literal → Text
  | .simple _ => []
  | .languageTagged _ language => '@' :: escapeName true false language
  | .directional _ language direction =>
      '@' :: escapeName true false language ++ directionText direction
  | .typed _ datatype => '^' :: '^' :: displayNamed datatype

/-- `impl Display for Literal` -/
def displayLiteral (content : Literal) : Text :=
  '"' :: escape content.value ++ '"' :: literalTail content

/-- `impl Display for NamedOrBlankNode` -/
def displaySubject : NamedOrBlankNode → Text
  | .namedNode node => displayNamed node
  | .blankNode blank => displayBlank blank

/-- `impl Display for Term` -/
def displayTerm : Term → Text
  | .namedNode node => displayNamed node
  | .blankNode blank => displayBlank blank
  | .literal content => displayLiteral content
  | .triple subject predicate object =>
      "<<( ".toList ++ displaySubject subject ++ ' ' :: displayNamed predicate ++
        ' ' :: displayTerm object ++ " )>>".toList

/-- The graph name of a quad, after a space; the default graph has none. -/
def graphSuffix : GraphName → Text
  | .defaultGraph => []
  | .namedNode node => ' ' :: displayNamed node
  | .blankNode blank => ' ' :: displayBlank blank

/-- `impl Display for Quad` -/
def displayQuad (quad : Quad) : Text :=
  displaySubject quad.subject ++ ' ' :: displayNamed quad.predicate ++
    ' ' :: displayTerm quad.object ++ graphSuffix quad.graphName

scoped instance : QuadText where
  display := displayQuad
  displayTerm := displayTerm

end Display

/-! ## Reading the text back -/

/-- An escaped name is read back, whatever follows it. -/
theorem unescapeName_append (hyphens afterHyphen : Bool) (name rest : Text) :
    unescapeName (escapeName hyphens afterHyphen name ++ rest) =
      name ++ unescapeName rest := by
  induction name generalizing afterHyphen with
  | nil =>
      rfl
  | cons c name inductionHypothesis =>
      rw [escapeName, List.append_assoc, List.cons_append]
      split
      · next isHyphen =>
          simp only [Bool.and_eq_true, beq_iff_eq] at isHyphen
          rw [isHyphen.2]
          exact congrArg _ (inductionHypothesis _)
      · unfold escapeNameChar
        split
        · next isBackslash =>
            rw [isBackslash]
            exact congrArg _ (inductionHypothesis _)
        split
        · next isNewline =>
            rw [isNewline]
            exact congrArg _ (inductionHypothesis _)
        split
        · next isSpace =>
            rw [isSpace]
            exact congrArg _ (inductionHypothesis _)
        · next notBackslash _ _ =>
            rw [List.singleton_append, unescapeName, inductionHypothesis]
            · rintro _ rfl
              exact (notBackslash rfl).elim
            · rintro _ rfl
              exact (notBackslash rfl).elim
            · rintro _ _ rfl
              exact (notBackslash rfl).elim

theorem escapeName_injective {hyphens afterHyphen : Bool} :
    Function.Injective (escapeName hyphens afterHyphen) := by
  intro first second same
  have read := unescapeName_append hyphens afterHyphen first []
  rw [same, unescapeName_append] at read
  exact (List.append_cancel_right read).symm

theorem escapeName_append (hyphens afterHyphen : Bool) (first second : Text) :
    ∃ between,
      escapeName hyphens afterHyphen (first ++ second) =
        escapeName hyphens afterHyphen first ++
          escapeName hyphens between second := by
  induction first generalizing afterHyphen with
  | nil =>
      exact ⟨afterHyphen, rfl⟩
  | cons c first inductionHypothesis =>
      obtain ⟨between, isBetween⟩ := inductionHypothesis (c == '-')
      refine ⟨between, ?_⟩
      simp only [List.cons_append, escapeName, isBetween, List.append_assoc]

/-- The characters an escaped name never holds. -/
theorem not_mem_escapeName (hyphens afterHyphen : Bool) (name : Text) :
    ' ' ∉ escapeName hyphens afterHyphen name ∧
      '\n' ∉ escapeName hyphens afterHyphen name := by
  induction name generalizing afterHyphen with
  | nil =>
      simp [escapeName]
  | cons c name inductionHypothesis =>
      have rest := inductionHypothesis (c == '-')
      rw [escapeName, List.mem_append, List.mem_append, not_or, not_or]
      refine ⟨⟨?_, rest.1⟩, ?_, rest.2⟩
      all_goals
        unfold escapeNameChar
        split
        · decide
        split
        · decide
        split
        · decide
        split
        · decide
        · next notNewline notSpace =>
            rw [List.mem_singleton]
            rintro rfl
            contradiction

/-- No escaped language tag ends in a direction. -/
theorem escapeName_ne_directed
    (first second : Text) (direction : BaseDirection) :
    escapeName true false first ≠
      escapeName true false second ++ directionText direction := by
  intro same
  have read := unescapeName_append true false first []
  rw [List.append_nil, same, unescapeName_append] at read
  obtain ⟨between, isBetween⟩ :=
    escapeName_append true false second
      (unescapeName (directionText direction))
  have whole : second ++ unescapeName (directionText direction) = first := by
    rw [read]
    exact List.append_nil first
  rw [whole, same] at isBetween
  have impossible := List.append_cancel_left isBetween
  revert impossible
  cases direction <;> cases between <;> decide

/-- Reading the text between quotation marks, and what follows it. -/
def readQuoted : Text → Text × Text
  | '"' :: rest => ([], rest)
  | '\\' :: 'n' :: rest => (readQuoted rest).map (List.cons '\n') id
  | '\\' :: 'r' :: rest => (readQuoted rest).map (List.cons '\r') id
  | '\\' :: c :: rest => (readQuoted rest).map (List.cons c) id
  | c :: rest => (readQuoted rest).map (List.cons c) id
  | [] => ([], [])

theorem readQuoted_escape (value rest : Text) :
    readQuoted (escape value ++ '"' :: rest) = (value, rest) := by
  induction value with
  | nil =>
      rfl
  | cons c value inductionHypothesis =>
      rw [escape, List.flatMap_cons, List.append_assoc]
      change readQuoted (escapeChar c ++ (escape value ++ _)) = _
      have read :
          ∀ first,
            (readQuoted (escape value ++ '"' :: rest)).map (List.cons first) id =
              (first :: value, rest) := by
        intro first
        rw [inductionHypothesis]
        rfl
      unfold escapeChar
      split
      · next isQuote =>
          rw [isQuote]
          exact read '"'
      split
      · next isBackslash =>
          rw [isBackslash]
          exact read '\\'
      split
      · next isNewline =>
          rw [isNewline]
          exact read '\n'
      split
      · next isReturn =>
          rw [isReturn]
          exact read '\r'
      · next notQuote notBackslash _ _ =>
          rw [List.singleton_append, readQuoted]
          · exact read c
          · exact notQuote
          · rintro _ rfl
            exact (notBackslash rfl).elim
          · rintro _ rfl
            exact (notBackslash rfl).elim
          · rintro _ _ rfl
            exact (notBackslash rfl).elim

theorem escape_append_inj {first second firstRest secondRest : Text}
    (same :
      escape first ++ '"' :: firstRest = escape second ++ '"' :: secondRest) :
    first = second ∧ firstRest = secondRest := by
  have read := readQuoted_escape first firstRest
  rw [same, readQuoted_escape] at read
  exact ⟨(congrArg Prod.fst read).symm, (congrArg Prod.snd read).symm⟩

/-! ## No two quads print alike -/

theorem not_mem_iri (node : NamedNode) (c : Char)
    (forbidden : iriChar c = false) : c ∉ node.iri := by
  intro member
  have allowed := (iriValid_iff.mp node.valid).2 c member
  rw [forbidden] at allowed
  cases allowed

theorem displayNamed_inj {first second : NamedNode} {firstRest secondRest : Text}
    (same :
      displayNamed first ++ firstRest = displayNamed second ++ secondRest) :
    first = second ∧ firstRest = secondRest := by
  simp only [displayNamed, List.cons_append, List.append_assoc,
    List.nil_append, List.cons.injEq, true_and] at same
  obtain ⟨sameIri, sameRest⟩ :=
    Text.append_cons_inj_of_not_mem (not_mem_iri first '>' (by decide))
      (not_mem_iri second '>' (by decide)) same
  exact ⟨NamedNode.ext_iri sameIri, sameRest⟩

theorem displayBlank_inj {first second : BlankNode} {firstRest secondRest : Text}
    (same :
      displayBlank first ++ ' ' :: firstRest =
        displayBlank second ++ ' ' :: secondRest) :
    first = second ∧ firstRest = secondRest := by
  simp only [displayBlank, List.cons_append, List.cons.injEq,
    true_and] at same
  obtain ⟨sameLabel, sameRest⟩ :=
    Text.append_cons_inj_of_not_mem (not_mem_escapeName _ _ _).1
      (not_mem_escapeName _ _ _).1 same
  cases first
  cases second
  cases escapeName_injective sameLabel
  exact ⟨rfl, sameRest⟩

theorem displaySubject_inj
    {first second : NamedOrBlankNode} {firstRest secondRest : Text}
    (same :
      displaySubject first ++ ' ' :: firstRest =
        displaySubject second ++ ' ' :: secondRest) :
    first = second ∧ firstRest = secondRest := by
  cases first with
  | namedNode node =>
      cases second with
      | namedNode other =>
          obtain ⟨rfl, sameRest⟩ := displayNamed_inj same
          exact ⟨rfl, (List.cons.inj sameRest).2⟩
      | blankNode other =>
          cases (List.cons.inj same).1
  | blankNode blank =>
      cases second with
      | namedNode other =>
          cases (List.cons.inj same).1
      | blankNode other =>
          obtain ⟨rfl, sameRest⟩ := displayBlank_inj same
          exact ⟨rfl, sameRest⟩

/-- Language tags, with a direction or without. -/
theorem directed_inj
    {first second firstTail secondTail firstRest secondRest : Text}
    (firstDirected :
      firstTail = [] ∨ ∃ direction, firstTail = directionText direction)
    (secondDirected :
      secondTail = [] ∨ ∃ direction, secondTail = directionText direction)
    (same :
      escapeName true false first ++ firstTail ++ ' ' :: firstRest =
        escapeName true false second ++ secondTail ++ ' ' :: secondRest) :
    first = second ∧ firstTail = secondTail ∧ firstRest = secondRest := by
  have spaceFree :
      ∀ name tail : Text,
        (tail = [] ∨ ∃ direction, tail = directionText direction) →
        ' ' ∉ escapeName true false name ++ tail := by
    rintro name tail isTail member
    rcases List.mem_append.mp member with inName | inTail
    · exact (not_mem_escapeName _ _ _).1 inName
    · rcases isTail with rfl | ⟨direction, rfl⟩
      · cases inTail
      · cases direction <;> revert inTail <;> decide
  obtain ⟨sameTag, sameRest⟩ :=
    Text.append_cons_inj_of_not_mem (spaceFree first _ firstDirected)
      (spaceFree second _ secondDirected) same
  have sameTail : firstTail = secondTail := by
    rcases firstDirected with rfl | ⟨direction, rfl⟩
    · rcases secondDirected with rfl | ⟨otherDirection, rfl⟩
      · rfl
      · rw [List.append_nil] at sameTag
        exact (escapeName_ne_directed first second _ sameTag).elim
    · rcases secondDirected with rfl | ⟨otherDirection, rfl⟩
      · rw [List.append_nil] at sameTag
        exact (escapeName_ne_directed second first _ sameTag.symm).elim
      · refine (List.append_inj' sameTag ?_).2
        cases direction <;> cases otherDirection <;> rfl
  rw [sameTail] at sameTag
  exact ⟨escapeName_injective (List.append_cancel_right sameTag), sameTail,
    sameRest⟩

theorem directionText_injective : Function.Injective directionText := by
  intro first second same
  cases first <;> cases second <;>
    first
    | rfl
    | exact absurd same (by decide)

theorem displayLiteral_inj
    {first second : Literal} {firstRest secondRest : Text}
    (same :
      displayLiteral first ++ ' ' :: firstRest =
        displayLiteral second ++ ' ' :: secondRest) :
    first = second ∧ firstRest = secondRest := by
  simp only [displayLiteral, List.cons_append, List.append_assoc,
    List.cons.injEq, true_and] at same
  obtain ⟨sameValue, sameTail⟩ := escape_append_inj same
  have directed :
      ∀ direction, directionText direction = [] ∨
        ∃ other, directionText direction = directionText other :=
    fun direction => Or.inr ⟨direction, rfl⟩
  cases first with
  | simple value =>
      cases sameValue
      cases second with
      | simple other =>
          exact ⟨rfl, (List.cons.inj sameTail).2⟩
      | languageTagged other language =>
          cases (List.cons.inj sameTail).1
      | directional other language direction =>
          cases (List.cons.inj sameTail).1
      | typed other datatype =>
          cases (List.cons.inj sameTail).1
  | languageTagged value language =>
      cases sameValue
      cases second with
      | simple other =>
          cases (List.cons.inj sameTail).1
      | languageTagged other otherLanguage =>
          have sameTag := (List.cons.inj sameTail).2
          rw [← List.append_nil (escapeName true false language),
            ← List.append_nil (escapeName true false otherLanguage)] at sameTag
          obtain ⟨rfl, _, sameRest⟩ :=
            directed_inj (Or.inl rfl) (Or.inl rfl) sameTag
          exact ⟨rfl, sameRest⟩
      | directional other otherLanguage direction =>
          have sameTag := (List.cons.inj sameTail).2
          rw [← List.append_nil (escapeName true false language)] at sameTag
          obtain ⟨_, impossible, _⟩ :=
            directed_inj (Or.inl rfl) (directed direction) sameTag
          cases direction <;> cases impossible
      | typed other datatype =>
          cases (List.cons.inj sameTail).1
  | directional value language direction =>
      cases sameValue
      cases second with
      | simple other =>
          cases (List.cons.inj sameTail).1
      | languageTagged other otherLanguage =>
          have sameTag := (List.cons.inj sameTail).2
          rw [← List.append_nil (escapeName true false otherLanguage)]
            at sameTag
          obtain ⟨_, impossible, _⟩ :=
            directed_inj (directed direction) (Or.inl rfl) sameTag
          cases direction <;> cases impossible
      | directional other otherLanguage otherDirection =>
          obtain ⟨rfl, sameDirection, sameRest⟩ :=
            directed_inj (directed direction) (directed otherDirection)
              (List.cons.inj sameTail).2
          cases directionText_injective sameDirection
          exact ⟨rfl, sameRest⟩
      | typed other datatype =>
          cases (List.cons.inj sameTail).1
  | typed value datatype =>
      cases sameValue
      cases second with
      | simple other =>
          cases (List.cons.inj sameTail).1
      | languageTagged other language =>
          cases (List.cons.inj sameTail).1
      | directional other language direction =>
          cases (List.cons.inj sameTail).1
      | typed other otherDatatype =>
          obtain ⟨rfl, sameRest⟩ :=
            displayNamed_inj
              (List.cons.inj (List.cons.inj sameTail).2).2
          exact ⟨rfl, (List.cons.inj sameRest).2⟩

/-- An IRI never opens a triple term. -/
theorem displayNamed_ne_triple {node : NamedNode} {rest other : Text} :
    displayNamed node ++ rest ≠ "<<( ".toList ++ other := by
  intro same
  have clean := not_mem_iri node '<' (by decide)
  have opened : "<<( ".toList = ['<', '<', '(', ' '] := rfl
  simp only [displayNamed, opened, List.cons_append, List.append_assoc,
    List.nil_append, List.cons.injEq, true_and] at same
  rcases isIri : node.iri with _ | ⟨c, iri⟩
  · rw [isIri] at same
    cases (List.cons.inj same).1
  · rw [isIri] at same clean
    cases (List.cons.inj same).1
    exact clean (by simp)

theorem displayTerm_inj {first second : Term} {firstRest secondRest : Text}
    (same :
      displayTerm first ++ ' ' :: firstRest =
        displayTerm second ++ ' ' :: secondRest) :
    first = second ∧ firstRest = secondRest := by
  induction first generalizing second firstRest secondRest with
  | namedNode node =>
      cases second with
      | namedNode other =>
          obtain ⟨rfl, sameRest⟩ := displayNamed_inj same
          exact ⟨rfl, (List.cons.inj sameRest).2⟩
      | blankNode other =>
          cases (List.cons.inj same).1
      | literal other =>
          cases (List.cons.inj same).1
      | triple subject predicate object =>
          simp only [displayTerm, List.append_assoc] at same
          exact (displayNamed_ne_triple same).elim
  | blankNode blank =>
      cases second with
      | namedNode other =>
          cases (List.cons.inj same).1
      | blankNode other =>
          obtain ⟨rfl, sameRest⟩ := displayBlank_inj same
          exact ⟨rfl, sameRest⟩
      | literal other =>
          cases (List.cons.inj same).1
      | triple subject predicate object =>
          cases (List.cons.inj same).1
  | literal content =>
      cases second with
      | namedNode other =>
          cases (List.cons.inj same).1
      | blankNode other =>
          cases (List.cons.inj same).1
      | literal other =>
          obtain ⟨rfl, sameRest⟩ := displayLiteral_inj same
          exact ⟨rfl, sameRest⟩
      | triple subject predicate object =>
          cases (List.cons.inj same).1
  | triple subject predicate object inductionHypothesis =>
      cases second with
      | namedNode other =>
          simp only [displayTerm, List.append_assoc] at same
          exact (displayNamed_ne_triple same.symm).elim
      | blankNode other =>
          cases (List.cons.inj same).1
      | literal other =>
          cases (List.cons.inj same).1
      | triple otherSubject otherPredicate otherObject =>
          have closed : " )>>".toList = [' ', ')', '>', '>'] := rfl
          simp only [displayTerm, closed, List.append_assoc,
            List.cons_append, List.nil_append] at same
          obtain ⟨rfl, afterSubject⟩ :=
            displaySubject_inj (List.append_cancel_left same)
          obtain ⟨rfl, afterPredicate⟩ := displayNamed_inj afterSubject
          obtain ⟨rfl, afterObject⟩ :=
            inductionHypothesis (List.cons.inj afterPredicate).2
          simp only [List.cons.injEq, true_and] at afterObject
          exact ⟨rfl, afterObject⟩

theorem graphSuffix_inj {first second : GraphName}
    (same :
      graphSuffix first ++ [' '] = graphSuffix second ++ [' ']) :
    first = second := by
  have printed := List.append_cancel_right same
  cases first with
  | defaultGraph =>
      cases second <;> cases printed
      rfl
  | namedNode node =>
      cases second with
      | defaultGraph =>
          cases printed
      | namedNode other =>
          have sameName :
              displayNamed node ++ [] = displayNamed other ++ [] := by
            simpa using (List.cons.inj printed).2
          rw [(displayNamed_inj sameName).1]
      | blankNode other =>
          cases (List.cons.inj (List.cons.inj printed).2).1
  | blankNode blank =>
      cases second with
      | defaultGraph =>
          cases printed
      | namedNode other =>
          cases (List.cons.inj (List.cons.inj printed).2).1
      | blankNode other =>
          have sameName :
              displayBlank blank ++ [' '] = displayBlank other ++ [' '] := by
            simpa using (List.cons.inj printed).2
          rw [(displayBlank_inj sameName).1]

/-- What follows the object of a quad starts with a space. -/
theorem graphSuffix_spaced (name : GraphName) :
    ∃ rest, graphSuffix name ++ [' '] = ' ' :: rest := by
  cases name with
  | defaultGraph =>
      exact ⟨[], rfl⟩
  | namedNode node =>
      exact ⟨_, rfl⟩
  | blankNode blank =>
      exact ⟨_, rfl⟩

/-- No two quads print alike. -/
theorem displayQuad_injective :
    Function.Injective (displayQuad : Quad → Text) := by
  intro first second same
  have spaced : displayQuad first ++ [' '] = displayQuad second ++ [' '] :=
    congrArg (· ++ [' ']) same
  simp only [displayQuad, List.append_assoc, List.cons_append] at spaced
  obtain ⟨sameSubject, afterSubject⟩ := displaySubject_inj spaced
  obtain ⟨samePredicate, afterPredicate⟩ := displayNamed_inj afterSubject
  have objects := (List.cons.inj afterPredicate).2
  obtain ⟨firstRest, isFirst⟩ := graphSuffix_spaced first.graphName
  obtain ⟨secondRest, isSecond⟩ := graphSuffix_spaced second.graphName
  rw [isFirst, isSecond] at objects
  obtain ⟨sameObject, sameRest⟩ := displayTerm_inj objects
  have sameGraph : first.graphName = second.graphName := by
    refine graphSuffix_inj ?_
    rw [isFirst, isSecond, sameRest]
  cases first
  cases second
  cases sameSubject
  cases samePredicate
  cases sameObject
  cases sameGraph
  rfl

/-! ## No quad prints a line break -/

theorem not_mem_displayNamed (node : NamedNode) : '\n' ∉ displayNamed node := by
  simpa [displayNamed] using not_mem_iri node '\n' (by decide)

theorem not_mem_displayBlank (blank : BlankNode) :
    '\n' ∉ displayBlank blank := by
  simpa [displayBlank] using (not_mem_escapeName false false blank.label).2

theorem not_mem_escape (value : Text) : '\n' ∉ escape value := by
  intro member
  obtain ⟨c, _, inChar⟩ := List.mem_flatMap.mp member
  unfold escapeChar at inChar
  split at inChar
  · revert inChar
    decide
  split at inChar
  · revert inChar
    decide
  split at inChar
  · revert inChar
    decide
  split at inChar
  · revert inChar
    decide
  · next notNewline _ =>
      exact notNewline (List.mem_singleton.mp inChar).symm

theorem not_mem_displayLiteral (content : Literal) :
    '\n' ∉ displayLiteral content := by
  have tail : '\n' ∉ literalTail content := by
    cases content with
    | simple value =>
        simp [literalTail]
    | languageTagged value language =>
        simpa [literalTail] using (not_mem_escapeName true false language).2
    | directional value language direction =>
        have named := (not_mem_escapeName true false language).2
        cases direction <;>
          simp [literalTail, directionText, named]
    | typed value datatype =>
        simpa [literalTail] using not_mem_displayNamed datatype
  simp [displayLiteral, not_mem_escape, tail]

theorem not_mem_displaySubject (subject : NamedOrBlankNode) :
    '\n' ∉ displaySubject subject := by
  cases subject with
  | namedNode node =>
      exact not_mem_displayNamed node
  | blankNode blank =>
      exact not_mem_displayBlank blank

theorem not_mem_displayTerm (object : Term) : '\n' ∉ displayTerm object := by
  induction object with
  | namedNode node =>
      exact not_mem_displayNamed node
  | blankNode blank =>
      exact not_mem_displayBlank blank
  | literal content =>
      exact not_mem_displayLiteral content
  | triple subject predicate object inductionHypothesis =>
      simp [displayTerm, not_mem_displaySubject, not_mem_displayNamed,
        inductionHypothesis]

/-- No quad prints a line break. -/
theorem not_mem_displayQuad (quad : Quad) : '\n' ∉ displayQuad quad := by
  have suffix : '\n' ∉ graphSuffix quad.graphName := by
    cases quad.graphName with
    | defaultGraph =>
        simp [graphSuffix]
    | namedNode node =>
        simpa [graphSuffix] using not_mem_displayNamed node
    | blankNode blank =>
        simpa [graphSuffix] using not_mem_displayBlank blank
  simp [displayQuad, not_mem_displaySubject, not_mem_displayNamed,
    not_mem_displayTerm, suffix]

end Reference

end Quadpod
