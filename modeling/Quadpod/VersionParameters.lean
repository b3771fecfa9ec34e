import Quadpod.RdfFormat

namespace Quadpod

/-!
# The pieces `from_media_type` reads

`RdfVersion::from_media_type` cuts a media type at its semicolons and every
piece at its first equals sign.  It has an answer exactly when no piece lacks
the sign and every piece that names a version names one of the three labels;
the answer is then the last of them.
-/

/-- The pieces of a media type after its first semicolon. -/
def versionPieces (mediaType : Text) : List Text :=
  (Text.split ';' mediaType).drop 1

/-- What a piece names as the version, if it reads as a version parameter. -/
def versionValue (piece : Text) : Option Text :=
  (Text.splitOnce '=' (Text.trim piece)).bind fun (name, value) =>
    if Text.eqIgnoreAsciiCase (Text.trim name) "version".toList then
      some (Text.trim value)
    else
      none

/-- A piece with a name and a value. -/
def Valued (piece : Text) : Prop :=
  (Text.splitOnce '=' (Text.trim piece)).isSome = true

/-- A piece that names no version, or one of the three. -/
def VersionKnown (piece : Text) : Prop :=
  ∀ value, versionValue piece = some value →
    ∃ version : RdfVersion, value = version.label

namespace RdfVersion

/-- The version a label is of. -/
def ofLabel (label : Text) : Option RdfVersion :=
  if label = "1.1".toList then
    some .rdf11
  else if label = "1.2-basic".toList then
    some .rdf12Basic
  else if label = "1.2".toList then
    some .rdf12
  else
    none

theorem label_injective : Function.Injective label := by
  intro first second same
  cases first <;> cases second <;>
    first
    | rfl
    | exact absurd same (by decide)

theorem ofLabel_eq_some {text : Text} {version : RdfVersion} :
    ofLabel text = some version ↔ text = version.label := by
  unfold ofLabel
  constructor
  · intro found
    split at found
    · next isLabel =>
        cases found
        exact isLabel
    · split at found
      · next isLabel =>
          cases found
          exact isLabel
      · split at found
        · next isLabel =>
            cases found
            exact isLabel
        · cases found
  · rintro rfl
    cases version <;> rfl

/-! ## One step of the loop -/

theorem fromParameters_unvalued
    {piece : Text} {rest : List Text} {found : Option RdfVersion}
    (unvalued : ¬ Valued piece) :
    fromParameters (piece :: rest) found = none := by
  unfold Valued at unvalued
  rw [Option.not_isSome_iff_eq_none] at unvalued
  rw [fromParameters, unvalued]

theorem fromParameters_other
    {piece : Text} {rest : List Text} {found : Option RdfVersion}
    (valued : Valued piece) (other : versionValue piece = none) :
    fromParameters (piece :: rest) found = fromParameters rest found := by
  obtain ⟨⟨name, value⟩, isPair⟩ := Option.isSome_iff_exists.mp valued
  rw [versionValue, isPair, Option.bind_some] at other
  rw [fromParameters, isPair]
  dsimp only at other ⊢
  split at other
  · cases other
  · next notVersion =>
      rw [if_neg notVersion]

theorem fromParameters_version
    {piece value : Text} {rest : List Text} {found : Option RdfVersion}
    (isValue : versionValue piece = some value) :
    fromParameters (piece :: rest) found =
      (ofLabel value).bind fun version =>
        fromParameters rest (some version) := by
  unfold versionValue at isValue
  obtain ⟨⟨name, text⟩, isPair, isVersion⟩ := Option.bind_eq_some_iff.mp isValue
  dsimp only at isVersion
  rw [fromParameters, isPair]
  dsimp only
  split at isVersion
  · next isName =>
      cases isVersion
      rw [if_pos isName]
      unfold ofLabel
      split
      · rfl
      · split
        · rfl
        · split
          · rfl
          · rfl
  · cases isVersion

/-! ## The whole loop -/

/-- The version the last version piece names, if there is one. -/
def lastNamed (pieces : List Text) : Option RdfVersion :=
  (pieces.filterMap versionValue).getLast?.bind ofLabel

/-- The loop ends with the last version that is named. -/
theorem fromParameters_known
    {pieces : List Text} (valued : ∀ piece ∈ pieces, Valued piece)
    (known : ∀ piece ∈ pieces, VersionKnown piece)
    (found : Option RdfVersion) :
    fromParameters pieces found = some ((lastNamed pieces).or found) := by
  induction pieces generalizing found with
  | nil =>
      rfl
  | cons piece rest inductionHypothesis =>
      have restValued := fun other member =>
        valued other (List.mem_cons_of_mem piece member)
      have restKnown := fun other member =>
        known other (List.mem_cons_of_mem piece member)
      cases isValue : versionValue piece with
      | none =>
          rw [fromParameters_other (valued piece List.mem_cons_self) isValue,
            inductionHypothesis restValued restKnown, lastNamed, lastNamed,
            List.filterMap_cons_none isValue]
      | some value =>
          obtain ⟨version, rfl⟩ := known piece List.mem_cons_self value isValue
          rw [fromParameters_version isValue, ofLabel_eq_some.mpr rfl,
            Option.bind_some, inductionHypothesis restValued restKnown,
            lastNamed, lastNamed, List.filterMap_cons_some isValue]
          cases isLast : (rest.filterMap versionValue).getLast? with
          | none =>
              rw [List.getLast?_eq_none_iff] at isLast
              rw [isLast, List.getLast?_singleton, Option.bind_some,
                ofLabel_eq_some.mpr rfl]
              rfl
          | some last =>
              obtain ⟨lastPiece, inRest, isLastValue⟩ :=
                List.mem_filterMap.mp (List.mem_of_getLast? isLast)
              obtain ⟨other, rfl⟩ := restKnown lastPiece inRest last isLastValue
              rw [List.getLast?_cons, isLast, Option.bind_some,
                Option.getD_some, Option.bind_some, ofLabel_eq_some.mpr rfl]
              rfl

/-- The loop ends with an answer exactly when every piece can be read. -/
theorem isSome_fromParameters_iff
    (pieces : List Text) (found : Option RdfVersion) :
    (fromParameters pieces found).isSome = true ↔
      ∀ piece ∈ pieces, Valued piece ∧ VersionKnown piece := by
  constructor
  · intro answered
    induction pieces generalizing found with
    | nil =>
        intro piece member
        cases member
    | cons piece rest inductionHypothesis =>
        have isValued : Valued piece := by
          by_contra unvalued
          rw [fromParameters_unvalued unvalued] at answered
          cases answered
        cases isValue : versionValue piece with
        | none =>
            rw [fromParameters_other isValued isValue] at answered
            have isKnown : VersionKnown piece := by
              intro value named
              rw [isValue] at named
              cases named
            exact List.forall_mem_cons.mpr
              ⟨⟨isValued, isKnown⟩, inductionHypothesis _ answered⟩
        | some value =>
            rw [fromParameters_version isValue] at answered
            cases isLabel : ofLabel value with
            | none =>
                rw [isLabel] at answered
                cases answered
            | some version =>
                rw [isLabel, Option.bind_some] at answered
                have isKnown : VersionKnown piece := by
                  intro other named
                  rw [isValue] at named
                  cases named
                  exact ⟨version, ofLabel_eq_some.mp isLabel⟩
                exact List.forall_mem_cons.mpr
                  ⟨⟨isValued, isKnown⟩, inductionHypothesis _ answered⟩
  · intro readable
    rw [fromParameters_known (fun piece member => (readable piece member).1)
      fun piece member => (readable piece member).2]
    rfl

theorem isSome_fromMediaType_iff (mediaType : Text) :
    (fromMediaType mediaType).isSome = true ↔
      ∀ piece ∈ versionPieces mediaType,
        Valued piece ∧ VersionKnown piece := by
  rw [fromMediaType, Option.isSome_map, isSome_fromParameters_iff]
  rfl

/-- The answer is the last version that is named, and 1.1 where none is. -/
theorem fromMediaType_known
    {mediaType : Text}
    (valued : ∀ piece ∈ versionPieces mediaType, Valued piece)
    (known : ∀ piece ∈ versionPieces mediaType, VersionKnown piece) :
    fromMediaType mediaType =
      some ((lastNamed (versionPieces mediaType)).getD .rdf11) := by
  rw [fromMediaType]
  change (fromParameters (versionPieces mediaType) none).map _ = _
  rw [fromParameters_known valued known, Option.map_some, Option.or_none]

end RdfVersion

end Quadpod
