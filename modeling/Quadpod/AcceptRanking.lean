import Quadpod.EntityTags

namespace Quadpod

/-!
# The order of the ranges

`ranked_accept` sorts with a comparator that takes an undefined comparison of
two qualities for equality and falls back to the positions.  A quality that is
no number compares with nothing, so such an entry is ordered by its position
alone.  The order stays total as long as no such entry stands between an earlier
entry of lower quality and a later one of higher quality.
-/

/-! ## Quality values in order -/

section Ranking

variable [Quality]

/--
Quality values are numbers: those but NaN have a magnitude, they compare as
their magnitudes do, and the sign of the magnitude tells zero and positive
values.
-/
structure NumericQuality (magnitude : Quality.Value → Option Int) : Prop where
  partialCmp :
    ∀ first second,
      Quality.partialCmp first second =
        (magnitude first).bind fun left =>
          (magnitude second).map fun right => compare left right
  isZero : ∀ value, Quality.isZero value = (magnitude value == some 0)
  isPositive :
    ∀ value, Quality.isPositive value = (magnitude value).any (0 < ·)

theorem eq_of_same_position
    {accept : Text} {first second : AcceptRange}
    (firstMember : first ∈ acceptEntries accept)
    (secondMember : second ∈ acceptEntries accept)
    (same : first.position = second.position) :
    first = second := by
  obtain ⟨index, inRange, rfl⟩ := List.mem_mapIdx.mp firstMember
  obtain ⟨other, _, rfl⟩ := List.mem_mapIdx.mp secondMember
  have sameIndex : index = other := same
  subst sameIndex
  rfl

/-- The comparator is a strict total order on the entries. -/
structure RanksTotally (entries : List AcceptRange) : Prop where
  transitive :
    ∀ first ∈ entries, ∀ second ∈ entries, ∀ third ∈ entries,
      first.cmp second = .lt → second.cmp third = .lt →
        first.cmp third = .lt
  antisymmetric :
    ∀ first ∈ entries, ∀ second ∈ entries,
      first.cmp second = .lt → second.cmp first ≠ .lt
  total :
    ∀ first ∈ entries, ∀ second ∈ entries,
      first ≠ second → first.cmp second = .lt ∨ second.cmp first = .lt

/-- No entry has a lower quality than a later one, and ties go by position. -/
def InOrder (entries : List AcceptRange) : Prop :=
  entries.Pairwise fun first second =>
    Quality.partialCmp first.quality second.quality ≠ some .lt ∧
      (Quality.partialCmp first.quality second.quality = some .eq →
        first.position < second.position)

/-- An entry whose quality does not even compare with itself. -/
def AcceptRange.IsNan (entry : AcceptRange) : Prop :=
  Quality.partialCmp entry.quality entry.quality = none

/-- No entry without a number separates a lower quality from a higher one. -/
def UndividedByNan (entries : List AcceptRange) : Prop :=
  ∀ before ∈ entries, ∀ between ∈ entries, ∀ after ∈ entries,
    before.position < between.position →
      between.position < after.position →
        between.IsNan →
          Quality.partialCmp before.quality after.quality ≠ some .lt

/-! ## The comparator by magnitudes -/

/-- The order of two entries with these magnitudes at these positions. -/
def magnitudesRank
    (left right : Option Int) (position other : Nat) : Prop :=
  match left, right with
  | some left, some right => right < left ∨ (left = right ∧ position < other)
  | _, _ => position < other

variable {magnitude : Quality.Value → Option Int}

theorem AcceptRange.cmp_eq_lt_iff
    (numeric : NumericQuality magnitude) (first second : AcceptRange) :
    first.cmp second = .lt ↔
      magnitudesRank (magnitude first.quality) (magnitude second.quality)
        first.position second.position := by
  unfold cmp
  rw [numeric.partialCmp]
  cases magnitude first.quality with
  | none =>
      cases magnitude second.quality with
      | none =>
          exact Nat.compare_eq_lt
      | some right =>
          exact Nat.compare_eq_lt
  | some left =>
      cases magnitude second.quality with
      | none =>
          exact Nat.compare_eq_lt
      | some right =>
          change (compare right left).then _ = .lt ↔
            right < left ∨ (left = right ∧ first.position < second.position)
          rw [Ordering.then_eq_lt, Int.compare_eq_lt, Int.compare_eq_eq,
            Nat.compare_eq_lt, eq_comm (a := right)]

theorem AcceptRange.isNan_iff
    (numeric : NumericQuality magnitude) (entry : AcceptRange) :
    entry.IsNan ↔ magnitude entry.quality = none := by
  unfold IsNan
  rw [numeric.partialCmp]
  cases magnitude entry.quality with
  | none =>
      exact ⟨fun _ => rfl, fun _ => rfl⟩
  | some value =>
      constructor
      · intro undefined
        cases undefined
      · intro missing
        cases missing

theorem lower_iff
    (numeric : NumericQuality magnitude) (first second : AcceptRange) :
    Quality.partialCmp first.quality second.quality = some .lt ↔
      ∃ left right,
        magnitude first.quality = some left ∧
          magnitude second.quality = some right ∧ left < right := by
  rw [numeric.partialCmp]
  cases magnitude first.quality with
  | none =>
      simp
  | some left =>
      cases magnitude second.quality with
      | none =>
          simp
      | some right =>
          simp [Int.compare_eq_lt]

/-! ## When the comparator is a total order -/

/-- Three entries in a row, the middle one without a number. -/
theorem undividedByNan_of_ranksTotally
    (numeric : NumericQuality magnitude) {entries : List AcceptRange}
    (ranks : RanksTotally entries) :
    UndividedByNan entries := by
  intro before beforeMember between betweenMember after afterMember
    earlier later isNan isLower
  rw [AcceptRange.isNan_iff numeric] at isNan
  obtain ⟨left, right, isLeft, isRight, lower⟩ := (lower_iff numeric _ _).mp isLower
  have firstStep : before.cmp between = .lt := by
    rw [AcceptRange.cmp_eq_lt_iff numeric, isLeft, isNan]
    exact earlier
  have secondStep : between.cmp after = .lt := by
    rw [AcceptRange.cmp_eq_lt_iff numeric, isNan, isRight]
    exact later
  have whole :=
    ranks.transitive before beforeMember between betweenMember after
      afterMember firstStep secondStep
  rw [AcceptRange.cmp_eq_lt_iff numeric, isLeft, isRight] at whole
  rcases whole with higher | ⟨same, _⟩
  · omega
  · omega

/-- An entry without a number keeps its place among the others. -/
theorem ranksTotally_of_undividedByNan
    (numeric : NumericQuality magnitude) {accept : Text}
    (undivided : UndividedByNan (acceptEntries accept)) :
    RanksTotally (acceptEntries accept) := by
  have level :
      ∀ before ∈ acceptEntries accept, ∀ between ∈ acceptEntries accept,
        ∀ after ∈ acceptEntries accept, ∀ left right,
          magnitude before.quality = some left →
            magnitude between.quality = none →
              magnitude after.quality = some right →
                before.position < between.position →
                  between.position < after.position → right ≤ left := by
    intro before beforeMember between betweenMember after afterMember left
      right isLeft isNan isRight earlier later
    have notLower :=
      undivided before beforeMember between betweenMember after afterMember
        earlier later ((AcceptRange.isNan_iff numeric between).mpr isNan)
    rw [Ne, lower_iff numeric] at notLower
    exact Int.not_lt.mp fun lower =>
      notLower ⟨left, right, isLeft, isRight, lower⟩
  have apart :
      ∀ first ∈ acceptEntries accept, ∀ second ∈ acceptEntries accept,
        magnitude first.quality ≠ magnitude second.quality →
          first.position ≠ second.position := by
    intro first firstMember second secondMember different same
    rw [eq_of_same_position firstMember secondMember same] at different
    exact different rfl
  constructor
  case transitive =>
    intro first firstMember second secondMember third thirdMember
    rw [AcceptRange.cmp_eq_lt_iff numeric, AcceptRange.cmp_eq_lt_iff numeric,
      AcceptRange.cmp_eq_lt_iff numeric]
    have firstApart := apart first firstMember third thirdMember
    cases isFirst : magnitude first.quality with
    | none =>
        cases isSecond : magnitude second.quality with
        | none =>
            intro lower upper
            cases isThird : magnitude third.quality with
            | none =>
                rw [isThird] at upper
                exact Nat.lt_trans lower upper
            | some right =>
                rw [isThird] at upper
                exact Nat.lt_trans lower upper
        | some middle =>
            cases isThird : magnitude third.quality with
            | none =>
                exact Nat.lt_trans
            | some right =>
                intro lower upper
                have early : first.position < second.position := lower
                rw [isFirst, isThird] at firstApart
                have notSame := firstApart (by simp)
                change first.position < third.position
                rcases upper with higher | ⟨_, later⟩
                · by_contra notEarly
                  have bounded :=
                    level third thirdMember first firstMember second
                      secondMember right middle isThird isFirst isSecond
                      (by omega) early
                  omega
                · omega
    | some left =>
        cases isSecond : magnitude second.quality with
        | none =>
            intro lower upper
            cases isThird : magnitude third.quality with
            | none =>
                rw [isThird] at upper
                exact Nat.lt_trans lower upper
            | some right =>
                rw [isThird] at upper
                have early : first.position < second.position := lower
                have late : second.position < third.position := upper
                have bounded :=
                  level first firstMember second secondMember third
                    thirdMember left right isFirst isSecond isThird early late
                change right < left ∨
                  (left = right ∧ first.position < third.position)
                omega
        | some middle =>
            cases isThird : magnitude third.quality with
            | none =>
                intro lower upper
                have late : second.position < third.position := upper
                rw [isFirst, isThird] at firstApart
                have notSame := firstApart (by simp)
                change first.position < third.position
                rcases lower with higher | ⟨_, earlier⟩
                · by_contra notEarly
                  have bounded :=
                    level second secondMember third thirdMember first
                      firstMember middle left isSecond isThird isFirst late
                      (by omega)
                  omega
                · omega
            | some right =>
                intro lower upper
                change right < left ∨
                  (left = right ∧ first.position < third.position)
                change middle < left ∨
                  (left = middle ∧ first.position < second.position) at lower
                change right < middle ∨
                  (middle = right ∧ second.position < third.position) at upper
                omega
  case antisymmetric =>
    intro first _ second _
    rw [Ne, AcceptRange.cmp_eq_lt_iff numeric,
      AcceptRange.cmp_eq_lt_iff numeric]
    cases magnitude first.quality with
    | none =>
        cases magnitude second.quality with
        | none =>
            exact Nat.lt_asymm
        | some right =>
            exact Nat.lt_asymm
    | some left =>
        cases magnitude second.quality with
        | none =>
            exact Nat.lt_asymm
        | some right =>
            simp only [magnitudesRank]
            omega
  case total =>
    intro first firstMember second secondMember different
    have notSame : first.position ≠ second.position := fun same =>
      different (eq_of_same_position firstMember secondMember same)
    rw [AcceptRange.cmp_eq_lt_iff numeric,
      AcceptRange.cmp_eq_lt_iff numeric]
    cases magnitude first.quality with
    | none =>
        cases magnitude second.quality with
        | none =>
            exact Nat.lt_or_gt_of_ne notSame
        | some right =>
            exact Nat.lt_or_gt_of_ne notSame
    | some left =>
        cases magnitude second.quality with
        | none =>
            exact Nat.lt_or_gt_of_ne notSame
        | some right =>
            simp only [magnitudesRank]
            omega

/-! ## The sorted list -/

theorem nodup_acceptEntries (accept : Text) : (acceptEntries accept).Nodup := by
  have positions :
      (acceptEntries accept).map AcceptRange.position =
        List.range (Text.split ',' accept).length := by
    refine List.ext_getElem (by simp [acceptEntries]) fun index _ _ => ?_
    simp [acceptEntries, acceptRange]
  refine List.Nodup.of_map AcceptRange.position ?_
  rw [positions]
  exact List.nodup_range

theorem AcceptRange.cmp_swap
    (numeric : NumericQuality magnitude) (first second : AcceptRange) :
    second.cmp first = (first.cmp second).swap := by
  unfold cmp
  rw [Ordering.swap_then, Nat.compare_swap, numeric.partialCmp,
    numeric.partialCmp]
  cases magnitude first.quality with
  | none =>
      cases magnitude second.quality with
      | none =>
          rfl
      | some right =>
          rfl
  | some left =>
      cases magnitude second.quality with
      | none =>
          rfl
      | some right =>
          congr 1
          exact (Int.compare_swap right left).symm

/-- Two entries stay in order when they are one or the comparator is less. -/
theorem isLE_cmp_iff
    (numeric : NumericQuality magnitude) {accept : Text}
    {first second : AcceptRange}
    (firstMember : first ∈ acceptEntries accept)
    (secondMember : second ∈ acceptEntries accept) :
    (first.cmp second).isLE = true ↔
      first = second ∨ first.cmp second = .lt := by
  constructor
  · intro inOrder
    cases isOrder : first.cmp second with
    | lt =>
        exact Or.inr rfl
    | eq =>
        unfold AcceptRange.cmp at isOrder
        rw [Ordering.then_eq_eq, Nat.compare_eq_eq] at isOrder
        exact Or.inl
          (eq_of_same_position firstMember secondMember isOrder.2)
    | gt =>
        rw [isOrder] at inOrder
        cases inOrder
  · rintro (rfl | less)
    · unfold AcceptRange.cmp
      rw [numeric.partialCmp]
      cases magnitude first.quality with
      | none =>
          simp
      | some value =>
          simp
    · rw [less]
      rfl

theorem RanksTotally.totalOn
    (numeric : NumericQuality magnitude) {accept : Text}
    (ranks : RanksTotally (acceptEntries accept)) :
    TotalOn AcceptRange.cmp (acceptEntries accept) where
  swap first _ second _ := AcceptRange.cmp_swap numeric first second
  trans first firstMember second secondMember third thirdMember := by
    rw [isLE_cmp_iff numeric firstMember secondMember,
      isLE_cmp_iff numeric secondMember thirdMember,
      isLE_cmp_iff numeric firstMember thirdMember]
    rintro (rfl | lower) (rfl | upper)
    · exact Or.inl rfl
    · exact Or.inr upper
    · exact Or.inr lower
    · exact Or.inr (ranks.transitive first firstMember second secondMember
        third thirdMember lower upper)

/-- What the comparator orders totally is sorted by it. -/
theorem pairwise_rankedAccept
    (numeric : NumericQuality magnitude) {accept : Text}
    (ranks : RanksTotally (acceptEntries accept)) :
    (rankedAccept accept).Pairwise fun first second =>
      first.cmp second = .lt := by
  have inOrder : (rankedAccept accept).Pairwise
      fun first second => (first.cmp second).isLE = true :=
    SliceSort.sorted _ _ (ranks.totalOn numeric)
  have distinct : (rankedAccept accept).Nodup :=
    (SliceSort.perm _ _).nodup_iff.mpr (nodup_acceptEntries accept)
  refine (inOrder.and distinct).imp_of_mem
    fun {first second} firstMember secondMember ⟨precedes, different⟩ => ?_
  rw [isLE_cmp_iff numeric (mem_rankedAccept.mp firstMember)
    (mem_rankedAccept.mp secondMember)] at precedes
  exact precedes.resolve_left different

/--
The comparator is a strict total order on the entries of a header, and the
ranges come out by falling quality with ties by position, exactly when no entry
whose quality is no number stands between an earlier entry of lower quality and
a later one of higher quality.
-/
theorem ranking_total_iff
    (numeric : NumericQuality magnitude) (accept : Text) :
    RanksTotally (acceptEntries accept) ∧ InOrder (rankedAccept accept) ↔
      UndividedByNan (acceptEntries accept) := by
  constructor
  · rintro ⟨ranks, _⟩
    exact undividedByNan_of_ranksTotally numeric ranks
  · intro undivided
    have ranks := ranksTotally_of_undividedByNan numeric undivided
    refine ⟨ranks, (pairwise_rankedAccept numeric ranks).imp ?_⟩
    intro first second less
    rw [AcceptRange.cmp_eq_lt_iff numeric] at less
    rw [Ne, numeric.partialCmp]
    cases isLeft : magnitude first.quality with
    | none =>
        simp
    | some left =>
        cases isRight : magnitude second.quality with
        | none =>
            simp
        | some right =>
            rw [isLeft, isRight] at less
            simp only [magnitudesRank] at less
            simp only [Option.bind_some, Option.map_some, Option.some.injEq,
              Int.compare_eq_lt, Int.compare_eq_eq]
            omega

end Ranking

end Quadpod

namespace Quadpod.Reference

theorem compare_natCast (left right : Nat) :
    compare left right = compare (left : Int) (right : Int) := by
  rcases Nat.lt_trichotomy left right with lower | same | higher
  · rw [Nat.compare_eq_lt.mpr lower,
      Int.compare_eq_lt.mpr (Int.ofNat_lt.mpr lower)]
  · rw [Nat.compare_eq_eq.mpr same,
      Int.compare_eq_eq.mpr (congrArg _ same)]
  · rw [Nat.compare_eq_gt.mpr higher,
      Int.compare_eq_gt.mpr (Int.ofNat_lt.mpr higher)]

end Quadpod.Reference

namespace Quadpod.FloatReference

/-- Quality values in tenths, and one that is no number. -/
scoped instance : Quality where
  toSliceSort := Reference.mergeSorting
  Value := Option Nat
  parse text :=
    if text = "NaN".toList then
      some none
    else if text = "0".toList then
      some (some 0)
    else if text = "1".toList then
      some (some 10)
    else
      match Text.stripPrefix "0.".toList text with
      | some [digit] =>
          if digit.isDigit then some (some (digit.toNat - 48)) else none
      | _ => none
  one := some 10
  isZero value := value == some 0
  isPositive value := value.any (0 < ·)
  partialCmp first second :=
    first.bind fun left => second.map fun right => compare left right
  notZero value positive := by
    rcases value with _ | _ | value
    · cases positive
    · cases positive
    · rfl

theorem numericQuality :
    NumericQuality fun value : Option Nat =>
      value.map fun number => (number : Int) where
  partialCmp first second := by
    have same :
        ∀ left right : Option Nat,
          (left.bind fun number => right.map fun other =>
              compare number other) =
            (left.map fun number => (number : Int)).bind fun number =>
              (right.map fun other => (other : Int)).map fun other =>
                compare number other := by
      intro left right
      cases left with
      | none =>
          rfl
      | some number =>
          cases right with
          | none =>
              rfl
          | some other =>
              exact congrArg some (Reference.compare_natCast number other)
    exact same first second
  isZero value := by
    have same :
        ∀ number : Option Nat,
          (number == some 0) =
            ((number.map fun value => (value : Int)) == some 0) := by
      intro number
      rcases number with _ | _ | number
      · rfl
      · rfl
      · rfl
    exact same value
  isPositive value := by
    have same :
        ∀ number : Option Nat,
          number.any (0 < ·) =
            (number.map fun value => (value : Int)).any (0 < ·) := by
      intro number
      cases number with
      | none =>
          rfl
      | some value =>
          simp
    exact same value

/-- Three entries, with no number in the middle. -/
def dividedHeader : Text := "a/a;q=0.5,b/b;q=NaN,c/c;q=1".toList

theorem split_dividedHeader :
    Text.split ',' dividedHeader =
      ["a/a;q=0.5".toList, "b/b;q=NaN".toList, "c/c;q=1".toList] := by
  decide

/-- Each of the three precedes the next, and the last precedes the first. -/
theorem dividedHeader_unranked :
    ¬ (RanksTotally (acceptEntries dividedHeader) ∧
      InOrder (rankedAccept dividedHeader)) := by
  rintro ⟨ranks, _⟩
  have isEntries :
      acceptEntries dividedHeader =
        [acceptRange 0 "a/a;q=0.5".toList, acceptRange 1 "b/b;q=NaN".toList,
          acceptRange 2 "c/c;q=1".toList] := by
    rw [acceptEntries, split_dividedHeader]
    rfl
  rw [isEntries] at ranks
  have transitive :=
    ranks.transitive (acceptRange 0 "a/a;q=0.5".toList) (by simp)
      (acceptRange 1 "b/b;q=NaN".toList) (by simp)
      (acceptRange 2 "c/c;q=1".toList) (by simp)
  revert transitive
  decide

/-- The same entries in the opposite order. -/
def fallingHeader : Text := "c/c;q=1,b/b;q=NaN,a/a;q=0.5".toList

theorem split_fallingHeader :
    Text.split ',' fallingHeader =
      ["c/c;q=1".toList, "b/b;q=NaN".toList, "a/a;q=0.5".toList] := by
  decide

/-- Where the qualities fall, one that is no number does no harm. -/
theorem fallingHeader_ranked :
    RanksTotally (acceptEntries fallingHeader) ∧
      InOrder (rankedAccept fallingHeader) := by
  refine (ranking_total_iff numericQuality fallingHeader).mpr ?_
  have isEntries :
      acceptEntries fallingHeader =
        [acceptRange 0 "c/c;q=1".toList, acceptRange 1 "b/b;q=NaN".toList,
          acceptRange 2 "a/a;q=0.5".toList] := by
    rw [acceptEntries, split_fallingHeader]
    rfl
  rw [isEntries]
  unfold UndividedByNan AcceptRange.IsNan
  decide

end Quadpod.FloatReference
