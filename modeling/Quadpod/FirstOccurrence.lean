import Mathlib.Data.List.Induction
import Mathlib.Data.List.Nodup
import Mathlib.Data.Set.Function

/-!
# Numbering by first occurrence

Names are numbered in the order in which they are first met.  A name keeps its
number when more names are met, and the numbers do not depend on what the names
are: names that are replaced one for one are numbered alike.
-/

namespace FirstOccurrence

variable {Name : Type} [DecidableEq Name]

/-- The names met so far, and one more. -/
def meet (met : List Name) (name : Name) : List Name :=
  if name ∈ met then met else met ++ [name]

/-- The names met so far, and some more in their order. -/
def meetAll (met names : List Name) : List Name :=
  names.foldl meet met

@[simp] theorem meetAll_nil (met : List Name) : meetAll met [] = met :=
  rfl

@[simp] theorem meetAll_cons (met : List Name) (name : Name)
    (names : List Name) :
    meetAll met (name :: names) = meetAll (meet met name) names :=
  rfl

theorem meetAll_append (met first second : List Name) :
    meetAll met (first ++ second) = meetAll (meetAll met first) second :=
  List.foldl_append

theorem prefix_meet (met : List Name) (name : Name) :
    met <+: meet met name := by
  unfold meet
  split
  · exact List.prefix_rfl
  · exact List.prefix_append met [name]

theorem prefix_meetAll (met names : List Name) :
    met <+: meetAll met names := by
  induction names generalizing met with
  | nil =>
      exact List.prefix_rfl
  | cons name rest inductionHypothesis =>
      exact (prefix_meet met name).trans (inductionHypothesis _)

theorem mem_meet {met : List Name} {name other : Name} :
    other ∈ meet met name ↔ other ∈ met ∨ other = name := by
  unfold meet
  split
  · next known =>
      constructor
      · exact Or.inl
      · rintro (isMet | rfl)
        · exact isMet
        · exact known
  · simp

theorem mem_meetAll {met names : List Name} {other : Name} :
    other ∈ meetAll met names ↔ other ∈ met ∨ other ∈ names := by
  induction names generalizing met with
  | nil =>
      simp
  | cons name rest inductionHypothesis =>
      rw [meetAll_cons, inductionHypothesis, mem_meet, List.mem_cons,
        or_assoc]

theorem nodup_meet {met : List Name} (distinct : met.Nodup) (name : Name) :
    (meet met name).Nodup := by
  unfold meet
  split
  · exact distinct
  · next isNew =>
      refine List.nodup_append.mpr
        ⟨distinct, List.nodup_singleton name, ?_⟩
      rintro other isMet last isLast rfl
      rw [List.mem_singleton.mp isLast] at isMet
      exact isNew isMet

theorem nodup_meetAll {met : List Name} (distinct : met.Nodup)
    (names : List Name) : (meetAll met names).Nodup := by
  induction names generalizing met with
  | nil =>
      exact distinct
  | cons name rest inductionHypothesis =>
      exact inductionHypothesis (nodup_meet distinct name)

/-- One name is met if there is no other. -/
theorem meetAll_eq_singleton_iff {names : List Name} {name : Name} :
    meetAll [] names = [name] ↔ ∀ other, other ∈ names ↔ other = name := by
  have members : ∀ other, other ∈ meetAll [] names ↔ other ∈ names := by
    intro other
    rw [mem_meetAll]
    simp
  constructor
  · intro isSingle other
    rw [← members, isSingle, List.mem_singleton]
  · intro single
    have distinct := nodup_meetAll List.nodup_nil names
    refine List.perm_singleton.mp
      ((List.perm_ext_iff_of_nodup distinct (List.nodup_singleton name)).mpr
        fun other => ?_)
    rw [members, single, List.mem_singleton]

/-- A name keeps its number. -/
theorem idxOf_of_prefix {met later : List Name}
    (grown : met <+: later) {name : Name} (known : name ∈ met) :
    later.idxOf name = met.idxOf name := by
  obtain ⟨rest, rfl⟩ := grown
  exact List.idxOf_append_of_mem known

/-! ## Names replaced one for one -/

section Replaced

variable {Other : Type} [DecidableEq Other] {replace : Name → Other}

theorem map_meet {met : List Name} {name : Name}
    (injective : Set.InjOn replace {other | other ∈ met ∨ other = name}) :
    (meet met name).map replace = meet (met.map replace) (replace name) := by
  have known :
      replace name ∈ met.map replace ↔ name ∈ met := by
    rw [List.mem_map]
    constructor
    · rintro ⟨other, isMet, same⟩
      rw [← injective (Or.inl isMet) (Or.inr rfl) same]
      exact isMet
    · exact fun isMet => ⟨name, isMet, rfl⟩
  unfold meet
  by_cases isMet : name ∈ met
  · rw [if_pos isMet, if_pos (known.mpr isMet)]
  · rw [if_neg isMet, if_neg (fun same => isMet (known.mp same)),
      List.map_append]
    rfl

theorem map_meetAll {met names : List Name}
    (injective :
      Set.InjOn replace {other | other ∈ met ∨ other ∈ names}) :
    (meetAll met names).map replace =
      meetAll (met.map replace) (names.map replace) := by
  induction names generalizing met with
  | nil =>
      rfl
  | cons name rest inductionHypothesis =>
      rw [meetAll_cons, List.map_cons, meetAll_cons, ← map_meet]
      · refine inductionHypothesis (injective.mono ?_)
        rintro other (isMet | isLater)
        · rcases mem_meet.mp isMet with older | rfl
          · exact Or.inl older
          · exact Or.inr List.mem_cons_self
        · exact Or.inr (List.mem_cons_of_mem _ isLater)
      · refine injective.mono ?_
        rintro other (older | rfl)
        · exact Or.inl older
        · exact Or.inr List.mem_cons_self

theorem idxOf_map {Key : Type} [BEq Key] [LawfulBEq Key]
    {replace : Name → Key} {met : List Name} {name : Name}
    (injective : Set.InjOn replace {other | other ∈ met ∨ other = name}) :
    (met.map replace).idxOf (replace name) = met.idxOf name := by
  induction met with
  | nil =>
      rfl
  | cons first rest inductionHypothesis =>
      have tail :=
        inductionHypothesis (injective.mono fun other isOther =>
          isOther.imp (List.mem_cons_of_mem first) id)
      rw [List.map_cons]
      by_cases same : first = name
      · rw [same, List.idxOf_cons_self, List.idxOf_cons_self]
      · have differs : replace first ≠ replace name := fun sameImage =>
          same (injective (Or.inl List.mem_cons_self) (Or.inr rfl) sameImage)
        rw [List.idxOf_cons, List.idxOf_cons, beq_eq_false_iff_ne.mpr differs,
          beq_eq_false_iff_ne.mpr same, tail]

end Replaced

/-! ## The table of the numbers -/

/-- The names with their numbers, the latest first. -/
def entries (met : List Name) : List (Name × Nat) :=
  met.zipIdx.reverse

omit [DecidableEq Name] in
@[simp] theorem length_entries (met : List Name) :
    (entries met).length = met.length := by
  simp [entries]

omit [DecidableEq Name] in
theorem entries_concat (met : List Name) (name : Name) :
    entries (met ++ [name]) = (name, met.length) :: entries met := by
  simp [entries, List.zipIdx_append]

section Lookup

variable {Key : Type} [BEq Key] [LawfulBEq Key] {met : List Key} {key : Key}

theorem lookup_entries_of_notMem (isNew : key ∉ met) :
    (entries met).lookup key = none := by
  rw [List.lookup_eq_none_iff]
  intro entry isEntry
  have isMet : entry.1 ∈ met := by
    rw [entries, List.mem_reverse] at isEntry
    obtain ⟨name, index⟩ := entry
    exact List.fst_mem_of_mem_zipIdx isEntry
  rw [bne_iff_ne]
  rintro rfl
  exact isNew isMet

/-- Looking a name up gives its number. -/
theorem lookup_entries_of_mem (distinct : met.Nodup) (isMet : key ∈ met) :
    (entries met).lookup key = some (met.idxOf key) := by
  induction met using List.reverseRecOn with
  | nil =>
      cases isMet
  | append_singleton earlier last inductionHypothesis =>
      obtain ⟨earlierDistinct, _, isNew⟩ := List.nodup_append.mp distinct
      have lastNew : last ∉ earlier := fun isEarlier =>
        isNew last isEarlier last (List.mem_singleton_self last) rfl
      rw [entries_concat, List.lookup_cons]
      by_cases isLast : key = last
      · rw [isLast, beq_self_eq_true, List.idxOf_append, if_neg lastNew,
          List.idxOf_cons_self]
        simp
      · have isEarlier : key ∈ earlier := by
          simpa [isLast] using isMet
        rw [beq_eq_false_iff_ne.mpr isLast, List.idxOf_append,
          if_pos isEarlier]
        exact inductionHypothesis earlierDistinct isEarlier

end Lookup

end FirstOccurrence
