import Mathlib.Data.List.Basic

/-!
# Lists mapped by a partial function

`mapM` over a list succeeds when the function succeeds on every item, and then
its results are those of the items.
-/

namespace Traversal

variable {α β ε : Type} {items : List α} {results : List β}

/-- Every item of a list that was mapped has a result among the results. -/
theorem some_of_mem
    {f : α → Option β}
    (mapped : items.mapM f = some results)
    {item : α} (member : item ∈ items) :
    ∃ result ∈ results, f item = some result := by
  induction items generalizing results with
  | nil =>
      cases member
  | cons first rest inductionHypothesis =>
      simp only [List.mapM_cons, Option.bind_eq_bind, Option.pure_def,
        Option.bind_eq_some_iff, Option.some.injEq] at mapped
      obtain ⟨value, isFirst, values, isRest, rfl⟩ := mapped
      rcases List.mem_cons.mp member with rfl | inRest
      · exact ⟨value, by simp, isFirst⟩
      · obtain ⟨result, inValues, isResult⟩ :=
          inductionHypothesis isRest inRest
        exact ⟨result, by simp [inValues], isResult⟩

/-- Every result of a list that was mapped is that of an item. -/
theorem mem_of_some
    {f : α → Option β}
    (mapped : items.mapM f = some results)
    {result : β} (member : result ∈ results) :
    ∃ item ∈ items, f item = some result := by
  induction items generalizing results with
  | nil =>
      cases mapped
      cases member
  | cons first rest inductionHypothesis =>
      simp only [List.mapM_cons, Option.bind_eq_bind, Option.pure_def,
        Option.bind_eq_some_iff, Option.some.injEq] at mapped
      obtain ⟨value, isFirst, values, isRest, rfl⟩ := mapped
      rcases List.mem_cons.mp member with rfl | inRest
      · exact ⟨first, by simp, isFirst⟩
      · obtain ⟨item, inItems, isResult⟩ :=
          inductionHypothesis isRest inRest
        exact ⟨item, by simp [inItems], isResult⟩

/-- A function that succeeds on every item maps the list. -/
theorem exists_some
    {f : α → Option β}
    (succeeds : ∀ item ∈ items, ∃ result, f item = some result) :
    ∃ results, items.mapM f = some results := by
  induction items with
  | nil =>
      exact ⟨[], rfl⟩
  | cons first rest inductionHypothesis =>
      obtain ⟨value, isFirst⟩ := succeeds first (by simp)
      obtain ⟨values, isRest⟩ :=
        inductionHypothesis fun item member => succeeds item (by simp [member])
      exact ⟨value :: values, by simp [List.mapM_cons, isFirst, isRest]⟩

/-- Mapping back what was mapped by a function with a partial inverse. -/
theorem map_some
    {f : β → Option α} {g : α → β}
    (inverse : ∀ item, f (g item) = some item) (items : List α) :
    (items.map g).mapM f = some items := by
  induction items with
  | nil =>
      rfl
  | cons first rest inductionHypothesis =>
      rw [List.map_cons, List.mapM_cons, inverse, inductionHypothesis]
      rfl

/-- A chain succeeds when both its parts do. -/
theorem ok_bind_iff
    {first : Except ε α} {next : α → Except ε β} {result : β} :
    first >>= next = .ok result ↔
      ∃ value, first = .ok value ∧ next value = .ok result := by
  cases first with
  | error error =>
      simp [bind, Except.bind]
  | ok value =>
      simp [bind, Except.bind]

/-- The two outcomes of mapping a list, with the reason of a failure. -/
theorem ok_cons
    {f : α → Except ε β} {first : α} {rest : List α}
    (mapped : (first :: rest).mapM f = .ok results) :
    ∃ value values,
      f first = .ok value ∧ rest.mapM f = .ok values ∧
        results = value :: values := by
  rw [List.mapM_cons] at mapped
  cases isFirst : f first with
  | error error =>
      rw [isFirst] at mapped
      cases mapped
  | ok value =>
      rw [isFirst] at mapped
      cases isRest : rest.mapM f with
      | error error =>
          rw [isRest] at mapped
          cases mapped
      | ok values =>
          rw [isRest] at mapped
          cases mapped
          exact ⟨value, values, rfl, rfl, rfl⟩

/-- Every item of a list that was checked passed the check. -/
theorem ok_of_mem
    {f : α → Except ε β}
    (mapped : items.mapM f = .ok results)
    {item : α} (member : item ∈ items) :
    ∃ result, f item = .ok result := by
  induction items generalizing results with
  | nil =>
      cases member
  | cons first rest inductionHypothesis =>
      obtain ⟨value, values, isFirst, isRest, rfl⟩ := ok_cons mapped
      rcases List.mem_cons.mp member with rfl | inRest
      · exact ⟨value, isFirst⟩
      · exact inductionHypothesis isRest inRest

/-- Every item of a list that was checked is paired with its result. -/
theorem mem_zip_of_ok
    {f : α → Except ε β}
    (mapped : items.mapM f = .ok results)
    {item : α} (member : item ∈ items) :
    ∃ result, f item = .ok result ∧ (item, result) ∈ items.zip results := by
  induction items generalizing results with
  | nil =>
      cases member
  | cons first rest inductionHypothesis =>
      obtain ⟨value, values, isFirst, isRest, rfl⟩ := ok_cons mapped
      rw [List.zip_cons_cons]
      rcases List.mem_cons.mp member with rfl | inRest
      · exact ⟨value, isFirst, List.mem_cons_self⟩
      · obtain ⟨result, isResult, inZip⟩ := inductionHypothesis isRest inRest
        exact ⟨result, isResult, List.mem_cons_of_mem _ inZip⟩

/-- Every result of a list that was checked is that of an item. -/
theorem mem_of_ok
    {f : α → Except ε β}
    (mapped : items.mapM f = .ok results)
    {result : β} (member : result ∈ results) :
    ∃ item ∈ items, f item = .ok result := by
  induction items generalizing results with
  | nil =>
      cases mapped
      cases member
  | cons first rest inductionHypothesis =>
      obtain ⟨value, values, isFirst, isRest, rfl⟩ := ok_cons mapped
      rcases List.mem_cons.mp member with rfl | inRest
      · exact ⟨first, by simp, isFirst⟩
      · obtain ⟨item, inItems, isResult⟩ :=
          inductionHypothesis isRest inRest
        exact ⟨item, by simp [inItems], isResult⟩

end Traversal
