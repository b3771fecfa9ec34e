import Mathlib.Data.List.MinMax
import Mathlib.Data.List.Nodup

/-!
# Tables with one entry for each key

A finite map as the list of its entries, no two under one key, with the
operations of a hash map.  The iteration order of a hash map is not specified, so
an operation that depends on it takes the order as an argument.
-/

/-- A finite map: entries under distinct keys. -/
structure KeyedTable (Key Value : Type) where
  entries : List (Key × Value)
  distinct : (entries.map Prod.fst).Nodup

namespace KeyedTable

variable {Key Value : Type} [DecidableEq Key]

/-- The table without entries. -/
def empty : KeyedTable Key Value := ⟨[], List.nodup_nil⟩

/-- `HashMap::get` -/
def lookup (table : KeyedTable Key Value) (key : Key) : Option Value :=
  table.entries.lookup key

/-- `HashMap::len` -/
def size (table : KeyedTable Key Value) : Nat :=
  table.entries.length

/-- `HashMap::contains_key` -/
def containsKey (table : KeyedTable Key Value) (key : Key) : Bool :=
  (table.lookup key).isSome

/-- `HashMap::retain` -/
def retain
    (table : KeyedTable Key Value)
    (keep : Key → Value → Bool) :
    KeyedTable Key Value where
  entries := table.entries.filter fun entry => keep entry.1 entry.2
  distinct := (List.filter_sublist.map Prod.fst).nodup table.distinct

/-- `HashMap::remove` -/
def remove (table : KeyedTable Key Value) (key : Key) : KeyedTable Key Value :=
  table.retain fun other _ => other ≠ key

/-- `HashMap::insert` -/
def insert
    (table : KeyedTable Key Value)
    (key : Key)
    (value : Value) :
    KeyedTable Key Value where
  entries := (key, value) :: (table.remove key).entries
  distinct := by
    refine List.nodup_cons.mpr ⟨?_, (table.remove key).distinct⟩
    intro member
    obtain ⟨entry, held, same⟩ := List.mem_map.mp member
    have other := (List.mem_filter.mp held).2
    exact of_decide_eq_true other same

/-- `Iterator::min_by_key` over the keys, in an iteration order. -/
def minByKey
    {Rank : Type} [Preorder Rank] [DecidableLT Rank]
    (table : KeyedTable Key Value)
    (order : List Key → List Key)
    (rank : Value → Rank) :
    Option Key :=
  let ranked :=
    (order (table.entries.map Prod.fst)).filterMap fun key =>
      (table.lookup key).map fun value => (key, rank value)
  (ranked.argmin Prod.snd).map Prod.fst

/-- What a key looks up is an entry of the table. -/
theorem mem_of_lookup
    {table : KeyedTable Key Value} {key : Key} {value : Value}
    (held : table.lookup key = some value) :
    (key, value) ∈ table.entries := by
  obtain ⟨before, after, shape, _⟩ := List.lookup_eq_some_iff.mp held
  rw [shape]
  exact List.mem_append_right before List.mem_cons_self

/-- An entry of the table is what its key looks up. -/
theorem lookup_of_mem
    {table : KeyedTable Key Value} {key : Key} {value : Value}
    (member : (key, value) ∈ table.entries) :
    table.lookup key = some value := by
  obtain ⟨entries, distinct⟩ := table
  unfold lookup
  dsimp only at member ⊢
  induction entries with
  | nil =>
      cases member
  | cons entry rest inductionHypothesis =>
      obtain ⟨isNew, restDistinct⟩ := List.nodup_cons.mp distinct
      rcases List.mem_cons.mp member with rfl | inRest
      · exact List.lookup_cons_self
      · have differs : key ≠ entry.1 := by
          rintro rfl
          exact isNew (List.mem_map.mpr ⟨_, inRest, rfl⟩)
        rw [List.lookup_cons, beq_eq_false_iff_ne.mpr differs]
        exact inductionHypothesis restDistinct inRest

omit [DecidableEq Key] in
/-- Retaining entries adds none. -/
theorem mem_of_mem_retain
    {table : KeyedTable Key Value} {keep : Key → Value → Bool}
    {entry : Key × Value}
    (member : entry ∈ (table.retain keep).entries) :
    entry ∈ table.entries :=
  List.mem_of_mem_filter member

/-- Inserting adds the one entry. -/
theorem mem_of_mem_insert
    {table : KeyedTable Key Value} {key : Key} {value : Value}
    {entry : Key × Value}
    (member : entry ∈ (table.insert key value).entries) :
    entry = (key, value) ∨ entry ∈ table.entries := by
  rcases List.mem_cons.mp member with isNew | kept
  · exact .inl isNew
  · exact .inr (mem_of_mem_retain kept)

theorem lookup_eq_some_iff
    {table : KeyedTable Key Value} {key : Key} {value : Value} :
    table.lookup key = some value ↔ (key, value) ∈ table.entries :=
  ⟨mem_of_lookup, lookup_of_mem⟩

/-! ## What an operation leaves -/

theorem lookup_retain_eq_some_iff
    {table : KeyedTable Key Value} {keep : Key → Value → Bool}
    {key : Key} {value : Value} :
    (table.retain keep).lookup key = some value ↔
      table.lookup key = some value ∧ keep key value = true := by
  rw [lookup_eq_some_iff, lookup_eq_some_iff]
  exact List.mem_filter

theorem lookup_remove_self (table : KeyedTable Key Value) (key : Key) :
    (table.remove key).lookup key = none := by
  rw [Option.eq_none_iff_forall_ne_some]
  intro value held
  have differs := (lookup_retain_eq_some_iff.mp held).2
  exact of_decide_eq_true differs rfl

theorem lookup_remove_of_ne
    (table : KeyedTable Key Value) {key other : Key} (differs : other ≠ key) :
    (table.remove key).lookup other = table.lookup other := by
  refine Option.ext fun value => ?_
  rw [remove, lookup_retain_eq_some_iff]
  exact and_iff_left (decide_eq_true differs)

@[simp] theorem lookup_insert_self
    (table : KeyedTable Key Value) (key : Key) (value : Value) :
    (table.insert key value).lookup key = some value :=
  lookup_eq_some_iff.mpr List.mem_cons_self

theorem lookup_insert_of_ne
    (table : KeyedTable Key Value) {key other : Key} (value : Value)
    (differs : other ≠ key) :
    (table.insert key value).lookup other = table.lookup other := by
  rw [← lookup_remove_of_ne table differs, lookup, insert, List.lookup_cons,
    beq_eq_false_iff_ne.mpr differs]
  rfl

/-! ## Sizes -/

omit [DecidableEq Key] in
theorem size_retain_le
    (table : KeyedTable Key Value) (keep : Key → Value → Bool) :
    (table.retain keep).size ≤ table.size :=
  List.length_filter_le _ _

omit [DecidableEq Key] in
/-- Retaining as many entries as there are keeps every one. -/
theorem keep_of_size_le
    {table : KeyedTable Key Value} {keep : Key → Value → Bool}
    (all : table.size ≤ (table.retain keep).size) :
    ∀ entry ∈ table.entries, keep entry.1 entry.2 = true :=
  List.length_filter_eq_length_iff.mp
    (Nat.le_antisymm (List.length_filter_le _ _) all)

theorem size_insert
    (table : KeyedTable Key Value) (key : Key) (value : Value) :
    (table.insert key value).size = (table.remove key).size + 1 :=
  rfl

/-- Removing a key that is there removes one entry. -/
theorem size_remove_lt
    {table : KeyedTable Key Value} {key : Key}
    (present : table.containsKey key = true) :
    (table.remove key).size < table.size := by
  obtain ⟨value, held⟩ := Option.isSome_iff_exists.mp present
  refine Nat.lt_of_not_le fun all => ?_
  have kept := keep_of_size_le all (key, value) (mem_of_lookup held)
  exact of_decide_eq_true kept rfl

/-! ## The entry of least rank -/

/-- Whatever the order of iteration, the key found has the least rank. -/
theorem exists_minByKey
    {Rank : Type} [LinearOrder Rank]
    {table : KeyedTable Key Value} {order : List Key → List Key}
    (visits : ∀ keys, (order keys).Perm keys) (rank : Value → Rank)
    (nonempty : 0 < table.size) :
    ∃ least value,
      table.minByKey order rank = some least ∧
        table.lookup least = some value ∧
        ∀ entry ∈ table.entries, rank value ≤ rank entry.2 := by
  have mem_ranked (key : Key) (value : Value) :
      (key, value) ∈ table.entries →
        (key, rank value) ∈
          (order (table.entries.map Prod.fst)).filterMap fun key =>
            (table.lookup key).map fun value => (key, rank value) := by
    intro member
    refine List.mem_filterMap.mpr ⟨key, ?_, ?_⟩
    · exact (visits _).mem_iff.mpr (List.mem_map.mpr ⟨_, member, rfl⟩)
    · rw [lookup_of_mem member]
      rfl
  obtain ⟨first, isFirst⟩ := List.exists_mem_of_length_pos nonempty
  unfold minByKey
  dsimp only
  cases isLeast :
      ((order (table.entries.map Prod.fst)).filterMap fun key =>
        (table.lookup key).map fun value => (key, rank value)).argmin
          Prod.snd with
  | none =>
      rw [List.argmin_eq_none] at isLeast
      have member := mem_ranked first.1 first.2 isFirst
      rw [isLeast] at member
      cases member
  | some least =>
      have inRanked := List.argmin_mem isLeast
      obtain ⟨key, _, isKey⟩ := List.mem_filterMap.mp inRanked
      obtain ⟨value, held, isValue⟩ := Option.map_eq_some_iff.mp isKey
      refine ⟨key, value, ?_, held, fun entry member => ?_⟩
      · rw [← isValue]
        rfl
      · have lower :=
          List.le_of_mem_argmin (mem_ranked entry.1 entry.2 member) isLeast
        rw [← isValue] at lower
        exact lower

end KeyedTable
