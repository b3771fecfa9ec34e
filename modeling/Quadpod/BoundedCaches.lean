import Quadpod.AuthCaches

namespace Quadpod

/-!
# The bound of the caches

`insert_bounded` over whole histories: however many keys are inserted, and
whichever, the map stays within its bound, and the entry that has to go is an
expired one or, when there is none, the one fetched least recently.
-/

/--
A call of `insert_bounded`: the key and the value, the clock, and the order in
which the map is iterated, which visits every key once.
-/
structure BoundedInsert (Value : Type) where
  key : Text
  value : Value
  now : Instant
  order : List Text → List Text
  visits : ∀ keys, (order keys).Perm keys

section Histories

variable {Value : Type} (ttl : Nat) (stamp : Value → Instant)

/-- A call, on a map. -/
def BoundedInsert.perform
    (map : KeyedTable Text Value) (call : BoundedInsert Value) :
    KeyedTable Text Value :=
  insertBounded call.order call.now map call.key call.value ttl stamp

/-- The map after a history of calls, from an empty one. -/
def insertedAll (calls : List (BoundedInsert Value)) :
    KeyedTable Text Value :=
  calls.foldl (BoundedInsert.perform ttl stamp) .empty

/-- A value is served for its key. -/
def Unexpired (now : Instant) (value : Value) : Prop :=
  elapsed now (stamp value) < ttl

/-- As many entries as the map may hold, none of them expired. -/
def Crowded (now : Instant) (map : KeyedTable Text Value) : Prop :=
  map.size = maxCacheEntries ∧
    ∀ entry ∈ map.entries, Unexpired ttl stamp now entry.2

/-- What a call leaves in the map, and what it removes. -/
structure BoundedInsert.Fair
    (before after : KeyedTable Text Value) (call : BoundedInsert Value) :
    Prop where
  inserted : after.lookup call.key = some call.value
  kept :
    before.containsKey call.key = true →
      ∀ key, key ≠ call.key → after.lookup key = before.lookup key
  spared :
    ∀ key value, before.lookup key = some value →
      Unexpired ttl stamp call.now value → after.lookup key = none →
        before.containsKey call.key = false ∧
          Crowded ttl stamp call.now before
  oldest :
    before.containsKey call.key = false →
      Crowded ttl stamp call.now before →
        ∃ removed value,
          before.lookup removed = some value ∧
            (∀ entry ∈ before.entries, stamp value ≤ stamp entry.2) ∧
            ∀ key, key ≠ call.key →
              after.lookup key =
                if key = removed then none else before.lookup key

variable {ttl stamp}

/-- The map without its expired entries. -/
def liveEntries
    (ttl : Nat) (stamp : Value → Instant)
    (map : KeyedTable Text Value) (now : Instant) : KeyedTable Text Value :=
  map.retain fun _ held => elapsed now (stamp held) < ttl

theorem lookup_liveEntries
    {map : KeyedTable Text Value} {now : Instant} {key : Text} {value : Value} :
    (liveEntries ttl stamp map now).lookup key = some value ↔
      map.lookup key = some value ∧ Unexpired ttl stamp now value := by
  rw [liveEntries, KeyedTable.lookup_retain_eq_some_iff, decide_eq_true_eq]
  rfl

/-- Where nothing has expired, the sweep removes nothing. -/
theorem Crowded.lookup_liveEntries
    {map : KeyedTable Text Value} {now : Instant}
    (crowded : Crowded ttl stamp now map) (key : Text) :
    (liveEntries ttl stamp map now).lookup key = map.lookup key := by
  refine Option.ext fun value => ?_
  rw [Quadpod.lookup_liveEntries]
  exact and_iff_left_of_imp fun held =>
    crowded.2 (key, value) (KeyedTable.mem_of_lookup held)

/-- A full map is crowded when the sweep leaves it full. -/
theorem crowded_iff
    {map : KeyedTable Text Value} (bounded : map.size ≤ maxCacheEntries)
    (now : Instant) :
    Crowded ttl stamp now map ↔
      maxCacheEntries ≤ (liveEntries ttl stamp map now).size := by
  constructor
  · rintro ⟨full, unexpired⟩
    have all : (liveEntries ttl stamp map now).entries = map.entries :=
      List.filter_eq_self.mpr fun entry member =>
        decide_eq_true (unexpired entry member)
    rw [KeyedTable.size, all, ← full]
    exact Nat.le_refl _
  · intro full
    have smaller :
        (liveEntries ttl stamp map now).size ≤ map.size :=
      KeyedTable.size_retain_le map _
    refine ⟨Nat.le_antisymm bounded (Nat.le_trans full smaller), ?_⟩
    intro entry member
    have kept :=
      KeyedTable.keep_of_size_le (Nat.le_trans bounded full) entry member
    rw [decide_eq_true_eq] at kept
    exact kept

/-! ## One call -/

/-- A full map loses the entry with the least stamp. -/
theorem exists_evictOldest
    {order : List Text → List Text}
    (visits : ∀ keys, (order keys).Perm keys)
    {map : KeyedTable Text Value} (full : maxCacheEntries ≤ map.size) :
    ∃ removed value,
      map.lookup removed = some value ∧
        (∀ entry ∈ map.entries, stamp value ≤ stamp entry.2) ∧
        evictOldest order map stamp = map.remove removed := by
  have positive : 0 < map.size := Nat.lt_of_lt_of_le (by decide) full
  obtain ⟨removed, value, isLeast, held, least⟩ :=
    KeyedTable.exists_minByKey visits stamp positive
  refine ⟨removed, value, held, least, ?_⟩
  rw [evictOldest, if_pos full, isLeast]

variable (ttl stamp)

/-- The three ways a call goes. -/
theorem BoundedInsert.perform_cases
    {map : KeyedTable Text Value} (bounded : map.size ≤ maxCacheEntries)
    (call : BoundedInsert Value) :
    ((map.containsKey call.key = true ∨ map.size < maxCacheEntries) ∧
        call.perform ttl stamp map = map.insert call.key call.value) ∨
      (map.containsKey call.key = false ∧
        (liveEntries ttl stamp map call.now).size < maxCacheEntries ∧
        call.perform ttl stamp map =
          (liveEntries ttl stamp map call.now).insert call.key call.value) ∨
      (map.containsKey call.key = false ∧
        Crowded ttl stamp call.now map ∧
        ∃ removed value,
          (liveEntries ttl stamp map call.now).lookup removed = some value ∧
            (∀ entry ∈ (liveEntries ttl stamp map call.now).entries,
              stamp value ≤ stamp entry.2) ∧
            call.perform ttl stamp map =
              ((liveEntries ttl stamp map call.now).remove removed).insert
                call.key call.value) := by
  by_cases atBound :
      maxCacheEntries ≤ map.size ∧ map.containsKey call.key = false
  · have isAfter :
        call.perform ttl stamp map =
          (evictOldest call.order (liveEntries ttl stamp map call.now)
            stamp).insert call.key call.value :=
      if_pos atBound
    rw [isAfter]
    by_cases stillFull :
        maxCacheEntries ≤ (liveEntries ttl stamp map call.now).size
    · obtain ⟨removed, value, held, least, isEvicted⟩ :=
        exists_evictOldest call.visits stillFull
      rw [isEvicted]
      exact Or.inr (Or.inr ⟨atBound.2,
        (crowded_iff bounded call.now).mpr stillFull, removed, value, held,
        least, rfl⟩)
    · rw [evictOldest, if_neg stillFull]
      exact Or.inr (Or.inl
        ⟨atBound.2, Nat.lt_of_not_le stillFull, rfl⟩)
  · refine Or.inl ⟨?_, if_neg atBound⟩
    by_cases present : map.containsKey call.key = true
    · exact Or.inl present
    · refine Or.inr (Nat.lt_of_not_le fun full => ?_)
      exact atBound ⟨full, Bool.eq_false_iff.mpr present⟩

/-- A call keeps the map within its bound. -/
theorem BoundedInsert.size_perform_le
    {map : KeyedTable Text Value} (bounded : map.size ≤ maxCacheEntries)
    (call : BoundedInsert Value) :
    (call.perform ttl stamp map).size ≤ maxCacheEntries := by
  rcases call.perform_cases ttl stamp bounded with
    ⟨roomy, isAfter⟩ | ⟨_, roomMade, isAfter⟩ |
      ⟨_, _, removed, value, held, _, isAfter⟩
  · rw [isAfter, KeyedTable.size_insert]
    rcases roomy with present | below
    · have smaller := KeyedTable.size_remove_lt present
      omega
    · have smaller : (map.remove call.key).size ≤ map.size :=
        KeyedTable.size_retain_le map _
      omega
  · rw [isAfter, KeyedTable.size_insert]
    have smaller :
        ((liveEntries ttl stamp map call.now).remove call.key).size ≤
          (liveEntries ttl stamp map call.now).size :=
      KeyedTable.size_retain_le _ _
    omega
  · rw [isAfter, KeyedTable.size_insert]
    have present :
        (liveEntries ttl stamp map call.now).containsKey removed = true :=
      Option.isSome_iff_exists.mpr ⟨value, held⟩
    have live :
        (liveEntries ttl stamp map call.now).size ≤ map.size :=
      KeyedTable.size_retain_le map _
    have smaller := KeyedTable.size_remove_lt present
    have smallest :
        (((liveEntries ttl stamp map call.now).remove removed).remove
          call.key).size ≤
            ((liveEntries ttl stamp map call.now).remove removed).size :=
      KeyedTable.size_retain_le _ _
    omega

/-- A call removes what its documentation says. -/
theorem BoundedInsert.fair_perform
    {map : KeyedTable Text Value} (bounded : map.size ≤ maxCacheEntries)
    (call : BoundedInsert Value) :
    call.Fair ttl stamp map (call.perform ttl stamp map) := by
  rcases call.perform_cases ttl stamp bounded with
    ⟨roomy, isAfter⟩ | ⟨absent, roomMade, isAfter⟩ |
      ⟨absent, crowded, removed, value, held, least, isAfter⟩
  · have others (key : Text) (differs : key ≠ call.key) :
        (call.perform ttl stamp map).lookup key = map.lookup key := by
      rw [isAfter, KeyedTable.lookup_insert_of_ne map call.value differs]
    have inserted :
        (call.perform ttl stamp map).lookup call.key = some call.value := by
      rw [isAfter, KeyedTable.lookup_insert_self]
    refine ⟨inserted, fun _ => others, ?_, ?_⟩
    · intro key value held _ gone
      by_cases same : key = call.key
      · rw [same, inserted] at gone
        cases gone
      · rw [others key same, held] at gone
        cases gone
    · intro absent crowded
      rcases roomy with present | below
      · rw [absent] at present
        cases present
      · exact absurd crowded.1 (Nat.ne_of_lt below)
  · have inserted :
        (call.perform ttl stamp map).lookup call.key = some call.value := by
      rw [isAfter, KeyedTable.lookup_insert_self]
    refine ⟨inserted, ?_, ?_, ?_⟩
    · intro present
      rw [absent] at present
      cases present
    · intro key value held unexpired gone
      have differs : key ≠ call.key := by
        rintro rfl
        rw [inserted] at gone
        cases gone
      rw [isAfter, KeyedTable.lookup_insert_of_ne _ call.value differs,
        lookup_liveEntries.mpr ⟨held, unexpired⟩] at gone
      cases gone
    · intro _ crowded
      exact absurd ((crowded_iff bounded call.now).mp crowded)
        (Nat.not_le_of_lt roomMade)
  · have others (key : Text) (differs : key ≠ call.key) :
        (call.perform ttl stamp map).lookup key =
          if key = removed then none else map.lookup key := by
      rw [isAfter, KeyedTable.lookup_insert_of_ne _ call.value differs]
      split
      · next same =>
          rw [same, KeyedTable.lookup_remove_self]
      · next other =>
          rw [KeyedTable.lookup_remove_of_ne _ other,
            crowded.lookup_liveEntries]
    refine ⟨?_, ?_, fun _ _ _ _ _ => ⟨absent, crowded⟩, fun _ _ => ?_⟩
    · rw [isAfter, KeyedTable.lookup_insert_self]
    · intro present
      rw [absent] at present
      cases present
    · rw [crowded.lookup_liveEntries] at held
      refine ⟨removed, value, held, fun entry member => ?_, others⟩
      exact least entry
        (List.mem_filter.mpr
          ⟨member, decide_eq_true (crowded.2 entry member)⟩)

/-! ## Histories -/

/-- However many keys are inserted, the map stays within its bound. -/
theorem size_insertedAll_le (calls : List (BoundedInsert Value)) :
    (insertedAll ttl stamp calls).size ≤ maxCacheEntries := by
  induction calls using List.reverseRecOn with
  | nil =>
      exact Nat.zero_le _
  | append_singleton earlier call inductionHypothesis =>
      rw [insertedAll, List.foldl_concat]
      exact call.size_perform_le ttl stamp inductionHypothesis

/--
After any history of calls, whatever the keys, the stamps of the values and the
readings of the clock, the map is within its bound, and the next call is fair.
-/
theorem insert_bounded_fair (earlier : List (BoundedInsert Value)) :
    (insertedAll ttl stamp earlier).size ≤ maxCacheEntries ∧
      ∀ call : BoundedInsert Value,
        call.Fair ttl stamp (insertedAll ttl stamp earlier)
          (insertedAll ttl stamp (earlier ++ [call])) := by
  refine ⟨size_insertedAll_le ttl stamp earlier, fun call => ?_⟩
  have isNext :
      insertedAll ttl stamp (earlier ++ [call]) =
        call.perform ttl stamp (insertedAll ttl stamp earlier) :=
    List.foldl_concat _ _ _ _
  rw [isNext]
  exact call.fair_perform ttl stamp (size_insertedAll_le ttl stamp earlier)

end Histories

end Quadpod
