import Mathlib.Data.List.Nodup
import Mathlib.Logic.Function.Basic

/-!
# Stores of named graphs

A graph is a finite set of triples kept in insertion order, and a store gives
every name a graph: a name that was never written holds the empty graph, so an
empty graph and an absent one cannot be told apart.  The update operations are
the forms of SPARQL Update with ground templates: dropping a graph, inserting
and deleting data, and the three conditional forms whose `WHERE` clause is a set
of ground triples.  A sequence of operations is one atomic update.

Names and triples are arbitrary types with decidable equality.
-/

namespace GraphStore

/-- A finite set of triples in insertion order. -/
structure Graph (τ : Type) where
  triples : List τ
  nodup : triples.Nodup

namespace Graph

variable {τ : Type}

instance : Membership τ (Graph τ) where
  mem graph triple := triple ∈ graph.triples

instance [DecidableEq τ] (graph : Graph τ) (triple : τ) :
    Decidable (triple ∈ graph) :=
  inferInstanceAs (Decidable (triple ∈ graph.triples))

theorem mem_triples {graph : Graph τ} {triple : τ} :
    triple ∈ graph.triples ↔ triple ∈ graph :=
  Iff.rfl

/-- The graph with no triple. -/
def empty : Graph τ where
  triples := []
  nodup := List.nodup_nil

@[simp] theorem triples_empty : (empty : Graph τ).triples = [] :=
  rfl

@[simp] theorem not_mem_empty (triple : τ) :
    triple ∉ (empty : Graph τ) :=
  List.not_mem_nil

theorem eq_empty
    {graph : Graph τ} (noTriple : ∀ triple, triple ∉ graph) :
    graph = empty := by
  obtain ⟨triples, nodup⟩ := graph
  obtain rfl : triples = [] :=
    List.eq_nil_iff_forall_not_mem.mpr noTriple
  rfl

variable [DecidableEq τ]

/-- Add one triple, at the end if it is new. -/
def insert (triple : τ) (graph : Graph τ) : Graph τ :=
  if fresh : triple ∈ graph.triples then
    graph
  else
    { triples := graph.triples ++ [triple]
      nodup := by
        rw [List.nodup_append]
        refine ⟨graph.nodup, List.nodup_singleton triple, ?_⟩
        intro first member second isTriple same
        rw [List.mem_singleton] at isTriple
        subst isTriple same
        exact fresh member }

/-- Add every triple of a list, in order. -/
def insertAll : List τ → Graph τ → Graph τ
  | [], graph => graph
  | triple :: rest, graph => insertAll rest (graph.insert triple)

/-- Remove every triple of a list. -/
def removeAll (removed : List τ) (graph : Graph τ) : Graph τ where
  triples := graph.triples.filter (· ∉ removed)
  nodup := graph.nodup.filter _

@[simp] theorem mem_insert {added triple : τ} {graph : Graph τ} :
    triple ∈ graph.insert added ↔ triple ∈ graph ∨ triple = added := by
  unfold insert
  split
  · next present =>
      constructor
      · exact Or.inl
      · rintro (member | rfl)
        · exact member
        · exact present
  · change triple ∈ graph.triples ++ [added] ↔ _
    rw [List.mem_append, List.mem_singleton]
    exact Iff.rfl

@[simp] theorem mem_insertAll
    {added : List τ} {triple : τ} {graph : Graph τ} :
    triple ∈ graph.insertAll added ↔ triple ∈ graph ∨ triple ∈ added := by
  induction added generalizing graph with
  | nil =>
      simp [insertAll]
  | cons first rest inductionHypothesis =>
      rw [insertAll, inductionHypothesis, mem_insert, List.mem_cons,
        or_assoc]

@[simp] theorem mem_removeAll
    {removed : List τ} {triple : τ} {graph : Graph τ} :
    triple ∈ graph.removeAll removed ↔
      triple ∈ graph ∧ triple ∉ removed := by
  change triple ∈ graph.triples.filter _ ↔ _
  rw [List.mem_filter]
  simp [mem_triples]

end Graph

/-- A store: one graph under every name. -/
abbrev Store (ν τ : Type) := ν → Graph τ

/-- Ground triples that have to be present, each in the graph it names. -/
abbrev Condition (ν τ : Type) := List (ν × τ)

/-- One update operation with ground templates. -/
inductive Operation (ν τ : Type) where
  /-- `DROP SILENT GRAPH` -/
  | drop (name : ν)
  /-- `INSERT DATA`, one block for each graph -/
  | insertData (blocks : List (ν × List τ))
  /-- `DELETE DATA` -/
  | deleteData (name : ν) (removed : List τ)
  /-- `DELETE { GRAPH g { ?s ?p ?o } } WHERE { GRAPH g { ?s ?p ?o } … }` -/
  | clearWhere (name : ν) (condition : Condition ν τ)
  /-- `INSERT { … } WHERE { … }` -/
  | insertWhere (blocks : List (ν × List τ)) (condition : Condition ν τ)
  /-- `WITH g DELETE { … } INSERT { … } WHERE { … }` -/
  | modifyWhere
      (name : ν) (removed added : List τ) (condition : Condition ν τ)
  deriving Repr, DecidableEq

namespace Store

variable {ν τ : Type} [DecidableEq ν] [DecidableEq τ]

/-- The store in which every graph is empty. -/
def empty : Store ν τ :=
  fun _ => Graph.empty

/-- Whether every triple of a condition is where it has to be. -/
def satisfies (store : Store ν τ) (condition : Condition ν τ) : Bool :=
  condition.all fun (name, triple) => triple ∈ store name

/-- Insert blocks of triples, each into its graph. -/
def insertBlocks :
    List (ν × List τ) → Store ν τ → Store ν τ
  | [], store => store
  | (name, added) :: rest, store =>
      insertBlocks rest
        (Function.update store name ((store name).insertAll added))

/-- The effect of one operation. -/
def apply (store : Store ν τ) : Operation ν τ → Store ν τ
  | .drop name =>
      Function.update store name Graph.empty
  | .insertData blocks =>
      insertBlocks blocks store
  | .deleteData name removed =>
      Function.update store name ((store name).removeAll removed)
  | .clearWhere name condition =>
      if store.satisfies condition then
        Function.update store name Graph.empty
      else
        store
  | .insertWhere blocks condition =>
      if store.satisfies condition then
        insertBlocks blocks store
      else
        store
  | .modifyWhere name removed added condition =>
      if store.satisfies condition then
        Function.update store name
          (((store name).removeAll removed).insertAll added)
      else
        store

/-- The effect of an update: its operations in order. -/
def applyAll (store : Store ν τ) (operations : List (Operation ν τ)) :
    Store ν τ :=
  operations.foldl apply store

omit [DecidableEq ν] in
@[simp] theorem satisfies_iff
    {store : Store ν τ} {condition : Condition ν τ} :
    store.satisfies condition = true ↔
      ∀ entry ∈ condition, entry.2 ∈ store entry.1 := by
  simp [satisfies]

@[simp] theorem applyAll_nil (store : Store ν τ) :
    store.applyAll [] = store :=
  rfl

@[simp] theorem applyAll_cons
    (store : Store ν τ)
    (operation : Operation ν τ)
    (rest : List (Operation ν τ)) :
    store.applyAll (operation :: rest) =
      (store.apply operation).applyAll rest :=
  rfl

theorem applyAll_append
    (store : Store ν τ)
    (first second : List (Operation ν τ)) :
    store.applyAll (first ++ second) =
      (store.applyAll first).applyAll second :=
  List.foldl_append

/-- A triple is inserted by a list of blocks exactly when a block lists it. -/
theorem mem_insertBlocks
    {blocks : List (ν × List τ)}
    {store : Store ν τ}
    {name : ν}
    {triple : τ} :
    triple ∈ insertBlocks blocks store name ↔
      triple ∈ store name ∨
        ∃ added, (name, added) ∈ blocks ∧ triple ∈ added := by
  induction blocks generalizing store with
  | nil =>
      simp [insertBlocks]
  | cons block rest inductionHypothesis =>
      obtain ⟨target, added⟩ := block
      rw [insertBlocks, inductionHypothesis]
      by_cases sameName : name = target
      · subst sameName
        rw [Function.update_self, Graph.mem_insertAll]
        simp [or_and_right, exists_or, or_assoc]
      · rw [Function.update_of_ne sameName]
        simp [sameName]

/-- Blocks for other graphs leave a graph as it was. -/
theorem insertBlocks_of_not_mem
    {blocks : List (ν × List τ)}
    {store : Store ν τ}
    {name : ν}
    (untouched : name ∉ blocks.map Prod.fst) :
    insertBlocks blocks store name = store name := by
  induction blocks generalizing store with
  | nil =>
      rfl
  | cons block rest inductionHypothesis =>
      obtain ⟨target, added⟩ := block
      simp only [List.map_cons, List.mem_cons, not_or] at untouched
      rw [insertBlocks, inductionHypothesis untouched.2,
        Function.update_of_ne untouched.1]

/-- Dropping graphs empties exactly the graphs listed. -/
theorem applyAll_drop
    (names : List ν)
    (store : Store ν τ)
    (name : ν) :
    store.applyAll (names.map .drop) name =
      if name ∈ names then Graph.empty else store name := by
  induction names generalizing store with
  | nil =>
      simp
  | cons first rest inductionHypothesis =>
      rw [List.map_cons, applyAll_cons, inductionHypothesis, apply]
      by_cases inRest : name ∈ rest
      · simp [inRest]
      · by_cases isFirst : name = first
        · subst isFirst
          simp
        · simp [inRest, isFirst]

end Store

namespace Operation

variable {ν τ : Type}

/-- The graphs an operation can change. -/
def touches : Operation ν τ → List ν
  | .drop name => [name]
  | .insertData blocks => blocks.map Prod.fst
  | .deleteData name _ => [name]
  | .clearWhere name _ => [name]
  | .insertWhere blocks _ => blocks.map Prod.fst
  | .modifyWhere name _ _ _ => [name]

/-- The triples an operation can add, each with its graph. -/
def adds : Operation ν τ → List (ν × τ)
  | .insertData blocks =>
      blocks.flatMap fun block => block.2.map (block.1, ·)
  | .insertWhere blocks _ =>
      blocks.flatMap fun block => block.2.map (block.1, ·)
  | .modifyWhere name _ added _ => added.map (name, ·)
  | _ => []

/-- The operation with every triple in it replaced. -/
def map (replace : τ → τ) : Operation ν τ → Operation ν τ
  | .drop name => .drop name
  | .insertData blocks =>
      .insertData (blocks.map (Prod.map id (List.map replace)))
  | .deleteData name removed => .deleteData name (removed.map replace)
  | .clearWhere name condition =>
      .clearWhere name (condition.map (Prod.map id replace))
  | .insertWhere blocks condition =>
      .insertWhere (blocks.map (Prod.map id (List.map replace)))
        (condition.map (Prod.map id replace))
  | .modifyWhere name removed added condition =>
      .modifyWhere name (removed.map replace) (added.map replace)
        (condition.map (Prod.map id replace))

end Operation

namespace Store

variable {ν τ : Type} [DecidableEq ν] [DecidableEq τ]

/-- An operation leaves every graph it does not touch as it was. -/
theorem apply_of_not_touched
    {store : Store ν τ}
    {operation : Operation ν τ}
    {name : ν}
    (untouched : name ∉ operation.touches) :
    store.apply operation name = store name := by
  cases operation with
  | drop target =>
      rw [Operation.touches, List.mem_singleton] at untouched
      rw [apply, Function.update_of_ne untouched]
  | insertData blocks =>
      exact insertBlocks_of_not_mem untouched
  | deleteData target removed =>
      rw [Operation.touches, List.mem_singleton] at untouched
      rw [apply, Function.update_of_ne untouched]
  | clearWhere target condition =>
      rw [Operation.touches, List.mem_singleton] at untouched
      rw [apply]
      split
      · rw [Function.update_of_ne untouched]
      · rfl
  | insertWhere blocks condition =>
      rw [apply]
      split
      · exact insertBlocks_of_not_mem untouched
      · rfl
  | modifyWhere target removed added condition =>
      rw [Operation.touches, List.mem_singleton] at untouched
      rw [apply]
      split
      · rw [Function.update_of_ne untouched]
      · rfl

/-- An update leaves every graph none of its operations touches as it was. -/
theorem applyAll_of_not_touched
    {store : Store ν τ}
    {operations : List (Operation ν τ)}
    {name : ν}
    (untouched :
      ∀ operation ∈ operations, name ∉ operation.touches) :
    store.applyAll operations name = store name := by
  induction operations generalizing store with
  | nil =>
      rfl
  | cons operation rest inductionHypothesis =>
      have headUntouched := untouched operation (by simp)
      have tailUntouched :
          ∀ later ∈ rest, name ∉ later.touches :=
        fun later member => untouched later (by simp [member])
      rw [applyAll_cons, inductionHypothesis tailUntouched,
        apply_of_not_touched headUntouched]

/-- Every triple after an operation was there before or was added by it. -/
theorem mem_apply
    {store : Store ν τ}
    {operation : Operation ν τ}
    {name : ν}
    {triple : τ}
    (member : triple ∈ store.apply operation name) :
    triple ∈ store name ∨ (name, triple) ∈ operation.adds := by
  have inserted :
      ∀ blocks : List (ν × List τ),
        triple ∈ insertBlocks blocks store name →
        triple ∈ store name ∨
          (name, triple) ∈
            blocks.flatMap fun block => block.2.map (block.1, ·) := by
    intro blocks isThere
    rcases mem_insertBlocks.mp isThere with old | ⟨added, inBlocks, inAdded⟩
    · exact Or.inl old
    · refine Or.inr (List.mem_flatMap.mpr ⟨(name, added), inBlocks, ?_⟩)
      exact List.mem_map.mpr ⟨triple, inAdded, rfl⟩
  have replaced :
      ∀ (target : ν) (graph : Graph τ),
        triple ∈ (Function.update store target graph : Store ν τ) name →
        triple ∈ store name ∨ (name = target ∧ triple ∈ graph) := by
    intro target graph isThere
    by_cases sameName : name = target
    · subst sameName
      rw [Function.update_self] at isThere
      exact Or.inr ⟨rfl, isThere⟩
    · rw [Function.update_of_ne sameName] at isThere
      exact Or.inl isThere
  cases operation with
  | drop target =>
      rcases replaced target _ member with old | ⟨_, isEmpty⟩
      · exact Or.inl old
      · exact (Graph.not_mem_empty triple isEmpty).elim
  | insertData blocks =>
      exact inserted blocks member
  | deleteData target removed =>
      rcases replaced target _ member with old | ⟨sameName, kept⟩
      · exact Or.inl old
      · rw [Graph.mem_removeAll] at kept
        exact Or.inl (sameName ▸ kept.1)
  | clearWhere target condition =>
      rw [apply] at member
      split at member
      · rcases replaced target _ member with old | ⟨_, isEmpty⟩
        · exact Or.inl old
        · exact (Graph.not_mem_empty triple isEmpty).elim
      · exact Or.inl member
  | insertWhere blocks condition =>
      rw [apply] at member
      split at member
      · exact inserted blocks member
      · exact Or.inl member
  | modifyWhere target removed added condition =>
      rw [apply] at member
      split at member
      · rcases replaced target _ member with old | ⟨sameName, kept⟩
        · exact Or.inl old
        · rw [Graph.mem_insertAll, Graph.mem_removeAll] at kept
          rcases kept with old | isAdded
          · exact Or.inl (sameName ▸ old.1)
          · subst sameName
            exact Or.inr (List.mem_map.mpr ⟨triple, isAdded, rfl⟩)
      · exact Or.inl member

/-- Every triple after an update was there before or was added by it. -/
theorem mem_applyAll
    {store : Store ν τ}
    {operations : List (Operation ν τ)}
    {name : ν}
    {triple : τ}
    (member : triple ∈ store.applyAll operations name) :
    triple ∈ store name ∨
      ∃ operation ∈ operations, (name, triple) ∈ operation.adds := by
  induction operations generalizing store with
  | nil =>
      exact Or.inl member
  | cons operation rest inductionHypothesis =>
      rcases inductionHypothesis member with early | ⟨later, inRest, isAdded⟩
      · rcases mem_apply early with old | isAdded
        · exact Or.inl old
        · exact Or.inr ⟨operation, by simp, isAdded⟩
      · exact Or.inr ⟨later, by simp [inRest], isAdded⟩

/-- The update that drops some graphs and then inserts blocks of triples. -/
def replacing (names : List ν) (inserted : List (List (ν × List τ))) :
    List (Operation ν τ) :=
  names.map .drop ++ inserted.map .insertData

/-- What a replacing update leaves: what was not dropped, and what it inserts. -/
theorem mem_applyAll_replacing
    {store : Store ν τ}
    {names : List ν}
    {inserted : List (List (ν × List τ))}
    {name : ν}
    {triple : τ} :
    triple ∈ store.applyAll (replacing names inserted) name ↔
      (triple ∈ store name ∧ name ∉ names) ∨
        ∃ blocks ∈ inserted, ∃ added, (name, added) ∈ blocks ∧ triple ∈ added := by
  have insertions :
      ∀ store : Store ν τ,
        triple ∈ store.applyAll (inserted.map .insertData) name ↔
          triple ∈ store name ∨
            ∃ blocks ∈ inserted,
              ∃ added, (name, added) ∈ blocks ∧ triple ∈ added := by
    induction inserted with
    | nil =>
        simp
    | cons first rest inductionHypothesis =>
        intro store
        rw [List.map_cons, applyAll_cons, inductionHypothesis, apply,
          mem_insertBlocks]
        simp [or_assoc]
  rw [replacing, applyAll_append, insertions, applyAll_drop]
  by_cases isDropped : name ∈ names
  · simp [isDropped]
  · simp [isDropped]

/-- A graph that an update drops and adds nothing to is empty after it. -/
theorem not_mem_applyAll_of_drop
    {store : Store ν τ}
    {operations : List (Operation ν τ)}
    {name : ν}
    {triple : τ}
    (dropped : .drop name ∈ operations)
    (notAdded :
      ∀ operation ∈ operations, (name, triple) ∉ operation.adds) :
    triple ∉ store.applyAll operations name := by
  intro member
  obtain ⟨before, after, rfl⟩ := List.append_of_mem dropped
  rw [applyAll_append, applyAll_cons] at member
  rcases mem_applyAll member with early | ⟨later, inAfter, isAdded⟩
  · rw [apply, Function.update_self] at early
    exact Graph.not_mem_empty triple early
  · exact notAdded later (by simp [inAfter]) isAdded

end Store

end GraphStore
