import Quadpod.GraphStore

/-!
# Operations that find nothing to do

Dropping an empty graph, inserting what is there, deleting what is not and a
conditional form whose condition fails leave a store exactly as it is, the order
of its triples included.  An update of such operations is no update.
-/

namespace GraphStore

namespace Graph

variable {τ : Type} [DecidableEq τ]

theorem insert_of_mem {triple : τ} {graph : Graph τ}
    (member : triple ∈ graph) :
    graph.insert triple = graph :=
  dif_pos member

theorem insertAll_of_mem {added : List τ} {graph : Graph τ}
    (members : ∀ triple ∈ added, triple ∈ graph) :
    graph.insertAll added = graph := by
  induction added with
  | nil =>
      rfl
  | cons first rest inductionHypothesis =>
      rw [insertAll, insert_of_mem (members first List.mem_cons_self)]
      exact inductionHypothesis fun triple inRest =>
        members triple (List.mem_cons_of_mem _ inRest)

theorem removeAll_of_not_mem {removed : List τ} {graph : Graph τ}
    (absent : ∀ triple ∈ removed, triple ∉ graph) :
    graph.removeAll removed = graph := by
  obtain ⟨triples, nodup⟩ := graph
  have kept : triples.filter (· ∉ removed) = triples := by
    rw [List.filter_eq_self]
    intro triple member
    exact decide_eq_true fun isRemoved => absent triple isRemoved member
  simp only [removeAll, kept]

end Graph

variable {ν τ : Type} [DecidableEq ν] [DecidableEq τ]

/-- Blocks all of whose triples are where they go. -/
def Store.HasBlocks (store : Store ν τ) (blocks : List (ν × List τ)) : Prop :=
  ∀ block ∈ blocks, ∀ triple ∈ block.2, triple ∈ store block.1

/-- The operation has nothing to do on a store. -/
def Operation.Idle (store : Store ν τ) : Operation ν τ → Prop
  | .drop name => ∀ triple, triple ∉ store name
  | .insertData blocks => store.HasBlocks blocks
  | .deleteData name removed => ∀ triple ∈ removed, triple ∉ store name
  | .clearWhere _ condition => store.satisfies condition = false
  | .insertWhere _ condition => store.satisfies condition = false
  | .modifyWhere _ _ _ condition => store.satisfies condition = false

namespace Store

omit [DecidableEq τ] in
theorem update_of_empty {store : Store ν τ} {name : ν}
    (noTriple : ∀ triple, triple ∉ store name) :
    (Function.update store name Graph.empty : Store ν τ) = store := by
  rw [← Graph.eq_empty noTriple, Function.update_eq_self]

theorem insertBlocks_of_hasBlocks {store : Store ν τ}
    {blocks : List (ν × List τ)} (has : store.HasBlocks blocks) :
    insertBlocks blocks store = store := by
  induction blocks with
  | nil =>
      rfl
  | cons block rest inductionHypothesis =>
      obtain ⟨name, added⟩ := block
      have same :
          (Function.update store name ((store name).insertAll added) :
            Store ν τ) = store := by
        rw [Graph.insertAll_of_mem (has _ List.mem_cons_self),
          Function.update_eq_self]
      rw [insertBlocks, same]
      exact inductionHypothesis fun block inRest =>
        has block (List.mem_cons_of_mem _ inRest)

theorem apply_of_idle {store : Store ν τ} {operation : Operation ν τ}
    (idle : operation.Idle store) :
    store.apply operation = store := by
  cases operation with
  | drop name =>
      exact update_of_empty idle
  | insertData blocks =>
      exact insertBlocks_of_hasBlocks idle
  | deleteData name removed =>
      rw [apply, Graph.removeAll_of_not_mem idle, Function.update_eq_self]
  | clearWhere name condition =>
      have fails : store.satisfies condition = false := idle
      rw [apply, fails]
      rfl
  | insertWhere blocks condition =>
      have fails : store.satisfies condition = false := idle
      rw [apply, fails]
      rfl
  | modifyWhere name removed added condition =>
      have fails : store.satisfies condition = false := idle
      rw [apply, fails]
      rfl

theorem applyAll_of_idle {store : Store ν τ}
    {operations : List (Operation ν τ)}
    (idle : ∀ operation ∈ operations, operation.Idle store) :
    store.applyAll operations = store := by
  induction operations with
  | nil =>
      rfl
  | cons operation rest inductionHypothesis =>
      rw [applyAll_cons, apply_of_idle (idle operation List.mem_cons_self)]
      exact inductionHypothesis fun later inRest =>
        idle later (List.mem_cons_of_mem _ inRest)

end Store

end GraphStore
