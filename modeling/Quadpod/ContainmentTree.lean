import Mathlib.Data.Set.Basic

/-!
# Listed hierarchies

A hierarchy in which every node has at most one parent, and a listing that says
which nodes exist and which names each node lists as its members.  A listing is
coherent when the two agree.  There are two ways to change a listing that keep
it coherent: creating nodes together with the entries that name them, and
deleting a node without members together with its entry.
-/

namespace ContainmentTree

variable {Node Name : Type}

/-- How nodes are arranged and what they are called. -/
structure Shape (Node Name : Type) where
  parent : Node → Option Node
  nameOf : Node → Name
  nameInjective : Function.Injective nameOf

/-- Which nodes exist and which names each of them lists. -/
structure Listing (Node Name : Type) where
  present : Node → Prop
  lists : Node → Name → Prop

variable {shape : Shape Node Name} {before after : Listing Node Name}

/-- Existence and listings agree. -/
structure Coherent
    (shape : Shape Node Name) (listing : Listing Node Name) : Prop where
  roots : ∀ node, shape.parent node = none → listing.present node
  listed :
    ∀ node above,
      listing.present node →
      shape.parent node = some above →
      listing.present above ∧ listing.lists above (shape.nameOf node)
  direct :
    ∀ above name,
      listing.lists above name →
      ∃ node,
        shape.nameOf node = name ∧ shape.parent node = some above ∧
          listing.present node

/-- A node that does not exist lists nothing. -/
theorem Coherent.lists_nothing
    (coherent : Coherent shape before)
    {above : Node}
    (absent : ¬ before.present above)
    (name : Name) :
    ¬ before.lists above name := by
  intro isListed
  obtain ⟨node, _, isAbove, isPresent⟩ :=
    coherent.direct above name isListed
  exact absent (coherent.listed node above isPresent isAbove).1

/-- Some nodes are created, each with the entry that names it. -/
structure Creates
    (shape : Shape Node Name) (created : Node → Prop)
    (before after : Listing Node Name) : Prop where
  present :
    ∀ node, after.present node ↔ before.present node ∨ created node
  lists :
    ∀ above name,
      after.lists above name ↔
        before.lists above name ∨
          ∃ node,
            created node ∧ shape.nameOf node = name ∧
              shape.parent node = some above
  supported :
    ∀ node above,
      created node →
      shape.parent node = some above →
      after.present above

/-- A change that creates and lists nothing. -/
theorem creates_nothing
    (present : ∀ node, after.present node ↔ before.present node)
    (lists : ∀ above name, after.lists above name ↔ before.lists above name) :
    Creates shape (fun _ => False) before after where
  present := by simpa using present
  lists := by simpa using lists
  supported := by simp

theorem Coherent.creates
    {created : Node → Prop}
    (coherent : Coherent shape before)
    (creates : Creates shape created before after) :
    Coherent shape after where
  roots := fun node isRoot =>
    (creates.present node).mpr (Or.inl (coherent.roots node isRoot))
  listed := by
    intro node above isPresent isAbove
    rcases (creates.present node).mp isPresent with old | new
    · obtain ⟨abovePresent, isListed⟩ :=
        coherent.listed node above old isAbove
      exact ⟨(creates.present above).mpr (Or.inl abovePresent),
        (creates.lists above _).mpr (Or.inl isListed)⟩
    · exact ⟨creates.supported node above new isAbove,
        (creates.lists above _).mpr (Or.inr ⟨node, new, rfl, isAbove⟩)⟩
  direct := by
    intro above name isListed
    rcases (creates.lists above name).mp isListed with
        old | ⟨node, new, isName, isAbove⟩
    · obtain ⟨node, isName, isAbove, isPresent⟩ :=
        coherent.direct above name old
      exact ⟨node, isName, isAbove,
        (creates.present node).mpr (Or.inl isPresent)⟩
    · exact ⟨node, isName, isAbove,
        (creates.present node).mpr (Or.inr new)⟩

/-- A node that lists nothing is deleted with the entry that names it. -/
structure Deletes
    (shape : Shape Node Name) (deleted : Node)
    (before after : Listing Node Name) : Prop where
  notRoot : shape.parent deleted ≠ none
  memberless : ∀ name, ¬ before.lists deleted name
  present :
    ∀ node, after.present node ↔ before.present node ∧ node ≠ deleted
  lists :
    ∀ above name,
      after.lists above name ↔
        before.lists above name ∧
          ¬ (name = shape.nameOf deleted ∧
            shape.parent deleted = some above)

theorem Coherent.deletes
    {deleted : Node}
    (coherent : Coherent shape before)
    (deletes : Deletes shape deleted before after) :
    Coherent shape after where
  roots := by
    intro node isRoot
    refine (deletes.present node).mpr ⟨coherent.roots node isRoot, ?_⟩
    rintro rfl
    exact deletes.notRoot isRoot
  listed := by
    intro node above isPresent isAbove
    obtain ⟨old, kept⟩ := (deletes.present node).mp isPresent
    obtain ⟨abovePresent, isListed⟩ := coherent.listed node above old isAbove
    constructor
    · refine (deletes.present above).mpr ⟨abovePresent, ?_⟩
      rintro rfl
      exact deletes.memberless _ isListed
    · refine (deletes.lists above _).mpr ⟨isListed, ?_⟩
      rintro ⟨sameName, _⟩
      exact kept (shape.nameInjective sameName)
  direct := by
    intro above name isListed
    obtain ⟨old, notRemoved⟩ := (deletes.lists above name).mp isListed
    obtain ⟨node, rfl, isAbove, isPresent⟩ := coherent.direct above name old
    refine ⟨node, rfl, isAbove, (deletes.present node).mpr ⟨isPresent, ?_⟩⟩
    rintro rfl
    exact notRemoved ⟨rfl, isAbove⟩

end ContainmentTree
