import Quadpod.HttpWrite

namespace Quadpod

open AtomicProgram

/-!
# The pod as a state machine

A pod is provisioned once (`main.rs`) and then serves requests.  A state is
reachable when a finite sequence of write requests leads to it, each handled to
its end before the next one starts; any store call may fail on the way.  What a
request may be is a parameter, so that a result can speak about all requests or
about those of one kind.
-/

variable [IriSyntax] [Sha256] [ObjectPath] [QuadText]
variable [RdfParser] [RdfSerializer] [ShapeEngine] [N3Parser]

/-- Stores with nothing in them. -/
def World.empty : World where
  graphs := GraphStore.Store.empty
  blobs := fun _ => none

/-- What `main` does before it listens. -/
def provision
    (space : StorageSpace) (ownerWebId : NamedNode) (reset : Bool)
    (fresh : Nat → Uuid) : ResourceProgram Unit := do
  provisionRoot space.root
  provisionRootAcl space ownerWebId reset fresh

/-- Whether and how each store call of a request fails. -/
abbrev Faults := List (Option Text)

/-- The world a request leaves. -/
def afterRequest
    (space : StorageSpace) (storeVersion : RdfVersion)
    (request : Request) (faults : Faults) (world : World) : World :=
  (Program.run backend (handle space storeVersion request) faults world).world

/-- A world `main` starts to listen with, for the owner given. -/
def ProvisionedFor
    (space : StorageSpace) (ownerWebId : NamedNode) (world : World) : Prop :=
  ∃ (reset : Bool) (fresh : Nat → Uuid),
    Program.run backend (provision space ownerWebId reset fresh) []
      World.empty = ⟨.ok (), world, []⟩

/-- A world `main` starts to listen with. -/
def Provisioned (space : StorageSpace) (world : World) : Prop :=
  ∃ ownerWebId, ProvisionedFor space ownerWebId world

/-- The worlds a sequence of admitted requests leads to. -/
inductive Reachable
    (space : StorageSpace) (storeVersion : RdfVersion)
    (start : World → Prop)
    (admitted : World → Request → Faults → Prop) : World → Prop where
  | start (world : World) (started : start world) :
      Reachable space storeVersion start admitted world
  | request
      (world : World) (request : Request) (faults : Faults)
      (before : Reachable space storeVersion start admitted world)
      (admits : admitted world request faults) :
      Reachable space storeVersion start admitted
        (afterRequest space storeVersion request faults world)

/-- Any request, any failures. -/
def anyRequest : World → Request → Faults → Prop :=
  fun _ _ _ => True

/-- What holds at the start and is kept by every admitted request. -/
theorem Reachable.invariant
    {space : StorageSpace} {storeVersion : RdfVersion}
    {start : World → Prop}
    {admitted : World → Request → Faults → Prop}
    {world : World}
    (reachable : Reachable space storeVersion start admitted world)
    (invariant : World → Prop)
    (initially : ∀ world, start world → invariant world)
    (step :
      ∀ world request faults,
        invariant world →
        admitted world request faults →
        invariant (afterRequest space storeVersion request faults world)) :
    invariant world := by
  induction reachable with
  | start world started =>
      exact initially world started
  | request world request faults before admits inductionHypothesis =>
      exact step world request faults inductionHypothesis admits

end Quadpod
