import Quadpod.Footprints
import Quadpod.PodRuns

namespace Quadpod

open AtomicProgram
open GraphStore

/-!
# Invariants of a pod

What holds after provisioning and is kept by every request holds in every
reachable state.  The first invariant is the ownership of the registries, which
the footprint of every storage write rests on.
-/

variable [IriSyntax] [Sha256] [ObjectPath] [QuadText]
variable [RdfParser] [RdfSerializer] [ShapeEngine] [N3Parser]
variable {space : StorageSpace} {storeVersion : RdfVersion}

/-! ## Provisioning -/

/-- What the root ACL's text parses to. -/
def rootAclParse (space : StorageSpace) (ownerWebId : NamedNode) :
    Except RdfError Dataset :=
  Format.turtle.parse
    (Text.utf8 (rootAclTurtle (graphIri space.root) ownerWebId.iri))
    (graphIri space.root.resource.acl) .rdf11

/-- The calls of `provision_root_acl` when it writes the document. -/
def rootAclCalls (space : StorageSpace) (triples : List GroundTriple) :
    List Call :=
  ensureCall space.root ::
    (StorageWrite.auxiliary space.root.resource.acl triples).calls World.empty

omit [QuadText] [RdfParser] [RdfSerializer] [ShapeEngine] [N3Parser] in
/-- A write of the root ACL that succeeds performed its one update. -/
theorem ensures_auxPut_ok
    (fresh : Nat → Uuid) (url : AuxUrl space) (triples : List Triple)
    (world : World) :
    Program.Ensures backend False (auxPut fresh url triples) world
      fun result reached =>
        result = .ok () →
        triples.length ≤ maxAuxTriples ∧
          reached =
            backend.after world
              ((StorageWrite.auxiliary url
                (skolemizedTriples fresh triples)).calls World.empty) := by
  unfold auxPut
  split
  · exact Program.ensures_fail fun impossible => by cases impossible
  · next small =>
    refine (ensures_write rfl).bind ?_ ?_
    · intro _ reached carries
      obtain rfl := carries.complete _ rfl
      refine ReadsOnly.ensures_bind (readsOnly_exists url).mapError ?_ ?_
      · intro isPresent
        cases isPresent with
        | true =>
            exact Program.ensures_done fun _ => ⟨Nat.not_lt.mp small, rfl⟩
        | false =>
            exact Program.ensures_fail fun impossible => by cases impossible
      · intro error impossible
        cases impossible
    · intro error reached _ impossible
      cases impossible

omit [QuadText] [RdfSerializer] [ShapeEngine] [N3Parser] in
theorem ensures_provisionRootAcl
    (ownerWebId : NamedNode) (reset : Bool) (fresh : Nat → Uuid)
    (world : World) :
    Program.Ensures backend False
      (provisionRootAcl space ownerWebId reset fresh) world
      fun result reached =>
        result = .ok () →
        reached = world ∨
          ∃ body,
            rootAclParse space ownerWebId = .ok body ∧
              body.triplesOf.length ≤ maxAuxTriples ∧
              reached =
                backend.after world
                  (rootAclCalls space
                    (skolemizedTriples fresh body.triplesOf)) := by
  refine ReadsOnly.ensures_bind (readsOnly_exists space.root.resource.acl)
    ?_ fun error impossible => by cases impossible
  intro present
  split
  · exact Program.ensures_done fun _ => Or.inl rfl
  · refine (ensures_ensureContainer False space.root world).bind ?_ ?_
    · intro _ reached carries
      obtain rfl := carries.complete _ rfl
      refine Program.ensures_ofExcept_bind ?_ ?_
      · intro body parsed
        have isParsed : rootAclParse space ownerWebId = .ok body := by
          unfold rootAclParse
          cases result :
              Format.turtle.parse
                (Text.utf8 (rootAclTurtle (graphIri space.root)
                  ownerWebId.iri))
                (graphIri space.root.resource.acl) .rdf11 with
          | ok value =>
              rw [result] at parsed
              cases parsed
              rfl
          | error error =>
              rw [result] at parsed
              cases parsed
        have attempted :
            Program.Ensures backend False
              ((auxPut fresh space.root.resource.acl
                body.triplesOf).attempt :
                  ResourceProgram (Except AuxError Unit))
              (backend.after world [ensureCall space.root])
              fun result reached =>
                result = .ok (.ok ()) →
                body.triplesOf.length ≤ maxAuxTriples ∧
                  reached =
                    backend.after
                      (backend.after world [ensureCall space.root])
                      ((StorageWrite.auxiliary space.root.resource.acl
                        (skolemizedTriples fresh body.triplesOf)).calls
                          World.empty) := by
          refine Program.Ensures.attempt
            ((ensures_auxPut_ok fresh space.root.resource.acl body.triplesOf
              _).mono ?_)
          intro result reached holds isOk
          rw [Except.ok.injEq] at isOk
          exact holds isOk
        refine attempted.bind ?_ fun error reached _ impossible => by
          cases impossible
        intro result reached holds
        rcases result with (_ | _ | _ | _) | ⟨⟩
        all_goals first
          | exact Program.ensures_fail fun impossible => by cases impossible
          | exact Program.ensures_done fun _ =>
              Or.inr ⟨body, isParsed, holds rfl⟩
      · intro error _ impossible
        cases impossible
    · intro error reached _ impossible
      cases impossible

omit [QuadText] [RdfSerializer] [ShapeEngine] [N3Parser] in
/-- A provisioned world holds the root container and, if written, its ACL. -/
theorem ProvisionedFor.exists_calls
    {ownerWebId : NamedNode} {world : World}
    (provisioned : ProvisionedFor space ownerWebId world) :
    ∃ later,
      world = backend.after World.empty (ensureCall space.root :: later) ∧
        (later = [] ∨
          ∃ (fresh : Nat → Uuid) (body : Dataset),
            rootAclParse space ownerWebId = .ok body ∧
              body.triplesOf.length ≤ maxAuxTriples ∧
              later =
                rootAclCalls space
                  (skolemizedTriples fresh body.triplesOf)) := by
  obtain ⟨reset, fresh, runs⟩ := provisioned
  have whole :
      Program.Ensures backend False
        (provision space ownerWebId reset fresh) World.empty
        fun result reached =>
          result = .ok () →
          reached = backend.after World.empty [ensureCall space.root] ∨
            ∃ body,
              rootAclParse space ownerWebId = .ok body ∧
                body.triplesOf.length ≤ maxAuxTriples ∧
                reached =
                  backend.after
                    (backend.after World.empty [ensureCall space.root])
                    (rootAclCalls space
                      (skolemizedTriples fresh body.triplesOf)) := by
    refine (ensures_ensureContainer False space.root World.empty).bind ?_ ?_
    · intro _ reached carries
      obtain rfl := carries.complete _ rfl
      exact ensures_provisionRootAcl ownerWebId reset fresh _
    · intro error reached carries
      exact (carries.failed error rfl).elim
  have finished := whole [] (Or.inr (by simp))
  rw [runs] at finished
  rcases finished rfl with isStarted | ⟨body, parsed, small, isWritten⟩
  · exact ⟨[], isStarted, Or.inl rfl⟩
  · rw [← Machine.after_append] at isWritten
    exact ⟨_, isWritten, Or.inr ⟨fresh, body, parsed, small, rfl⟩⟩

omit [QuadText] [RdfSerializer] [ShapeEngine] [N3Parser] in
/-- What the calls of provisioning keep holds of a provisioned world. -/
theorem Provisioned.invariant
    {world : World}
    (provisioned : Provisioned space world)
    (invariant : World → Prop)
    (initially : invariant World.empty)
    (keeps :
      ∀ world call,
        call = ensureCall space.root ∨
          (∃ (fresh : Nat → Uuid) (triples : List Triple),
            triples.length ≤ maxAuxTriples ∧
              call ∈
                (StorageWrite.auxiliary space.root.resource.acl
                  (skolemizedTriples fresh triples)).calls World.empty) →
        invariant world →
        invariant (backend.perform world call).2) :
    invariant world := by
  obtain ⟨ownerWebId, provisionedFor⟩ := provisioned
  obtain ⟨later, rfl, isLater⟩ := provisionedFor.exists_calls
  have performed :
      backend.Performs False World.empty (ensureCall space.root :: later)
        (backend.after World.empty (ensureCall space.root :: later)) :=
    backend.performs_all World.empty _
  refine performed.invariant invariant initially ?_
  intro middle call member
  refine keeps middle call ?_
  rcases List.mem_cons.mp member with isFirst | inLater
  · exact Or.inl isFirst
  · rcases isLater with rfl | ⟨fresh, body, _, small, rfl⟩
    · cases inLater
    · rcases List.mem_cons.mp inLater with isSecond | isWrite
      · exact Or.inl isSecond
      · exact Or.inr ⟨fresh, body.triplesOf, small, isWrite⟩

/-! ## Requests -/

/-- What one request does to the world it finds. -/
theorem afterRequest_cases
    (mayFail : Prop) {request : Request} {faults : Faults} {world : World}
    (plays : mayFail ∨ ∀ fault ∈ faults, fault = none) :
    afterRequest space storeVersion request faults world = world ∨
      ∃ target : Target space,
        classify space request.path = .ok target ∧
          RequestEffect mayFail storeVersion world request target
            (afterRequest space storeVersion request faults world) :=
  ensures_handle space storeVersion request world faults plays

/-! ## Registries -/

omit [QuadText] [RdfSerializer] [ShapeEngine] [N3Parser] in
theorem Provisioned.registersOwn
    {world : World} (provisioned : Provisioned space world) :
    world.RegistersOwn space := by
  refine provisioned.invariant (·.RegistersOwn space) ?_ ?_
  · intro url triple member
    cases member
  · rintro world call (rfl | ⟨fresh, triples, _, member⟩) owned
    · refine owned.perform ?_
      have listed :
          ensureCall space.root ∈ planCalls [(space.root, none)] := by
        simp [planCalls]
      exact registers_planCalls listed
    · exact owned.perform (registers_calls member)

theorem registersOwn_afterRequest
    {world : World} (request : Request) (faults : Faults)
    (owned : world.RegistersOwn space) :
    (afterRequest space storeVersion request faults
      world).RegistersOwn space := by
  rcases afterRequest_cases True (Or.inl trivial) with
      same | ⟨target, _, effect⟩
  · rw [same]
    exact owned
  · exact effect.registersOwn owned

/-- In every reachable world every registry lists only its own shelves. -/
theorem Reachable.registersOwn
    {start : World → Prop}
    {admitted : World → Request → Faults → Prop}
    {world : World}
    (started : ∀ world, start world → world.RegistersOwn space)
    (reachable : Reachable space storeVersion start admitted world) :
    world.RegistersOwn space :=
  reachable.invariant (·.RegistersOwn space) started
    fun _ request faults owned _ =>
      registersOwn_afterRequest request faults owned

end Quadpod
