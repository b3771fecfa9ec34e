import Quadpod.AtomicProgram

/-!
# Interleavings of atomic programs

Any number of programs share one world.  A scheduler repeatedly picks a program
and lets it make its next call, which is answered or made to fail; nothing
happens between two calls.  The configuration records which program performed
which call, so a property may speak about the history as well as about the
world.

Every intermediate configuration of a schedule is the last one of a prefix of
that schedule, so a property of the last configuration of every schedule is a
property of every reachable configuration.
-/

namespace AtomicProgram

/-- A world, the programs sharing it, and the calls performed, newest first. -/
structure Config (I : Interface) (ε α World : Type) where
  world : World
  pool : List (Program I ε α)
  history : List (Nat × I.Call)

/-- One scheduling decision: whose turn it is, and whether its call fails. -/
structure Turn (I : Interface) where
  thread : Nat
  fault : Option I.Fault

namespace Config

variable {I : Interface} {ε α World : Type}

/-- Programs that are about to share a world. -/
def start (world : World) (pool : List (Program I ε α)) :
    Config I ε α World where
  world := world
  pool := pool
  history := []

/-- No program is in progress. -/
def Quiescent (config : Config I ε α World) : Prop :=
  ∀ program ∈ config.pool, program.Finished

instance (config : Config I ε α World) : Decidable config.Quiescent :=
  inferInstanceAs (Decidable (∀ program ∈ config.pool, program.Finished))

/-- Let one program make its next call; a finished program has none to make. -/
def advance
    (machine : Machine I World)
    (turn : Turn I)
    (config : Config I ε α World) :
    Config I ε α World :=
  match config.pool[turn.thread]? with
  | some (.call request next) =>
      match turn.fault with
      | some fault =>
          { config with
            pool := config.pool.set turn.thread (next (.error fault)) }
      | none =>
          let answer := machine.perform config.world request
          { world := answer.2
            pool := config.pool.set turn.thread (next answer.1)
            history := (turn.thread, request) :: config.history }
  | _ => config

/-- Let the programs run under a schedule. -/
def execute
    (machine : Machine I World) :
    List (Turn I) → Config I ε α World → Config I ε α World
  | [], config => config
  | turn :: rest, config => execute machine rest (config.advance machine turn)

theorem execute_append
    (machine : Machine I World)
    (first second : List (Turn I))
    (config : Config I ε α World) :
    execute machine (first ++ second) config =
      execute machine second (execute machine first config) := by
  induction first generalizing config with
  | nil =>
      rfl
  | cons turn rest inductionHypothesis =>
      exact inductionHypothesis _

/-- Every turn of a schedule is taken in a configuration that allows it. -/
def Admits
    (machine : Machine I World)
    (allowed : Config I ε α World → Turn I → Prop) :
    List (Turn I) → Config I ε α World → Prop
  | [], _ => True
  | turn :: rest, config =>
      allowed config turn ∧
        Admits machine allowed rest (config.advance machine turn)

/-- One turn: the thread had no call, its call failed, or it was performed. -/
theorem advance_cases
    (machine : Machine I World)
    (turn : Turn I)
    (config : Config I ε α World) :
    config.advance machine turn = config ∨
      ∃ request next,
        config.pool[turn.thread]? = some (.call request next) ∧
          ((∃ fault,
              turn.fault = some fault ∧
              config.advance machine turn =
                { config with
                  pool :=
                    config.pool.set turn.thread (next (.error fault)) }) ∨
            (turn.fault = none ∧
              config.advance machine turn =
                { world := (machine.perform config.world request).2
                  pool :=
                    config.pool.set turn.thread
                      (next (machine.perform config.world request).1)
                  history := (turn.thread, request) :: config.history })) := by
  unfold advance
  split
  · next request next found =>
      refine Or.inr ⟨request, next, found, ?_⟩
      cases faulty : turn.fault with
      | none =>
          exact Or.inr ⟨rfl, rfl⟩
      | some fault =>
          exact Or.inl ⟨fault, rfl, rfl⟩
  · exact Or.inl rfl

/-- A turn of one program leaves the others where they are. -/
theorem advance_other
    (machine : Machine I World)
    {turn : Turn I}
    {config : Config I ε α World}
    {thread : Nat}
    (isOther : turn.thread ≠ thread) :
    (config.advance machine turn).pool[thread]? = config.pool[thread]? := by
  rcases advance_cases machine turn config with
    same | ⟨request, next, found, ⟨fault, _, reached⟩ | ⟨_, reached⟩⟩
  · rw [same]
  · rw [reached, List.getElem?_set_ne isOther]
  · rw [reached, List.getElem?_set_ne isOther]

/-- The turn of a program whose call is answered. -/
theorem advance_answered
    (machine : Machine I World)
    {config : Config I ε α World}
    {thread : Nat}
    {request : I.Call}
    {next : Except I.Fault (I.Reply request) → Program I ε α}
    (isCall : config.pool[thread]? = some (.call request next)) :
    (config.advance machine ⟨thread, none⟩).pool[thread]? =
        some (next (machine.perform config.world request).1) ∧
      (config.advance machine ⟨thread, none⟩).world =
        (machine.perform config.world request).2 := by
  have inPool := (List.getElem?_eq_some_iff.mp isCall).1
  unfold advance
  simp only [isCall]
  exact ⟨by simp [inPool], trivial⟩

/-- The turn of a program whose call is made to fail. -/
theorem advance_faulted
    (machine : Machine I World)
    {config : Config I ε α World}
    {thread : Nat}
    {request : I.Call}
    {next : Except I.Fault (I.Reply request) → Program I ε α}
    (isCall : config.pool[thread]? = some (.call request next))
    (fault : I.Fault) :
    (config.advance machine ⟨thread, some fault⟩).pool[thread]? =
        some (next (.error fault)) ∧
      (config.advance machine ⟨thread, some fault⟩).world = config.world := by
  have inPool := (List.getElem?_eq_some_iff.mp isCall).1
  unfold advance
  simp only [isCall]
  exact ⟨by simp [inPool], trivial⟩

/-- The turn of a program that has finished. -/
theorem advance_finished
    (machine : Machine I World)
    {turn : Turn I}
    {config : Config I ε α World}
    {program : Program I ε α}
    (isProgram : config.pool[turn.thread]? = some program)
    (finished : program.Finished) :
    config.advance machine turn = config := by
  unfold advance
  rw [isProgram]
  cases program with
  | done value =>
      rfl
  | fail error =>
      rfl
  | call request next =>
      exact finished.elim

/-- What every allowed turn keeps holds at the end of an admitted schedule. -/
theorem execute_invariant
    (machine : Machine I World)
    {allowed : Config I ε α World → Turn I → Prop}
    {invariant : Config I ε α World → Prop}
    (keeps :
      ∀ config turn,
        invariant config →
        allowed config turn →
        invariant (config.advance machine turn))
    (schedule : List (Turn I))
    (config : Config I ε α World)
    (admitted : Admits machine allowed schedule config)
    (holds : invariant config) :
    invariant (execute machine schedule config) := by
  induction schedule generalizing config with
  | nil =>
      exact holds
  | cons turn rest inductionHypothesis =>
      exact inductionHypothesis _ admitted.2
        (keeps config turn holds admitted.1)

/-- Every program of a pool obeys the rule of its own thread. -/
def Obedient (rule : Nat → Rule I) (pool : List (Program I ε α)) : Prop :=
  ∀ (thread : Nat) (program : Program I ε α),
    pool[thread]? = some program →
    program.Obeys (rule thread) fun _ => True

/-- A pool stays obedient when one program continues obediently. -/
theorem Obedient.set
    {rule : Nat → Rule I}
    {pool : List (Program I ε α)}
    (obedient : Obedient rule pool)
    {thread : Nat}
    {program : Program I ε α}
    (obeys : program.Obeys (rule thread) fun _ => True) :
    Obedient rule (pool.set thread program) := by
  intro other continuation member
  rw [List.getElem?_set] at member
  by_cases sameThread : thread = other
  · subst sameThread
    by_cases inPool : thread < pool.length
    · simp only [↓reduceIte, inPool, Option.some.injEq] at member
      subst member
      exact obeys
    · simp [inPool] at member
  · simp only [sameThread, ↓reduceIte] at member
    exact obedient other continuation member

/-- Every schedule is admitted when every turn is allowed. -/
theorem admits_of_forall
    (machine : Machine I World)
    {allowed : Config I ε α World → Turn I → Prop}
    (always : ∀ config turn, allowed config turn)
    (schedule : List (Turn I))
    (config : Config I ε α World) :
    Admits machine allowed schedule config := by
  induction schedule generalizing config with
  | nil =>
      trivial
  | cons turn rest inductionHypothesis =>
      exact ⟨always config turn, inductionHypothesis _⟩

/--
If every program obeys a rule of its own, and each rule is sound for an
invariant of history and world, then the invariant survives every schedule.
-/
theorem execute_obeys
    (machine : Machine I World)
    (rule : Nat → Rule I)
    {invariant : List (Nat × I.Call) → World → Prop}
    (keeps :
      ∀ thread history world request,
        invariant history world →
        (rule thread).permits request →
        invariant ((thread, request) :: history)
          (machine.perform world request).2)
    (truthful :
      ∀ thread history world request,
        invariant history world →
        (rule thread).permits request →
        (rule thread).answers request (machine.perform world request).1)
    (tolerant :
      ∀ thread request fault, (rule thread).answers request (.error fault))
    (schedule : List (Turn I))
    (config : Config I ε α World)
    (obedient : Obedient rule config.pool)
    (holds : invariant config.history config.world) :
    invariant (execute machine schedule config).history
      (execute machine schedule config).world := by
  have step :
      ∀ (config : Config I ε α World) (turn : Turn I),
        Obedient rule config.pool ∧
          invariant config.history config.world →
        True →
        Obedient rule (config.advance machine turn).pool ∧
          invariant (config.advance machine turn).history
            (config.advance machine turn).world := by
    intro config turn ⟨obedient, invariantHolds⟩ _
    rcases advance_cases machine turn config with
        same | ⟨request, next, found, failed | performed⟩
    · rw [same]
      exact ⟨obedient, invariantHolds⟩
    · obtain ⟨fault, _, reached⟩ := failed
      rw [reached]
      exact ⟨obedient.set ((obedient _ _ found).2 _ (tolerant _ _ _)),
        invariantHolds⟩
    · obtain ⟨permitted, follows⟩ := obedient _ _ found
      rw [performed.2]
      exact ⟨obedient.set
          (follows _ (truthful _ _ _ _ invariantHolds permitted)),
        keeps _ _ _ _ invariantHolds permitted⟩
  exact
    (execute_invariant machine step schedule config
      (admits_of_forall machine (fun _ _ => trivial) schedule config)
      ⟨obedient, holds⟩).2

end Config

end AtomicProgram
