import Mathlib.Data.List.Basic

/-!
# Programs over atomic calls

A client of a shared service is modelled as a tree of calls: every node issues
one call and continues with the reply.  A call is the unit of atomicity, so one
tree has a sequential meaning (`Program.run`, in which any call may be made to
fail) and an interleaved one (`AtomicProgramInterleaving`).

Two judgments are used to reason about a program.  `Program.Obeys` restricts the
calls a program may issue, given what is known about the replies; it holds of
the tree alone, so it survives every interleaving.  `Program.Ensures` is the
weakest precondition of a sequential run from a fixed world.
-/

namespace AtomicProgram

/-- The calls of a service, the reply each call has, and how a call can fail. -/
structure Interface where
  Call : Type
  Reply : Call → Type
  Fault : Type

/-- A client program: a value, an error, or one call and its continuation. -/
inductive Program (I : Interface) (ε α : Type) where
  | done (value : α)
  | fail (error : ε)
  | call
      (request : I.Call)
      (next : Except I.Fault (I.Reply request) → Program I ε α)

/-- The service itself: one atomic step for every call. -/
structure Machine (I : Interface) (World : Type) where
  perform :
    World → (request : I.Call) →
      Except I.Fault (I.Reply request) × World

namespace Program

variable {I : Interface} {ε ε' α β World : Type}

/-- Sequence two programs; an error of the first one ends the whole. -/
def bind (program : Program I ε α) (next : α → Program I ε β) :
    Program I ε β :=
  match program with
  | .done value => next value
  | .fail error => .fail error
  | .call request continuation =>
      .call request fun reply => (continuation reply).bind next

instance : Monad (Program I ε) where
  pure := .done
  bind := bind

/-- Translate the error of a program. -/
def mapError (translate : ε → ε') : Program I ε α → Program I ε' α
  | .done value => .done value
  | .fail error => .fail (translate error)
  | .call request next =>
      .call request fun reply => (next reply).mapError translate

/-- Run a program to its result, error or not, without failing. -/
def attempt : Program I ε α → Program I ε' (Except ε α)
  | .done value => .done (.ok value)
  | .fail error => .done (.error error)
  | .call request next =>
      .call request fun reply => (next reply).attempt

/-- Lift a result that needed no call. -/
def ofExcept : Except ε α → Program I ε α
  | .ok value => .done value
  | .error error => .fail error

/-- Issue one call; its failure becomes an error of the program. -/
def perform (translate : I.Fault → ε) (request : I.Call) :
    Program I ε (I.Reply request) :=
  .call request fun
    | .ok reply => .done reply
    | .error fault => .fail (translate fault)

/-- A program that has nothing left to do. -/
def Finished : Program I ε α → Prop
  | .done _ => True
  | .fail _ => True
  | .call _ _ => False

instance (program : Program I ε α) : Decidable program.Finished :=
  match program with
  | .done _ => isTrue trivial
  | .fail _ => isTrue trivial
  | .call _ _ => isFalse id

@[simp] theorem pure_eq (value : α) :
    (pure value : Program I ε α) = .done value :=
  rfl

@[simp] theorem done_bind (value : α) (next : α → Program I ε β) :
    (Program.done value >>= next : Program I ε β) = next value :=
  rfl

@[simp] theorem fail_bind (error : ε) (next : α → Program I ε β) :
    (Program.fail error >>= next : Program I ε β) = .fail error :=
  rfl

@[simp] theorem call_bind
    (request : I.Call)
    (continuation : Except I.Fault (I.Reply request) → Program I ε α)
    (next : α → Program I ε β) :
    (Program.call request continuation >>= next : Program I ε β) =
      .call request fun reply => continuation reply >>= next :=
  rfl

end Program

/-! ## Sequential runs -/

/-- How a run ended, the world it left, and the faults it did not use. -/
structure Outcome (I : Interface) (ε α World : Type) where
  result : Except ε α
  world : World
  faults : List (Option I.Fault)

namespace Program

variable {I : Interface} {ε ε' α β World : Type}

/--
Run a program alone.  The fault list decides, call by call, whether the service
answers (`none`) or the call fails without any effect (`some fault`); a call
past the end of the list is answered.
-/
def run (machine : Machine I World) :
    Program I ε α → List (Option I.Fault) → World → Outcome I ε α World
  | .done value, faults, world => ⟨.ok value, world, faults⟩
  | .fail error, faults, world => ⟨.error error, world, faults⟩
  | .call _ next, some fault :: faults, world =>
      run machine (next (.error fault)) faults world
  | .call request next, none :: faults, world =>
      let answer := machine.perform world request
      run machine (next answer.1) faults answer.2
  | .call request next, [], world =>
      let answer := machine.perform world request
      run machine (next answer.1) [] answer.2

/-- A run of a sequence is a run of its head followed by one of its tail. -/
theorem run_bind
    (machine : Machine I World)
    (program : Program I ε α)
    (next : α → Program I ε β)
    (faults : List (Option I.Fault))
    (world : World) :
    run machine (program >>= next) faults world =
      match run machine program faults world with
      | ⟨.ok value, middle, rest⟩ => run machine (next value) rest middle
      | ⟨.error error, middle, rest⟩ => ⟨.error error, middle, rest⟩ := by
  induction program generalizing faults world with
  | done value =>
      rfl
  | fail error =>
      rfl
  | call request continuation inductionHypothesis =>
      rw [call_bind]
      match faults with
      | [] =>
          simp only [run]
          exact inductionHypothesis _ _ _
      | none :: rest =>
          simp only [run]
          exact inductionHypothesis _ _ _
      | some fault :: rest =>
          simp only [run]
          exact inductionHypothesis _ _ _

/-- Translating the error changes the result of a run and nothing else. -/
theorem run_mapError
    (machine : Machine I World)
    (translate : ε → ε')
    (program : Program I ε α)
    (faults : List (Option I.Fault))
    (world : World) :
    run machine (program.mapError translate) faults world =
      ⟨(run machine program faults world).result.mapError translate,
        (run machine program faults world).world,
        (run machine program faults world).faults⟩ := by
  induction program generalizing faults world with
  | done value =>
      rfl
  | fail error =>
      rfl
  | call request continuation inductionHypothesis =>
      match faults with
      | [] =>
          simpa only [mapError, run] using inductionHypothesis _ _ _
      | none :: rest =>
          simpa only [mapError, run] using inductionHypothesis _ _ _
      | some fault :: rest =>
          simpa only [mapError, run] using inductionHypothesis _ _ _

/-- Attempting a program turns its result into a value. -/
theorem run_attempt
    (machine : Machine I World)
    (program : Program I ε α)
    (faults : List (Option I.Fault))
    (world : World) :
    run machine (program.attempt : Program I ε' (Except ε α)) faults world =
      ⟨.ok (run machine program faults world).result,
        (run machine program faults world).world,
        (run machine program faults world).faults⟩ := by
  induction program generalizing faults world with
  | done value =>
      rfl
  | fail error =>
      rfl
  | call request continuation inductionHypothesis =>
      match faults with
      | [] =>
          simpa only [attempt, run] using inductionHypothesis _ _ _
      | none :: rest =>
          simpa only [attempt, run] using inductionHypothesis _ _ _
      | some fault :: rest =>
          simpa only [attempt, run] using inductionHypothesis _ _ _

/-! ### Runs without failures -/

/-- Run a program alone with every call answered. -/
def eval (machine : Machine I World) :
    Program I ε α → World → Except ε α × World
  | .done value, world => (.ok value, world)
  | .fail error, world => (.error error, world)
  | .call request next, world =>
      let answer := machine.perform world request
      eval machine (next answer.1) answer.2

/-- A run in which no call is made to fail. -/
theorem run_nil
    (machine : Machine I World)
    (program : Program I ε α)
    (world : World) :
    run machine program [] world =
      ⟨(eval machine program world).1, (eval machine program world).2, []⟩ := by
  induction program generalizing world with
  | done value =>
      rfl
  | fail error =>
      rfl
  | call request next inductionHypothesis =>
      simpa only [run, eval] using inductionHypothesis _ _

@[simp] theorem eval_done
    (machine : Machine I World) (value : α) (world : World) :
    eval machine (.done value : Program I ε α) world = (.ok value, world) :=
  rfl

@[simp] theorem eval_fail
    (machine : Machine I World) (error : ε) (world : World) :
    eval machine (.fail error : Program I ε α) world =
      (.error error, world) :=
  rfl

theorem eval_bind
    (machine : Machine I World)
    (program : Program I ε α)
    (next : α → Program I ε β)
    (world : World) :
    eval machine (program >>= next) world =
      match eval machine program world with
      | (.ok value, middle) => eval machine (next value) middle
      | (.error error, middle) => (.error error, middle) := by
  induction program generalizing world with
  | done value =>
      rfl
  | fail error =>
      rfl
  | call request continuation inductionHypothesis =>
      rw [call_bind]
      simp only [eval]
      exact inductionHypothesis _ _

/-- What follows a program that succeeds. -/
theorem eval_bind_ok
    {machine : Machine I World}
    {program : Program I ε α}
    {next : α → Program I ε β}
    {world middle : World}
    {value : α}
    (succeeds : eval machine program world = (.ok value, middle)) :
    eval machine (program >>= next) world =
      eval machine (next value) middle := by
  rw [eval_bind, succeeds]

/-- Both parts of a sequence that succeeds succeed. -/
theorem eval_bind_eq_ok
    {machine : Machine I World}
    {program : Program I ε α}
    {next : α → Program I ε β}
    {world reached : World}
    {result : β}
    (succeeds :
      eval machine (program >>= next) world = (.ok result, reached)) :
    ∃ value middle,
      eval machine program world = (.ok value, middle) ∧
        eval machine (next value) middle = (.ok result, reached) := by
  rw [eval_bind] at succeeds
  split at succeeds
  · next value middle isFirst =>
      exact ⟨value, middle, isFirst, succeeds⟩
  · cases succeeds

theorem eval_mapError
    (machine : Machine I World)
    (translate : ε → ε')
    (program : Program I ε α)
    (world : World) :
    eval machine (program.mapError translate) world =
      ((eval machine program world).1.mapError translate,
        (eval machine program world).2) := by
  induction program generalizing world with
  | done value =>
      rfl
  | fail error =>
      rfl
  | call request next inductionHypothesis =>
      simpa only [mapError, eval] using inductionHypothesis _ _

theorem eval_attempt
    (machine : Machine I World)
    (program : Program I ε α)
    (world : World) :
    eval machine (program.attempt : Program I ε' (Except ε α)) world =
      (.ok (eval machine program world).1,
        (eval machine program world).2) := by
  induction program generalizing world with
  | done value =>
      rfl
  | fail error =>
      rfl
  | call request next inductionHypothesis =>
      simpa only [attempt, eval] using inductionHypothesis _ _

@[simp] theorem eval_ofExcept
    (machine : Machine I World) (result : Except ε α) (world : World) :
    eval machine (ofExcept result : Program I ε α) world =
      (result, world) := by
  cases result with
  | ok value =>
      rfl
  | error error =>
      rfl

/-! ### Runs as weakest preconditions -/

/-- The faults of a run are used up from the front. -/
theorem run_faults_suffix
    (machine : Machine I World)
    (program : Program I ε α)
    (faults : List (Option I.Fault))
    (world : World) :
    (run machine program faults world).faults <:+ faults := by
  induction program generalizing faults world with
  | done value =>
      exact List.suffix_refl faults
  | fail error =>
      exact List.suffix_refl faults
  | call request next inductionHypothesis =>
      match faults with
      | [] =>
          simpa only [run] using inductionHypothesis _ _ _
      | none :: rest =>
          simp only [run]
          exact (inductionHypothesis _ _ _).trans (List.suffix_cons none rest)
      | some fault :: rest =>
          simp only [run]
          exact (inductionHypothesis _ _ _).trans (List.suffix_cons _ rest)

/-- The fault lists to consider: all, or only those without a failure. -/
def Plays (mayFail : Prop) (faults : List (Option I.Fault)) : Prop :=
  mayFail ∨ ∀ fault ∈ faults, fault = none

/--
Whatever calls are made to fail, if calls may fail at all, a run from `world`
ends in a result and a world that satisfy `post`.
-/
def Ensures
    (machine : Machine I World)
    (mayFail : Prop)
    (program : Program I ε α)
    (world : World)
    (post : Except ε α → World → Prop) : Prop :=
  ∀ faults,
    Plays mayFail faults →
    post (run machine program faults world).result
      (run machine program faults world).world

variable {mayFail : Prop}

theorem ensures_done
    {machine : Machine I World}
    {value : α}
    {world : World}
    {post : Except ε α → World → Prop}
    (holds : post (.ok value) world) :
    Ensures machine mayFail (.done value) world post :=
  fun _ _ => holds

theorem ensures_fail
    {machine : Machine I World}
    {error : ε}
    {world : World}
    {post : Except ε α → World → Prop}
    (holds : post (.error error) world) :
    Ensures machine mayFail (.fail error) world post :=
  fun _ _ => holds

/-- A call either is answered in one step or fails and changes nothing. -/
theorem ensures_call
    {machine : Machine I World}
    {request : I.Call}
    {next : Except I.Fault (I.Reply request) → Program I ε α}
    {world : World}
    {post : Except ε α → World → Prop}
    (answered :
      Ensures machine mayFail (next (machine.perform world request).1)
        (machine.perform world request).2 post)
    (failed :
      mayFail →
      ∀ fault, Ensures machine mayFail (next (.error fault)) world post) :
    Ensures machine mayFail (.call request next) world post := by
  intro faults plays
  match faults with
  | [] =>
      exact answered [] plays
  | none :: rest =>
      refine answered rest ?_
      rcases plays with fails | noFault
      · exact Or.inl fails
      · exact Or.inr fun fault member => noFault fault (by simp [member])
  | some fault :: rest =>
      rcases plays with fails | noFault
      · exact failed fails fault rest (Or.inl fails)
      · cases noFault (some fault) (by simp)

/-- A weaker postcondition is ensured as well. -/
theorem Ensures.mono
    {machine : Machine I World}
    {program : Program I ε α}
    {world : World}
    {post weaker : Except ε α → World → Prop}
    (ensures : Ensures machine mayFail program world post)
    (implies :
      ∀ result final, post result final → weaker result final) :
    Ensures machine mayFail program world weaker :=
  fun faults plays => implies _ _ (ensures faults plays)

/-- Two postconditions are ensured together. -/
theorem Ensures.and
    {machine : Machine I World}
    {program : Program I ε α}
    {world : World}
    {first second : Except ε α → World → Prop}
    (ensuresFirst : Ensures machine mayFail program world first)
    (ensuresSecond : Ensures machine mayFail program world second) :
    Ensures machine mayFail program world fun result reached =>
      first result reached ∧ second result reached :=
  fun faults plays => ⟨ensuresFirst faults plays, ensuresSecond faults plays⟩

/-- What every run ensures holds of the run without failures. -/
theorem Ensures.eval
    {machine : Machine I World}
    {program : Program I ε α}
    {world : World}
    {post : Except ε α → World → Prop}
    (ensures : Ensures machine mayFail program world post) :
    post (Program.eval machine program world).1
      (Program.eval machine program world).2 := by
  have holds := ensures [] (Or.inr (by simp))
  rw [run_nil] at holds
  exact holds

/-- Sequencing composes postconditions. -/
theorem Ensures.bind
    {machine : Machine I World}
    {program : Program I ε α}
    {next : α → Program I ε β}
    {world : World}
    {middle : Except ε α → World → Prop}
    {post : Except ε β → World → Prop}
    (first : Ensures machine mayFail program world middle)
    (continues :
      ∀ value reached,
        middle (.ok value) reached →
        Ensures machine mayFail (next value) reached post)
    (stops :
      ∀ error reached,
        middle (.error error) reached → post (.error error) reached) :
    Ensures machine mayFail (program >>= next) world post := by
  intro faults plays
  have firstHolds := first faults plays
  have left := run_faults_suffix machine program faults world
  rw [run_bind]
  match outcome : run machine program faults world with
  | ⟨.ok value, reached, rest⟩ =>
      rw [outcome] at firstHolds left
      refine continues value reached firstHolds rest ?_
      rcases plays with fails | noFault
      · exact Or.inl fails
      · exact Or.inr fun fault member => noFault fault (left.subset member)
  | ⟨.error error, reached, rest⟩ =>
      rw [outcome] at firstHolds
      exact stops error reached firstHolds

/-- What is known of the world alone survives a final computation. -/
theorem Ensures.bind_done
    {machine : Machine I World}
    {program : Program I ε α}
    {world : World}
    {post : World → Prop}
    (ensures :
      Ensures machine mayFail program world fun _ reached => post reached)
    (compute : α → β) :
    Ensures machine mayFail (program >>= fun value => .done (compute value))
      world fun _ reached => post reached :=
  ensures.bind (fun _ _ holds => ensures_done holds) fun _ _ holds => holds

/-- Translating the error only renames it in the postcondition. -/
theorem Ensures.mapError
    {machine : Machine I World}
    {translate : ε → ε'}
    {program : Program I ε α}
    {world : World}
    {post : Except ε' α → World → Prop}
    (ensures :
      Ensures machine mayFail program world fun result reached =>
        post (result.mapError translate) reached) :
    Ensures machine mayFail (program.mapError translate) world post := by
  intro faults plays
  rw [run_mapError]
  exact ensures faults plays

/-- An attempted program hands its result on as a value. -/
theorem Ensures.attempt
    {machine : Machine I World}
    {program : Program I ε α}
    {world : World}
    {post : Except ε' (Except ε α) → World → Prop}
    (ensures :
      Ensures machine mayFail program world fun result reached =>
        post (.ok result) reached) :
    Ensures machine mayFail
      (program.attempt : Program I ε' (Except ε α)) world post := by
  intro faults plays
  rw [run_attempt]
  exact ensures faults plays

/-- What follows a result that needed no call. -/
theorem ensures_ofExcept_bind
    {machine : Machine I World}
    {result : Except ε α}
    {next : α → Program I ε β}
    {world : World}
    {post : Except ε β → World → Prop}
    (continues :
      ∀ value,
        result = .ok value →
        Ensures machine mayFail (next value) world post)
    (stops : ∀ error, result = .error error → post (.error error) world) :
    Ensures machine mayFail (ofExcept result >>= next) world post := by
  cases result with
  | ok value =>
      exact continues value rfl
  | error error =>
      exact ensures_fail (stops error rfl)

end Program

/-! ## Scripts of calls -/

namespace Machine

variable {I : Interface} {World : Type} {mayFail : Prop}

/-- The world after every call of a list was answered. -/
def after (machine : Machine I World) (world : World)
    (calls : List I.Call) : World :=
  calls.foldl (fun world request => (machine.perform world request).2) world

@[simp] theorem after_nil (machine : Machine I World) (world : World) :
    machine.after world [] = world :=
  rfl

@[simp] theorem after_cons
    (machine : Machine I World) (world : World)
    (request : I.Call) (rest : List I.Call) :
    machine.after world (request :: rest) =
      machine.after (machine.perform world request).2 rest :=
  rfl

theorem after_append
    (machine : Machine I World) (world : World)
    (first second : List I.Call) :
    machine.after world (first ++ second) =
      machine.after (machine.after world first) second :=
  List.foldl_append

/--
The calls of a list were performed in order: all of them, or a part from the
front when calls may fail.
-/
def Performs
    (machine : Machine I World) (mayFail : Prop) (world : World)
    (calls : List I.Call) (reached : World) : Prop :=
  ∃ performed rest,
    calls = performed ++ rest ∧
      reached = machine.after world performed ∧ (mayFail ∨ rest = [])

theorem performs_all
    (machine : Machine I World) (world : World) (calls : List I.Call) :
    machine.Performs mayFail world calls (machine.after world calls) :=
  ⟨calls, [], (List.append_nil calls).symm, rfl, Or.inr rfl⟩

theorem performs_none
    (machine : Machine I World) (world : World) (calls : List I.Call)
    (fails : mayFail) :
    machine.Performs mayFail world calls world :=
  ⟨[], calls, rfl, rfl, Or.inl fails⟩

/-- A first call that was answered, and a part of the others. -/
theorem Performs.cons
    {machine : Machine I World} {world reached : World}
    {request : I.Call} {calls : List I.Call}
    (performs :
      machine.Performs mayFail (machine.perform world request).2 calls
        reached) :
    machine.Performs mayFail world (request :: calls) reached := by
  obtain ⟨performed, rest, shape, isAfter, complete⟩ := performs
  exact ⟨request :: performed, rest, by rw [shape]; rfl, isAfter, complete⟩

/-- Calls that were all answered, and a part of the others. -/
theorem Performs.append
    {machine : Machine I World} {world reached : World}
    {first second : List I.Call}
    (performs :
      machine.Performs mayFail (machine.after world first) second reached) :
    machine.Performs mayFail world (first ++ second) reached := by
  induction first generalizing world with
  | nil =>
      exact performs
  | cons request rest inductionHypothesis =>
      exact Performs.cons (inductionHypothesis performs)

/-- A part of the calls is a part of a longer list, when calls may fail. -/
theorem Performs.extend
    {machine : Machine I World} {world reached : World}
    {calls : List I.Call}
    (performs : machine.Performs mayFail world calls reached)
    (fails : mayFail)
    (later : List I.Call) :
    machine.Performs mayFail world (calls ++ later) reached := by
  obtain ⟨performed, rest, rfl, isAfter, _⟩ := performs
  exact ⟨performed, rest ++ later, List.append_assoc _ _ _, isAfter,
    Or.inl fails⟩

/-- Without failures every call is performed. -/
theorem Performs.eq_after
    {machine : Machine I World} {world reached : World}
    {calls : List I.Call}
    (performs : machine.Performs mayFail world calls reached)
    (noFailure : ¬ mayFail) :
    reached = machine.after world calls := by
  obtain ⟨performed, rest, rfl, isAfter, fails | rfl⟩ := performs
  · exact (noFailure fails).elim
  · rw [isAfter, List.append_nil]

/-- What every call of a list keeps holds wherever the list was left. -/
theorem Performs.invariant
    {machine : Machine I World} {world reached : World}
    {calls : List I.Call}
    (performs : machine.Performs mayFail world calls reached)
    (invariant : World → Prop)
    (holds : invariant world)
    (keeps :
      ∀ world, ∀ request ∈ calls,
        invariant world →
        invariant (machine.perform world request).2) :
    invariant reached := by
  obtain ⟨performed, rest, rfl, rfl, _⟩ := performs
  induction performed generalizing world with
  | nil =>
      exact holds
  | cons request others inductionHypothesis =>
      refine inductionHypothesis (keeps world request (by simp) holds) ?_
      exact fun world request member =>
        keeps world request (List.mem_cons_of_mem _ member)

end Machine

/-! ## Programs restricted to a set of calls -/

/--
A rule a program can be held to: the calls it may issue, and what it may rely on
about the answer to each.
-/
structure Rule (I : Interface) where
  permits : I.Call → Prop
  answers : (request : I.Call) → Except I.Fault (I.Reply request) → Prop

namespace Rule

variable {I : Interface} {World : Type}

/--
A rule is sound for an invariant when, in every world that satisfies it, each
permitted call keeps the invariant and is answered as the rule says.
-/
structure Sound
    (rule : Rule I)
    (machine : Machine I World)
    (invariant : World → Prop) : Prop where
  keeps :
    ∀ world request,
      invariant world →
      rule.permits request →
      invariant (machine.perform world request).2
  truthful :
    ∀ world request,
      invariant world →
      rule.permits request →
      rule.answers request (machine.perform world request).1
  tolerant :
    ∀ request fault, rule.answers request (.error fault)

end Rule

namespace Program

variable {I : Interface} {ε ε' α β World : Type} {mayFail : Prop}

/--
Every call the program issues is permitted, as long as earlier answers were as
the rule says, and every result it reaches satisfies `post`.
-/
def Obeys (rule : Rule I) :
    Program I ε α → (Except ε α → Prop) → Prop
  | .done value, post => post (.ok value)
  | .fail error, post => post (.error error)
  | .call request next, post =>
      rule.permits request ∧
        ∀ answer, rule.answers request answer → (next answer).Obeys rule post

@[simp] theorem obeys_done
    {rule : Rule I} {value : α} {post : Except ε α → Prop} :
    (Program.done value : Program I ε α).Obeys rule post ↔
      post (.ok value) :=
  Iff.rfl

@[simp] theorem obeys_fail
    {rule : Rule I} {error : ε} {post : Except ε α → Prop} :
    (Program.fail error : Program I ε α).Obeys rule post ↔
      post (.error error) :=
  Iff.rfl

/-- A weaker postcondition is obeyed as well. -/
theorem Obeys.mono
    {rule : Rule I}
    {program : Program I ε α}
    {post weaker : Except ε α → Prop}
    (obeys : program.Obeys rule post)
    (implies : ∀ result, post result → weaker result) :
    program.Obeys rule weaker := by
  induction program with
  | done value =>
      exact implies _ obeys
  | fail error =>
      exact implies _ obeys
  | call request next inductionHypothesis =>
      exact ⟨obeys.1, fun answer answered =>
        inductionHypothesis answer (obeys.2 answer answered)⟩

/-- Sequencing composes obedience. -/
theorem Obeys.bind
    {rule : Rule I}
    {program : Program I ε α}
    {next : α → Program I ε β}
    {middle : Except ε α → Prop}
    {post : Except ε β → Prop}
    (first : program.Obeys rule middle)
    (continues :
      ∀ value, middle (.ok value) → (next value).Obeys rule post)
    (stops :
      ∀ error, middle (.error error) → post (.error error)) :
    (program >>= next).Obeys rule post := by
  induction program with
  | done value =>
      exact continues value first
  | fail error =>
      exact stops error first
  | call request continuation inductionHypothesis =>
      exact ⟨first.1, fun answer answered =>
        inductionHypothesis answer (first.2 answer answered)⟩

/-- A program that obeys a rule obeys every more permissive one. -/
theorem Obeys.weaken
    {rule looser : Rule I}
    {program : Program I ε α}
    {post : Except ε α → Prop}
    (obeys : program.Obeys rule post)
    (permits : ∀ request, rule.permits request → looser.permits request)
    (answers :
      ∀ request answer,
        rule.permits request →
        looser.answers request answer →
        rule.answers request answer) :
    program.Obeys looser post := by
  induction program with
  | done value =>
      exact obeys
  | fail error =>
      exact obeys
  | call request next inductionHypothesis =>
      exact ⟨permits request obeys.1, fun answer answered =>
        inductionHypothesis answer
          (obeys.2 answer (answers request answer obeys.1 answered))⟩

/-- Translating the error only renames it in the postcondition. -/
theorem Obeys.mapError
    {rule : Rule I}
    {translate : ε → ε'}
    {program : Program I ε α}
    {post : Except ε' α → Prop}
    (obeys :
      program.Obeys rule fun result => post (result.mapError translate)) :
    (program.mapError translate).Obeys rule post := by
  induction program with
  | done value =>
      exact obeys
  | fail error =>
      exact obeys
  | call request next inductionHypothesis =>
      exact ⟨obeys.1, fun answer answered =>
        inductionHypothesis answer (obeys.2 answer answered)⟩

/-- An attempted program hands its result on as a value. -/
theorem Obeys.attempt
    {rule : Rule I}
    {program : Program I ε α}
    {post : Except ε' (Except ε α) → Prop}
    (obeys : program.Obeys rule fun result => post (.ok result)) :
    (program.attempt : Program I ε' (Except ε α)).Obeys rule post := by
  induction program with
  | done value =>
      exact obeys
  | fail error =>
      exact obeys
  | call request next inductionHypothesis =>
      exact ⟨obeys.1, fun answer answered =>
        inductionHypothesis answer (obeys.2 answer answered)⟩

/-- A program that obeys a sound rule keeps the invariant in every run. -/
theorem Obeys.ensures
    {rule : Rule I}
    {machine : Machine I World}
    {invariant : World → Prop}
    {program : Program I ε α}
    {post : Except ε α → Prop}
    (obeys : program.Obeys rule post)
    (sound : rule.Sound machine invariant)
    {world : World}
    (holds : invariant world) :
    Ensures machine mayFail program world fun result reached =>
      invariant reached ∧ post result := by
  induction program generalizing world with
  | done value =>
      exact ensures_done ⟨holds, obeys⟩
  | fail error =>
      exact ensures_fail ⟨holds, obeys⟩
  | call request next inductionHypothesis =>
      refine ensures_call ?_ ?_
      · exact inductionHypothesis _
          (obeys.2 _ (sound.truthful world request holds obeys.1))
          (sound.keeps world request holds obeys.1)
      · intro _ fault
        exact inductionHypothesis _
          (obeys.2 _ (sound.tolerant request fault)) holds

/-! ### Programs that issue only some calls -/

/-- Every call the program issues is one of those allowed. -/
def Uses (allowed : I.Call → Prop) (program : Program I ε α) : Prop :=
  program.Obeys ⟨allowed, fun _ _ => True⟩ fun _ => True

variable {allowed : I.Call → Prop}

theorem uses_done (value : α) :
    Uses allowed (.done value : Program I ε α) :=
  trivial

theorem uses_fail (error : ε) :
    Uses allowed (.fail error : Program I ε α) :=
  trivial

theorem uses_ofExcept (result : Except ε α) :
    Uses allowed (ofExcept result : Program I ε α) := by
  cases result with
  | ok value =>
      exact uses_done value
  | error error =>
      exact uses_fail error

theorem Uses.bind
    {program : Program I ε α}
    {next : α → Program I ε β}
    (first : Uses allowed program)
    (continues : ∀ value, Uses allowed (next value)) :
    Uses allowed (program >>= next) :=
  Obeys.bind first (fun value _ => continues value) fun _ _ => trivial

theorem Uses.mapError
    {translate : ε → ε'}
    {program : Program I ε α}
    (uses : Uses allowed program) :
    Uses allowed (program.mapError translate) :=
  Obeys.mapError uses

theorem Uses.attempt
    {program : Program I ε α}
    (uses : Uses allowed program) :
    Uses allowed (program.attempt : Program I ε' (Except ε α)) :=
  Obeys.attempt uses

/-- A program of allowed calls obeys every rule that permits them. -/
theorem Uses.obeys
    {program : Program I ε α}
    {rule : Rule I}
    (uses : Uses allowed program)
    (permits : ∀ request, allowed request → rule.permits request) :
    program.Obeys rule fun _ => True :=
  Obeys.weaken uses permits fun _ _ _ _ => trivial

/-- A program whose calls change nothing leaves the world it found. -/
theorem Uses.ensures
    {machine : Machine I World}
    {program : Program I ε α}
    (uses : Uses allowed program)
    (reads :
      ∀ request,
        allowed request →
        ∀ world, (machine.perform world request).2 = world)
    (world : World) :
    Ensures machine mayFail program world fun _ reached =>
      reached = world := by
  let rule : Rule I := ⟨allowed, fun _ _ => True⟩
  have sound : rule.Sound machine (· = world) :=
    { keeps := fun reached request same permitted => by
        rw [reads request permitted, same]
      truthful := fun _ _ _ _ => trivial
      tolerant := fun _ _ => trivial }
  exact (Obeys.ensures uses sound rfl).mono fun _ _ holds => holds.1

/-- Machines that perform the allowed calls alike run the program alike. -/
theorem Uses.eval_congr
    {first second : Machine I World}
    {program : Program I ε α}
    (uses : Uses allowed program)
    (alike :
      ∀ request,
        allowed request →
        ∀ world, first.perform world request = second.perform world request)
    (world : World) :
    eval first program world = eval second program world := by
  induction program generalizing world with
  | done value =>
      rfl
  | fail error =>
      rfl
  | call request next inductionHypothesis =>
      rw [eval, eval, alike request uses.1]
      exact inductionHypothesis _ (uses.2 _ trivial) _

end Program

end AtomicProgram
