import Quadpod.AtomicProgram

/-!
# The values a program ends in

Sequencing is associative, and a program followed by nothing is itself; so a
program that computes more than another one can be cut down to it.  What is
known of every value a program can end in holds whatever the replies are.
-/

namespace AtomicProgram.Program

variable {I : Interface} {ε ε' α β γ World : Type}

/-! ## Sequences -/

theorem bind_assoc
    (program : Program I ε α)
    (next : α → Program I ε β)
    (last : β → Program I ε γ) :
    (program >>= next >>= last : Program I ε γ) =
      program >>= fun value => next value >>= last := by
  induction program with
  | done value =>
      rfl
  | fail error =>
      rfl
  | call request continuation inductionHypothesis =>
      exact congrArg (Program.call request) (funext inductionHypothesis)

/-- A program that hands its value on is the program. -/
@[simp] theorem bind_done (program : Program I ε α) :
    (program >>= fun value => .done value : Program I ε α) = program := by
  induction program with
  | done value =>
      rfl
  | fail error =>
      rfl
  | call request continuation inductionHypothesis =>
      exact congrArg (Program.call request) (funext inductionHypothesis)

/-! ## Values -/

/-- Every value the program can end in is one of those allowed. -/
def Yields (allowed : α → Prop) : Program I ε α → Prop
  | .done value => allowed value
  | .fail _ => True
  | .call _ next => ∀ reply, (next reply).Yields allowed

variable {allowed : α → Prop} {program : Program I ε α}

theorem yields_done {value : α} (isAllowed : allowed value) :
    (.done value : Program I ε α).Yields allowed :=
  isAllowed

theorem yields_fail (error : ε) :
    (.fail error : Program I ε α).Yields allowed :=
  trivial

theorem yields_any (program : Program I ε α) :
    program.Yields fun _ => True := by
  induction program with
  | done value =>
      exact trivial
  | fail error =>
      exact trivial
  | call request next inductionHypothesis =>
      exact inductionHypothesis

theorem yields_ofExcept (result : Except ε α) :
    (ofExcept result : Program I ε α).Yields fun value =>
      result = .ok value := by
  cases result with
  | ok value =>
      exact yields_done rfl
  | error error =>
      exact yields_fail error

theorem Yields.mono
    {wanted : α → Prop}
    (yields : program.Yields allowed)
    (implies : ∀ value, allowed value → wanted value) :
    program.Yields wanted := by
  induction program with
  | done value =>
      exact implies value yields
  | fail error =>
      exact yields_fail error
  | call request next inductionHypothesis =>
      exact fun reply => inductionHypothesis reply (yields reply)

theorem Yields.bind
    {next : α → Program I ε β} {wanted : β → Prop}
    (first : program.Yields allowed)
    (continues : ∀ value, allowed value → (next value).Yields wanted) :
    (program >>= next).Yields wanted := by
  induction program with
  | done value =>
      exact continues value first
  | fail error =>
      exact yields_fail error
  | call request continuation inductionHypothesis =>
      exact fun reply => inductionHypothesis reply (first reply)

/-- What follows a program of which nothing has to be known. -/
theorem yields_bind
    {next : α → Program I ε β} {wanted : β → Prop}
    (continues : ∀ value, (next value).Yields wanted) :
    (program >>= next).Yields wanted :=
  program.yields_any.bind fun value _ => continues value

theorem Yields.mapError
    (yields : program.Yields allowed) (translate : ε → ε') :
    (program.mapError translate).Yields allowed := by
  induction program with
  | done value =>
      exact yields
  | fail error =>
      exact yields_fail _
  | call request next inductionHypothesis =>
      exact fun reply => inductionHypothesis reply (yields reply)

/-- The value a run without failures ends in is an allowed one. -/
theorem Yields.eval
    {machine : Machine I World} {world reached : World} {value : α}
    (yields : program.Yields allowed)
    (succeeds : Program.eval machine program world = (.ok value, reached)) :
    allowed value := by
  induction program generalizing world with
  | done found =>
      cases succeeds
      exact yields
  | fail error =>
      cases succeeds
  | call request next inductionHypothesis =>
      exact inductionHypothesis _ (yields _) succeeds

/-- The value a run ends in is an allowed one. -/
theorem Yields.run
    {machine : Machine I World} {faults : List (Option I.Fault)}
    {world : World} {value : α}
    (yields : program.Yields allowed)
    (succeeds :
      (Program.run machine program faults world).result = .ok value) :
    allowed value := by
  induction program generalizing faults world with
  | done found =>
      cases succeeds
      exact yields
  | fail error =>
      cases succeeds
  | call request next inductionHypothesis =>
      match faults with
      | [] =>
          exact inductionHypothesis _ (yields _) succeeds
      | none :: rest =>
          exact inductionHypothesis _ (yields _) succeeds
      | some fault :: rest =>
          exact inductionHypothesis _ (yields _) succeeds

/-- A program whose values are cut down runs as the smaller one. -/
theorem eval_of_eval_done
    {machine : Machine I World} {world reached : World} {value : α}
    (succeeds : Program.eval machine program world = (.ok value, reached))
    (compute : α → β) :
    Program.eval machine (program >>= fun found => .done (compute found))
        world =
      (.ok (compute value), reached) := by
  rw [eval_bind_ok succeeds]
  rfl

end AtomicProgram.Program
