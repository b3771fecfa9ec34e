import Quadpod.AtomicProgram

/-!
# What a program spends

A conversation of a program is a list of its calls with the answers they got, up
to any point and from whatever service, so the calls of a program in an
interleaving are a conversation of it as well as those of a run alone.

`Program.Affords` bounds what a conversation is charged.  A program is given a
credit; every call takes its charge from what is left, and what is left at the
end may depend on the result, so that of two ways to a result the cheaper one
need not be charged for the dearer one.
-/

namespace AtomicProgram

/-- A call and the answer it got. -/
structure Utterance (I : Interface) where
  request : I.Call
  answer : Except I.Fault (I.Reply request)

/-- What the calls of a conversation are charged. -/
def spent {I : Interface} (charge : I.Call → Nat) :
    List (Utterance I) → Nat
  | [] => 0
  | exchange :: rest => charge exchange.request + spent charge rest

namespace Program

variable {I : Interface} {ε ε' α β World : Type}

/-- The calls a program can have made, with the answers it made them on. -/
inductive Converses : Program I ε α → List (Utterance I) → Prop where
  | silent (program : Program I ε α) : Converses program []
  | speak
      {request : I.Call}
      {next : Except I.Fault (I.Reply request) → Program I ε α}
      {answer : Except I.Fault (I.Reply request)}
      {rest : List (Utterance I)}
      (continues : Converses (next answer) rest) :
      Converses (.call request next) (⟨request, answer⟩ :: rest)

/-- The conversation of a run alone. -/
def conversation (machine : Machine I World) :
    Program I ε α → List (Option I.Fault) → World → List (Utterance I)
  | .done _, _, _ => []
  | .fail _, _, _ => []
  | .call request next, some fault :: faults, world =>
      ⟨request, .error fault⟩ ::
        conversation machine (next (.error fault)) faults world
  | .call request next, none :: faults, world =>
      let answer := machine.perform world request
      ⟨request, answer.1⟩ ::
        conversation machine (next answer.1) faults answer.2
  | .call request next, [], world =>
      let answer := machine.perform world request
      ⟨request, answer.1⟩ ::
        conversation machine (next answer.1) [] answer.2

theorem converses_conversation
    (machine : Machine I World)
    (program : Program I ε α)
    (faults : List (Option I.Fault))
    (world : World) :
    program.Converses (conversation machine program faults world) := by
  induction program generalizing faults world with
  | done value =>
      exact .silent _
  | fail error =>
      exact .silent _
  | call request next inductionHypothesis =>
      match faults with
      | [] =>
          exact .speak (inductionHypothesis _ _ _)
      | none :: faults =>
          exact .speak (inductionHypothesis _ _ _)
      | some fault :: faults =>
          exact .speak (inductionHypothesis _ _ _)

/-! ## The judgment -/

section Affords

variable (charge : I.Call → Nat)
variable
  (answers : (request : I.Call) → Except I.Fault (I.Reply request) → Prop)

/-- A credit is enough, and so much of it is left at the end. -/
def Affords :
    Program I ε α → Nat → (Except ε α → Nat → Prop) → Prop
  | .done value, credit, post => post (.ok value) credit
  | .fail error, credit, post => post (.error error) credit
  | .call request next, credit, post =>
      charge request ≤ credit ∧
        ∀ answer,
          answers request answer →
          (next answer).Affords (credit - charge request) post

end Affords

variable {charge : I.Call → Nat}
variable
  {answers : (request : I.Call) → Except I.Fault (I.Reply request) → Prop}

@[simp] theorem affords_done
    {value : α} {credit : Nat} {post : Except ε α → Nat → Prop} :
    (Program.done value : Program I ε α).Affords charge answers credit post ↔
      post (.ok value) credit :=
  Iff.rfl

@[simp] theorem affords_fail
    {error : ε} {credit : Nat} {post : Except ε α → Nat → Prop} :
    (Program.fail error : Program I ε α).Affords charge answers credit post ↔
      post (.error error) credit :=
  Iff.rfl

theorem affords_ofExcept
    {result : Except ε α} {credit : Nat} {post : Except ε α → Nat → Prop}
    (ends : post result credit) :
    (ofExcept result : Program I ε α).Affords charge answers credit post := by
  cases result with
  | ok value =>
      exact ends
  | error error =>
      exact ends

/-- Less may be said about what is left. -/
theorem Affords.weaken
    {program : Program I ε α}
    {credit : Nat}
    {post weaker : Except ε α → Nat → Prop}
    (affords : program.Affords charge answers credit post)
    (weakens : ∀ result left, post result left → weaker result left) :
    program.Affords charge answers credit weaker := by
  induction program generalizing credit with
  | done value =>
      exact weakens _ _ affords
  | fail error =>
      exact weakens _ _ affords
  | call request next inductionHypothesis =>
      exact ⟨affords.1, fun answer answered =>
        inductionHypothesis answer (affords.2 answer answered)⟩

/-- What the head of a sequence leaves is the credit of its tail. -/
theorem Affords.bind
    {program : Program I ε α}
    {next : α → Program I ε β}
    {credit : Nat}
    {middle : Except ε α → Nat → Prop}
    {post : Except ε β → Nat → Prop}
    (first : program.Affords charge answers credit middle)
    (continues :
      ∀ value left,
        middle (.ok value) left →
        (next value).Affords charge answers left post)
    (stops :
      ∀ error left, middle (.error error) left → post (.error error) left) :
    (program >>= next).Affords charge answers credit post := by
  induction program generalizing credit with
  | done value =>
      exact continues value credit first
  | fail error =>
      exact stops error credit first
  | call request continuation inductionHypothesis =>
      exact ⟨first.1, fun answer answered =>
        inductionHypothesis answer (first.2 answer answered)⟩

theorem Affords.mapError
    {program : Program I ε α}
    {translate : ε → ε'}
    {credit : Nat}
    {middle : Except ε α → Nat → Prop}
    {post : Except ε' α → Nat → Prop}
    (affords : program.Affords charge answers credit middle)
    (translates :
      ∀ result left,
        middle result left → post (result.mapError translate) left) :
    (program.mapError translate).Affords charge answers credit post := by
  induction program generalizing credit with
  | done value =>
      exact translates _ _ affords
  | fail error =>
      exact translates _ _ affords
  | call request next inductionHypothesis =>
      exact ⟨affords.1, fun answer answered =>
        inductionHypothesis answer (affords.2 answer answered)⟩

/-- What is left does not depend on the translation of an error. -/
theorem Affords.mapError_left
    {program : Program I ε α}
    {translate : ε → ε'}
    {credit : Nat}
    {leaves : Nat → Prop}
    (affords :
      program.Affords charge answers credit fun _ left => leaves left) :
    (program.mapError translate).Affords charge answers credit
      fun _ left => leaves left :=
  affords.mapError fun _ _ holds => holds

theorem Affords.attempt
    {program : Program I ε α}
    {credit : Nat}
    {middle : Except ε α → Nat → Prop}
    {post : Except ε' (Except ε α) → Nat → Prop}
    (affords : program.Affords charge answers credit middle)
    (ends : ∀ result left, middle result left → post (.ok result) left) :
    (program.attempt : Program I ε' (Except ε α)).Affords charge answers
      credit post := by
  induction program generalizing credit with
  | done value =>
      exact ends _ _ affords
  | fail error =>
      exact ends _ _ affords
  | call request next inductionHypothesis =>
      exact ⟨affords.1, fun answer answered =>
        inductionHypothesis answer (affords.2 answer answered)⟩

theorem Affords.attempt_left
    {program : Program I ε α}
    {credit : Nat}
    {leaves : Nat → Prop}
    (affords :
      program.Affords charge answers credit fun _ left => leaves left) :
    (program.attempt : Program I ε' (Except ε α)).Affords charge answers
      credit fun _ left => leaves left :=
  affords.attempt fun _ _ holds => holds

/-- No conversation on such answers is charged more than the credit. -/
theorem Affords.spent_le
    {program : Program I ε α}
    {credit : Nat}
    {post : Except ε α → Nat → Prop}
    {conversation : List (Utterance I)}
    (affords : program.Affords charge answers credit post)
    (converses : program.Converses conversation)
    (answered :
      ∀ exchange ∈ conversation, answers exchange.request exchange.answer) :
    spent charge conversation ≤ credit := by
  induction converses generalizing credit with
  | silent program =>
      exact Nat.zero_le credit
  | @speak request next answer rest continues inductionHypothesis =>
      obtain ⟨enough, continuesAffords⟩ := affords
      have first := answered ⟨request, answer⟩ List.mem_cons_self
      have others :=
        inductionHypothesis (continuesAffords answer first)
          fun exchange member => answered exchange (.tail _ member)
      have split :
          spent charge (⟨request, answer⟩ :: rest) =
            charge request + spent charge rest :=
        rfl
      omega

end Program

end AtomicProgram
