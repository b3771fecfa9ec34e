import Mathlib.Data.List.Forall2
import Quadpod.AtomicProgramInterleaving

/-!
# Programs that do not tell one fault from another

A failed call hands its program a fault.  Two programs are alike when they issue
the same calls as long as the same calls fail, whatever faults the failures
carry, and end in related results.  Runs of alike programs, alone or interleaved,
leave the same world; nothing but the relation of their errors tells them apart.
-/

namespace AtomicProgram

namespace Program

variable {I : Interface} {ε ε' α β World : Type}

/-- The same calls, and related results, where only the faults differ. -/
inductive Alike (errors : ε → ε → Prop) (values : α → α → Prop) :
    Program I ε α → Program I ε α → Prop where
  | done {first second : α} (related : values first second) :
      Alike errors values (.done first) (.done second)
  | fail {first second : ε} (related : errors first second) :
      Alike errors values (.fail first) (.fail second)
  | call
      (request : I.Call)
      {first second : Except I.Fault (I.Reply request) → Program I ε α}
      (answered :
        ∀ reply, Alike errors values (first (.ok reply)) (second (.ok reply)))
      (failed :
        ∀ fault other,
          Alike errors values (first (.error fault)) (second (.error other))) :
      Alike errors values (.call request first) (.call request second)

/-- Related results: both values, or both errors. -/
def ResultsAlike (errors : ε → ε → Prop) (values : α → α → Prop) :
    Except ε α → Except ε α → Prop
  | .ok first, .ok second => values first second
  | .error first, .error second => errors first second
  | _, _ => False

/-- What a program has come to, where it has come to an end. -/
def result? : Program I ε α → Option (Except ε α)
  | .done value => some (.ok value)
  | .fail error => some (.error error)
  | .call _ _ => none

/-- A program whose faults show in its error at most, up to a relation. -/
abbrev Conceals (errors : ε → ε → Prop) (program : Program I ε α) : Prop :=
  Alike errors Eq program program

section Rules

variable {errors : ε → ε → Prop} {values : α → α → Prop}

theorem conceals_done (value : α) :
    (.done value : Program I ε α).Conceals errors :=
  .done rfl

theorem conceals_fail (isRefl : ∀ error, errors error error) (error : ε) :
    (.fail error : Program I ε α).Conceals errors :=
  .fail (isRefl error)

theorem conceals_ofExcept
    (isRefl : ∀ error, errors error error) (result : Except ε α) :
    (ofExcept result : Program I ε α).Conceals errors := by
  cases result with
  | ok value =>
      exact conceals_done value
  | error error =>
      exact conceals_fail isRefl error

theorem Alike.bind
    {results : β → β → Prop}
    {first second : Program I ε α}
    {next later : α → Program I ε β}
    (alike : Alike errors values first second)
    (continues :
      ∀ value other,
        values value other →
        Alike errors results (next value) (later other)) :
    Alike errors results (first >>= next) (second >>= later) := by
  induction alike with
  | done related =>
      exact continues _ _ related
  | fail related =>
      exact .fail related
  | call request _ _ answeredHypothesis failedHypothesis =>
      exact .call request answeredHypothesis failedHypothesis

theorem Conceals.bind
    {program : Program I ε α} {next : α → Program I ε β}
    (conceals : program.Conceals errors)
    (continues : ∀ value, (next value).Conceals errors) :
    (program >>= next).Conceals errors := by
  refine Alike.bind conceals ?_
  rintro value _ rfl
  exact continues value

theorem Alike.mapError
    {translated : ε' → ε' → Prop}
    {translate : ε → ε'}
    {first second : Program I ε α}
    (alike : Alike errors values first second)
    (translates :
      ∀ error other,
        errors error other → translated (translate error) (translate other)) :
    Alike translated values
      (first.mapError translate) (second.mapError translate) := by
  induction alike with
  | done related =>
      exact .done related
  | fail related =>
      exact .fail (translates _ _ related)
  | call request _ _ answeredHypothesis failedHypothesis =>
      exact .call request answeredHypothesis failedHypothesis

theorem Alike.attempt
    {any : ε' → ε' → Prop}
    {first second : Program I ε α}
    (alike : Alike errors values first second) :
    Alike any (ResultsAlike errors values)
      (first.attempt : Program I ε' _) second.attempt := by
  induction alike with
  | done related =>
      exact .done related
  | fail related =>
      exact .done related
  | call request _ _ answeredHypothesis failedHypothesis =>
      exact .call request answeredHypothesis failedHypothesis

/-- Related errors of a program that was attempted are gone on from alike. -/
theorem Conceals.attempt_bind
    {anyError : ε' → ε' → Prop}
    {program : Program I ε α}
    {next : Except ε α → Program I ε' β}
    (conceals : program.Conceals errors)
    (continues : ∀ result, (next result).Conceals anyError)
    (sameAnswer :
      ∀ error other,
        errors error other → next (.error error) = next (.error other)) :
    ((program.attempt : Program I ε' _) >>= next).Conceals anyError := by
  refine Alike.bind (Alike.attempt conceals) ?_
  intro result other related
  cases result with
  | ok value =>
      cases other with
      | ok same =>
          obtain rfl : value = same := related
          exact continues (.ok value)
      | error error =>
          exact related.elim
  | error error =>
      cases other with
      | ok value =>
          exact related.elim
      | error other =>
          rw [sameAnswer error other related]
          exact continues (.error other)

/-- Programs alike up to nothing come to the same end. -/
theorem Alike.result?_eq
    {first second : Program I ε α} (alike : Alike Eq Eq first second) :
    first.result? = second.result? := by
  cases alike with
  | done related =>
      rw [related]
  | fail related =>
      rw [related]
  | call request answered failed =>
      rfl

end Rules

end Program

/-! ## Interleavings -/

/-- Two schedules: the same turns, and the same ones fail. -/
def Turn.Alike {I : Interface} (first second : Turn I) : Prop :=
  first.thread = second.thread ∧ first.fault.isSome = second.fault.isSome

namespace Config

variable {I : Interface} {ε α World : Type}

/-- The same world and history, and alike programs. -/
structure Alike
    (errors : ε → ε → Prop) (values : α → α → Prop)
    (first second : Config I ε α World) : Prop where
  world : first.world = second.world
  history : first.history = second.history
  pool : List.Forall₂ (Program.Alike errors values) first.pool second.pool

variable {errors : ε → ε → Prop} {values : α → α → Prop}

/-- Where one pool has a program, the other one has one that is alike. -/
theorem Alike.getElem?
    {first second : Config I ε α World}
    (alike : first.Alike errors values second)
    {thread : Nat} {program : Program I ε α}
    (isProgram : first.pool[thread]? = some program) :
    ∃ other,
      second.pool[thread]? = some other ∧
        program.Alike errors values other := by
  obtain ⟨inPool, isThere⟩ := List.getElem?_eq_some_iff.mp isProgram
  have inOther : thread < second.pool.length := alike.pool.length_eq ▸ inPool
  refine ⟨second.pool[thread], List.getElem?_eq_getElem inOther, ?_⟩
  rw [← isThere]
  exact alike.pool.get inPool inOther

theorem forall₂_set
    {first second : List (Program I ε α)} {thread : Nat}
    {program other : Program I ε α}
    (pool : List.Forall₂ (Program.Alike errors values) first second)
    (alike : program.Alike errors values other) :
    List.Forall₂ (Program.Alike errors values)
      (first.set thread program) (second.set thread other) := by
  induction pool generalizing thread with
  | nil =>
      exact .nil
  | cons head rest inductionHypothesis =>
      cases thread with
      | zero =>
          exact .cons alike rest
      | succ thread =>
          exact .cons head inductionHypothesis

/-- One turn keeps configurations alike. -/
theorem Alike.advance
    {machine : Machine I World}
    {first second : Config I ε α World}
    {turn other : Turn I}
    (alike : first.Alike errors values second)
    (sameTurn : turn.Alike other) :
    (first.advance machine turn).Alike errors values
      (second.advance machine other) := by
  obtain ⟨sameThread, sameFault⟩ := sameTurn
  unfold Config.advance
  rw [← sameThread]
  cases isProgram : first.pool[turn.thread]? with
  | none =>
      have isNone : second.pool[turn.thread]? = none := by
        rw [List.getElem?_eq_none_iff] at isProgram ⊢
        rwa [← alike.pool.length_eq]
      rw [isNone]
      exact alike
  | some program =>
      obtain ⟨partner, isPartner, related⟩ := alike.getElem? isProgram
      rw [isPartner]
      cases related with
      | done related =>
          exact alike
      | fail related =>
          exact alike
      | call request answered failed =>
          cases fault : turn.fault with
          | none =>
              rw [fault] at sameFault
              obtain isNone : other.fault = none := by
                simpa using sameFault.symm
              simp only [isNone]
              rw [alike.world, alike.history]
              refine ⟨rfl, rfl, forall₂_set alike.pool ?_⟩
              cases (machine.perform second.world request).1 with
              | ok reply =>
                  exact answered reply
              | error fault =>
                  exact failed fault fault
          | some message =>
              rw [fault] at sameFault
              obtain ⟨otherMessage, isSome⟩ :=
                Option.isSome_iff_exists.mp sameFault.symm
              simp only [isSome]
              exact ⟨alike.world, alike.history,
                forall₂_set alike.pool (failed message otherMessage)⟩

/-- Schedules that differ in their faults only keep configurations alike. -/
theorem Alike.execute
    {machine : Machine I World}
    {first second : Config I ε α World}
    {schedule other : List (Turn I)}
    (alike : first.Alike errors values second)
    (sameTurns : List.Forall₂ Turn.Alike schedule other) :
    (execute machine schedule first).Alike errors values
      (execute machine other second) := by
  induction sameTurns generalizing first second with
  | nil =>
      exact alike
  | cons sameTurn _ inductionHypothesis =>
      exact inductionHypothesis (alike.advance sameTurn)

/-- The programs of alike configurations have come to the same ends. -/
theorem Alike.results_eq
    {first second : Config I ε α World}
    (alike : first.Alike Eq Eq second) (thread : Nat) :
    (first.pool[thread]?).map Program.result? =
      (second.pool[thread]?).map Program.result? := by
  cases isProgram : first.pool[thread]? with
  | none =>
      have isNone : second.pool[thread]? = none := by
        rw [List.getElem?_eq_none_iff] at isProgram ⊢
        rwa [← alike.pool.length_eq]
      rw [isNone]
  | some program =>
      obtain ⟨other, isOther, related⟩ := alike.getElem? isProgram
      rw [isOther, Option.map_some, Option.map_some, related.result?_eq]

end Config

end AtomicProgram
