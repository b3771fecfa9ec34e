import Quadpod.SaturatingInteger
import Quadpod.Stores
import Quadpod.Traversal

namespace Quadpod

/-!
# What credentials are read with

`auth/mod.rs` and the libraries the verification of a credential rests on: JSON
values, base64url and SHA-256, the keys and signatures of `josekit`, and the
checks of `dpop-verifier`.  A verification is a computation that may fail and
that keeps what it did to the pod's state when it does.
-/

/-- `AuthError` -/
inductive AuthError where
  | malformed (message : Text)
  | badSignature
  | expired
  | unknownIssuer
  | dpopInvalid (message : Text)
  | binding
  | missingKey
  | unsupportedKeyType
  | fetchBlocked (message : Text)
  | issuerNotAuthorized
  | untrustedIssuer
  | wrongAudience
  deriving DecidableEq

namespace AuthError

variable {Value Next : Type}

/-- `Option::ok_or` -/
def okOr (value : Option Value) (error : AuthError) : Except AuthError Value :=
  match value with
  | some value => .ok value
  | none => .error error

/-- An early return with an error. -/
def refuseIf (condition : Prop) [Decidable condition] (error : AuthError) :
    Except AuthError Unit :=
  if condition then .error error else .ok ()

theorem okOr_eq_ok_iff
    {found : Option Value} {error : AuthError} {value : Value} :
    okOr found error = .ok value ↔ found = some value := by
  cases found <;> simp [okOr]

theorem refuseIf_eq_ok_iff
    {condition : Prop} [Decidable condition] {error : AuthError} {value : Unit} :
    refuseIf condition error = .ok value ↔ ¬ condition := by
  unfold refuseIf
  split <;> simp [*]

/-- Both parts of a chain of checks that succeeds succeed. -/
theorem bind_eq_ok
    {first : Except AuthError Value}
    {next : Value → Except AuthError Next}
    {result : Next}
    (succeeds : first >>= next = .ok result) :
    ∃ value, first = .ok value ∧ next value = .ok result :=
  Traversal.ok_bind_iff.mp succeeds

end AuthError

/-- `serde_json::Value`; a number that is no integer keeps its spelling only. -/
inductive Json where
  | null
  | bool (value : Bool)
  | integer (value : Int)
  | float (spelling : Text)
  | string (text : Text)
  | array (items : List Json)
  | object (members : List (Text × Json))

namespace Json

/-- `Value::get` for a member name. -/
def get? (value : Json) (name : Text) : Option Json :=
  match value with
  | .object members => members.lookup name
  | _ => none

/-- `Value::as_str` -/
def asStr : Json → Option Text
  | .string text => some text
  | _ => none

/-- `Value::as_object` -/
def asObject : Json → Option (List (Text × Json))
  | .object members => some members
  | _ => none

/-- `Value::as_i64` -/
def asI64 : Json → Option I64
  | .integer value =>
      if fits : -(2 ^ 63) ≤ value ∧ value < 2 ^ 63 then
        some ⟨value, fits.1, fits.2⟩
      else
        none
  | _ => none

end Json

/-- `sha2`, `base64` (`URL_SAFE_NO_PAD`) and `serde_json`. -/
class WireFormats where
  sha256 : Bytes → Bytes
  encodeBase64Url : Bytes → Text
  decodeBase64Url : Text → Option Bytes
  parseJson : Bytes → Option Json
  writeJson : Json → Text

/-- The keys and signatures of `josekit`. -/
class Josekit where
  Jwk : Type
  Verifier : Type
  fromMap : List (Text × Json) → Option Jwk
  keyType : Jwk → Text
  curve : Jwk → Option Text
  keyId : Jwk → Option Text
  keyUse : Jwk → Option Text
  isForKeyOperation : Jwk → Text → Bool
  rs256Verifier : Jwk → Option Verifier
  es256Verifier : Jwk → Option Verifier
  verify : Verifier → Bytes → Bytes → Bool
  decodeWithVerifier : Text → Verifier → Option (List (Text × Json))

/-- `dpop_verifier::VerifiedDpop` -/
structure VerifiedDpop where
  jkt : Text
  jti : Text
  iat : I64
  deriving DecidableEq

/--
`dpop-verifier`, whose errors are the texts they display.  Its own verification
takes the two windows of its freshness check, reads the wall clock, and is given
a replay store that records nothing.
-/
class DpopVerifierCrate where
  normalizeHtu : Text → Except Text Text
  normalizeMethod : Text → Except Text Text
  verify :
    (maxAge futureSkew wallClock : Int) →
    (proof htu htm : Text) →
    Except Text VerifiedDpop

/-- `url::Url::parse` followed by `Url::path`. -/
class UrlParser where
  path : Text → Option Text

/-- A verification over the state the pod keeps. -/
abbrev Verification (State : Type) := ExceptT AuthError (StateM State)

namespace Verification

variable {State Value Result : Type}

/-- How a verification ends, and the state it leaves. -/
def perform (verification : Verification State Value) (state : State) :
    Except AuthError Value × State :=
  verification.run.run state

/-- A check that neither reads nor changes the state. -/
def check (outcome : Except AuthError Value) : Verification State Value :=
  match outcome with
  | .ok value => pure value
  | .error error => throw error

@[simp] theorem perform_pure (value : Value) (state : State) :
    (pure value : Verification State Value).perform state = (.ok value, state) :=
  rfl

@[simp] theorem perform_throw (error : AuthError) (state : State) :
    (throw error : Verification State Value).perform state =
      (.error error, state) :=
  rfl

@[simp] theorem perform_get (state : State) :
    (get : Verification State State).perform state = (.ok state, state) :=
  rfl

@[simp] theorem perform_set (next state : State) :
    (set next : Verification State Unit).perform state = (.ok (), next) :=
  rfl

@[simp] theorem perform_modify (change : State → State) (state : State) :
    (modify change : Verification State Unit).perform state =
      (.ok (), change state) :=
  rfl

@[simp] theorem perform_check
    (outcome : Except AuthError Value) (state : State) :
    (check outcome).perform state = (outcome, state) := by
  cases outcome <;> rfl

/-- The first part runs, and the second only where the first succeeds. -/
theorem perform_bind
    (first : Verification State Value)
    (next : Value → Verification State Result)
    (state : State) :
    (first >>= next).perform state =
      match first.perform state with
      | (.ok value, middle) => (next value).perform middle
      | (.error error, middle) => (.error error, middle) := by
  unfold perform
  rw [ExceptT.run_bind, StateT.run_bind]
  change (match (ExceptT.run first).run state with | _ => _) = _
  rcases first.run.run state with ⟨_ | _, middle⟩ <;> rfl

/-- Both parts of a sequence that succeeds succeed. -/
theorem perform_bind_eq_ok
    {first : Verification State Value}
    {next : Value → Verification State Result}
    {state last : State}
    {result : Result}
    (succeeds : (first >>= next).perform state = (.ok result, last)) :
    ∃ value middle,
      first.perform state = (.ok value, middle) ∧
      (next value).perform middle = (.ok result, last) := by
  rw [perform_bind] at succeeds
  split at succeeds
  next value middle ran =>
      exact ⟨value, middle, ran, succeeds⟩
  next error middle ran =>
      cases succeeds

/-- A check that a sequence succeeds through passes, and leaves the state. -/
theorem perform_check_bind_eq_ok
    {outcome : Except AuthError Value}
    {next : Value → Verification State Result}
    {state last : State}
    {result : Result}
    (succeeds : (check outcome >>= next).perform state = (.ok result, last)) :
    ∃ value,
      outcome = .ok value ∧ (next value).perform state = (.ok result, last) := by
  obtain ⟨value, middle, checked, succeeds⟩ := perform_bind_eq_ok succeeds
  rw [perform_check] at checked
  obtain ⟨passes, same⟩ := Prod.mk.inj checked
  subst same
  exact ⟨value, passes, succeeds⟩

/-- A verification over a part of the state. -/
def within {Part : Type}
    (read : State → Part) (write : State → Part → State)
    (verification : Verification Part Value) :
    Verification State Value :=
  ExceptT.mk fun state =>
    let (outcome, part) := verification.perform (read state)
    (outcome, write state part)

/-- However the verification ends, one assertion before it gives another after. -/
def Establishes
    (verification : Verification State Value)
    (before after : State → Prop) :
    Prop :=
  ∀ state, before state → after (verification.perform state).2

namespace Establishes

variable {before middle after : State → Prop}

theorem pure (value : Value) :
    Establishes (Pure.pure value : Verification State Value) before before :=
  fun _ holds => holds

theorem throw (error : AuthError) :
    Establishes (throw error : Verification State Value) before before :=
  fun _ holds => holds

theorem check (outcome : Except AuthError Value) :
    Establishes (check outcome : Verification State Value) before before := by
  intro state holds
  rw [perform_check]
  exact holds

/-- A sequence establishes what its second part does, where its end also follows
from the point at which the first part may fail. -/
theorem bind
    {first : Verification State Value}
    {next : Value → Verification State Result}
    (reaches : first.Establishes before middle)
    (proceeds : ∀ value, (next value).Establishes middle after)
    (stops : ∀ state, middle state → after state) :
    (first >>= next).Establishes before after := by
  intro state holds
  have reached := reaches state holds
  rw [perform_bind]
  split
  next value middleState ran =>
      rw [ran] at reached
      exact proceeds value middleState reached
  next error middleState ran =>
      rw [ran] at reached
      exact stops middleState reached

end Establishes

end Verification

end Quadpod
