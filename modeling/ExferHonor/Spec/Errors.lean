import Mathlib.Data.List.Infix
import Mathlib.Logic.Basic

/-! What a program can throw. JavaScript lets any value be thrown; the two error classes of
the library are told apart from everything else by `instanceof`. -/
namespace ExferHonor

inductive HonorErrorCode where
  | malformedQuote
  | apiVersionMismatch
  | contractViolation
  | seenLockViolation
  | outpointCollision
  | claimMarginAssertion
  | storeTopology
  | dbFault
  | chainFault
  | keystoreFault
  | indexerFault
  deriving DecidableEq, Repr

inductive GateViolationKind where
  | seenAlreadyHonored
  | expiredWindow
  | outpointConsumed
  deriving DecidableEq, Repr

/-- The `code` property of an error object: JSON-RPC codes are numbers, SQL ones strings. -/
inductive ErrorCode where
  | number (value : Int)
  | text (value : String)
  deriving DecidableEq, Repr

/-- `error` is an error object of any other class; `identity` tells two objects apart.
An omitted `cause` is `undefined`. -/
inductive Thrown where
  | undefined
  | null
  | text (value : String)
  | number (value : Int)
  | honorError (code : HonorErrorCode) (message : String) (cause : Thrown)
  | gateViolation (kind : GateViolationKind) (message : String)
  | error (identity : Nat) (code : Option ErrorCode) (message : String)
  deriving DecidableEq, Repr

namespace Thrown

def isGateViolation : Thrown → Bool
  | .gateViolation _ _ => true
  | _ => false

/-- `(e as { code?: unknown }).code` -/
def code? : Thrown → Option ErrorCode
  | .error _ code _ => code
  | _ => none

/-- What reading a property of `undefined` or `null` throws. -/
def unreadable (value property : String) : Thrown :=
  .error 15 none s!"Cannot read properties of {value} (reading '{property}')"

/-- `(e as { message?: unknown }).message`, where it is a string -/
def message : Thrown → Except Thrown (Option String)
  | .undefined => .error (unreadable "undefined" "message")
  | .null => .error (unreadable "null" "message")
  | .text _ => .ok none
  | .number _ => .ok none
  | .honorError _ message _ => .ok (some message)
  | .gateViolation _ message => .ok (some message)
  | .error _ _ message => .ok (some message)

/-- `(e as { code?: unknown }).code`, where it is the code of an error object -/
def readCode (e : Thrown) : Except Thrown (Option ErrorCode) :=
  match e with
  | .undefined => .error (unreadable "undefined" "code")
  | .null => .error (unreadable "null" "code")
  | e => .ok e.code?

def isReadable : Thrown → Bool
  | .undefined => false
  | .null => false
  | _ => true

def message? : Thrown → Option String
  | .honorError _ message _ => some message
  | .gateViolation _ message => some message
  | .error _ _ message => some message
  | _ => none

theorem message_of_isReadable {e : Thrown} (readable : e.isReadable = true) :
    e.message = .ok e.message? := by
  cases e <;> first | rfl | contradiction

theorem readCode_of_isReadable {e : Thrown} (readable : e.isReadable = true) :
    e.readCode = .ok e.code? := by
  cases e <;> first | rfl | contradiction

end Thrown

/-- `text.includes(part)` -/
def includes (text part : String) : Bool := decide (part.toList <:+: text.toList)

def asciiLower (text : String) : String := .ofList (text.toList.map Char.toLower)

namespace Thrown
variable (toLowerCase : String → String)

def mentionsAny (markers : List String) (e : Thrown) : Except Thrown Bool := do
  match ← e.message with
  | none => return false
  | some message => return markers.any (includes (toLowerCase message))

def lowered (e : Thrown) : List Char :=
  (e.message?.map fun message => (toLowerCase message).toList).getD []

theorem mentionsAny_of_isReadable {markers : List String} {e : Thrown}
    (readable : e.isReadable = true) (shown : ∀ marker ∈ markers, marker.toList ≠ []) :
    e.mentionsAny toLowerCase markers =
      .ok (decide (∃ marker ∈ markers, marker.toList <:+: e.lowered toLowerCase)) := by
  unfold mentionsAny lowered
  rw [message_of_isReadable readable]
  simp only [bind, Except.bind]
  cases e.message? with
  | none =>
    simp only [pure, Except.pure, Option.map_none, Option.getD_none, List.infix_nil]
    rw [decide_eq_false (by rintro ⟨marker, listed, hnil⟩; exact shown marker listed hnil)]
  | some message =>
    simp only [pure, Except.pure, Except.ok.injEq, Option.map_some, Option.getD_some]
    rw [Bool.eq_iff_iff]
    simp only [List.any_eq_true, includes, decide_eq_true_eq]

end Thrown
end ExferHonor
