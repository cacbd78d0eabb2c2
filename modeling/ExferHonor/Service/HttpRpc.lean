import ExferHonor.Effects.Runs
import ExferHonor.Spec.Errors
import Mathlib.Tactic.ByContra

/-! The JSON-RPC transport over `fetch` and its retries. One call is a loop over attempts, each a
`try` block whose `catch` swallows more than the network's own faults. -/
namespace ExferHonor

/-- `e instanceof Error` -/
def Thrown.isError : Thrown → Bool
  | .honorError _ _ _ => true
  | .gateViolation _ _ => true
  | .error _ _ _ => true
  | _ => false

namespace HttpRpc
open Effects

/-- What `fetch` and `json` reject with. -/
abbrev ErrorObject := {e : Thrown // e.isError = true}

/-- `data` is any JSON value, by its text. -/
structure RpcErrorMember where
  code : Option Int
  message : Option String
  data : Option String
  deriving DecidableEq, Repr

/-- A value that is not `null`; an absent `result` is `undefined`. -/
structure JsonRpcEnvelope (R : Type) where
  error : Option RpcErrorMember
  result : Option R
  deriving DecidableEq, Repr

inductive Body (R : Type) where
  | unparsable (e : ErrorObject)
  | null
  | envelope (env : JsonRpcEnvelope R)
  deriving DecidableEq

inductive FetchResult (R : Type) where
  | fails (e : ErrorObject)
  | responds (status : Nat) (body : Body R)
  deriving DecidableEq

structure HttpRequest (P : Type) where
  url : String
  headers : List (String × String)
  id : Nat
  method : String
  params : P

inductive HttpOp (P R : Type) where
  | fetch (request : HttpRequest P)
  | sleep (ms : Nat)

abbrev HttpOp.Reply {P R : Type} : HttpOp P R → Type
  | .fetch _ => FetchResult R
  | .sleep _ => Unit

/-- What goes through the `catch` block, told apart by `instanceof JsonRpcError`. -/
inductive RpcThrown where
  | jsonRpcError (message : String) (code : Option Int) (data : Option String)
  | other (e : Thrown)
  deriving DecidableEq, Repr

def RpcThrown.isJsonRpcError : RpcThrown → Bool
  | .jsonRpcError _ _ _ => true
  | .other _ => false

def RpcThrown.isError : RpcThrown → Bool
  | .jsonRpcError _ _ _ => true
  | .other e => e.isError

abbrev HttpAsync (P R α : Type) := Program (HttpOp P R) HttpOp.Reply RpcThrown α

def maxAttempts : Nat := 5
def backoffMs : Nat := 400

def isOk (status : Nat) : Bool := decide (200 ≤ status) && decide (status ≤ 299)

def httpFault (url method : String) (status : Nat) : RpcThrown :=
  .other (.error 16 none s!"JSON-RPC HTTP {status} from {url} for {method}")

def exhausted (url method : String) : RpcThrown :=
  .other (.error 17 none
    s!"JSON-RPC call {method} to {url} failed after {maxAttempts} attempts")

variable {P R : Type}

def FetchResult.response : FetchResult R → Except RpcThrown (Nat × Body R)
  | .fails e => .error (.other e.val)
  | .responds status body => .ok (status, body)

def Body.json : Body R → Except RpcThrown (JsonRpcEnvelope R)
  | .unparsable e => .error (.other e.val)
  | .null => .error (.other (Thrown.unreadable "null" "error"))
  | .envelope env => .ok env

def JsonRpcEnvelope.unwrap (method : String) (env : JsonRpcEnvelope R) :
    Except RpcThrown (Option R) :=
  match env.error with
  | some error =>
      .error (.jsonRpcError (error.message.getD s!"JSON-RPC error from {method}") error.code
        error.data)
  | none => .ok env.result

inductive Round (R : Type) where
  | returns (result : Option R)
  | continues (lastErr : RpcThrown)

def fetch (request : HttpRequest P) : HttpAsync P R (Nat × Body R) :=
  .call (.fetch request) fun reply => .ofExcept (FetchResult.response reply)

def sleep (ms : Nat) : HttpAsync P R Unit := .call (.sleep ms) fun _ => .pure ()

/-- The `try` block. -/
def tryOnce (request : HttpRequest P) (attempt : Nat) : HttpAsync P R (Round R) := do
  let res ← fetch request
  if !isOk res.1 then
    let e := httpFault request.url request.method res.1
    if 500 ≤ res.1 ∧ attempt < maxAttempts then do
      sleep (backoffMs * attempt)
      pure (.continues e)
    else throw e
  else do
    let env ← Program.ofExcept res.2.json
    let result ← Program.ofExcept (env.unwrap request.method)
    pure (.returns result)

/-- The `catch` block; after the last attempt the loop runs out. -/
def caught (attempt : Nat) (err : RpcThrown) : HttpAsync P R (Round R) :=
  if err.isJsonRpcError then throw err
  else if attempt < maxAttempts then do
    sleep (backoffMs * attempt)
    pure (.continues err)
  else pure (.continues err)

/-- `throw lastErr instanceof Error ? lastErr : new Error(…)` -/
def giveUp (request : HttpRequest P) : Option RpcThrown → RpcThrown
  | some lastErr => if lastErr.isError then lastErr else exhausted request.url request.method
  | none => exhausted request.url request.method

/-- The attempts that are left, the number of the next one and the last error. -/
def attempts (request : HttpRequest P) :
    Nat → Nat → Option RpcThrown → HttpAsync P R (Option R)
  | 0, _, lastErr => throw (giveUp request lastErr)
  | left + 1, attempt, _ => do
      match ← (tryOnce request attempt).handle (caught attempt) with
      | .returns result => pure result
      | .continues lastErr => attempts request left (attempt + 1) (some lastErr)

def headers (token : Option String) : List (String × String) :=
  ("content-type", "application/json") ::
    (token.map fun token => ("authorization", s!"Bearer {token}")).toList

def call (url : String) (token : Option String) (id : Nat) (method : String) (params : P) :
    HttpAsync P R (Option R) :=
  attempts ⟨url, headers token, id, method, params⟩ maxAttempts 1 none

/-! What a fetch result is to lead to. -/

namespace FetchResult

/-- A network or parse failure, or a status from 500 on. -/
def isTransient : FetchResult R → Bool
  | .fails _ => true
  | .responds status (.envelope _) => !isOk status && decide (500 ≤ status)
  | .responds status _ => isOk status || decide (500 ≤ status)

/-- Any other status that is not a success. -/
def isRefused : FetchResult R → Bool
  | .fails _ => false
  | .responds status _ => !isOk status && decide (status < 500)

def isEnvelope : FetchResult R → Bool
  | .responds status (.envelope _) => isOk status
  | _ => false

def answer (url method : String) : FetchResult R → Except RpcThrown (Option R)
  | .fails e => .error (.other e.val)
  | .responds status body =>
      if isOk status then body.json.bind (JsonRpcEnvelope.unwrap method)
      else .error (httpFault url method status)

end FetchResult

structure RetriesTransient (url method : String) (script : Nat → FetchResult R) (fetches : Nat)
    (result : Except RpcThrown (Option R)) : Prop where
  started : 0 < fetches
  bounded : fetches ≤ maxAttempts
  again : ∀ i, i + 1 < fetches → (script i).isTransient = true
  spent : (script (fetches - 1)).isTransient = true → fetches = maxAttempts
  ended : result = (script (fetches - 1)).answer url method

def scripted (script : Nat → FetchResult R) (fetches : Nat) :
    (op : HttpOp P R) → op.Reply × Nat
  | .fetch _ => (script fetches, fetches + 1)
  | .sleep _ => ((), fetches)

namespace FetchResult

theorem isTransient_eq (result : FetchResult R) :
    result.isTransient = (!result.isEnvelope && !result.isRefused) := by
  cases result with
  | fails e => rfl
  | responds status body =>
    have late : decide (500 ≤ status) = !decide (status < 500) := by simp [← decide_not]
    cases hok : isOk status <;> cases body <;>
      simp [isTransient, isEnvelope, isRefused, hok, late]

theorem not_isEnvelope_of_isRefused {result : FetchResult R} (refused : result.isRefused = true) :
    result.isEnvelope = false := by
  cases result with
  | fails e => rfl
  | responds status body =>
    simp only [isRefused, Bool.and_eq_true, Bool.not_eq_true'] at refused
    cases body <;> simp [isEnvelope, refused.1]

end FetchResult

section
variable {url method : String} {script : Nat → FetchResult R} (request : HttpRequest P)

theorem caught_run (attempt fetches : Nat) {err : RpcThrown} (other : err.isJsonRpcError = false) :
    ((caught (P := P) (R := R) attempt err).run (scripted script) fetches).2 =
      (.ok (.continues err), fetches) := by
  unfold caught
  rw [if_neg (by simp [other])]
  split <;> rfl

theorem handled_run (attempt fetches : Nat) {err : RpcThrown} (other : err.isJsonRpcError = false) :
    (((Program.throw err : HttpAsync P R (Round R)).handle (caught attempt)).run
      (scripted script) fetches).2 = (.ok (.continues err), fetches) :=
  caught_run attempt fetches other

/-- One round makes one fetch. An envelope ends the call, and everything else is an error that the
loop goes on with. -/
theorem round_run (attempt fetches : Nat) :
    ((script fetches).isEnvelope = true ∧
      (((tryOnce request attempt).handle (caught attempt)).run (scripted script) fetches).2 =
        (((script fetches).answer request.url request.method).map .returns, fetches + 1)) ∨
    ((script fetches).isEnvelope = false ∧ ∃ err, err.isError = true ∧
      (script fetches).answer request.url request.method = .error err ∧
      (((tryOnce request attempt).handle (caught attempt)).run (scripted script) fetches).2 =
        (.ok (.continues err), fetches + 1)) := by
  unfold tryOnce fetch
  simp only [Program.bind_eq, Program.call_bind, Program.handle, Program.run, scripted]
  generalize script fetches = result
  cases result with
  | fails e =>
    exact .inr ⟨rfl, .other e.val, e.property, rfl, handled_run attempt (fetches + 1) rfl⟩
  | responds status body =>
    simp only [FetchResult.response, Program.ofExcept_ok, Program.pure_bind]
    cases hok : isOk status with
    | false =>
      refine .inr ⟨by cases body <;> simp [FetchResult.isEnvelope, hok],
        httpFault request.url request.method status, rfl, by simp [FetchResult.answer, hok], ?_⟩
      simp only [Bool.not_false, if_true]
      split
      · rfl
      · exact handled_run attempt (fetches + 1) rfl
    | true =>
      simp only [Bool.not_true, Bool.false_eq_true, if_false, FetchResult.answer, hok, if_true]
      cases body with
      | unparsable e =>
        exact .inr ⟨rfl, .other e.val, e.property, rfl, handled_run attempt (fetches + 1) rfl⟩
      | null => exact .inr ⟨rfl, _, rfl, rfl, handled_run attempt (fetches + 1) rfl⟩
      | envelope env =>
        refine .inl ⟨hok, ?_⟩
        simp only [Body.json, Program.ofExcept_ok, Program.pure_bind, Except.bind]
        unfold JsonRpcEnvelope.unwrap
        cases env.error <;> rfl

/-- The loop ends with the first envelope among the fetches that are left, or else with the error of
the last of them. -/
theorem attempts_run (left attempt fetches : Nat) (lastErr : Option RpcThrown) :
    (∃ i < left, (∀ j < i, (script (fetches + j)).isEnvelope = false) ∧
      (script (fetches + i)).isEnvelope = true ∧
      ((attempts request left attempt lastErr).run (scripted script) fetches).2 =
        ((script (fetches + i)).answer request.url request.method, fetches + i + 1)) ∨
    ((∀ j < left, (script (fetches + j)).isEnvelope = false) ∧
      ((attempts request left attempt lastErr).run (scripted script) fetches).2 =
        (if left = 0 then .error (giveUp request lastErr)
          else (script (fetches + left - 1)).answer request.url request.method,
          fetches + left)) := by
  induction left generalizing attempt fetches lastErr with
  | zero => exact .inr ⟨by simp, rfl⟩
  | succ left ih =>
    have round := @round_run P R script request attempt fetches
    unfold attempts
    generalize hround : ((tryOnce request attempt).handle (caught attempt)).run (scripted script)
      fetches = ended at round
    obtain ⟨calls, result, after⟩ := ended
    rcases round with ⟨envelope, ends⟩ | ⟨other, err, isError, fails, ends⟩
    · obtain ⟨rfl, rfl⟩ := Prod.mk.inj ends
      refine .inl ⟨0, by omega, by simp, envelope, ?_⟩
      cases hanswer : (script fetches).answer request.url request.method with
      | error e =>
        rw [hanswer] at hround
        rw [Program.bind_eq, Program.run_bind_error hround]
      | ok value =>
        rw [hanswer] at hround
        rw [Program.bind_eq, Program.run_bind_ok hround]
        simp [Program.run]
    · obtain ⟨rfl, rfl⟩ := Prod.mk.inj ends
      rw [Program.bind_eq, Program.run_bind_ok hround]
      dsimp only
      rcases ih (attempt + 1) (fetches + 1) (some err) with
        ⟨i, hi, before, envelope, rest⟩ | ⟨all, rest⟩
      · refine .inl ⟨i + 1, by omega, fun j hj => ?_, ?_, ?_⟩
        · cases j with
          | zero => exact other
          | succ j => simpa [Nat.add_assoc, Nat.add_comm 1] using before j (by omega)
        · simpa [Nat.add_assoc, Nat.add_comm 1] using envelope
        · simpa [Nat.add_assoc, Nat.add_comm 1] using rest
      · refine .inr ⟨fun j hj => ?_, ?_⟩
        · cases j with
          | zero => exact other
          | succ j => simpa [Nat.add_assoc, Nat.add_comm 1] using all j (by omega)
        · rw [rest]
          cases left with
          | zero => simp [fails, giveUp, isError]
          | succ left => simp [Nat.add_assoc, Nat.add_comm 1]

def runCall (url : String) (token : Option String) (id : Nat) (method : String) (params : P)
    (script : Nat → FetchResult R) : Except RpcThrown (Option R) × Nat :=
  ((call (R := R) url token id method params).run (scripted script) 0).2

theorem runCall_ends (url : String) (token : Option String) (id : Nat) (method : String)
    (params : P) (script : Nat → FetchResult R) :
    ∃ last < maxAttempts, (∀ j < last, (script j).isEnvelope = false) ∧
      ((script last).isEnvelope = true ∨ last + 1 = maxAttempts) ∧
      runCall url token id method params script =
        ((script last).answer url method, last + 1) := by
  rcases @attempts_run P R script ⟨url, headers token, id, method, params⟩ maxAttempts 1 0
    none with ⟨i, hi, before, envelope, ended⟩ | ⟨all, ended⟩
  · simp only [Nat.zero_add] at before envelope ended
    exact ⟨i, hi, before, .inl envelope, ended⟩
  · simp only [Nat.zero_add] at all ended
    exact ⟨maxAttempts - 1, by decide, fun j hj => all j (by omega), .inr rfl, ended⟩

/-- The retries are those of the transient faults exactly when no refusal comes among the results
that the call would go on from, before the first envelope. -/
theorem retries_transient_iff (url : String) (token : Option String) (id : Nat) (method : String)
    (params : P) (script : Nat → FetchResult R) :
    RetriesTransient url method script (runCall url token id method params script).2
        (runCall url token id method params script).1 ↔
      ∀ i, i + 1 < maxAttempts → (script i).isRefused = true →
        ∃ j < i, (script j).isEnvelope = true := by
  obtain ⟨last, hlast, before, ends, hrun⟩ := runCall_ends url token id method params script
  rw [hrun]
  constructor
  · intro retries i hi refused
    by_contra none
    simp only [not_exists, not_and, Bool.not_eq_true] at none
    have reached : i ≤ last := by
      by_contra later
      rcases ends with envelope | spent
      · rw [none last (by omega)] at envelope
        contradiction
      · omega
    rcases Nat.lt_or_eq_of_le reached with earlier | rfl
    · have transient := retries.again i (by omega)
      rw [FetchResult.isTransient_eq, refused] at transient
      simp at transient
    · rcases ends with envelope | spent
      · rw [FetchResult.not_isEnvelope_of_isRefused refused] at envelope
        contradiction
      · omega
  · intro unrefused
    have transient {i : Nat} (hi : i + 1 < maxAttempts) (hbefore : i ≤ last)
        (other : (script i).isEnvelope = false) : (script i).isTransient = true := by
      rw [FetchResult.isTransient_eq, other, Bool.not_false, Bool.true_and, Bool.not_eq_true',
        Bool.eq_false_iff]
      intro refused
      obtain ⟨j, hj, envelope⟩ := unrefused i hi refused
      rw [before j (by omega)] at envelope
      contradiction
    refine ⟨by omega, hlast, fun i hi => transient (by omega) (by omega) (before i (by omega)),
      fun retry => ?_, rfl⟩
    rcases ends with envelope | spent
    · rw [Nat.add_sub_cancel, FetchResult.isTransient_eq, envelope] at retry
      simp at retry
    · exact spent

def notFoundOnce : Nat → FetchResult Nat
  | 0 => .responds 404 .null
  | _ => .responds 200 (.envelope ⟨none, some 7⟩)

theorem refusal_retried :
    runCall "http://node" none 1 "get_block_height" () notFoundOnce = (.ok (some 7), 2) ∧
      ¬ RetriesTransient "http://node" "get_block_height" notFoundOnce 2 (.ok (some 7)) := by
  refine ⟨rfl, fun retries => ?_⟩
  have := retries.again 0 (by decide)
  contradiction

end
end HttpRpc
end ExferHonor
