import ExferHonor.Effects.Pool
import ExferHonor.Service.HttpRpc
import ExferHonor.Spec.Types
import Mathlib.Algebra.GroupWithZero.Nat

/-! The testnet faucet: an HTTP front end that checks its limits against the drips on its books,
asks the wallet for a transfer, and books the drip when the wallet has answered. -/
namespace ExferHonor
namespace Faucet
open Effects

/-- `CFG`, without the addresses of the services. A daily budget of 0 is none. -/
structure Config where
  fromAddress : Hex
  amount : Nat
  addrCooldownSecs : Nat
  ipCooldownSecs : Nat
  dailyBudget : Nat

structure Drip where
  address : String
  ip : String
  amount : Nat
  txId : Hex
  moment : Int
  deriving DecidableEq, Repr

structure Metrics where
  served : Nat := 0
  rejected : Nat := 0
  errors : Nat := 0
  lastBalance : Int := 0
  deriving DecidableEq, Repr

structure State where
  drips : List Drip
  metrics : Metrics
  clock : Int
  deriving DecidableEq, Repr

/-- `SELECT MAX(at) AS t FROM drips WHERE …` -/
def lastWhere (drips : List Drip) (p : Drip → Bool) : Option Int :=
  ((drips.filter p).map (·.moment)).max?

/-- `SELECT COALESCE(SUM(amount), 0) AS s FROM drips WHERE at >= ?` -/
def sumSince (drips : List Drip) (first : Int) : Nat :=
  ((drips.filter fun drip => first ≤ drip.moment).map (·.amount)).sum

/-- `last.t && now - last.t < cooldown`, and how long it still takes -/
def cooling (last : Option Int) (now : Int) (cooldown : Nat) : Option Int :=
  match last with
  | none => none
  | some t => if t ≠ 0 ∧ now - t < cooldown then some (cooldown - (now - t)) else none

section
variable (config : Config)

def rateLimit (drips : List Drip) (address ip : String) (now : Int) : Option String :=
  match cooling (lastWhere drips (·.address = address)) now config.addrCooldownSecs with
  | some left => some s!"address cooldown: retry in {left}s"
  | none =>
    match cooling (lastWhere drips (·.ip = ip)) now config.ipCooldownSecs with
    | some left => some s!"ip cooldown: retry in {left}s"
    | none =>
      if 0 < config.dailyBudget ∧
          config.dailyBudget < sumSince drips (now - 86400) + config.amount then
        some "daily faucet budget exhausted; try tomorrow"
      else none

end

/-- What the source does between two `await`s is one call. A body that is no JSON, or has no
`address` to read, is an error; else the body is `String(parsed.address ?? "")`. -/
inductive FaucetOp where
  | readBody
  | rejectBody
  | rateLimit (address ip : String)
  | transfer (address : String) (amount : Nat) (clientToken : String)
  | insertDrip (drip : Drip)
  | getBalance (address : Hex)
  | setBalance (balance : Int)
  | getMetrics
  | countError
  deriving DecidableEq

abbrev FaucetOp.Reply : FaucetOp → Type
  | .readBody => Except Thrown String
  | .rejectBody => Unit
  | .rateLimit _ _ => Except Thrown (Int × Option String)
  | .transfer _ _ _ => Except Thrown Hex
  | .insertDrip _ => Except Thrown Unit
  | .getBalance _ => Except Thrown Int
  | .setBalance _ => Unit
  | .getMetrics => Metrics
  | .countError => Unit

abbrev FaucetCall := Call FaucetOp FaucetOp.Reply
abbrev FaucetAsync (α : Type) := Program FaucetOp FaucetOp.Reply Thrown α

structure Request where
  method : String
  url : String
  forwardedFor : Option String
  remoteAddress : Option String

/-- What is sent back, without the rendering as JSON or as text. `detail` is the value thrown. -/
inductive Response where
  | dripped (txId : Hex) (amount : Nat)
  | badRequest (error : String)
  | tooMany (error : String)
  | failed (detail : Thrown)
  | health (healthy : Bool) (balance : Int) (origin : Hex) (drip : Nat) (metrics : Metrics)
  | metrics (metrics : Metrics)
  | notFound
  deriving DecidableEq, Repr

def Response.status : Response → Nat
  | .dripped _ _ => 200
  | .badRequest _ => 400
  | .tooMany _ => 429
  | .failed _ => 500
  | .health healthy _ _ _ _ => if healthy then 200 else 503
  | .metrics _ => 200
  | .notFound => 404

def trim (text : String) : String :=
  let blank (c : Char) : Bool := c.toNat ∈ [9, 10, 11, 12, 13, 32, 0xA0, 0x1680, 0x2028, 0x2029,
    0x202F, 0x205F, 0x3000, 0xFEFF] || decide (0x2000 ≤ c.toNat ∧ c.toNat ≤ 0x200A)
  .ofList (((text.toList.dropWhile blank).reverse.dropWhile blank).reverse)

def clientIp (request : Request) : String :=
  match request.forwardedFor with
  | some forwarded => if forwarded = "" then request.remoteAddress.getD "unknown"
      else trim (.ofList (forwarded.toList.takeWhile (· ≠ ',')))
  | none => request.remoteAddress.getD "unknown"

def isAddress (text : String) : Bool :=
  text.length == 64 && text.toList.all fun c => c.isDigit || decide ('a' ≤ c ∧ c ≤ 'f')

section
variable (config : Config)

/-- `POST /faucet` -/
def drip (request : Request) : FaucetAsync Response :=
  let ip := clientIp request
  .call .readBody fun
    | .error _ => .call .rejectBody fun _ =>
        .pure (.badRequest "invalid JSON body; expected \x7b\"address\":\"<64-hex>\"\x7d")
    | .ok text =>
      let address := asciiLower text
      if isAddress address then
        .call (.rateLimit address ip) fun limited => (Program.ofExcept limited).bind fun
          | (_, some reject) => .pure (.tooMany reject)
          | (now, none) =>
            .call (.transfer address config.amount s!"faucet-{address}-{now}") fun transferred =>
              (Program.ofExcept transferred).bind fun txId =>
                .call (.insertDrip ⟨address, ip, config.amount, txId, now⟩) fun inserted =>
                  (Program.ofExcept inserted).bind fun _ => .pure (.dripped txId config.amount)
      else .call .rejectBody fun _ => .pure (.badRequest "address must be 64 lowercase hex chars")

/-- `GET /healthz` -/
def healthz : FaucetAsync Response :=
  .call (.getBalance config.fromAddress) fun
    | .ok balance => .call (.setBalance balance) fun _ => .call .getMetrics fun metrics =>
        .pure (.health (config.amount ≤ balance) balance config.fromAddress config.amount metrics)
    | .error _ => .call .getMetrics fun metrics =>
        .pure (.health (config.amount ≤ metrics.lastBalance) metrics.lastBalance config.fromAddress
          config.amount metrics)

def route (request : Request) : FaucetAsync Response :=
  if request.method = "GET" ∧ request.url = "/healthz" then healthz config
  else if request.method = "GET" ∧ request.url = "/metrics" then
    .call .getMetrics fun metrics => .pure (.metrics metrics)
  else if request.method = "POST" ∧ request.url = "/faucet" then drip config request
  else .pure .notFound

def server (request : Request) : FaucetAsync Response :=
  (route config request).handle fun e => .call .countError fun _ => .pure (.failed e)

end

namespace State

def opened (clock : Int) : State := ⟨[], {}, clock⟩

/-- The wallet and the client are outside, and a statement may fail. -/
def perform (config : Config) (state : State) : (op : FaucetOp) → op.Reply → op.Reply × State
  | .rejectBody, _ =>
      ((), { state with metrics := { state.metrics with rejected := state.metrics.rejected + 1 } })
  | .rateLimit _ _, .error e => (.error e, state)
  | .rateLimit address ip, .ok _ =>
      match Faucet.rateLimit config state.drips address ip state.clock with
      | some reject => (.ok (state.clock, some reject),
          { state with metrics := { state.metrics with rejected := state.metrics.rejected + 1 } })
      | none => (.ok (state.clock, none), state)
  | .insertDrip _, .error e => (.error e, state)
  | .insertDrip drip, .ok _ => (.ok (), { state with
      drips := state.drips ++ [drip]
      metrics := { state.metrics with served := state.metrics.served + 1 } })
  | .setBalance balance, _ =>
      ((), { state with metrics := { state.metrics with lastBalance := balance } })
  | .getMetrics, _ => (state.metrics, state)
  | .countError, _ =>
      ((), { state with metrics := { state.metrics with errors := state.metrics.errors + 1 } })
  | _, answer => (answer, state)

end State

/-- The clock goes where it likes, and a restart forgets the metrics. -/
def system (config : Config) :
    System State FaucetOp FaucetOp.Reply Thrown Response Request where
  program := server config
  perform := State.perform config
  mayStart _ _ := True
  mayShift before after := after.drips = before.drips

abbrev FaucetEvent := Event State FaucetOp FaucetOp.Reply Request
abbrev FaucetThread := Thread FaucetOp FaucetOp.Reply Thrown Response Request
abbrev FaucetPool := Pool State FaucetOp FaucetOp.Reply Thrown Response Request

end Faucet
end ExferHonor
