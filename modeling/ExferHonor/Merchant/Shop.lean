import ExferHonor.Effects.Part
import ExferHonor.Service.DoneTells

/-! The merchant example: an API service that sells prepaid calls. Its own two tables stand on the
connection of the gate, and any number of its `fulfilOnPayment` calls run over one service. -/
namespace ExferHonor
namespace Merchant
open Effects Relational

inductive OrderState where
  | pending
  | fulfilled
  deriving DecidableEq, Repr

structure OrderRow where
  quoteId : QuoteId
  sku : String
  credits : Int
  state : OrderState
  fulfilledAt : Option Int
  deriving DecidableEq, Repr

/-- `SET state='fulfilled', fulfilled_at=?` -/
def OrderRow.fulfil (row : OrderRow) (honoredAt : Int) : OrderRow :=
  { row with state := .fulfilled, fulfilledAt := some honoredAt }

structure ApiKeyRow where
  quoteId : QuoteId
  apiKey : String
  credits : Int
  deriving DecidableEq, Repr

inductive Statement where
  | selectOrder
  | insertKey
  | fulfilOrder

/-- The service's own tables, and which statements the database fails at the moment. -/
structure Tables where
  orders : Table QuoteId OrderRow OrderRow.quoteId
  apiKeys : Table QuoteId ApiKeyRow ApiKeyRow.quoteId
  fails : Statement → Option Thrown

namespace Tables

def init : Tables := ⟨.empty, .empty, fun _ => none⟩

/-- An order that is there stays as it is. -/
def placeOrder (tables : Tables) (quoteId : QuoteId) (sku : String) (credits : Int) : Tables :=
  { tables with orders := tables.orders.insertIgnore ⟨quoteId, sku, credits, .pending, none⟩ }

def insertKey (tables : Tables) (quoteId : QuoteId) (apiKey : String) (credits : Int) : Tables :=
  { tables with apiKeys := tables.apiKeys.insertIgnore ⟨quoteId, apiKey, credits⟩ }

def fulfilOrder (tables : Tables) (quoteId : QuoteId) (honoredAt : Int) : Tables :=
  { tables with
    orders := (tables.orders.updateWhere (fun row => row.quoteId = quoteId)
      (fun row => row.fulfil honoredAt) fun _ => rfl).1 }

end Tables

/-- Quote ids are lower-case hex. -/
def mintApiKey (quoteId : QuoteId) : String :=
  "sk-exfer-" ++ (String.ofList (quoteId.toList.take 16)).toLower

/-- `conn.prepare(…)` and its execution, which can throw. -/
def execute (statement : Statement) (act : Tables → Tables) :
    Program (GoodsStmt Tables) GoodsReply Thrown Tables :=
  .call ⟨fun tables => match tables.fails statement with
    | some e => .error e
    | none => .ok (act tables)⟩ .ofExcept

def deliver : Deliver Tables := fun ctx => do
  let quoteId := ctx.key.quoteId
  let apiKey := mintApiKey quoteId
  let selected ← execute .selectOrder id
  let credits := ((selected.orders.find? quoteId).map (·.credits)).getD 0
  let _ ← execute .insertKey fun tables => tables.insertKey quoteId apiKey credits
  let _ ← execute .fulfilOrder fun tables => tables.fulfilOrder quoteId ctx.honoredAt
  pure .value

/-- One process, its database, and the variables of its `onPaid` calls by number. -/
structure Shop where
  world : World Tables
  loops : Nat → LoopVars

inductive ShopOp where
  | port (op : Op Tables)
  | loop (id : Nat) (op : LoopOp)
  | done (id : Nat)
  | insertOrder (quoteId : QuoteId) (sku : String) (credits : Int)
  | selectKey (quoteId : QuoteId)

abbrev ShopOp.Reply : ShopOp → Type
  | .port op => op.Reply
  | .loop _ op => op.Reply
  | .done _ => Except Thrown OnPaidResult
  | .insertOrder _ _ _ => Except Thrown Unit
  | .selectKey _ => Except Thrown (Option ApiKeyRow)

abbrev ShopCall := Call ShopOp ShopOp.Reply
abbrev ShopAsync (α : Type) := Program ShopOp ShopOp.Reply Thrown α

namespace Shop

def opened (clock : Int) : Shop := ⟨.booted (.empty .init) clock, fun _ => .fresh⟩

def tables (shop : Shop) : Tables := shop.world.db.goods

def withTables (shop : Shop) (tables : Tables) : Shop :=
  { shop with world := { shop.world with db := { shop.world.db with goods := tables } } }

def perform (shop : Shop) : (op : ShopOp) → op.Reply → op.Reply × Shop
  | .port op, answer =>
      ((World.perform .sync shop.world op answer).1,
        { shop with world := (World.perform .sync shop.world op answer).2 })
  | .loop id op, _ =>
      (((shop.loops id).perform op).1, { shop with
        loops := fun other => if other = id then ((shop.loops id).perform op).2
          else shop.loops other })
  | .done id, answer => ((shop.loops id).settled.getD answer, shop)
  | .insertOrder _ _ _, .error e => (.error e, shop)
  | .insertOrder quoteId sku credits, .ok _ =>
      (.ok (), shop.withTables (shop.tables.placeOrder quoteId sku credits))
  | .selectKey _, .error e => (.error e, shop)
  | .selectKey quoteId, .ok _ => (.ok (shop.tables.apiKeys.find? quoteId), shop)

/-- The clock goes where it likes, statements begin and cease to fail, and a restart forgets the
maps that the process keeps in memory. -/
def mayShift (before after : Shop) : Prop :=
  ∃ clock claims claimTxIds fails, after = { before with
    world := ⟨{ before.world.db with goods := { before.tables with fails := fails } }, clock,
      claims, claimTxIds⟩ }

end Shop

inductive FulfilmentStatus where
  | honored
  | declined
  | cancelled
  deriving DecidableEq, Repr

structure Fulfilment where
  status : FulfilmentStatus
  apiKey : Option String := none
  credits : Option Int := none
  declineReason : Option DeclineReason := none
  deriving DecidableEq, Repr

inductive ShopTask where
  | onPaid (id : Nat) (task : LoopTask)
  | fulfil (id : Nat)
  | placeOrder (quoteId : QuoteId) (sku : String) (credits : Int)
  | engine (task : EngineTask Tables)

def fulfilment (id : Nat) (quote : AcceptedQuote) : ShopAsync Fulfilment :=
  .call (.done id) fun settled => (Program.ofExcept settled).bind fun
    | .honored _ => .call (.selectKey quote.quoteId) fun selected =>
        (Program.ofExcept selected).bind fun row =>
          .pure { status := .honored, apiKey := row.map (·.apiKey), credits := row.map (·.credits) }
    | .declined reason _ => .pure { status := .declined, declineReason := some reason }
    | .cancelled => .pure { status := .cancelled }

structure Service where
  honor : HonorEngine Tables
  quote : Nat → AcceptedQuote

namespace Service
variable (service : Service)

def onPaid (id : Nat) : OnPaid Tables := ⟨service.honor, service.quote id, deliver, false⟩

def loopOp (id : Nat) : Op Tables ⊕ LoopOp → ShopOp
  | .inl op => .port op
  | .inr op => .loop id op

def loopReply (id : Nat) : (op : Op Tables ⊕ LoopOp) →
    (loopOp id op).Reply ≃ Sum.elim Op.Reply LoopOp.Reply op
  | .inl _ => .refl _
  | .inr _ => .refl _

/-- The result of a call that hands nothing to the buyer is left out. -/
def program : ShopTask → ShopAsync (Option Fulfilment)
  | .onPaid id task => ((service.onPaid id).facade.program task).rename (loopOp id)
      (fun op => loopReply id op) fun _ => none
  | .fulfil id => (fulfilment id (service.quote id)).bind fun result => .pure (some result)
  | .placeOrder quoteId sku credits => .call (.insertOrder quoteId sku credits) fun inserted =>
      (Program.ofExcept inserted).bind fun _ => .pure none
  | .engine task => (service.honor.program task).rename .port (fun _ reply => reply) fun _ => none

/-- A timer that runs, a `done` that has settled, and calls of the engine that are no `honor`. The
handle of an `onPaid` call is not given out, so nobody cancels it. -/
def mayStart (shop : Shop) : ShopTask → Prop
  | .onPaid _ .startup => True
  | .onPaid id .tick => (shop.loops id).timer = true
  | .onPaid _ .cancel => False
  | .fulfil id => (shop.loops id).settled.isSome = true
  | .placeOrder _ _ _ => True
  | .engine (.honor _ _ _) => False
  | .engine _ => True

def system : System Shop ShopOp ShopOp.Reply Thrown (Option Fulfilment) ShopTask where
  program := service.program
  perform := Shop.perform
  mayStart := mayStart
  mayShift := Shop.mayShift

end Service

abbrev ShopEvent := Event Shop ShopOp ShopOp.Reply ShopTask
abbrev ShopPool := Pool Shop ShopOp ShopOp.Reply Thrown (Option Fulfilment) ShopTask

end Merchant
end ExferHonor
