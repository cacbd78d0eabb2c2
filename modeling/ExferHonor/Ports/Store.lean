import ExferHonor.Effects.Program
import ExferHonor.Spec.Errors
import ExferHonor.Spec.Types

/-! The persistence port: the SEEN row, the input of the honor transaction and the consumer's
`deliver` that runs inside it. -/
namespace ExferHonor
open Effects

structure SeenRow where
  signerPubkey : PubKey
  quoteId : QuoteId
  payeePubkey : PubKey
  payerPubkey : Option PubKey
  exferAmount : Int
  form : SettlementFormId
  acceptedAt : Int
  expiresAt : Int
  observedBeforeExpiry : Bool
  honoredAt : Option Int
  honoredOutpoint : Option Outpoint
  retainUntil : Int
  deriving DecidableEq, Repr

def SeenRow.key (row : SeenRow) : HonorKey := ⟨row.signerPubkey, row.quoteId⟩

inductive GateMode where
  | single
  | promote
  deriving DecidableEq, Repr

structure DeliverContext where
  key : HonorKey
  candidate : SettlementCandidate
  honoredAt : Int
  deriving DecidableEq, Repr

/-- A statement on the consumer's goods tables, whose contents are a `G`: it fails, or it
leaves new contents behind. -/
structure GoodsStmt (G : Type) where
  exec : G → Except Thrown G

abbrev GoodsReply {G : Type} (_ : GoodsStmt G) : Type := Except Thrown G

/-- How a `deliver` that did not throw synchronously ended: it returned a plain value, or a
promise that settles one way or the other. -/
inductive DeliverEnd where
  | value
  | resolves
  | rejects (reason : Thrown)
  deriving DecidableEq, Repr

/-- `deliver` issues statements through `ctx.db` and may catch their errors; throwing out of
the program is a synchronous throw. -/
abbrev Deliver (G : Type) :=
  DeliverContext → Program (GoodsStmt G) GoodsReply Thrown DeliverEnd

structure HonorTxnInput (G : Type) where
  key : HonorKey
  candidate : SettlementCandidate
  outpoint : Outpoint
  now : Int
  retainUntil : Int
  mode : GateMode
  deliver : Deliver G

/-- `runHonorTxn` resolves or throws (`result`). `called` is how the `deliver` callback ended
when the store called it, which is what a closure around that callback gets to see. -/
structure TxnReply where
  called : Option (Except Thrown DeliverEnd)
  result : Except Thrown Unit

structure SweepResult where
  seenDeleted : Nat
  outpointsDeleted : Nat
  deriving DecidableEq, Repr

end ExferHonor
