import ExferHonor.Adapters.IndexerChain
import ExferHonor.Adapters.KeystoreCustody
import ExferHonor.Core.World
import ExferHonor.Effects.Interpret
import ExferHonor.Effects.Part
import ExferHonor.Service.HttpRpc

/-! `createHonorService`: the engine over the two builtin forms, its chain source and its key
custody over JSON-RPC, and JSON-RPC over `fetch`. -/
namespace ExferHonor
open Effects

variable {G : Type}

inductive Endpoint where
  | walletd
  | indexer
  | node
  deriving DecidableEq, Repr

/-- `string | JsonRpc` -/
inductive RpcEndpoint where
  | url (url : String)
  | transport
  deriving DecidableEq, Repr

inductive RpcMethod where
  | chain (op : RpcOp)
  | sign (op : SignOp)

namespace RpcMethod

def name : RpcMethod → String
  | .chain .getBlockHeight => "get_block_height"
  | .chain (.getTransaction _) => "get_transaction"
  | .chain (.getOutputDatum _ _) => "get_output_datum"
  | .chain (.findSettlementsByQuoteId _) => "find_settlements_by_quote_id"
  | .chain (.htlcStatus _ _) => "htlc_status"
  | .sign _ => "sign_message"

/-- What a result that is not `null` is cast to. Nothing checks the cast: results of other shapes
than the documented ones, such as a block height without its `height`, are left out. -/
abbrev Shape : RpcMethod → Type
  | .chain .getBlockHeight => Int
  | .chain (.getTransaction _) => RawTxStatus
  | .chain (.getOutputDatum _ _) => RawOutputDatum
  | .chain (.findSettlementsByQuoteId _) => List Outpoint
  | .chain (.htlcStatus _ _) => RawHtlcRecord
  | .sign _ => Option String

/-- `none` is `null`. -/
abbrev Result (method : RpcMethod) : Type := Option method.Shape

def endpoint : RpcMethod → Endpoint
  | .chain .getBlockHeight => .node
  | .chain (.getTransaction _) => .node
  | .chain _ => .indexer
  | .sign _ => .walletd

end RpcMethod

/-- The ports that JSON-RPC does not carry, the counter of a transport's requests, and one `fetch`
or one pause of a call. A transport of the consumer's own answers a call as a whole. -/
inductive WireOp (G : Type) where
  | port (op : Op G)
  | nextId (endpoint : Endpoint)
  | http (endpoint : Endpoint) (method : RpcMethod) (op : HttpRpc.HttpOp RpcMethod method.Result)
  | transport (endpoint : Endpoint) (method : RpcMethod)

abbrev WireOp.Reply : WireOp G → Type
  | .port op => op.Reply
  | .nextId _ => Nat
  | .http _ _ op => op.Reply
  | .transport _ method => Except Thrown (Option method.Result)

abbrev WireCall (G : Type) := Call (WireOp G) WireOp.Reply
abbrev WireAsync (G α : Type) := Program (WireOp G) WireOp.Reply Thrown α

/-- A `JsonRpcError` is an error object of its own; nothing reads its `data`. -/
def HttpRpc.RpcThrown.thrown : HttpRpc.RpcThrown → Thrown
  | .jsonRpcError message code _ => .error 18 (code.map .number) message
  | .other e => e

/-- A chain source or a key custody that the consumer brings along, and which optional methods
it has. -/
structure HonorServiceConfig where
  walletd : RpcEndpoint
  indexer : RpcEndpoint
  node : RpcEndpoint
  token : Option String
  claimMargin : Option Int
  confirmationDepth : Option Int
  maxReorgDepth : Option Int
  maxRecheckWindow : Option Int
  payerBinding : Option PayerBinding
  requirePayerFunded : Option Bool
  addressDeriver : Option (PubKey → Hex)
  chainSource : Option Bool
  keyCustody : Option Bool
  claimSubmit : Bool

namespace HonorServiceConfig
variable (config : HonorServiceConfig)

def rpcEndpoint : Endpoint → RpcEndpoint
  | .walletd => config.walletd
  | .indexer => config.indexer
  | .node => config.node

def bearer : Endpoint → Option String
  | .walletd => config.token
  | _ => none

/-- The locked safe defaults; the margin is derived. -/
def honorConfig : HonorConfig :=
  let confirmationDepth := config.confirmationDepth.getD 6
  let maxReorgDepth := config.maxReorgDepth.getD 12
  { confirmationDepth := confirmationDepth
    maxReorgDepth := maxReorgDepth
    claimMargin := config.claimMargin.getD (maxReorgDepth + confirmationDepth + 1)
    maxRecheckWindow := config.maxRecheckWindow.getD 3600
    payerBinding := config.payerBinding.getD .consent
    requirePayerFunded := config.requirePayerFunded.getD false
    addressDeriver := config.addressDeriver }

/-- `submitClaim` is there if a submitter was wired; no preimage lookup ever is. -/
def optional : OptionalPorts where
  submitClaim := config.chainSource.getD config.claimSubmit
  htlcPreimageFor := config.keyCustody.getD false

def deps : HonorDeps G where
  forms := createFormRegistry (builtinForms true)
  config := config.honorConfig
  optional := config.optional

/-- `toRpc(endpoint, token).call(method, params)` -/
def rpc (method : RpcMethod) : WireAsync G (Option method.Result) :=
  match config.rpcEndpoint method.endpoint with
  | .transport => .call (.transport method.endpoint method) .ofExcept
  | .url url => .call (.nextId method.endpoint) fun id =>
      (HttpRpc.call url (config.bearer method.endpoint) id method.name method).within
        (.http method.endpoint method) (fun _ reply => reply) HttpRpc.RpcThrown.thrown

end HonorServiceConfig

def present {R : Type} (property : String) : Option (Option R) → Except Thrown R
  | some (some result) => .ok result
  | some none => .error (Thrown.unreadable "null" property)
  | none => .error (Thrown.unreadable "undefined" property)

/-- `null` is told apart before. -/
def nullable {R : Type} (property : String) : Option (Option R) → Except Thrown (Option R)
  | some result => .ok result
  | none => .error (Thrown.unreadable "undefined" property)

/-- What a method of the chain source makes of an answer of the documented shape; `txProperty` is
what it reads of a transaction first. -/
def RpcOp.read (txProperty : String) :
    (op : RpcOp) → Except Thrown (Option (RpcMethod.chain op).Result) → op.Reply
  | .getBlockHeight, answer => answer.bind (present "height")
  | .getTransaction _, answer => answer.bind (nullable txProperty)
  | .getOutputDatum _ _, answer => answer.bind (present "quote_id")
  | .findSettlementsByQuoteId _, answer => answer.bind (present "settlements")
  | .htlcStatus _ _, answer => answer.bind (nullable "lock_tx_id")

/-- The adapter itself reads what `sign_message` results in. -/
def SignOp.read : (op : SignOp) → Except Thrown (Option (RpcMethod.sign op).Result) → op.Reply
  | .signMessage _ _, answer => answer.map fun
    | none => .undefined
    | some none => .null
    | some (some signature) => .result signature

namespace HonorServiceConfig
variable (config : HonorServiceConfig)

def chainCall (txProperty : String) (op : RpcOp) : WireAsync G op.Reply :=
  (config.rpc (.chain op)).attempt.bind fun answer => .pure (op.read txProperty answer)

def signCall (op : SignOp) : WireAsync G op.Reply :=
  (config.rpc (.sign op)).attempt.bind fun answer => .pure (op.read answer)

/-- `config.chainSource ?? new IndexerChainSource(…)` -/
def onChain (op : Op G) (program : WireAsync G op.Reply) : WireAsync G op.Reply :=
  if config.chainSource.isSome then .call (.port op) .pure else program

/-- `config.keyCustody ?? new KeystoreKeyCustody(…)` -/
def onKeys (op : Op G) (program : WireAsync G op.Reply) : WireAsync G op.Reply :=
  if config.keyCustody.isSome then .call (.port op) .pure else program

/-- How a call of a port is carried out. The submitter and a preimage lookup are the
consumer's. -/
def carry (toLowerCase : String → String) : (op : Op G) → WireAsync G op.Reply
  | .tipHeight => config.onChain .tipHeight
      (IndexerChainSource.tipHeight.interpret (config.chainCall "tx_hex")).attempt
  | .getOutputDatum outpoint => config.onChain (.getOutputDatum outpoint)
      ((IndexerChainSource.getOutputDatum outpoint).interpret (config.chainCall "tx_hex")).attempt
  | .findSettlementsByQuoteId quoteId => config.onChain (.findSettlementsByQuoteId quoteId)
      ((IndexerChainSource.findSettlementsByQuoteId quoteId).interpret
        (config.chainCall "tx_hex")).attempt
  | .getTransaction txId => config.onChain (.getTransaction txId)
      ((IndexerChainSource.getTransaction txId).interpret
        (config.chainCall "block_height")).attempt
  | .getTxInputs txId => config.onChain (.getTxInputs txId)
      ((IndexerChainSource.getTxInputs txId).interpret (config.chainCall "tx_hex")).attempt
  | .getOutputScript outpoint => config.onChain (.getOutputScript outpoint)
      ((IndexerChainSource.getOutputScript outpoint).interpret (config.chainCall "tx_hex")).attempt
  | .getHtlc lock => config.onChain (.getHtlc lock)
      ((IndexerChainSource.getHtlc lock).interpret (config.chainCall "tx_hex")).attempt
  | .controlsPayee payeePubkey => config.onKeys (.controlsPayee payeePubkey)
      ((KeystoreKeyCustody.controlsPayee toLowerCase ⟨config.addressDeriver, none⟩
        payeePubkey).interpret config.signCall).attempt
  | op => .call (.port op) .pure

end HonorServiceConfig

theorem createHonorEngine_deps {deps : HonorDeps G} {engine : HonorEngine G}
    (created : createHonorEngine deps = .ok engine) : engine.deps = deps := by
  simp only [createHonorEngine] at created
  split at created
  · cases created
    rfl
  · cases created

structure HonorService (G : Type) where
  config : HonorServiceConfig
  engine : HonorEngine G
  wired : engine.deps = config.deps

/-- The tables are there already. -/
def createHonorService (config : HonorServiceConfig) : Except Thrown (HonorService G) :=
  match created : createHonorEngine config.deps with
  | .error e => .error e
  | .ok engine => .ok ⟨config, engine, createHonorEngine_deps created⟩

structure WireWorld (G : Type) where
  world : World G
  nextIds : Endpoint → Nat

def WireWorld.perform (model : TxnModel) (shared : WireWorld G) :
    (op : WireOp G) → op.Reply → op.Reply × WireWorld G
  | .port op, answer =>
      ((shared.world.perform model op answer).1,
        { shared with world := (shared.world.perform model op answer).2 })
  | .nextId endpoint, _ =>
      (shared.nextIds endpoint, { shared with nextIds := fun other =>
        if other = endpoint then shared.nextIds endpoint + 1 else shared.nextIds other })
  | .http _ _ _, answer => (answer, shared)
  | .transport _ _, answer => (answer, shared)

namespace HonorService
variable (service : HonorService G) (toLowerCase : String → String)

def program (task : EngineTask G) : WireAsync G EngineResult :=
  (service.engine.program task).interpret (service.config.carry toLowerCase)

/-- The calls of one process, interleaved at every await of theirs, those on the network
included. -/
def wireSystem (model : TxnModel) (mayStart : World G → EngineTask G → Prop)
    (mayShift : World G → World G → Prop) :
    System (WireWorld G) (WireOp G) WireOp.Reply Thrown EngineResult (EngineTask G) where
  program := service.program toLowerCase
  perform := WireWorld.perform model
  mayStart shared := mayStart shared.world
  mayShift before after := mayShift before.world after.world

end HonorService
end ExferHonor
