import ExferHonor.Effects.Program
import ExferHonor.Ports.Interface

/-! A chain and a keystore that answer every call, always with the same value. -/
namespace ExferHonor

structure TotalPorts where
  tip : Int
  outputDatum : Outpoint → OutputDatum
  settlements : QuoteId → List RawSettlementCandidate
  transaction : Hex → Option TxInfo
  txInputs : Hex → List Outpoint
  outputScript : Outpoint → Hex
  htlc : Outpoint → Option OnChainHtlc
  submitClaim : OnChainHtlc → Hex → Hex
  controlsPayee : PubKey → Bool
  htlcPreimage : QuoteId → PubKey → Option Hex

variable {G : Type}

/-- The replies of `ports`. Where the store or this process decides the reply, it only says
that nothing fails. -/
def TotalPorts.answer (ports : TotalPorts) : (op : Op G) → op.Reply
  | .clockNow => .ok 0
  | .upsertAccepted _ _ _ => .ok ()
  | .getSeen _ => .ok none
  | .markObservedBeforeExpiry _ _ => .ok ()
  | .reserveClaimOutpoint _ _ _ _ => .ok ()
  | .runHonorTxn _ => ⟨none, .ok ()⟩
  | .sweep _ => .ok ⟨0, 0⟩
  | .tipHeight => .ok ports.tip
  | .getOutputDatum outpoint => .ok (ports.outputDatum outpoint)
  | .findSettlementsByQuoteId quoteId => .ok (ports.settlements quoteId)
  | .getTransaction txId => .ok (ports.transaction txId)
  | .getTxInputs txId => .ok (ports.txInputs txId)
  | .getOutputScript outpoint => .ok (ports.outputScript outpoint)
  | .getHtlc lock => .ok (ports.htlc lock)
  | .submitClaim htlc preimage => .ok (ports.submitClaim htlc preimage)
  | .controlsPayee payeePubkey => .ok (ports.controlsPayee payeePubkey)
  | .htlcPreimageFor quoteId payeePubkey => .ok (ports.htlcPreimage quoteId payeePubkey)
  | .claimsGet _ => none
  | .claimsSet _ _ => ()
  | .claimTxIdsGet _ => none
  | .claimTxIdsSet _ _ => ()

section
variable (ports : TotalPorts)

@[simp] theorem eval_getOutputDatum (outpoint : Outpoint) :
    (Port.getOutputDatum outpoint : Async G _).eval ports.answer =
      .ok (ports.outputDatum outpoint) := rfl

@[simp] theorem eval_getTxInputs (txId : Hex) :
    (Port.getTxInputs txId : Async G _).eval ports.answer = .ok (ports.txInputs txId) := rfl

@[simp] theorem eval_getOutputScript (outpoint : Outpoint) :
    (Port.getOutputScript outpoint : Async G _).eval ports.answer =
      .ok (ports.outputScript outpoint) := rfl

@[simp] theorem eval_controlsPayee (payeePubkey : PubKey) :
    (Port.controlsPayee payeePubkey : Async G _).eval ports.answer =
      .ok (ports.controlsPayee payeePubkey) := rfl

end

def sampleConfig : HonorConfig where
  confirmationDepth := 6
  maxReorgDepth := 12
  claimMargin := 19
  maxRecheckWindow := 3600
  payerBinding := .consent
  requirePayerFunded := false
  addressDeriver := some fun _ => "ee"

/-- Ports for concrete runs: the chain lists `listed` for every quote, each as an output that
carries `sampleQuote`'s id, and knows the HTLC `htlc` and one transaction at `claimHeight`. -/
def samplePorts (tip : Int) (listed : List RawSettlementCandidate)
    (htlc : Option OnChainHtlc) (claimHeight : Option Int) : TotalPorts where
  tip := tip
  outputDatum _ := ⟨some sampleQuote.quoteId, true⟩
  settlements _ := listed
  transaction _ := some ⟨claimHeight⟩
  txInputs _ := []
  outputScript _ := ""
  htlc _ := htlc
  submitClaim _ preimage := preimage
  controlsPayee _ := true
  htlcPreimage _ _ := some "c0"

def paidPorts : TotalPorts := samplePorts 100 [⟨⟨"01", 0⟩, 500, "ee", some 90⟩] none none

end ExferHonor
