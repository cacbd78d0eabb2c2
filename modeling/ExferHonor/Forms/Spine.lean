import ExferHonor.Effects.Footprint
import ExferHonor.Forms.Address
import ExferHonor.Ports.Total

/-! The shared scoring spine, steps 2 to 6: the binding checks that do not depend on the form. -/
namespace ExferHonor
open Effects

variable {G : Type}

inductive SpineResult where
  | verdict (verdict : HonorVerdict)
  | skip
  | ok (candidate : SettlementCandidate)
  deriving DecidableEq, Repr

def SpineResult.decline (reason : DeclineReason) (detail : String) : SpineResult :=
  .verdict (.decline reason (some detail))

def prevoutsDetail : String := "no prevouts resolvable for SOURCE binding (covenant-only?)"
def payerKeyedDetail : String := "no payer-keyed prevout funds the settlement (covenant-only)"

/-- `for (const { prevout } of inputs)`: `null` once some prevout is scripted to the payer. -/
def checkPrevouts (expectedPayerScript : Hex) : List Outpoint → Async G (Option String)
  | [] => pure (some payerKeyedDetail)
  | prevout :: inputs => do
      let script ← Port.getOutputScript prevout
      if script = expectedPayerScript then pure none
      else checkPrevouts expectedPayerScript inputs

/-- R5 payer binding: `none` is a pass, otherwise the detail of the failure. -/
def checkPayerBinding (ctx : ScoringCtx) (settlementTxId : Hex) : Async G (Option String) :=
  match ctx.quote.payerPubkey with
  | none => pure none
  | some payerPubkey =>
      let useSource := ctx.config.payerBinding = .source ∨ ctx.config.requirePayerFunded = true
      if ¬ useSource then pure none
      else do
        let expectedPayerScript := domainHashAddr payerPubkey ctx.config.addressDeriver
        let inputs ← Port.getTxInputs settlementTxId
        if inputs.isEmpty then pure (some prevoutsDetail)
        else checkPrevouts expectedPayerScript inputs

def settlementCandidate (ctx : ScoringCtx) (raw : RawSettlementCandidate)
    (formId : SettlementFormId) : SettlementCandidate where
  form := formId
  quoteId := ctx.quote.quoteId
  txId := raw.outpoint.txId
  outputIndex := raw.outpoint.outputIndex
  value := raw.value
  scriptHex := raw.scriptHex
  blockHeight := raw.blockHeight
  honorable := true

/-- Steps 5 and 6: payee custody, then payer binding. A keystore that throws is a retryable
fault and never a negative answer. -/
def runCustodySpine (ctx : ScoringCtx) (raw : RawSettlementCandidate)
    (formId : SettlementFormId) : Async G SpineResult := do
  let controls ← (Port.controlsPayee ctx.quote.payeePubkey).handle fun e =>
    .throw (.honorError .keystoreFault "payee custody test unavailable (R2/M3)" e)
  if !controls then
    pure (.decline .payeeNotControlled "acceptor does not control payee key (R2/M3)")
  else
    match ← checkPayerBinding ctx raw.outpoint.txId with
    | some payerFail => pure (.decline .payerBindingFailed payerFail)
    | none => pure (.ok (settlementCandidate ctx raw formId))

def runBindingSpine (ctx : ScoringCtx) (raw : RawSettlementCandidate)
    (formId : SettlementFormId) : Async G SpineResult := do
  let datum ← Port.getOutputDatum raw.outpoint
  match datum.honorable, datum.quoteIdHex with
  | true, some quoteIdHex =>
      match decodeSettlementDatum quoteIdHex settlementDatumVersion with
      | .error reason =>
          let text := reason.text
          pure (.decline .datumUnhonorable s!"strict decode failed: {text} (F1/R7)")
      | .ok quoteId =>
          -- a candidate of another quote is not a decline of this one
          if quoteId ≠ ctx.quote.quoteId then pure .skip
          else if raw.value ≠ ctx.quote.exferAmount then
            let value := raw.value
            let exferAmount := ctx.quote.exferAmount
            pure (.decline .amountMismatch
              s!"value {value} != exferAmount {exferAmount} (exact ==)")
          else if raw.scriptHex ≠
              domainHashAddr ctx.quote.payeePubkey ctx.config.addressDeriver then
            pure (.decline .addressMismatch "scriptHex != domain_hash(EXFER-ADDR, payee)")
          else runCustodySpine ctx raw formId
  | _, _ => pure (.decline .datumUnhonorable "datum_hash-only / malformed (M2)")

/-! The spine only reads the chain and the keystore. -/

theorem checkPrevouts_uses (expectedPayerScript : Hex) (inputs : List Outpoint) :
    Uses (·.isQuery) (checkPrevouts (G := G) expectedPayerScript inputs) := by
  induction inputs with
  | nil => trivial
  | cons prevout inputs ih =>
    refine Uses.bind ⟨rfl, fun reply => Uses.ofExcept reply⟩ fun script => ?_
    split
    · trivial
    · exact ih

theorem checkPayerBinding_uses (ctx : ScoringCtx) (settlementTxId : Hex) :
    Uses (·.isQuery) (checkPayerBinding (G := G) ctx settlementTxId) := by
  unfold checkPayerBinding
  split
  · trivial
  · dsimp only
    split
    · trivial
    · refine Uses.bind ⟨rfl, fun reply => Uses.ofExcept reply⟩ fun inputs => ?_
      split
      · trivial
      · exact checkPrevouts_uses _ inputs

theorem runCustodySpine_uses (ctx : ScoringCtx) (raw : RawSettlementCandidate)
    (formId : SettlementFormId) :
    Uses (·.isQuery) (runCustodySpine (G := G) ctx raw formId) := by
  refine Uses.bind (Uses.handle ⟨rfl, fun reply => Uses.ofExcept reply⟩ fun _ => trivial)
    fun controls => ?_
  split
  · trivial
  · apply Uses.bind (checkPayerBinding_uses ctx _)
    intro payerFail
    split <;> trivial

theorem runBindingSpine_uses (ctx : ScoringCtx) (raw : RawSettlementCandidate)
    (formId : SettlementFormId) :
    Uses (·.isQuery) (runBindingSpine (G := G) ctx raw formId) := by
  refine Uses.bind ⟨rfl, fun reply => Uses.ofExcept reply⟩ fun datum => ?_
  split
  · split
    · trivial
    · repeat' split
      any_goals trivial
      exact runCustodySpine_uses ctx raw formId
  · trivial

/-! What the spine decides when every port answers. -/

section
variable (ports : TotalPorts) (ctx : ScoringCtx) (raw : RawSettlementCandidate)

def PayerBound (settlementTxId : Hex) : Prop :=
  ∀ payerPubkey, ctx.quote.payerPubkey = some payerPubkey →
    ctx.config.payerBinding = .source ∨ ctx.config.requirePayerFunded = true →
    ∃ prevout ∈ ports.txInputs settlementTxId,
      ports.outputScript prevout = domainHashAddr payerPubkey ctx.config.addressDeriver

/-- The output carries a strictly decodable quote id, of whichever quote. -/
def Carries (quoteId : QuoteId) : Prop :=
  (ports.outputDatum raw.outpoint).honorable = true ∧
    (ports.outputDatum raw.outpoint).quoteIdHex = some quoteId ∧ IsQuoteId quoteId

def Foreign : Prop := ∃ quoteId, Carries ports raw quoteId ∧ quoteId ≠ ctx.quote.quoteId

structure Binds : Prop where
  carries : Carries ports raw ctx.quote.quoteId
  amount : raw.value = ctx.quote.exferAmount
  address : raw.scriptHex = domainHashAddr ctx.quote.payeePubkey ctx.config.addressDeriver
  custody : ports.controlsPayee ctx.quote.payeePubkey = true
  payer : PayerBound ports ctx raw.outpoint.txId

end

variable {ports : TotalPorts} {ctx : ScoringCtx} {raw : RawSettlementCandidate}

theorem Carries.unique {quoteId other : QuoteId} (carries : Carries ports raw quoteId)
    (again : Carries ports raw other) : quoteId = other :=
  Option.some.inj (carries.2.1.symm.trans again.2.1)

theorem Carries.congr {other : RawSettlementCandidate} {quoteId : QuoteId}
    (carries : Carries ports raw quoteId) (same : raw.outpoint = other.outpoint) :
    Carries ports other quoteId := by
  unfold Carries at carries ⊢
  rwa [← same]

theorem Binds.not_foreign (binds : Binds ports ctx raw) : ¬ Foreign ports ctx raw := by
  rintro ⟨_, carries, other⟩
  exact other (carries.unique binds.carries)

section
variable (ports ctx raw)

theorem checkPrevouts_eval (expectedPayerScript : Hex) (inputs : List Outpoint) :
    ∃ payerFail, (checkPrevouts (G := G) expectedPayerScript inputs).eval ports.answer =
      .ok payerFail ∧
      (payerFail = none ↔
        ∃ prevout ∈ inputs, ports.outputScript prevout = expectedPayerScript) := by
  induction inputs with
  | nil => exact ⟨some payerKeyedDetail, rfl, by simp⟩
  | cons prevout inputs ih =>
    by_cases hscript : ports.outputScript prevout = expectedPayerScript
    · exact ⟨none, by simp [checkPrevouts, Except.bind, hscript], by simp [hscript]⟩
    · obtain ⟨payerFail, heval, hiff⟩ := ih
      exact ⟨payerFail, by simp [checkPrevouts, Except.bind, hscript, heval],
        by simp [hscript, hiff]⟩

theorem checkPayerBinding_eval (settlementTxId : Hex) :
    ∃ payerFail, (checkPayerBinding (G := G) ctx settlementTxId).eval ports.answer =
      .ok payerFail ∧ (payerFail = none ↔ PayerBound ports ctx settlementTxId) := by
  unfold checkPayerBinding PayerBound
  cases ctx.quote.payerPubkey with
  | none => exact ⟨none, rfl, by simp⟩
  | some payerPubkey =>
    by_cases hsource : ctx.config.payerBinding = .source ∨ ctx.config.requirePayerFunded = true
    · obtain ⟨payerFail, heval, hiff⟩ := checkPrevouts_eval (G := G) ports
        (domainHashAddr payerPubkey ctx.config.addressDeriver) (ports.txInputs settlementTxId)
      cases hinputs : ports.txInputs settlementTxId with
      | nil =>
        exact ⟨some prevoutsDetail, by simp [hsource, hinputs, Except.bind], by simp [hsource]⟩
      | cons prevout inputs =>
        rw [hinputs] at heval hiff
        refine ⟨payerFail, ?_, by simp [hsource, hiff]⟩
        simp [hsource, hinputs, Except.bind, heval]
    · exact ⟨none, by simp [hsource], by simp [hsource]⟩

theorem runCustodySpine_eval (formId : SettlementFormId) :
    ∃ result, (runCustodySpine (G := G) ctx raw formId).eval ports.answer = .ok result ∧
      ((ports.controlsPayee ctx.quote.payeePubkey = true ∧
          PayerBound ports ctx raw.outpoint.txId ∧
          result = .ok (settlementCandidate ctx raw formId)) ∨
        (¬ (ports.controlsPayee ctx.quote.payeePubkey = true ∧
          PayerBound ports ctx raw.outpoint.txId) ∧
          ∃ reason detail, result = .verdict (.decline reason (some detail)))) := by
  obtain ⟨payerFail, heval, hiff⟩ := checkPayerBinding_eval (G := G) ports ctx
    raw.outpoint.txId
  cases hcustody : ports.controlsPayee ctx.quote.payeePubkey with
  | false =>
    refine ⟨.decline .payeeNotControlled "acceptor does not control payee key (R2/M3)", ?_,
      .inr ⟨by simp, _, _, rfl⟩⟩
    simp [runCustodySpine, Except.bind, hcustody]
  | true =>
    cases hfail : payerFail with
    | none =>
      refine ⟨_, ?_, .inl ⟨rfl, hiff.1 hfail, rfl⟩⟩
      simp [runCustodySpine, Except.bind, hcustody, heval, hfail]
    | some detail =>
      refine ⟨.decline .payerBindingFailed detail, ?_, .inr ⟨?_, _, _, rfl⟩⟩
      · simp [runCustodySpine, Except.bind, hcustody, heval, hfail]
      · rw [← hiff, hfail]
        simp

private theorem runBindingSpine_loose (formId : SettlementFormId)
    (loose : ∀ quoteId, ¬ Carries ports raw quoteId) :
    ∃ reason detail, (runBindingSpine (G := G) ctx raw formId).eval ports.answer =
      .ok (.verdict (.decline reason (some detail))) := by
  unfold runBindingSpine
  simp only [Program.bind_eq, Program.eval_bind, eval_getOutputDatum, Except.bind]
  split
  next quoteIdHex hhonorable hquoteId =>
    obtain ⟨reason, hreason⟩ := decodeSettlementDatum_error fun strict =>
      loose quoteIdHex ⟨hhonorable, hquoteId, strict⟩
    simp only [hreason]
    exact ⟨_, _, rfl⟩
  next => exact ⟨_, _, rfl⟩

private theorem runBindingSpine_carries (formId : SettlementFormId) {quoteId : QuoteId}
    (carries : Carries ports raw quoteId) :
    (runBindingSpine (G := G) ctx raw formId).eval ports.answer =
      (if quoteId ≠ ctx.quote.quoteId then (pure .skip : Async G SpineResult)
        else if raw.value ≠ ctx.quote.exferAmount then
          let value := raw.value
          let exferAmount := ctx.quote.exferAmount
          pure (.decline .amountMismatch
            s!"value {value} != exferAmount {exferAmount} (exact ==)")
        else if raw.scriptHex ≠
            domainHashAddr ctx.quote.payeePubkey ctx.config.addressDeriver then
          pure (.decline .addressMismatch "scriptHex != domain_hash(EXFER-ADDR, payee)")
        else runCustodySpine ctx raw formId).eval ports.answer := by
  obtain ⟨hhonorable, hquoteId, strict⟩ := carries
  unfold runBindingSpine
  simp only [Program.bind_eq, Program.eval_bind, eval_getOutputDatum, Except.bind, hhonorable,
    hquoteId, decodeSettlementDatum_of_isQuoteId strict]

/-- The three exits of the spine: an output that binds is passed on, one of another quote is
skipped, and any other one is declined. -/
theorem runBindingSpine_eval (formId : SettlementFormId) :
    ∃ result, (runBindingSpine (G := G) ctx raw formId).eval ports.answer = .ok result ∧
      ((Binds ports ctx raw ∧ result = .ok (settlementCandidate ctx raw formId)) ∨
        (Foreign ports ctx raw ∧ result = .skip) ∨
        (¬ Binds ports ctx raw ∧ ¬ Foreign ports ctx raw ∧
          ∃ reason detail, result = .verdict (.decline reason (some detail)))) := by
  by_cases hcarries : ∃ quoteId, Carries ports raw quoteId
  · obtain ⟨quoteId, carries⟩ := hcarries
    rw [runBindingSpine_carries ports ctx raw formId carries]
    by_cases hours : quoteId = ctx.quote.quoteId
    · subst hours
      have ours : ¬ Foreign ports ctx raw := by
        rintro ⟨_, other, hne⟩
        exact hne (carries.unique other).symm
      by_cases hamount : raw.value = ctx.quote.exferAmount
      · by_cases haddress : raw.scriptHex =
            domainHashAddr ctx.quote.payeePubkey ctx.config.addressDeriver
        · obtain ⟨result, heval, hresult⟩ := runCustodySpine_eval (G := G) ports ctx raw
            formId
          refine ⟨result, by simpa [hamount, haddress] using heval, ?_⟩
          rcases hresult with ⟨hcustody, hpayer, hok⟩ | ⟨hfail, hdecline⟩
          · exact .inl ⟨⟨carries, hamount, haddress, hcustody, hpayer⟩, hok⟩
          · exact .inr (.inr ⟨fun binds => hfail ⟨binds.custody, binds.payer⟩, ours, hdecline⟩)
        · refine ⟨.decline .addressMismatch "scriptHex != domain_hash(EXFER-ADDR, payee)",
            by simp [hamount, haddress], ?_⟩
          exact .inr (.inr ⟨fun binds => haddress binds.address, ours, _, _, rfl⟩)
      · exact ⟨_, by simp [hamount]; rfl,
          .inr (.inr ⟨fun binds => hamount binds.amount, ours, _, _, rfl⟩)⟩
    · exact ⟨.skip, by simp [hours], .inr (.inl ⟨⟨quoteId, carries, hours⟩, rfl⟩)⟩
  · have loose : ∀ quoteId, ¬ Carries ports raw quoteId := fun quoteId carries =>
      hcarries ⟨quoteId, carries⟩
    obtain ⟨reason, detail, heval⟩ := runBindingSpine_loose (G := G) ports ctx raw formId
      loose
    refine ⟨_, heval, .inr (.inr ⟨fun binds => loose _ binds.carries, ?_, reason, detail, rfl⟩)⟩
    rintro ⟨_, carries, _⟩
    exact loose _ carries

end
end ExferHonor
