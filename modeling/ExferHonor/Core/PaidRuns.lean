import ExferHonor.Core.ClaimRuns
import ExferHonor.Core.PlainRuns
import ExferHonor.Forms.PlainVerdict

/-! What the ports have told of the payment when a plain honor reaches its gate, and that nothing
but a plain honor reaches it in a process that looks up no preimage. -/
namespace ExferHonor
open Effects Program

variable {G : Type}

section
variable (ctx : ScoringCtx) (calls : List (PortCall G)) (raw : RawSettlementCandidate)

/-- R5: no payer flag, consent at ACCEPT, or a payer-keyed output among the inputs told. -/
def PayerTold (settlementTxId : Hex) : Prop :=
  ∀ payerPubkey, ctx.quote.payerPubkey = some payerPubkey →
    ctx.config.payerBinding = .source ∨ ctx.config.requirePayerFunded = true →
    ∃ inputs, ⟨.getTxInputs settlementTxId, .ok inputs⟩ ∈ calls ∧ ∃ prevout ∈ inputs,
      ⟨.getOutputScript prevout,
        .ok (domainHashAddr payerPubkey ctx.config.addressDeriver)⟩ ∈ calls

structure BindingTold : Prop where
  datum : ∃ datum, ⟨.getOutputDatum raw.outpoint, .ok datum⟩ ∈ calls ∧
    datum.Names ctx.quote.quoteId
  amount : raw.value = ctx.quote.exferAmount
  address : raw.scriptHex = domainHashAddr ctx.quote.payeePubkey ctx.config.addressDeriver
  custody : ⟨.controlsPayee ctx.quote.payeePubkey, .ok true⟩ ∈ calls
  payer : PayerTold ctx calls raw.outpoint.txId

end

section
variable {ctx : ScoringCtx} {calls more : List (PortCall G)} {raw : RawSettlementCandidate}

theorem PayerTold.mono {txId : Hex} (told : PayerTold ctx calls txId) (among : calls ⊆ more) :
    PayerTold ctx more txId := by
  intro payerPubkey flagged source
  obtain ⟨inputs, listed, prevout, present, script⟩ := told payerPubkey flagged source
  exact ⟨inputs, among listed, prevout, present, among script⟩

theorem BindingTold.mono (told : BindingTold ctx calls raw) (among : calls ⊆ more) :
    BindingTold ctx more raw where
  datum := told.datum.imp fun _ read => ⟨among read.1, read.2⟩
  amount := told.amount
  address := told.address
  custody := among told.custody
  payer := told.payer.mono among

theorem checkPrevouts_told {expectedPayerScript : Hex} {inputs : List Outpoint}
    (returns : (checkPrevouts expectedPayerScript inputs).Returns calls (.ok none)) :
    ∃ prevout ∈ inputs, ⟨.getOutputScript prevout, .ok expectedPayerScript⟩ ∈ calls := by
  induction inputs generalizing calls with
  | nil => cases ((returns_pure_iff _).1 returns).2
  | cons prevout inputs ih =>
    obtain ⟨_, script, later, rfl, rfl, rest⟩ := Returns.of_ask_bind returns
    split at rest
    next same => exact ⟨prevout, List.mem_cons_self, same ▸ List.mem_cons_self⟩
    next =>
      obtain ⟨other, present, told⟩ := ih rest
      exact ⟨other, List.mem_cons_of_mem _ present, List.mem_cons_of_mem _ told⟩

theorem checkPayerBinding_told {txId : Hex}
    (returns : (checkPayerBinding ctx txId).Returns calls (.ok none)) :
    PayerTold ctx calls txId := by
  intro payerPubkey flagged source
  unfold checkPayerBinding at returns
  rw [flagged] at returns
  dsimp only at returns
  rw [if_neg (not_not.2 source)] at returns
  obtain ⟨_, inputs, later, rfl, rfl, checking⟩ := Returns.of_ask_bind returns
  split at checking
  · cases ((returns_pure_iff _).1 checking).2
  · obtain ⟨prevout, present, told⟩ := checkPrevouts_told checking
    exact ⟨inputs, List.mem_cons_self, prevout, present, List.mem_cons_of_mem _ told⟩

theorem runCustodySpine_told {formId : SettlementFormId} {candidate : SettlementCandidate}
    (returns : (runCustodySpine ctx raw formId).Returns calls (.ok (.ok candidate))) :
    ⟨.controlsPayee ctx.quote.payeePubkey, .ok true⟩ ∈ calls ∧
      PayerTold ctx calls raw.outpoint.txId := by
  obtain ⟨reply, later, rfl, rest⟩ := (returns_call_iff _ _).1 returns
  cases reply with
  | error e => cases ((returns_throw_iff _).1 rest).2
  | ok controls =>
    cases controls with
    | false => cases ((returns_pure_iff _).1 rest).2
    | true =>
      refine ⟨List.mem_cons_self, ?_⟩
      obtain ⟨own, payerFail, last, rfl, bound, ended⟩ := Returns.ok_of_bind
        (show ((checkPayerBinding ctx raw.outpoint.txId).bind _).Returns later _ from rest)
      cases payerFail with
      | some detail => cases ((returns_pure_iff _).1 ended).2
      | none =>
        refine (checkPayerBinding_told bound).mono fun call made => ?_
        exact List.mem_cons_of_mem _ (List.mem_append_left _ made)

theorem runBindingSpine_told {candidate : SettlementCandidate}
    (returns : (runBindingSpine ctx raw .plain).Returns calls (.ok (.ok candidate))) :
    BindingTold ctx calls raw := by
  have read := runBindingSpine_reads returns
  obtain ⟨_, datum, later, rfl, rfl, binding⟩ := Returns.of_ask_bind returns
  split at binding
  next =>
    split at binding
    next => cases ((returns_pure_iff _).1 binding).2
    next =>
      split at binding
      next => cases ((returns_pure_iff _).1 binding).2
      next =>
        split at binding
        next => cases ((returns_pure_iff _).1 binding).2
        next amount =>
          split at binding
          next => cases ((returns_pure_iff _).1 binding).2
          next address =>
            obtain ⟨custody, payer⟩ := runCustodySpine_told binding
            exact ⟨read, not_not.1 amount, not_not.1 address, List.mem_cons_of_mem _ custody,
              payer.mono (List.subset_cons_self _ _)⟩
  next => cases ((returns_pure_iff _).1 binding).2

end

namespace PlainOutputForm

theorem deepEnough_of_depthGate {ctx : ScoringCtx} {raw : RawSettlementCandidate}
    {honored : SettlementCandidate} {formId : SettlementFormId}
    (deep : depthGate ctx (settlementCandidate ctx raw .plain) = .honor honored formId) :
    DeepEnough ctx raw := by
  by_contra shallow
  obtain ⟨detail, waits⟩ := depthGate_shallow shallow
  rw [waits] at deep
  cases deep

theorem scoreLoop_told {ctx : ScoringCtx} {raw : List RawSettlementCandidate}
    {lastDecline : Option HonorVerdict} {sawSkippedOnly : Bool} {calls : List (PortCall G)}
    {candidate : SettlementCandidate} {formId : SettlementFormId}
    (unhonored : ∀ verdict ∈ lastDecline, verdict.decision ≠ .honor)
    (returns : (scoreLoop ctx raw lastDecline sawSkippedOnly).Returns calls
      (.ok (.honor candidate formId))) :
    ∃ c ∈ raw, BindingTold ctx calls c ∧ DeepEnough ctx c ∧
      candidate = settlementCandidate ctx c .plain := by
  induction raw generalizing lastDecline sawSkippedOnly calls with
  | nil =>
    cases lastDecline with
    | none => cases ((returns_pure_iff _).1 returns).2
    | some verdict =>
      obtain ⟨-, h⟩ := (returns_pure_iff _).1 returns
      exact absurd rfl (Except.ok.inj h ▸ unhonored verdict rfl)
  | cons c raw ih =>
    have further {last : Option HonorVerdict} {only : Bool} {own later : List (PortCall G)}
        (unhonored : ∀ verdict ∈ last, verdict.decision ≠ .honor)
        (scoring : (scoreLoop ctx raw last only).Returns later (.ok (.honor candidate formId))) :
        ∃ d ∈ c :: raw, BindingTold ctx (own ++ later) d ∧ DeepEnough ctx d ∧
          candidate = settlementCandidate ctx d .plain := by
      obtain ⟨d, present, told, rest⟩ := ih unhonored scoring
      exact ⟨d, List.mem_cons_of_mem _ present, told.mono (List.subset_append_right _ _), rest⟩
    obtain ⟨own, spine, later, rfl, bound, scoring⟩ := Returns.ok_of_bind returns
    have plain := (runBindingSpine_plain ctx c).returns bound
    cases spine with
    | skip => exact further unhonored scoring
    | verdict verdict => exact further (by simpa [SpineResult.Plain] using plain) scoring
    | ok binding =>
      have told := runBindingSpine_told bound
      obtain rfl : binding = settlementCandidate ctx c .plain := plain
      dsimp only at scoring
      split at scoring
      next honored form deep =>
        cases ((returns_pure_iff _).1 scoring).2
        exact ⟨c, List.mem_cons_self, told.mono (List.subset_append_left _ _),
          deepEnough_of_depthGate deep, depthGate_honor deep⟩
      next shallow =>
        refine further (fun verdict hverdict => ?_) scoring
        cases hverdict
        cases hgate : depthGate ctx (settlementCandidate ctx c .plain) with
        | honor honored form => exact absurd hgate (shallow honored form)
        | wait reason detail => simp [HonorVerdict.decision]
        | decline reason detail => simp [HonorVerdict.decision]

end PlainOutputForm

inductive PaymentTold (config : HonorConfig) (quote : AcceptedQuote) (calls : List (PortCall G))
    (outpoint : Outpoint) : Prop
  | mk {now tip : Int} {optional : OptionalPorts} {listed : List RawSettlementCandidate}
      {c : RawSettlementCandidate} (tipTold : ⟨.tipHeight, .ok tip⟩ ∈ calls)
      (listing : ⟨.findSettlementsByQuoteId quote.quoteId, .ok listed⟩ ∈ calls)
      (among : c ∈ listed) (binding : BindingTold ⟨quote, tip, now, config, optional⟩ calls c)
      (deep : PlainOutputForm.DeepEnough ⟨quote, tip, now, config, optional⟩ c)
      (same : c.outpoint = outpoint) : PaymentTold config quote calls outpoint

theorem PaymentTold.mono {config : HonorConfig} {quote : AcceptedQuote}
    {calls more : List (PortCall G)} {outpoint : Outpoint}
    (told : PaymentTold config quote calls outpoint) (sub : calls ⊆ more) :
    PaymentTold config quote more outpoint := by
  cases told with
  | mk tipTold listing among binding deep same =>
    exact .mk (sub tipTold) (sub listing) among (binding.mono sub) deep same

theorem scoreQuote_told {deps : HonorDeps G} {reserver : Bool}
    (forms : deps.forms = createFormRegistry (builtinForms reserver)) {quote : AcceptedQuote}
    (plain : quote.form = .plain) {now : Int} {calls : List (PortCall G)}
    {candidate : SettlementCandidate} {formId : SettlementFormId}
    (returns : (scoreQuote deps quote now).Returns calls (.ok (.honor candidate formId))) :
    PaymentTold deps.config quote calls candidate.outpoint := by
  unfold scoreQuote at returns
  rw [forms, plain] at returns
  obtain ⟨_, tip, _, rfl, rfl, discovering⟩ := Returns.of_ask_bind returns
  obtain ⟨_, raw, scored, rfl, rfl, scoring⟩ := discovering.of_ask_bind
  change (PlainOutputForm.score _ raw).Returns scored _ at scoring
  unfold PlainOutputForm.score at scoring
  split at scoring
  · cases ((returns_pure_iff _).1 scoring).2
  · obtain ⟨c, present, told, deep, rfl⟩ := PlainOutputForm.scoreLoop_told (by simp) scoring
    refine .mk List.mem_cons_self (List.mem_cons_of_mem _ List.mem_cons_self) present
      (told.mono fun call made => ?_) deep rfl
    exact List.mem_cons_of_mem _ (List.mem_cons_of_mem _ made)

namespace HonorEngine
variable {engine : HonorEngine G} {reserver : Bool}

theorem gate_told {key : HonorKey} {deliver : Deliver G} {opts : RegisterOpts}
    {past : List (PortCall G)} {input : HonorTxnInput G}
    (forms : engine.deps.forms = createFormRegistry (builtinForms reserver))
    (reached : GateReached engine key deliver opts past input)
    (plain : ∀ seen, ⟨.getSeen key, .ok (some seen)⟩ ∈ past → seen.form = .plain) :
    ∃ seen, ⟨.getSeen key, .ok (some seen)⟩ ∈ past ∧
      PaymentTold engine.deps.config (quoteFromSeen seen) past input.outpoint := by
  cases reached with
  | @mk now sampling seen scoring candidate formId form preparing sampled unhonored scored
      registered prepared =>
    refine ⟨seen, by simp, (scoreQuote_told forms (plain seen (by simp)) scored).mono ?_⟩
    exact fun call made => List.mem_append_right _ (List.mem_cons_of_mem _
      (List.mem_append_left _ made))

theorem program_runs_submit {task : EngineTask G} {past : List (PortCall G)} {htlc : OnChainHtlc}
    {preimage : Hex} {resume : Except Thrown Hex → Async G EngineResult}
    (forms : engine.deps.forms = createFormRegistry (builtinForms reserver))
    (run : (engine.program task).Runs past (.call (.submitClaim htlc preimage) resume)) :
    engine.deps.optional.htlcPreimageFor = true ∧ engine.deps.optional.submitClaim = true := by
  have allowed := (engine.program_uses task).of_call run
  cases task with
  | honor key deliver opts =>
    obtain ⟨_, inner, rfl⟩ := Runs.of_map_call run
    obtain ⟨_, _, _, _, reached⟩ := honor_runs_submit forms inner
    cases reached with
    | mk _ _ _ _ _ _ _ knows submits => exact ⟨knows, submits⟩
  | canHonor key =>
    obtain ⟨_, inner, _⟩ := Runs.of_map_call run
    obtain ⟨_, now, _, _, _, reading⟩ := (now_uses none).of_bind_call inner nofun
    obtain ⟨_, row, _, _, rfl, read⟩ := reading.of_ask_bind nofun
    cases hstep : gateStep0 row with
    | error step0 =>
      rw [hstep] at read
      cases ((runs_pure_iff _).1 read).2
    | ok seen =>
      rw [hstep] at read
      cases (scoreQuote_queries forms _ _).of_call read
  | _ => contradiction

section
variable {model : TxnModel} {initial : World G} {pool : EnginePool G}

theorem submit_knowing (forms : engine.deps.forms = createFormRegistry (builtinForms reserver))
    (reached : Reachable (openSystem engine model) initial pool) {event : EngineEvent G}
    (logged : event ∈ pool.log) {htlc : OnChainHtlc} {preimage : Hex}
    (submits : event.call.op = .submitClaim htlc preimage) :
    engine.deps.optional.htlcPreimageFor = true := by
  obtain ⟨resume, run⟩ := reached.runs_to_op logged submits
  exact (program_runs_submit forms run).1

theorem gate_plain (forms : engine.deps.forms = createFormRegistry (builtinForms reserver))
    (unknowing : engine.deps.optional.htlcPreimageFor = false)
    (clean : initial.claims = fun _ => none)
    (reached : Reachable (openSystem engine model) initial pool) {event : EngineEvent G}
    (logged : event ∈ pool.log) {key : HonorKey} {deliver : Deliver G} {opts : RegisterOpts}
    {input : HonorTxnInput G} (gate : GateReached engine key deliver opts event.past input)
    {seen : SeenRow} (read : ⟨.getSeen key, .ok (some seen)⟩ ∈ event.past) :
    seen.form = .plain := by
  cases htlcForm : seen.form with
  | plain => rfl
  | htlc =>
    obtain ⟨reads, listed, tip, prior, height, hpast, -, -, -⟩ :=
      htlc_gate_reads forms gate read htlcForm
    obtain ⟨thread, hthread, -, later, hown⟩ := reached.thread_of_event event logged
    obtain ⟨claim, hclaim, recorded⟩ := (claims_recorded clean reached).2 thread
      (List.mem_of_getElem? hthread) (rowKey seen.key) prior (by simp [hown, hpast])
    obtain ⟨_, _, _, _, _, _, _, _, _, _, _, _, _, ⟨htlc, preimage, hsubmit⟩, -⟩ :=
      claim_event forms reached hclaim recorded
    obtain ⟨submit, hlogged, -, -, hcall⟩ := reached.event_of_event_past claim hclaim _ hsubmit
    rw [submit_knowing forms reached hlogged (congrArg Call.op hcall)] at unknowing
    cases unknowing

/-- In such a process every transaction is an honor's, for a payment of a plain quote that it has
been told of. -/
theorem txn_told (forms : engine.deps.forms = createFormRegistry (builtinForms reserver))
    (unknowing : engine.deps.optional.htlcPreimageFor = false)
    (clean : initial.claims = fun _ => none)
    (reached : Reachable (openSystem engine model) initial pool) {event : EngineEvent G}
    (logged : event ∈ pool.log) {input : HonorTxnInput G}
    (txn : event.call.op = .runHonorTxn input) :
    ∃ deliver opts seen, event.task = .honor input.key deliver opts ∧
      ⟨.getSeen input.key, .ok (some seen)⟩ ∈ event.past ∧ seen.key = input.key ∧
      seen.form = .plain ∧
      PaymentTold engine.deps.config (quoteFromSeen seen) event.past input.outpoint := by
  obtain ⟨resume, run⟩ := reached.runs_to_op logged txn
  obtain ⟨deliver, opts, task, gate, -⟩ := program_runs_gate run
  have plain {seen : SeenRow} (read : ⟨.getSeen input.key, .ok (some seen)⟩ ∈ event.past) :=
    gate_plain forms unknowing clean reached logged gate read
  obtain ⟨seen, read, told⟩ := gate_told forms gate fun _ => plain
  refine ⟨deliver, opts, seen, task, read, ?_, plain read, told⟩
  obtain ⟨thread, hthread, -, later, hown⟩ := reached.thread_of_event event logged
  exact seen_row_key reached thread (List.mem_of_getElem? hthread) _ _
    (hown ▸ List.mem_append_left _ read)

end
end HonorEngine
end ExferHonor
