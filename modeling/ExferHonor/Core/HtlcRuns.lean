import ExferHonor.Core.TaskCalls

/-! What an `honor` of an HTLC quote has done when it records a claim and when it reaches the
gate, with the builtin forms. Everything here is about one call. -/
namespace ExferHonor
open Effects Program

variable {G : Type}

theorem builtinForms_get {reserver : Bool} {id : SettlementFormId} {form : SettlementForm G}
    (registered : (createFormRegistry (builtinForms reserver)).get id = .ok form) :
    (id = .plain ∧ form = PlainOutputForm.form) ∨ (id = .htlc ∧ form = HtlcForm.form reserver) := by
  cases id with
  | plain =>
    cases registered
    exact .inl ⟨rfl, rfl⟩
  | htlc =>
    cases registered
    exact .inr ⟨rfl, rfl⟩

section
variable {deps : HonorDeps G} {reserver : Bool}

theorem scoreQuote_queries (forms : deps.forms = createFormRegistry (builtinForms reserver))
    (quote : AcceptedQuote) (now : Int) : Uses (·.isQuery) (scoreQuote deps quote now) := by
  unfold scoreQuote
  rw [forms]
  cases registered : (createFormRegistry (builtinForms (G := G) reserver)).get quote.form with
  | error e => trivial
  | ok form =>
    simp only [Program.ofExcept_ok, Program.bind_eq, pure_bind]
    refine Uses.bind (Uses.ask rfl) fun tip => ?_
    rcases builtinForms_get registered with ⟨_, rfl⟩ | ⟨_, rfl⟩
    · exact Uses.bind (PlainOutputForm.discover_uses _) fun raw => PlainOutputForm.score_uses _ raw
    · exact Uses.bind (HtlcForm.discover_uses _) fun raw => HtlcForm.score_uses _ raw

theorem scoreQuote_listed (forms : deps.forms = createFormRegistry (builtinForms reserver))
    {quote : AcceptedQuote} {now : Int} {calls : List (PortCall G)}
    {candidate : SettlementCandidate} {formId : SettlementFormId}
    (returns : (scoreQuote deps quote now).Returns calls (.ok (.honor candidate formId))) :
    ∃ listed more, ⟨.findSettlementsByQuoteId quote.quoteId, .ok (listed :: more)⟩ ∈ calls := by
  unfold scoreQuote at returns
  obtain ⟨_, form, own, rfl, chosen, asking⟩ := Returns.ok_of_bind returns
  obtain ⟨rfl, registered⟩ := (returns_ofExcept_iff _).1 chosen
  obtain ⟨_, tip, _, rfl, rfl, discovering⟩ := Returns.of_ask_bind asking
  rw [forms] at registered
  have builtin (ctx : ScoringCtx) :
      form.discover ctx = Port.findSettlementsByQuoteId ctx.quote.quoteId ∧
        form.score ctx [] = .pure (.wait .noCandidate none) := by
    rcases builtinForms_get registered.symm with ⟨_, rfl⟩ | ⟨_, rfl⟩ <;> exact ⟨rfl, rfl⟩
  dsimp only at discovering
  rw [(builtin _).1] at discovering
  obtain ⟨_, raw, scored, rfl, rfl, scoring⟩ := discovering.of_ask_bind
  cases raw with
  | nil =>
    rw [(builtin _).2] at scoring
    cases ((returns_pure_iff _).1 scoring).2
  | cons listed more => exact ⟨listed, more, List.mem_cons_of_mem _ List.mem_cons_self⟩

theorem scoreQuote_returns_htlc (forms : deps.forms = createFormRegistry (builtinForms reserver))
    {quote : AcceptedQuote} {now : Int} {calls : List (PortCall G)}
    {candidate : SettlementCandidate} {formId : SettlementFormId} (htlcForm : quote.form = .htlc)
    (returns : (scoreQuote deps quote now).Returns calls (.ok (.honor candidate formId))) :
    ∃ tip listed more htlc, calls = [⟨.tipHeight, .ok tip⟩,
        ⟨.findSettlementsByQuoteId quote.quoteId, .ok (listed :: more)⟩,
        ⟨.getHtlc listed.outpoint, .ok (some htlc)⟩] ∧
      HtlcForm.validateOnChain (scoringCtx deps quote tip now) htlc = none ∧
      candidate = HtlcForm.lockCandidate (scoringCtx deps quote tip now) listed htlc := by
  unfold scoreQuote at returns
  rw [forms, htlcForm] at returns
  obtain ⟨_, tip, _, rfl, rfl, discovering⟩ := Returns.of_ask_bind returns
  obtain ⟨_, raw, _, rfl, rfl, scoring⟩ := discovering.of_ask_bind
  obtain ⟨listed, more, htlc, rfl, rfl, binds, hcandidate⟩ := HtlcForm.score_returns_honor scoring
  exact ⟨tip, listed, more, htlc, rfl, binds, hcandidate⟩

end

namespace HonorEngine
variable {engine : HonorEngine G} {reserver : Bool} {key : HonorKey} {deliver : Deliver G}
  {opts : RegisterOpts}

/-- The calls of an HTLC honor up to its candidate, which is the first one listed. -/
inductive LockRead (key : HonorKey) (seen : SeenRow) (listed : RawSettlementCandidate) :
    List (PortCall G) → Prop
  | mk {sampling tip more htlc} (sampled : ∀ call ∈ sampling, call.op = .clockNow)
      (strict : IsQuoteId seen.quoteId) :
      LockRead key seen listed (sampling ++ [⟨.getSeen key, .ok (some seen)⟩,
        ⟨.tipHeight, .ok tip⟩, ⟨.findSettlementsByQuoteId seen.quoteId, .ok (listed :: more)⟩,
        ⟨.getHtlc listed.outpoint, .ok (some htlc)⟩])

theorem LockRead.length_eq {seen : SeenRow} {listed : RawSettlementCandidate}
    {reads : List (PortCall G)} (read : LockRead key seen listed reads) :
    seen.key.quoteId.length = 32 := by
  cases read with
  | mk sampled strict => exact strict.2

theorem prepare_returns_ready {quote : AcceptedQuote} {now : Int}
    {candidate : SettlementCandidate} {calls : List (PortCall G)}
    (returns : (engine.prepare (HtlcForm.form reserver) quote now candidate).Returns calls
      (.ok .ready)) :
    ∃ tip prior height, calls = [⟨.tipHeight, .ok tip⟩,
        ⟨.claimsGet (rowKey quote.key), some prior⟩,
        ⟨.getTransaction prior.claimTxId, .ok (some ⟨some height⟩)⟩] ∧
      engine.deps.config.claimMargin ≤ tip - height + 1 := by
  obtain ⟨_, tip, _, rfl, rfl, preparing⟩ := Returns.of_ask_bind returns
  obtain ⟨prior, height, rfl, buried⟩ := HtlcForm.prepare_returns_ready preparing
  exact ⟨tip, prior, height, rfl, buried⟩

/-- An HTLC honor reaches the gate for the outpoint it listed first, and behind the claim that
this process has on record for the quote. -/
theorem htlc_gate_reads {past : List (PortCall G)} {input : HonorTxnInput G} {seen : SeenRow}
    (forms : engine.deps.forms = createFormRegistry (builtinForms reserver))
    (reached : GateReached engine key deliver opts past input)
    (read : ⟨.getSeen key, .ok (some seen)⟩ ∈ past) (htlcForm : seen.form = .htlc) :
    ∃ reads listed tip prior height, past = reads ++ [⟨.tipHeight, .ok tip⟩,
        ⟨.claimsGet (rowKey seen.key), some prior⟩,
        ⟨.getTransaction prior.claimTxId, .ok (some ⟨some height⟩)⟩] ∧
      LockRead key seen listed reads ∧
      engine.deps.config.claimMargin ≤ tip - height + 1 ∧ input.outpoint = listed.outpoint := by
  cases reached with
  | @mk now sampling row scoring candidate formId form preparing sampled unhonored scored
      registered prepared =>
    have hsampling := ((now_uses opts.now).runs sampled).1
    have hscoring := ((scoreQuote_queries forms _ now).runs scored).1
    have hpreparing := ((engine.prepare_uses _ _ _ _).runs prepared).1
    obtain rfl : seen = row := by
      rcases List.mem_append.1 read with h | h
      · cases hsampling _ h
      · rcases List.mem_cons.1 h with h | h
        · cases h
          rfl
        · rcases List.mem_append.1 h with h | h
          · cases hscoring _ h
          · cases hpreparing _ h
    rw [forms, htlcForm] at registered
    cases registered
    obtain ⟨scored_tip, listed, more, htlc, rfl, binds, rfl⟩ :=
      scoreQuote_returns_htlc forms htlcForm scored
    obtain ⟨tip, prior, height, rfl, buried⟩ := prepare_returns_ready prepared
    exact ⟨_, listed, tip, prior, height, (List.append_assoc sampling [_, _, _, _] _).symm,
      .mk hsampling (HtlcForm.validateOnChain_strict binds), buried, rfl⟩

/-- Only an HTLC quote's honor records a claim: for the lock it listed first, after it has
submitted that claim, and with nothing left to do but to report it. -/
theorem htlc_claim_reads {past : List (PortCall G)} {rk : String} {record : ClaimRecord}
    {resume : Unit → Async G HonorOutcome}
    (forms : engine.deps.forms = createFormRegistry (builtinForms reserver))
    (run : (engine.honor key deliver opts).Runs past (.call (.claimsSet rk record) resume)) :
    ∃ seen reads listed preparing, past = reads ++ preparing ∧ LockRead key seen listed reads ∧
      rk = rowKey seen.key ∧ record.lock = listed.outpoint ∧
      (∃ htlc preimage, ⟨.submitClaim htlc preimage, .ok record.claimTxId⟩ ∈ past) ∧
      resume = fun _ => .call (.claimTxIdsSet (rowKey key) record.claimTxId)
        fun _ => .pure (.notReady (.wait .htlcClaimPending none)) := by
  obtain ⟨now, sampling, seen, scoring, candidate, formId, later, rfl, sampled, -, scored,
    decided⟩ := honor_runs_candidate run (scoreQuote_queries forms) nofun nofun nofun
  obtain ⟨form, inner, next, registered, preparing, rfl, hsubmitted, -⟩ :=
    honorCandidate_runs_prepare decided rfl
  rw [forms] at registered
  rcases builtinForms_get registered with ⟨_, rfl⟩ | ⟨htlcForm, rfl⟩
  · obtain ⟨_, _, own, rfl, rfl, claiming⟩ := Runs.of_ask_bind preparing nofun
    cases ((runs_pure_iff _).1 claiming).2
  · obtain ⟨tip, listed, more, htlc, rfl, binds, rfl⟩ :=
      scoreQuote_returns_htlc forms htlcForm scored
    obtain ⟨_, _, own, rfl, rfl, claiming⟩ := Runs.of_ask_bind preparing nofun
    obtain ⟨rfl, hlock, ⟨htlc, preimage, hsubmit⟩, rfl⟩ := HtlcForm.prepare_runs_claim claiming
    refine ⟨seen, _, listed, _, (List.append_assoc sampling [_, _, _, _] _).symm,
      .mk ((now_uses opts.now).runs sampled).1 (HtlcForm.validateOnChain_strict binds),
      rfl, hlock, ⟨htlc, preimage, ?_⟩, funext fun _ => hsubmitted record.claimTxId⟩
    simp [hsubmit]

theorem program_runs_claim {task : EngineTask G} {past : List (PortCall G)} {rk : String}
    {record : ClaimRecord} {resume : Unit → Async G EngineResult}
    (forms : engine.deps.forms = createFormRegistry (builtinForms reserver))
    (run : (engine.program task).Runs past (.call (.claimsSet rk record) resume)) :
    ∃ key deliver opts seen reads listed preparing, task = .honor key deliver opts ∧
      past = reads ++ preparing ∧ LockRead key seen listed reads ∧
      rk = rowKey seen.key ∧ record.lock = listed.outpoint ∧
      (∃ htlc preimage, ⟨.submitClaim htlc preimage, .ok record.claimTxId⟩ ∈ past) ∧
      resume = fun _ => .call (.claimTxIdsSet (rowKey key) record.claimTxId)
        fun _ => .pure (.outcome (.notReady (.wait .htlcClaimPending none))) := by
  have allowed := (engine.program_uses task).of_call run
  cases task with
  | honor key deliver opts =>
    obtain ⟨_, inner, rfl⟩ := Runs.of_map_call run
    obtain ⟨seen, reads, listed, preparing, hpast, locked, hrk, hlock, hsubmit, rfl⟩ :=
      htlc_claim_reads forms inner
    exact ⟨key, deliver, opts, seen, reads, listed, preparing, rfl, hpast, locked, hrk, hlock,
      hsubmit, rfl⟩
  | canHonor key =>
    obtain ⟨_, inner, _⟩ := Runs.of_map_call run
    obtain ⟨_, now, _, _, _, reading⟩ := (now_uses none).of_bind_call inner nofun
    obtain ⟨_, row, _, _, rfl, read⟩ := reading.of_ask_bind nofun
    cases hstep : gateStep0 row with
    | error step0 =>
      rw [hstep] at read
      cases ((runs_pure_iff _).1 read).2
    | ok seen =>
      rw [hstep] at read
      cases (scoreQuote_queries forms _ _).of_call read
  | _ => contradiction

theorem program_runs_gate {task : EngineTask G} {past : List (PortCall G)}
    {input : HonorTxnInput G} {resume : TxnReply → Async G EngineResult}
    (run : (engine.program task).Runs past (.call (.runHonorTxn input) resume)) :
    ∃ deliver opts, task = .honor input.key deliver opts ∧
      GateReached engine input.key deliver opts past input ∧
      resume = fun reply =>
        (ofExcept (settleTxn opts.rethrowDeliveryErrors input.outpoint reply)).bind
          fun outcome => .pure (.outcome outcome) := by
  have allowed := (engine.program_uses task).of_call run
  cases task with
  | honor key deliver opts =>
    obtain ⟨_, inner, rfl⟩ := Runs.of_map_call run
    obtain ⟨reached, rfl⟩ := honor_runs_gate inner
    obtain rfl : input.key = key := by
      cases reached
      rfl
    exact ⟨deliver, opts, rfl, reached, rfl⟩
  | _ => contradiction

end HonorEngine
end ExferHonor
