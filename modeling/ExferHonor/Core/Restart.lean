import ExferHonor.Core.Alone
import ExferHonor.Core.OneClaim

/-! A process that submitted a claim and a process started afterwards over the same database. The
claims on record are in the form's map, so the new process starts over with Phase A. -/
namespace ExferHonor
namespace HonorEngine
open Effects Program Statements

variable {G : Type}

section
variable (engine : HonorEngine G) (model : TxnModel) (answer : (op : Op G) → op.Reply)
  (key : HonorKey) (deliver : Deliver G) (opts : RegisterOpts) (world : World G) (row : SeenRowSql)

def honorIn : List (PortCall G) × Except Thrown HonorOutcome × World G :=
  (engine.honor key deliver opts).run (answering model answer) world

def scored : Except Thrown HonorVerdict :=
  (scoreQuote engine.deps (quoteFromSeen (SqliteStore.rowFromSql row))
    (opts.now.getD world.clock)).eval answer

def prepareIn (reserver : Bool) (candidate : SettlementCandidate) :
    List (PortCall G) × Except Thrown PrepareResult × World G :=
  (engine.prepare (HtlcForm.form reserver) (quoteFromSeen (SqliteStore.rowFromSql row))
    (opts.now.getD world.clock) candidate).run (answering model answer) world

def candidateIn (candidate : SettlementCandidate) :
    List (PortCall G) × Except Thrown HonorOutcome × World G :=
  (engine.honorCandidate key deliver opts.rethrowDeliveryErrors (SqliteStore.rowFromSql row)
    (opts.now.getD world.clock) candidate).run (answering model answer) world

end

theorem Quiet.ungated {calls : List (PortCall G)} (quiet : Quiet calls) :
    ∀ call ∈ calls, ∀ input, call.op ≠ .runHonorTxn input := by
  intro call hcall input hgate
  have := quiet call hcall
  rw [hgate] at this
  cases this

theorem Quiet.no_claim {calls : List (PortCall G)} (quiet : Quiet calls) :
    calls.filter submitsClaim = [] := by
  apply List.filter_eq_nil_iff.2
  rintro ⟨op, reply⟩ hcall
  cases op <;> first | exact Bool.false_ne_true | exact absurd (quiet _ hcall) nofun

def Buried (config : HonorConfig) (tip : Int) (claim : Option TxInfo) : Prop :=
  ∃ height, claim = some ⟨some height⟩ ∧ config.claimMargin ≤ tip - height + 1

section
variable {engine : HonorEngine G} {reserver : Bool} {model : TxnModel}
  {answer : (op : Op G) → op.Reply} {key : HonorKey} {deliver : Deliver G} {opts : RegisterOpts}
  {world : World G}

theorem phaseB_eval_error {ctx : ScoringCtx} {prior : ClaimRecord} {e : Thrown}
    (faults : answer (.getTransaction prior.claimTxId) = .error e) :
    (HtlcForm.phaseB (G := G) ctx prior).eval answer = .error e := by
  simp only [HtlcForm.phaseB, Port.getTransaction, Program.bind_eq, Program.call_bind,
    Program.eval, faults, Program.ofExcept_error, Program.throw_bind]

theorem phaseB_eval {ctx : ScoringCtx} {prior : ClaimRecord} {claim : Option TxInfo}
    (found : answer (.getTransaction prior.claimTxId) = .ok claim) :
    (Buried ctx.config ctx.tip claim ∧
      (HtlcForm.phaseB (G := G) ctx prior).eval answer = .ok .ready) ∨
    (¬ Buried ctx.config ctx.tip claim ∧
      (HtlcForm.phaseB (G := G) ctx prior).eval answer = .ok (.wait .reorgWithheld)) := by
  simp only [HtlcForm.phaseB, Port.getTransaction, Program.bind_eq, Program.call_bind,
    Program.eval, found, Program.ofExcept_ok, Program.pure_bind]
  rcases claim with _ | ⟨_ | height⟩
  · simp [Buried]
  · simp [Buried]
  · simp only [Buried, Option.some.injEq, TxInfo.mk.injEq, exists_eq_left']
    split
    next shallow => exact .inr ⟨by omega, rfl⟩
    next deep => exact .inl ⟨by omega, rfl⟩

section
variable {quote : AcceptedQuote} {now tip : Int} {candidate : SettlementCandidate}

theorem prepare_run_prior (htip : answer .tipHeight = .ok tip) {prior : ClaimRecord}
    (recorded : world.claims (rowKey quote.key) = some prior) :
    ∃ calls, Quiet calls ∧ (engine.prepare (HtlcForm.form reserver) quote now candidate).run
        (answering model answer) world =
      (calls, (HtlcForm.phaseB (scoringCtx engine.deps quote tip now) prior).eval answer,
        world) := by
  obtain ⟨quiet, hphase⟩ := run_queries model answer world
    (HtlcForm.phaseB_uses (scoringCtx engine.deps quote tip now) prior)
  have hclaims : answering model answer world
      (.claimsGet (HtlcForm.rk (scoringCtx engine.deps quote tip now))) = (some prior, world) :=
    congrArg (·, world) recorded
  rw [← hphase]
  simp only [prepare, HtlcForm.form, HtlcForm.prepare, Port.tipHeight, Port.claimsGet,
    Program.bind_eq, Program.call_bind, Program.run, answering_query rfl htip, hclaims,
    Program.ofExcept_ok, Program.pure_bind]
  exact ⟨_, List.forall_mem_cons.2 ⟨rfl, List.forall_mem_cons.2 ⟨rfl, quiet⟩⟩, rfl⟩

structure ClaimsLock (key : HonorKey) (lock : Outpoint) (world : World G)
    (run : List (PortCall G) × Except Thrown PrepareResult × World G) : Prop where
  submits : run.1.any submitsClaim = true
  byForm : ∀ call ∈ run.1, call.op.byForm = true
  result : (∃ e, run.2.1 = .error e) ∨ ∃ claimTxId, run.2.1 = .ok (.claimSubmitted claimTxId)
  db : run.2.2.db = world.db ∨ ∃ claimTxId, run.2.2.db =
    { world.db with consumed := reserveClaim world.db.consumed key lock claimTxId }

theorem claimLock_run (reserver : Bool) (model : TxnModel) (answer : (op : Op G) → op.Reply)
    (world : World G) (ctx : ScoringCtx) (lock : Outpoint) (htlc : OnChainHtlc) (preimage : Hex) :
    ClaimsLock ctx.quote.key lock world ((HtlcForm.claimLock reserver ctx lock htlc preimage).run
      (answering model answer) world) := by
  have hsubmit : answering model answer world (.submitClaim htlc preimage) =
      (answer (.submitClaim htlc preimage), world) := rfl
  simp only [HtlcForm.claimLock, HtlcForm.recordClaim, Port.submitClaim, Port.reserveClaimOutpoint,
    Port.claimsSet, Program.bind_eq, Program.call_bind, Program.run, hsubmit]
  cases answer (.submitClaim htlc preimage) with
  | error e => exact ⟨rfl, by simp [Program.run, Op.byForm], .inl ⟨e, rfl⟩, .inl rfl⟩
  | ok claimTxId =>
    cases reserver with
    | false => exact ⟨rfl, by simp [Program.run, Op.byForm], .inr ⟨claimTxId, rfl⟩, .inl rfl⟩
    | true =>
      simp only [Program.ofExcept_ok, Program.pure_bind, if_true, Program.run]
      cases hreserve : answer (.reserveClaimOutpoint ctx.quote.key lock claimTxId ctx.now) with
      | error e =>
        have hcall : answering model answer world
            (.reserveClaimOutpoint ctx.quote.key lock claimTxId ctx.now) = (.error e, world) := by
          rw [answering, hreserve]
          rfl
        simp only [hcall]
        exact ⟨rfl, by simp [Program.run, Op.byForm], .inl ⟨e, rfl⟩, .inl rfl⟩
      | ok _ =>
        have hcall : answering model answer world
            (.reserveClaimOutpoint ctx.quote.key lock claimTxId ctx.now) =
            (.ok (), { world with db := { world.db with
              consumed := reserveClaim world.db.consumed ctx.quote.key lock claimTxId } }) := by
          rw [answering, hreserve]
          rfl
        simp only [hcall]
        exact ⟨rfl, by simp [Program.run, Op.byForm], .inr ⟨claimTxId, rfl⟩, .inr ⟨claimTxId, rfl⟩⟩

/-- Phase A on a lock it reads as `htlc`: it withholds, or gives up before a claim, or claims. -/
inductive StartsOver (config : HonorConfig) (tip : Int) (htlc : OnChainHtlc) (key : HonorKey)
    (lock : Outpoint) (world : World G) :
    List (PortCall G) × Except Thrown PrepareResult × World G → Prop
  | withholds {calls} (late : htlc.timeoutHeight < tip + config.claimMargin) (quiet : Quiet calls) :
      StartsOver config tip htlc key lock world (calls, .ok (.wait .reorgWithheld), world)
  | unable {calls} (early : tip + config.claimMargin ≤ htlc.timeoutHeight) (quiet : Quiet calls) :
      StartsOver config tip htlc key lock world (calls, .ok (.wait .noCandidate), world)
  | faults {calls e} (early : tip + config.claimMargin ≤ htlc.timeoutHeight) (quiet : Quiet calls) :
      StartsOver config tip htlc key lock world (calls, .error e, world)
  | claims {reads run} (early : tip + config.claimMargin ≤ htlc.timeoutHeight)
      (quiet : Quiet reads) (claimed : ClaimsLock key lock world run) :
      StartsOver config tip htlc key lock world (reads ++ run.1, run.2)

theorem prepare_run_unclaimed (quote : AcceptedQuote) (now : Int)
    (htip : answer .tipHeight = .ok tip)
    (unclaimed : world.claims (rowKey quote.key) = none) {htlc : OnChainHtlc}
    (hread : answer (.getHtlc candidate.outpoint) = .ok (some htlc)) :
    StartsOver engine.deps.config tip htlc quote.key candidate.outpoint world
      ((engine.prepare (HtlcForm.form reserver) quote now candidate).run
        (answering model answer) world) := by
  have hclaims : answering model answer world
      (.claimsGet (HtlcForm.rk (scoringCtx engine.deps quote tip now))) = (none, world) :=
    congrArg (·, world) unclaimed
  simp only [prepare, HtlcForm.form, HtlcForm.prepare, HtlcForm.phaseA, Port.tipHeight,
    Port.claimsGet, Port.getHtlc, Port.htlcPreimageFor, Program.bind_eq, Program.call_bind,
    Program.run, answering_query rfl htip, answering_query rfl hread, hclaims, Program.ofExcept_ok,
    Program.pure_bind]
  by_cases late : (scoringCtx engine.deps quote tip now).tip +
      (scoringCtx engine.deps quote tip now).config.claimMargin > htlc.timeoutHeight
  · simp only [if_pos late]
    exact .withholds late (by simp [Quiet, Program.run, Op.onlyReads, Op.isQuery])
  have early := Int.not_lt.1 late
  simp only [if_neg late]
  cases (scoringCtx engine.deps quote tip now).optional.htlcPreimageFor with
  | false => exact .unable early (by simp [Quiet, Program.run, Op.onlyReads, Op.isQuery])
  | true =>
    have hasked : answering model answer world (.htlcPreimageFor
        (scoringCtx engine.deps quote tip now).quote.quoteId
        (scoringCtx engine.deps quote tip now).quote.payeePubkey) = (answer _, world) := rfl
    simp only [Bool.not_true, Bool.false_eq_true, if_false, Program.run, hasked]
    cases answer (.htlcPreimageFor (scoringCtx engine.deps quote tip now).quote.quoteId
        (scoringCtx engine.deps quote tip now).quote.payeePubkey) with
    | error e => exact .faults early (by simp [Quiet, Program.run, Op.onlyReads, Op.isQuery])
    | ok found =>
      cases found with
      | none => exact .unable early (by simp [Quiet, Program.run, Op.onlyReads, Op.isQuery])
      | some preimage =>
        simp only [Program.ofExcept_ok, Program.pure_bind]
        cases (scoringCtx engine.deps quote tip now).optional.submitClaim with
        | false => exact .unable early (by simp [Quiet, Program.run, Op.onlyReads, Op.isQuery])
        | true =>
          have claimed := claimLock_run reserver model answer world
            (scoringCtx engine.deps quote tip now) candidate.outpoint htlc preimage
          show StartsOver _ _ _ _ _ _ ([_, _, _, _] ++ _, _)
          exact .claims early (by simp [Quiet, Op.onlyReads, Op.isQuery]) claimed

end

theorem honor_run (model : TxnModel) (deliver : Deliver G) (opts : RegisterOpts)
    (forms : engine.deps.forms = createFormRegistry (builtinForms reserver))
    {row : SeenRowSql} (found : world.db.seen.find? key = some row)
    (unhonored : row.honoredAt = none) {read : Option SeenRow}
    (reads : answer (.getSeen key) = .ok read) :
    ∃ calls, Quiet calls ∧
      (∀ e, scored engine answer opts world row = .error e →
        honorIn engine model answer key deliver opts world = (calls, .error e, world)) ∧
      (∀ verdict, scored engine answer opts world row = .ok verdict →
        verdict.decision ≠ .honor →
        honorIn engine model answer key deliver opts world =
          (calls, .ok (.notReady verdict), world)) ∧
      ∀ candidate formId, scored engine answer opts world row = .ok (.honor candidate formId) →
        honorIn engine model answer key deliver opts world =
          (calls ++ (candidateIn engine model answer key deliver opts world row candidate).1,
            (candidateIn engine model answer key deliver opts world row candidate).2) := by
  obtain ⟨sampling, hsampling, sampled⟩ := now_run model answer world opts
  have hseen : answering model answer world (.getSeen key) =
      (.ok (some (SqliteStore.rowFromSql row)), world) := by
    have hread : (getSeen world.db.seen key).map (Store.rowFromSql model) =
        some (SqliteStore.rowFromSql row) := by
      rw [getSeen, found, Option.map_some, Store.rowFromSql_eq]
    rw [answering, reads, ← hread]
    rfl
  have hstep : gateStep0 (some (SqliteStore.rowFromSql row)) = .ok (SqliteStore.rowFromSql row) :=
    if_neg (not_not.2 unhonored)
  obtain ⟨hscoring, scoring⟩ := run_queries model answer world
    (scoreQuote_queries forms (quoteFromSeen (SqliteStore.rowFromSql row))
      (opts.now.getD world.clock))
  generalize hcalls : ((scoreQuote engine.deps (quoteFromSeen (SqliteStore.rowFromSql row))
    (opts.now.getD world.clock)).run (answering model answer) world).1 = calls at hscoring
  have hscored : (scoreQuote engine.deps (quoteFromSeen (SqliteStore.rowFromSql row))
      (opts.now.getD world.clock)).run (answering model answer) world =
      (calls, scored engine answer opts world row, world) := Prod.ext hcalls scoring
  refine ⟨sampling ++ ⟨.getSeen key, .ok (some (SqliteStore.rowFromSql row))⟩ :: calls, ?_, ?_⟩
  · exact hsampling.append (List.forall_mem_cons.2 ⟨rfl, hscoring⟩)
  have hhonor : honorIn engine model answer key deliver opts world = _ := run_bind_ok sampled
  simp only [Port.getSeen, Program.bind_eq, Program.call_bind, Program.run, hseen,
    Program.ofExcept_ok, Program.pure_bind, hstep] at hhonor
  rw [hhonor]
  refine ⟨fun e he => ?_, fun verdict hverdict hdecision => ?_, fun candidate formId hhonors => ?_⟩
  · rw [he] at hscored
    simp only [run_bind_error hscored]
  · rw [hverdict] at hscored
    simp only [run_bind_ok hscored]
    cases verdict with
    | honor => exact absurd rfl hdecision
    | _ => simp [Program.run]
  · rw [hhonors] at hscored
    simp only [run_bind_ok hscored]
    simp [candidateIn]

section
variable {row : SeenRowSql} {candidate : SettlementCandidate} {tip : Int}

theorem candidate_run (key : HonorKey) (deliver : Deliver G)
    (forms : engine.deps.forms = createFormRegistry (builtinForms reserver))
    (htlcForm : row.form = .htlc) {calls : List (PortCall G)} {result : Except Thrown PrepareResult}
    {after : World G}
    (prepared : prepareIn engine model answer opts world row reserver candidate =
      (calls, result, after)) :
    (∀ e, result = .error e → candidateIn engine model answer key deliver opts world row candidate =
      (calls, .error e, after)) ∧
    (∀ reason, result = .ok (.wait reason) →
      candidateIn engine model answer key deliver opts world row candidate =
        (calls, .ok (.notReady (.wait reason none)), after)) ∧
    (∀ claimTxId, result = .ok (.claimSubmitted claimTxId) →
      candidateIn engine model answer key deliver opts world row candidate =
        (calls ++ [⟨.claimTxIdsSet (rowKey key) claimTxId, ()⟩],
          .ok (.notReady (.wait .htlcClaimPending none)),
          (World.perform model after (.claimTxIdsSet (rowKey key) claimTxId) ()).2)) ∧
    (result = .ok .ready → ∃ input,
      candidateIn engine model answer key deliver opts world row candidate =
        (calls ++ [⟨.runHonorTxn input, (answering model answer after (.runHonorTxn input)).1⟩],
          settleTxn opts.rethrowDeliveryErrors candidate.outpoint
            (answering model answer after (.runHonorTxn input)).1,
          (answering model answer after (.runHonorTxn input)).2)) := by
  have registered : engine.deps.forms.get (SqliteStore.rowFromSql row).form =
      .ok (HtlcForm.form reserver) := by
    rw [forms, show (SqliteStore.rowFromSql row).form = .htlc from htlcForm]
    rfl
  unfold candidateIn honorCandidate
  dsimp only
  rw [show engine.deps.forms.get (quoteFromSeen (SqliteStore.rowFromSql row)).form =
    .ok (HtlcForm.form reserver) from registered]
  simp only [Program.ofExcept_ok, Program.bind_eq, Program.pure_bind]
  refine ⟨?_, ?_, ?_, ?_⟩
  · rintro e rfl
    exact run_bind_error prepared
  · rintro reason rfl
    rw [run_bind_ok prepared]
    simp [Program.run]
  · rintro claimTxId rfl
    rw [run_bind_ok prepared]
    rfl
  · rintro rfl
    refine ⟨txnInput key deliver (SqliteStore.rowFromSql row) (opts.now.getD world.clock) candidate
      HtlcForm.gateMode, ?_⟩
    rw [run_bind_ok prepared]
    simp only [runGate, Port.runHonorTxn, Program.bind_eq, Program.call_bind, Program.run,
      Program.pure_bind, run_ofExcept]
    rfl

/-- With a claim on record: Phase B reads, and at most runs the transaction. -/
inductive PriorEnds (config : HonorConfig) (tip : Int) (found : Except Thrown (Option TxInfo))
    (rethrow : Bool) (outpoint : Outpoint) (model : TxnModel)
    (answer : (op : Op G) → op.Reply) (world : World G) :
    List (PortCall G) × Except Thrown HonorOutcome × World G → Prop
  | faults {calls e} (quiet : Quiet calls) (lookup : found = .error e) :
      PriorEnds config tip found rethrow outpoint model answer world (calls, .error e, world)
  | withholds {calls claim} (quiet : Quiet calls) (lookup : found = .ok claim)
      (shallow : ¬ Buried config tip claim) :
      PriorEnds config tip found rethrow outpoint model answer world
        (calls, .ok (.notReady (.wait .reorgWithheld none)), world)
  | gated {reads claim input} (quiet : Quiet reads) (lookup : found = .ok claim)
      (buried : Buried config tip claim) :
      PriorEnds config tip found rethrow outpoint model answer world
        (reads ++ [⟨.runHonorTxn input, (answering model answer world (.runHonorTxn input)).1⟩],
          settleTxn rethrow outpoint (answering model answer world (.runHonorTxn input)).1,
          (answering model answer world (.runHonorTxn input)).2)

theorem candidate_run_prior (model : TxnModel) (deliver : Deliver G) (opts : RegisterOpts)
    (candidate : SettlementCandidate)
    (forms : engine.deps.forms = createFormRegistry (builtinForms reserver))
    (htlcForm : row.form = .htlc) (own : row.key = key) (htip : answer .tipHeight = .ok tip)
    {prior : ClaimRecord} (recorded : world.claims (rowKey key) = some prior) :
    PriorEnds engine.deps.config tip (answer (.getTransaction prior.claimTxId))
      opts.rethrowDeliveryErrors candidate.outpoint model answer world
      (candidateIn engine model answer key deliver opts world row candidate) := by
  subst own
  obtain ⟨calls, quiet, prepared⟩ : ∃ calls, Quiet calls ∧
      prepareIn engine model answer opts world row reserver candidate =
        (calls, (HtlcForm.phaseB (scoringCtx engine.deps
          (quoteFromSeen (SqliteStore.rowFromSql row)) tip (opts.now.getD world.clock)) prior).eval
            answer, world) := prepare_run_prior htip recorded
  obtain ⟨onFault, onWait, -, onReady⟩ := candidate_run row.key deliver forms htlcForm prepared
  cases hfound : answer (.getTransaction prior.claimTxId) with
  | error e =>
    rw [onFault e (phaseB_eval_error hfound)]
    exact .faults quiet rfl
  | ok claim =>
    rcases phaseB_eval hfound with ⟨buried, hready⟩ | ⟨shallow, hwait⟩
    · obtain ⟨input, hrun⟩ := onReady hready
      rw [hrun]
      exact .gated quiet rfl buried
    · rw [onWait _ hwait]
      exact .withholds quiet rfl shallow

inductive UnclaimedEnds (config : HonorConfig) (tip : Int) (htlc : OnChainHtlc) (key : HonorKey)
    (lock : Outpoint) (world : World G) :
    List (PortCall G) × Except Thrown HonorOutcome × World G → Prop
  | withholds {calls} (quiet : Quiet calls) (late : htlc.timeoutHeight < tip + config.claimMargin) :
      UnclaimedEnds config tip htlc key lock world
        (calls, .ok (.notReady (.wait .reorgWithheld none)), world)
  | unable {calls} (quiet : Quiet calls) (early : tip + config.claimMargin ≤ htlc.timeoutHeight) :
      UnclaimedEnds config tip htlc key lock world
        (calls, .ok (.notReady (.wait .noCandidate none)), world)
  | faults {calls e} (quiet : Quiet calls) (early : tip + config.claimMargin ≤ htlc.timeoutHeight) :
      UnclaimedEnds config tip htlc key lock world (calls, .error e, world)
  | claims {calls result} {after : World G}
      (early : tip + config.claimMargin ≤ htlc.timeoutHeight)
      (submits : calls.any submitsClaim = true)
      (ungated : ∀ call ∈ calls, ∀ input, call.op ≠ .runHonorTxn input)
      (unhonored : ∀ outpoint, result ≠ .ok (.honored outpoint))
      (db : after.db = world.db ∨ ∃ claimTxId, after.db =
        { world.db with consumed := reserveClaim world.db.consumed key lock claimTxId }) :
      UnclaimedEnds config tip htlc key lock world (calls, result, after)

theorem candidate_run_unclaimed (model : TxnModel) (deliver : Deliver G) (opts : RegisterOpts)
    (forms : engine.deps.forms = createFormRegistry (builtinForms reserver))
    (htlcForm : row.form = .htlc) (own : row.key = key) (htip : answer .tipHeight = .ok tip)
    (unclaimed : world.claims (rowKey key) = none) {htlc : OnChainHtlc}
    (hread : answer (.getHtlc candidate.outpoint) = .ok (some htlc)) :
    UnclaimedEnds engine.deps.config tip htlc key candidate.outpoint world
      (candidateIn engine model answer key deliver opts world row candidate) := by
  subst own
  have started : StartsOver engine.deps.config tip htlc row.key candidate.outpoint world
      (prepareIn engine model answer opts world row reserver candidate) :=
    prepare_run_unclaimed (quoteFromSeen (SqliteStore.rowFromSql row)) (opts.now.getD world.clock)
      htip unclaimed hread
  generalize hprep : prepareIn engine model answer opts world row reserver candidate = prepared
    at started
  cases started with
  | withholds late quiet =>
    rw [(candidate_run row.key deliver forms htlcForm hprep).2.1 _ rfl]
    exact .withholds quiet late
  | unable early quiet =>
    rw [(candidate_run row.key deliver forms htlcForm hprep).2.1 _ rfl]
    exact .unable quiet early
  | faults early quiet =>
    rw [(candidate_run row.key deliver forms htlcForm hprep).1 _ rfl]
    exact .faults quiet early
  | @claims reads run early quiet claimed =>
    obtain ⟨submits, byForm, result, db⟩ := claimed
    obtain ⟨onFault, -, onClaim, -⟩ := candidate_run row.key deliver forms htlcForm hprep
    have hsubmits : (reads ++ run.1).any submitsClaim = true := by
      rw [List.any_append, submits, Bool.or_true]
    have ungated : ∀ call ∈ reads ++ run.1, ∀ input, call.op ≠ .runHonorTxn input := by
      refine List.forall_mem_append.2 ⟨quiet.ungated, fun call hcall input hgate => ?_⟩
      have := byForm call hcall
      rw [hgate] at this
      cases this
    rcases result with ⟨e, he⟩ | ⟨claimTxId, hclaimed⟩
    · rw [onFault e he]
      exact .claims early hsubmits ungated nofun db
    · rw [onClaim claimTxId hclaimed]
      refine .claims early (by rw [List.any_append, hsubmits, Bool.true_or]) ?_ nofun db
      intro call hcall input
      rcases List.mem_append.1 hcall with h | h
      · exact ungated call h input
      · rw [List.mem_singleton.1 h]
        nofun

end

theorem honor_run_fault {e : Thrown} (fault : answer (.getSeen key) = .error e) :
    ∃ calls, Quiet calls ∧
      honorIn engine model answer key deliver opts world = (calls, .error e, world) := by
  have hseen : answering model answer world (.getSeen key) = (.error e, world) := by
    rw [answering, fault]
    rfl
  obtain ⟨sampling, quiet, sampled⟩ := now_run model answer world opts
  refine ⟨sampling ++ [⟨.getSeen key, .error e⟩], ?_, ?_⟩
  · exact quiet.append (List.forall_mem_singleton.2 rfl)
  · apply (run_bind_ok sampled).trans
    simp [Port.getSeen, Program.run, hseen]

theorem scored_lock (forms : engine.deps.forms = createFormRegistry (builtinForms reserver))
    {row : SeenRowSql} (htlcForm : row.form = .htlc) {candidate : SettlementCandidate}
    {formId : SettlementFormId}
    (honors : scored engine answer opts world row = .ok (.honor candidate formId)) :
    ∃ tip listed more htlc, answer .tipHeight = .ok tip ∧
      answer (.findSettlementsByQuoteId row.quoteId) = .ok (listed :: more) ∧
      answer (.getHtlc listed.outpoint) = .ok (some htlc) ∧
      candidate.outpoint = listed.outpoint := by
  obtain ⟨calls, returns, answered⟩ := returns_eval answer (scoreQuote engine.deps
    (quoteFromSeen (SqliteStore.rowFromSql row)) (opts.now.getD world.clock))
  rw [show Program.eval answer _ = _ from honors] at returns
  obtain ⟨tip, listed, more, htlc, rfl, -, rfl⟩ := scoreQuote_returns_htlc forms htlcForm returns
  simp only [List.forall_mem_cons] at answered
  obtain ⟨htip, hlisted, hread, -⟩ := answered
  exact ⟨tip, listed, more, htlc, htip.symm, hlisted.symm, hread.symm, rfl⟩

/-- Over the same database and at the same time all calls end alike before the form's `prepare`,
or go on with the same candidate. -/
theorem honor_ends (model : TxnModel) (key : HonorKey) (deliver : Deliver G) (opts : RegisterOpts)
    (forms : engine.deps.forms = createFormRegistry (builtinForms reserver)) {row : SeenRowSql}
    (found : world.db.seen.find? key = some row) (unhonored : row.honoredAt = none) :
    (∃ result, (∀ outpoint, result ≠ .ok (.honored outpoint)) ∧
      (∀ fresh : World G, fresh.db = world.db → fresh.clock = world.clock →
        ∃ calls, Quiet calls ∧
          honorIn engine model answer key deliver opts fresh = (calls, result, fresh)) ∧
      ((∃ e, result = .error e) ∨
        ∀ candidate formId, scored engine answer opts world row ≠ .ok (.honor candidate formId))) ∨
    ∃ candidate formId, scored engine answer opts world row = .ok (.honor candidate formId) ∧
      ∀ fresh : World G, fresh.db = world.db → fresh.clock = world.clock →
        ∃ calls, Quiet calls ∧ honorIn engine model answer key deliver opts fresh =
          (calls ++ (candidateIn engine model answer key deliver opts fresh row candidate).1,
            (candidateIn engine model answer key deliver opts fresh row candidate).2) := by
  cases reads : answer (.getSeen key) with
  | error e =>
    exact .inl ⟨.error e, nofun, fun fresh _ _ => honor_run_fault reads, .inl ⟨e, rfl⟩⟩
  | ok read =>
    have goes (fresh : World G) (sameDb : fresh.db = world.db) :=
      honor_run model deliver opts forms
        (show fresh.db.seen.find? key = some row by rw [sameDb, found]) unhonored reads
    have same (fresh : World G) (sameClock : fresh.clock = world.clock) :
        scored engine answer opts fresh row = scored engine answer opts world row := by
      rw [scored, scored, sameClock]
    cases hscored : scored engine answer opts world row with
    | error e =>
      refine .inl ⟨.error e, nofun, fun fresh sameDb sameClock => ?_, .inl ⟨e, rfl⟩⟩
      obtain ⟨calls, quiet, onFault, -, -⟩ := goes fresh sameDb
      exact ⟨calls, quiet, onFault e ((same fresh sameClock).trans hscored)⟩
    | ok verdict =>
      by_cases hdecision : verdict.decision = .honor
      · cases verdict with
        | honor candidate formId =>
          refine .inr ⟨candidate, formId, rfl, fun fresh sameDb sameClock => ?_⟩
          obtain ⟨calls, quiet, -, -, onHonor⟩ := goes fresh sameDb
          exact ⟨calls, quiet, onHonor candidate formId ((same fresh sameClock).trans hscored)⟩
        | wait => cases hdecision
        | decline => cases hdecision
      · refine .inl ⟨.ok (.notReady verdict), nofun, fun fresh sameDb sameClock => ?_, .inr ?_⟩
        · obtain ⟨calls, quiet, -, onVerdict, -⟩ := goes fresh sameDb
          exact ⟨calls, quiet,
            onVerdict verdict ((same fresh sameClock).trans hscored) hdecision⟩
        · rintro candidate formId h
          cases h
          exact hdecision rfl

/-- Two runs that cannot be told apart by their outcome, by the database they leave behind or by
the claims they submit. -/
structure SameRun (run run' : List (PortCall G) × Except Thrown HonorOutcome × World G) : Prop where
  outcome : run.2.1 = run'.2.1
  db : run.2.2.db = run'.2.2.db
  submitted : run.1.filter submitsClaim = run'.1.filter submitsClaim

def SameFault (run run' : List (PortCall G) × Except Thrown HonorOutcome × World G) : Prop :=
  ∃ e, run.2.1 = .error e ∧ run'.2.1 = .error e ∧ run'.1.filter submitsClaim = []

section
variable {config : HonorConfig} {tip : Int} {found : Except Thrown (Option TxInfo)}
  {rethrow : Bool} {outpoint lock : Outpoint} {htlc : OnChainHtlc}
  {run run' : List (PortCall G) × Except Thrown HonorOutcome × World G}

theorem settleTxn_ne_wait (reply : TxnReply) (reason : WaitReason) :
    settleTxn rethrow outpoint reply ≠ .ok (.notReady (.wait reason none)) := by
  unfold settleTxn
  repeat' split
  all_goals nofun

theorem settleTxn_error {reply : TxnReply} {e : Thrown}
    (h : settleTxn rethrow outpoint reply = .error e) : ∃ thrown, reply.result = .error thrown := by
  unfold settleTxn at h
  split at h
  next => cases h
  next thrown hresult => exact ⟨thrown, hresult⟩

theorem PriorEnds.after_reads {calls : List (PortCall G)} (quiet : Quiet calls)
    (ends : PriorEnds config tip found rethrow outpoint model answer world run) :
    PriorEnds config tip found rethrow outpoint model answer world (calls ++ run.1, run.2) := by
  cases ends with
  | faults quietly lookup => exact .faults (quiet.append quietly) lookup
  | withholds quietly lookup shallow => exact .withholds (quiet.append quietly) lookup shallow
  | gated quietly lookup buried =>
    rw [← List.append_assoc]
    exact .gated (quiet.append quietly) lookup buried

theorem UnclaimedEnds.after_reads {calls : List (PortCall G)} (quiet : Quiet calls)
    (ends : UnclaimedEnds config tip htlc key lock world run) :
    UnclaimedEnds config tip htlc key lock world (calls ++ run.1, run.2) := by
  cases ends with
  | withholds quietly late => exact .withholds (quiet.append quietly) late
  | unable quietly early => exact .unable (quiet.append quietly) early
  | faults quietly early => exact .faults (quiet.append quietly) early
  | claims early submits ungated unhonored db =>
    refine .claims early ?_ ?_ unhonored db
    · rw [List.any_append, submits, Bool.or_true]
    · exact List.forall_mem_append.2 ⟨quiet.ungated, ungated⟩

theorem PriorEnds.frame
    (ends : PriorEnds config tip found rethrow outpoint model answer world run) :
    run.1.filter submitsClaim = [] ∧ (∀ e, run.2.1 = .error e → run.2.2.db = world.db) ∧
      ∀ reason, run.2.1 = .ok (.notReady (.wait reason none)) → run.2.2.db = world.db := by
  cases ends with
  | faults quiet lookup => exact ⟨quiet.no_claim, fun _ _ => rfl, fun _ _ => rfl⟩
  | withholds quiet lookup shallow => exact ⟨quiet.no_claim, fun _ _ => rfl, fun _ _ => rfl⟩
  | gated quiet lookup buried =>
    refine ⟨by rw [List.filter_append, quiet.no_claim]; rfl, fun e he => ?_, fun reason hwait => ?_⟩
    · obtain ⟨thrown, hthrown⟩ := settleTxn_error he
      exact Store.perform_txn_error hthrown
    · exact absurd hwait (settleTxn_ne_wait _ _)

theorem PriorEnds.withholds_iff
    (ends : PriorEnds config tip found rethrow outpoint model answer world run)
    (reason : WaitReason) :
    run.2.1 = .ok (.notReady (.wait reason none)) ↔
      reason = .reorgWithheld ∧ ∃ claim, found = .ok claim ∧ ¬ Buried config tip claim := by
  cases ends with
  | faults quiet lookup => simp [lookup]
  | @withholds calls claim quiet lookup shallow =>
    constructor
    · rintro h
      cases h
      exact ⟨rfl, claim, lookup, shallow⟩
    · rintro ⟨rfl, -⟩
      rfl
  | @gated reads claim input quiet lookup buried =>
    apply iff_of_false (settleTxn_ne_wait _ _)
    rintro ⟨-, other, hother, shallow⟩
    obtain rfl := Except.ok.inj (lookup.symm.trans hother)
    exact shallow buried

theorem same_phases_iff {fresh : World G} (sameDb : fresh.db = world.db)
    (prior : PriorEnds config tip found rethrow outpoint model answer world run)
    (unclaimed : UnclaimedEnds config tip htlc key lock fresh run') :
    SameRun run run' ↔
      ((∃ claim, found = .ok claim ∧ ¬ Buried config tip claim) ∧
        htlc.timeoutHeight < tip + config.claimMargin) ∨ SameFault run run' := by
  obtain ⟨noClaim, onFault, onWait⟩ := prior.frame
  cases unclaimed with
  | withholds quiet late =>
    constructor
    · exact fun same => .inl ⟨((prior.withholds_iff .reorgWithheld).1 same.outcome).2, late⟩
    · rintro (⟨shallow, -⟩ | ⟨e, -, hfresh, -⟩)
      · have outcome := (prior.withholds_iff .reorgWithheld).2 ⟨rfl, shallow⟩
        exact ⟨outcome, (onWait _ outcome).trans sameDb.symm, noClaim.trans quiet.no_claim.symm⟩
      · cases hfresh
  | unable quiet early =>
    refine iff_of_false (fun same => ?_) ?_
    · exact absurd ((prior.withholds_iff .noCandidate).1 same.outcome).1 nofun
    · rintro (⟨-, late⟩ | ⟨e, -, hfresh, -⟩)
      · omega
      · cases hfresh
  | @faults calls e quiet early =>
    constructor
    · exact fun same => .inr ⟨e, same.outcome, rfl, quiet.no_claim⟩
    · rintro (⟨-, late⟩ | ⟨thrown, hthrown, hfresh, -⟩)
      · omega
      · exact ⟨hthrown.trans hfresh.symm, (onFault _ hthrown).trans sameDb.symm,
          noClaim.trans quiet.no_claim.symm⟩
  | claims early submits ungated unhonored db =>
    obtain ⟨call, hcall, hsubmit⟩ := List.any_eq_true.1 submits
    have claimed {calls} (h : List.filter submitsClaim calls = []) : call ∉ calls :=
      fun hmem => List.filter_eq_nil_iff.1 h call hmem hsubmit
    apply iff_of_false (fun same => claimed (same.submitted.symm.trans noClaim) hcall)
    rintro (⟨-, late⟩ | ⟨e, -, -, noneSubmitted⟩)
    · omega
    · exact claimed noneSubmitted hcall

end

/-- The call takes no notice of a claim that is buried: it delivers nothing, and all it can leave
behind is a reservation. -/
structure StartsAnew (key : HonorKey) (db : Db G)
    (run : List (PortCall G) × Except Thrown HonorOutcome × World G) : Prop where
  ungated : ∀ call ∈ run.1, ∀ input, call.op ≠ .runHonorTxn input
  unhonored : ∀ outpoint, run.2.1 ≠ .ok (.honored outpoint)
  after : run.2.2.db = db ∨ ∃ lock claimTxId, run.2.2.db =
    { db with consumed := reserveClaim db.consumed key lock claimTxId }

theorem UnclaimedEnds.startsAnew {config : HonorConfig} {tip : Int} {htlc : OnChainHtlc}
    {lock : Outpoint} {run : List (PortCall G) × Except Thrown HonorOutcome × World G}
    (ends : UnclaimedEnds config tip htlc key lock world run) : StartsAnew key world.db run := by
  cases ends with
  | withholds quiet late => exact ⟨quiet.ungated, nofun, .inl rfl⟩
  | unable quiet early => exact ⟨quiet.ungated, nofun, .inl rfl⟩
  | faults quiet early => exact ⟨quiet.ungated, nofun, .inl rfl⟩
  | claims early submits ungated unhonored db =>
    exact ⟨ungated, unhonored, db.imp_right fun h => ⟨lock, h⟩⟩

end

/-- Phase B finds the claim on record short of its depth, and Phase A finds the lock that the
chain lists first too close to its timeout. -/
def BothWithhold (answer : (op : Op G) → op.Reply) (config : HonorConfig) (quoteId : QuoteId)
    (record : ClaimRecord) : Prop :=
  ∃ tip listed more htlc claim, answer .tipHeight = .ok tip ∧
    answer (.findSettlementsByQuoteId quoteId) = .ok (listed :: more) ∧
    answer (.getHtlc listed.outpoint) = .ok (some htlc) ∧
    answer (.getTransaction record.claimTxId) = .ok claim ∧ ¬ Buried config tip claim ∧
    htlc.timeoutHeight < tip + config.claimMargin

/-- A process started over the same database answers like the one that submitted the claim just
where scoring ends the call, where both phases withhold or where both throw alike; whatever the
chain says of the claim, it starts over. -/
theorem restart_same_iff (engine : HonorEngine G) (reserver : Bool)
    (forms : engine.deps.forms = createFormRegistry (builtinForms reserver)) (model : TxnModel)
    (answer : (op : Op G) → op.Reply) (key : HonorKey) (deliver : Deliver G) (opts : RegisterOpts)
    (world : World G) (row : SeenRowSql) (record : ClaimRecord)
    (found : world.db.seen.find? key = some row) (unhonored : row.honoredAt = none)
    (htlcForm : row.form = .htlc) (recorded : world.claims (rowKey key) = some record) :
    (SameRun (honorIn engine model answer key deliver opts world)
        (honorIn engine model answer key deliver opts (.booted world.db world.clock)) ↔
      (∀ candidate formId, scored engine answer opts world row ≠ .ok (.honor candidate formId)) ∨
      BothWithhold answer engine.deps.config row.quoteId record ∨
      SameFault (honorIn engine model answer key deliver opts world)
        (honorIn engine model answer key deliver opts (.booted world.db world.clock))) ∧
    StartsAnew key world.db
      (honorIn engine model answer key deliver opts (.booted world.db world.clock)) := by
  have own : row.key = key := Relational.Table.find?_key found
  rcases honor_ends model key deliver opts forms found unhonored with
    ⟨result, notHonored, ends, why⟩ | ⟨candidate, formId, honors, goes⟩
  · obtain ⟨calls, quiet, hold⟩ := ends world rfl rfl
    obtain ⟨calls', quiet', hfresh⟩ := ends (.booted world.db world.clock) rfl rfl
    rw [hold, hfresh]
    refine ⟨iff_of_true ⟨rfl, rfl, quiet.no_claim.trans quiet'.no_claim.symm⟩ ?_,
      quiet'.ungated, notHonored, .inl rfl⟩
    rcases why with ⟨e, rfl⟩ | unscored
    · exact .inr (.inr ⟨e, rfl, rfl, quiet'.no_claim⟩)
    · exact .inl unscored
  · obtain ⟨tip, listed, more, htlc, htip, hlisted, hread, houtpoint⟩ :=
      scored_lock forms htlcForm honors
    obtain ⟨calls, quiet, hold⟩ := goes world rfl rfl
    obtain ⟨calls', quiet', hfresh⟩ := goes (.booted world.db world.clock) rfl rfl
    have sameDb : (World.booted world.db world.clock).db = world.db := rfl
    have unclaimed : (World.booted world.db world.clock).claims (rowKey key) = none := rfl
    have prior := (candidate_run_prior model deliver opts candidate forms htlcForm own htip
      recorded).after_reads quiet
    have anew := (candidate_run_unclaimed model deliver opts forms htlcForm own htip unclaimed
      (houtpoint ▸ hread)).after_reads quiet'
    rw [← hold] at prior
    rw [← hfresh] at anew
    refine ⟨(same_phases_iff sameDb prior anew).trans ?_, anew.startsAnew⟩
    constructor
    · rintro (⟨⟨claim, hclaim, shallow⟩, late⟩ | fault)
      · exact .inr (.inl ⟨tip, listed, more, htlc, claim, htip, hlisted, hread, hclaim, shallow,
          late⟩)
      · exact .inr (.inr fault)
    · rintro (unscored | ⟨tip', listed', more', htlc', claim, htip', hlisted', hread', hclaim,
        shallow, late⟩ | fault)
      · exact absurd honors (unscored candidate formId)
      · obtain rfl := Except.ok.inj (htip.symm.trans htip')
        obtain ⟨rfl, -⟩ := List.cons.inj (Except.ok.inj (hlisted.symm.trans hlisted'))
        obtain rfl := Option.some.inj (Except.ok.inj (hread.symm.trans hread'))
        exact .inl ⟨⟨claim, hclaim, shallow⟩, late⟩
      · exact .inr fault

/-! The claim of `htlcQuote` has gone out, and is buried 31 deep when the next call looks. -/

def claimedWorld : World Unit := (claimRun 20 .locked).2.2

def buriedPorts : TotalPorts :=
  samplePorts 100 [HtlcForm.ownCandidate] (some HtlcForm.ownLock) (some 70)

def honorAgain (world : World Unit) :
    List (PortCall Unit) × Except Thrown HonorOutcome × World Unit :=
  honorIn sampleEngine .sync buriedPorts.answer htlcQuote.key (fun _ => .pure .value) {} world

theorem restart_claims_again :
    claimedWorld.claims (rowKey htlcQuote.key) = some ⟨"c0", ⟨"01", 0⟩⟩ ∧
    (∃ row, claimedWorld.db.consumed.find? ⟨"01", 0⟩ = some row ∧ row.state = .claimPending ∧
      row.key = htlcQuote.key ∧ row.claimTxId = some "c0") ∧
    (honorAgain claimedWorld).2.1 = .ok (.honored ⟨"01", 0⟩) ∧
    (honorAgain (.booted claimedWorld.db claimedWorld.clock)).2.1 =
      .ok (.notReady (.wait .htlcClaimPending none)) ∧
    ((honorAgain (.booted claimedWorld.db claimedWorld.clock)).1.any submitsClaim) = true ∧
    ¬ SameRun (honorAgain claimedWorld)
      (honorAgain (.booted claimedWorld.db claimedWorld.clock)) := by
  have honored : (honorAgain claimedWorld).2.1 = .ok (.honored ⟨"01", 0⟩) := rfl
  have pending : (honorAgain (.booted claimedWorld.db claimedWorld.clock)).2.1 =
      .ok (.notReady (.wait .htlcClaimPending none)) := rfl
  refine ⟨rfl, ⟨_, rfl, rfl, rfl, rfl⟩, honored, pending, rfl, fun same => ?_⟩
  have outcome := same.outcome
  rw [honored, pending] at outcome
  cases outcome

theorem restart_same_iff_buried :
    StartsAnew htlcQuote.key claimedWorld.db
      (honorAgain (.booted claimedWorld.db claimedWorld.clock)) :=
  (restart_same_iff sampleEngine true rfl .sync buriedPorts.answer htlcQuote.key _ {} claimedWorld
    _ _ rfl rfl rfl rfl).2

end HonorEngine
end ExferHonor
