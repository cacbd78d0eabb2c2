import ExferHonor.Core.ExactlyOnce
import ExferHonor.Core.HtlcRuns
import ExferHonor.Forms.PlainVerdict

/-! `canHonor` against an `honor` right after it. They share step 0 and the scoring; the window
and the consumed outpoints are the gate's own, and `canHonor` does not read them. -/
namespace ExferHonor
namespace HonorEngine
open Effects Program Store Statements

variable {G : Type} {engine : HonorEngine G} {reserver : Bool} {ports : TotalPorts}
  {world : World G} {key : HonorKey} {row : SeenRowSql}

def Completes (deliver : Deliver G) (goods : G) : Prop :=
  ∀ ctx, ((deliver ctx).run SqliteStore.exec goods).2.1 = .ok .value

/-- What an `honor` of a candidate ends with, by the two facts only the gate reads: the row's
window and the consumed outpoints. -/
def gateOutcome (db : Db G) (now : Int) (row : SeenRowSql) (outpoint : Outpoint) : HonorOutcome :=
  if Lockable now row then
    if db.consumed.find? outpoint = none then .honored outpoint
    else .notReady (.decline .outpointConsumed none)
  else .notReady (.decline .expiredUnobserved none)

theorem perform_query {op : Op G} (query : op.isQuery = true) (world : World G) :
    world.perform .sync op (ports.answer op) = (ports.answer op, world) := by
  cases op <;> first | rfl | contradiction

theorem scoreQuote_eval (forms : engine.deps.forms = createFormRegistry (builtinForms reserver))
    {quote : AcceptedQuote} (plain : quote.form = .plain) (now : Int) :
    ∃ verdict, (scoreQuote engine.deps quote now).eval ports.answer = .ok verdict := by
  rw [scoreQuote, forms, plain]
  let ctx := scoringCtx engine.deps quote ports.tip now
  change ∃ verdict, (PlainOutputForm.score (G := G) ctx (ports.settlements quote.quoteId)).eval
    ports.answer = .ok verdict
  by_cases paid : ∃ c ∈ ports.settlements quote.quoteId, PlainOutputForm.Payable ports ctx c
  · obtain ⟨c, listed, payable⟩ := paid
    obtain ⟨first, hfirst⟩ := PlainOutputForm.exists_firstPayable listed payable
    exact ⟨_, PlainOutputForm.score_firstPayable hfirst⟩
  · obtain ⟨verdict, scored, -⟩ := PlainOutputForm.score_unpaid (G := G)
      fun c listed payable => paid ⟨c, listed, payable⟩
    exact ⟨verdict, scored⟩

theorem runAlone_bind_query {α β : Type} {program : Async G α} (next : α → Async G β)
    (queries : Uses (·.isQuery) program) {value : α}
    (evals : program.eval ports.answer = .ok value) :
    (runAlone .sync ports world (program.bind next)).2 =
      (runAlone .sync ports world (next value)).2 := by
  have first : program.run
      (fun world op => World.perform .sync world op (ports.answer op)) world = _ :=
    queries.run_eq (fun op query world => perform_query query world) world
  rw [evals] at first
  unfold runAlone
  rw [run_bind_ok first]

theorem runAlone_read {α : Type} (found : world.db.seen.find? key = some row)
    (next : Option SeenRow → Async G α) :
    (runAlone .sync ports world ((Port.getSeen key).bind next)).2 =
      (runAlone .sync ports world (next (some (SqliteStore.rowFromSql row)))).2 := by
  change (runAlone .sync ports world
    (next ((world.db.seen.find? key).map SqliteStore.rowFromSql))).2 = _
  rw [found, Option.map_some]

theorem gateStep0_honored {seen : SeenRow} (honored : seen.honoredAt ≠ none) :
    gateStep0 (some seen) = .error (.decline .alreadyHonored none) := if_pos honored

theorem gateStep0_unhonored {seen : SeenRow} (unhonored : seen.honoredAt = none) :
    gateStep0 (some seen) = .ok seen := if_neg (not_not.2 unhonored)

theorem runGate_settles (deliver : Deliver G) (rethrow : Bool) (seen : SeenRow) (now : Int)
    (candidate : SettlementCandidate) (mode : GateMode) :
    (runAlone .sync ports world (runGate key deliver rethrow seen now candidate mode)).2.1 =
      settleTxn rethrow candidate.outpoint
        (SqliteStore.runHonorTxn world.db (txnInput key deliver seen now candidate mode)).1 := by
  change ((Program.ofExcept (settleTxn rethrow candidate.outpoint (SqliteStore.runHonorTxn world.db
    (txnInput key deliver seen now candidate mode)).1)).run _ _).2.1 = _
  rw [run_ofExcept]

section
variable (ports) (found : world.db.seen.find? key = some row)
include found

theorem canHonor_honored (honored : row.honoredAt ≠ none) :
    (runAlone .sync ports world (engine.canHonor key)).2 =
      (.ok (.decline .alreadyHonored none), world) := by
  refine (runAlone_read found _).trans ?_
  rw [gateStep0_honored (show (SqliteStore.rowFromSql row).honoredAt ≠ none from honored)]
  rfl

theorem honor_honored (honored : row.honoredAt ≠ none) (deliver : Deliver G)
    {opts : RegisterOpts} (clocked : opts.now = none) :
    (runAlone .sync ports world (engine.honor key deliver opts)).2 =
      (.ok (.notReady (.decline .alreadyHonored none)), world) := by
  unfold honor
  rw [clocked]
  refine (runAlone_read found _).trans ?_
  rw [gateStep0_honored (show (SqliteStore.rowFromSql row).honoredAt ≠ none from honored)]
  rfl

variable (forms : engine.deps.forms = createFormRegistry (builtinForms reserver))
  (unhonored : row.honoredAt = none)
include forms unhonored

theorem canHonor_unhonored (plain : row.form = .plain) :
    ∃ verdict, (scoreQuote engine.deps (quoteFromSeen (SqliteStore.rowFromSql row))
        world.clock).eval ports.answer = .ok verdict ∧
      (runAlone .sync ports world (engine.canHonor key)).2 = (.ok verdict, world) := by
  obtain ⟨verdict, scored⟩ : ∃ verdict, (scoreQuote engine.deps
      (quoteFromSeen (SqliteStore.rowFromSql row)) world.clock).eval ports.answer = .ok verdict :=
    scoreQuote_eval forms plain world.clock
  refine ⟨verdict, scored, (runAlone_read found _).trans ?_⟩
  rw [gateStep0_unhonored (show (SqliteStore.rowFromSql row).honoredAt = none from unhonored)]
  have alone : (runAlone .sync ports world (Program.bind _ .pure)).2 = _ :=
    runAlone_bind_query .pure (scoreQuote_queries forms
      (quoteFromSeen (SqliteStore.rowFromSql row)) world.clock) scored
  rw [bind_pure] at alone
  exact alone

theorem honor_declined {verdict : HonorVerdict}
    (scored : (scoreQuote engine.deps (quoteFromSeen (SqliteStore.rowFromSql row))
      world.clock).eval ports.answer = .ok verdict) (refused : verdict.decision ≠ .honor)
    (deliver : Deliver G) {opts : RegisterOpts} (clocked : opts.now = none) :
    (runAlone .sync ports world (engine.honor key deliver opts)).2 =
      (.ok (.notReady verdict), world) := by
  unfold honor
  rw [clocked]
  refine (runAlone_read found _).trans ?_
  rw [gateStep0_unhonored (show (SqliteStore.rowFromSql row).honoredAt = none from unhonored)]
  refine (runAlone_bind_query _ (scoreQuote_queries forms _ _) scored).trans ?_
  cases verdict with
  | honor candidate formId => exact absurd rfl refused
  | wait reason detail => rfl
  | decline reason detail => rfl

theorem honor_gated (plain : row.form = .plain) {candidate : SettlementCandidate}
    {formId : SettlementFormId}
    (scored : (scoreQuote engine.deps (quoteFromSeen (SqliteStore.rowFromSql row))
      world.clock).eval ports.answer = .ok (.honor candidate formId)) (deliver : Deliver G)
    {opts : RegisterOpts} (clocked : opts.now = none) :
    (runAlone .sync ports world (engine.honor key deliver opts)).2.1 =
      settleTxn opts.rethrowDeliveryErrors candidate.outpoint
        (SqliteStore.runHonorTxn world.db (txnInput key deliver (SqliteStore.rowFromSql row)
          world.clock candidate .single)).1 := by
  have prepared : (runAlone .sync ports world (engine.honorCandidate key deliver
      opts.rethrowDeliveryErrors (SqliteStore.rowFromSql row) world.clock candidate)).2 =
      (runAlone .sync ports world (runGate key deliver opts.rethrowDeliveryErrors
        (SqliteStore.rowFromSql row) world.clock candidate .single)).2 := by
    unfold honorCandidate
    dsimp only
    rw [forms, show (quoteFromSeen (SqliteStore.rowFromSql row)).form = .plain from plain]
    rfl
  have reached : (runAlone .sync ports world (engine.honor key deliver opts)).2 =
      (runAlone .sync ports world (runGate key deliver opts.rethrowDeliveryErrors
        (SqliteStore.rowFromSql row) world.clock candidate .single)).2 := by
    unfold honor
    rw [clocked]
    refine (runAlone_read found _).trans ?_
    rw [gateStep0_unhonored (show (SqliteStore.rowFromSql row).honoredAt = none from unhonored)]
    exact (runAlone_bind_query _ (scoreQuote_queries forms _ _) scored).trans prepared
  rw [reached, runGate_settles]

end

theorem settleTxn_gate {input : HonorTxnInput G} (rethrow : Bool)
    (found : world.db.seen.find? input.key = some row) (unhonored : row.honoredAt = none)
    (single : input.mode = .single) (completes : Completes input.deliver world.db.goods) :
    settleTxn rethrow input.outpoint (SqliteStore.runHonorTxn world.db input).1 =
      .ok (gateOutcome world.db input.now row input.outpoint) := by
  unfold SqliteStore.runHonorTxn gateOutcome
  by_cases lockable : Lockable input.now row
  · rw [if_pos lockable]
    by_cases free : world.db.consumed.find? input.outpoint = none
    · obtain ⟨gated, passed⟩ := gateWrites_passes SqliteStore.driver found lockable single free
      have ended := completes input.ctx
      rw [← (gateWrites_ok passed).2.2] at ended
      rw [if_pos free, passed]
      dsimp only
      rw [ended]
      rfl
    · rw [if_neg free, gateWrites_taken SqliteStore.driver found lockable single free (by decide)]
      rfl
  · rw [if_neg lockable, gateWrites_closed SqliteStore.driver found unhonored lockable]
    rfl

/-- `canHonor`, then `honor` with nothing in between, on a plain quote. What `canHonor` refuses
`honor` refuses the same way; what it would honor is the gate's to decide. -/
theorem canHonor_agrees (engine : HonorEngine G) (reserver : Bool)
    (forms : engine.deps.forms = createFormRegistry (builtinForms reserver)) (ports : TotalPorts)
    (world : World G) (key : HonorKey) (row : SeenRowSql)
    (registered : world.db.seen.find? key = some row) (plain : row.form = .plain)
    (deliver : Deliver G) (completes : Completes deliver world.db.goods) (opts : RegisterOpts)
    (clocked : opts.now = none) :
    ∃ verdict outcome,
      (runAlone .sync ports world (engine.canHonor key)).2 = (.ok verdict, world) ∧
      (runAlone .sync ports world (engine.honor key deliver opts)).2.1 = .ok outcome ∧
      (verdict.decision ≠ .honor → outcome = .notReady verdict) ∧
      ∀ candidate formId, verdict = .honor candidate formId →
        outcome = gateOutcome world.db world.clock row candidate.outpoint := by
  by_cases unhonored : row.honoredAt = none
  · obtain ⟨verdict, scored, checked⟩ :=
      canHonor_unhonored ports registered forms unhonored plain
    by_cases refused : verdict.decision = .honor
    · cases verdict with
      | honor candidate formId =>
        have gated := honor_gated ports registered forms unhonored plain scored deliver clocked
        rw [show candidate.outpoint = (txnInput key deliver (SqliteStore.rowFromSql row)
          world.clock candidate .single).outpoint from rfl,
          settleTxn_gate _ registered unhonored rfl completes] at gated
        refine ⟨_, _, checked, gated, fun h => absurd refused h, ?_⟩
        rintro _ _ ⟨⟩
        rfl
      | wait reason detail => cases refused
      | decline reason detail => cases refused
    · refine ⟨verdict, _, checked, congrArg Prod.fst (honor_declined ports registered forms
        unhonored scored refused deliver clocked), fun _ => rfl, ?_⟩
      rintro candidate formId rfl
      exact absurd rfl refused
  · exact ⟨_, _, canHonor_honored ports registered unhonored, congrArg Prod.fst
      (honor_honored ports registered unhonored deliver clocked), fun _ => rfl, by simp⟩

/-! `sampleQuote`, paid, and registered but never observed before its expiry at 1000. -/

def lapsedPool : EnginePool Unit :=
  samplePool (.start (.register sampleQuote {}) :: turns 0 3 ++
    [.shift fun world => { world with clock := 1500 }])

theorem canHonor_honors_lapsed :
    Reachable sampleSystem (.booted (.empty ()) 20) lapsedPool ∧
    (∃ candidate, (runAlone .sync paidPorts lapsedPool.shared
      (sampleEngine.canHonor sampleQuote.key)).2.1 = .ok (.honor candidate .plain)) ∧
    (runAlone .sync paidPorts lapsedPool.shared
      (sampleEngine.honor sampleQuote.key sampleTxn.deliver {})).2.1 =
        .ok (.notReady (.decline .expiredUnobserved none)) := by
  refine ⟨Pool.play_reachable ?_, ⟨_, rfl⟩, rfl⟩
  exact ⟨fun _ => rfl, Pool.allowed_advances 3 ⟨⟨by decide +kernel, rfl⟩, trivial⟩⟩

theorem canHonor_agrees_fresh :
    ∃ verdict outcome,
      (runAlone .sync paidPorts (.booted (registeredDb .sync) 20)
        (sampleEngine.canHonor sampleQuote.key)).2 =
          (.ok verdict, .booted (registeredDb .sync) 20) ∧
      (runAlone .sync paidPorts (.booted (registeredDb .sync) 20)
        (sampleEngine.honor sampleQuote.key sampleTxn.deliver {})).2.1 = .ok outcome ∧
      (verdict.decision ≠ .honor → outcome = .notReady verdict) ∧
      ∀ candidate formId, verdict = .honor candidate formId →
        outcome = gateOutcome (registeredDb .sync) 20 sampleRow
          candidate.outpoint :=
  canHonor_agrees sampleEngine true rfl paidPorts (.booted (registeredDb .sync) 20)
    sampleQuote.key _ rfl rfl sampleTxn.deliver (fun _ => rfl) {} rfl

end HonorEngine
end ExferHonor
