import ExferHonor.Core.HtlcRuns

/-! What a plain honor has read when it reaches the gate. -/
namespace ExferHonor
open Effects Program

variable {G : Type}

def OutputDatum.Names (datum : OutputDatum) (quoteId : QuoteId) : Prop :=
  datum.honorable = true ∧ ∃ quoteIdHex, datum.quoteIdHex = some quoteIdHex ∧
    decodeSettlementDatum quoteIdHex settlementDatumVersion = .ok quoteId

theorem OutputDatum.Names.unique {datum : OutputDatum} {quoteId other : QuoteId}
    (names : datum.Names quoteId) (again : datum.Names other) : quoteId = other := by
  obtain ⟨-, quoteIdHex, carried, decoded⟩ := names
  obtain ⟨-, _, hcarried, hdecoded⟩ := again
  cases carried.symm.trans hcarried
  exact Except.ok.inj (decoded.symm.trans hdecoded)

def SpineResult.Plain (ctx : ScoringCtx) (raw : RawSettlementCandidate) : SpineResult → Prop
  | .ok candidate => candidate = settlementCandidate ctx raw .plain
  | .verdict decided => decided.decision ≠ .honor
  | .skip => True

theorem runCustodySpine_plain (ctx : ScoringCtx) (raw : RawSettlementCandidate) :
    Yields (SpineResult.Plain ctx raw) (runCustodySpine (G := G) ctx raw .plain) := by
  refine Yields.bind fun controls => Yields.ite (.pure ?_) (Yields.bind fun payerFail => ?_)
  · exact nofun
  · cases payerFail with
    | none => exact .pure rfl
    | some detail =>
      exact .pure (by simp [SpineResult.Plain, SpineResult.decline, HonorVerdict.decision])

theorem runBindingSpine_plain (ctx : ScoringCtx) (raw : RawSettlementCandidate) :
    Yields (SpineResult.Plain ctx raw) (runBindingSpine (G := G) ctx raw .plain) := by
  refine Yields.bind fun datum => ?_
  split
  · split
    · exact .pure (by simp [SpineResult.Plain, SpineResult.decline, HonorVerdict.decision])
    · exact Yields.ite (.pure trivial) (Yields.ite (.pure nofun) (Yields.ite (.pure nofun)
        (runCustodySpine_plain ctx raw)))
  · exact .pure (by simp [SpineResult.Plain, SpineResult.decline, HonorVerdict.decision])

theorem runBindingSpine_reads {ctx : ScoringCtx} {raw : RawSettlementCandidate}
    {calls : List (PortCall G)} {candidate : SettlementCandidate}
    (returns : (runBindingSpine ctx raw .plain).Returns calls (.ok (.ok candidate))) :
    ∃ datum, ⟨.getOutputDatum raw.outpoint, .ok datum⟩ ∈ calls ∧
      datum.Names ctx.quote.quoteId := by
  obtain ⟨_, datum, later, rfl, rfl, binding⟩ := Returns.of_ask_bind returns
  refine ⟨datum, List.mem_cons_self .., ?_⟩
  split at binding
  next quoteIdHex honorable carried =>
    split at binding
    next =>
      cases ((returns_pure_iff _).1 binding).2
    next quoteId decoded =>
      split at binding
      next => cases ((returns_pure_iff _).1 binding).2
      next own => exact ⟨honorable, quoteIdHex, carried, not_not.1 own ▸ decoded⟩
  next => cases ((returns_pure_iff _).1 binding).2

namespace PlainOutputForm

theorem depthGate_honor {ctx : ScoringCtx} {candidate honored : SettlementCandidate}
    {formId : SettlementFormId} (deep : depthGate ctx candidate = .honor honored formId) :
    honored = candidate := by
  unfold depthGate at deep
  split at deep
  · contradiction
  · dsimp only at deep
    split at deep
    · contradiction
    · cases deep
      rfl

theorem scoreLoop_reads {ctx : ScoringCtx} {raw : List RawSettlementCandidate}
    {lastDecline : Option HonorVerdict} {sawSkippedOnly : Bool} {calls : List (PortCall G)}
    {candidate : SettlementCandidate} {formId : SettlementFormId}
    (unhonored : ∀ verdict ∈ lastDecline, verdict.decision ≠ .honor)
    (returns : (scoreLoop ctx raw lastDecline sawSkippedOnly).Returns calls
      (.ok (.honor candidate formId))) :
    ∃ datum, ⟨.getOutputDatum candidate.outpoint, .ok datum⟩ ∈ calls ∧
      datum.Names ctx.quote.quoteId := by
  induction raw generalizing lastDecline sawSkippedOnly calls with
  | nil =>
    cases lastDecline with
    | none =>
      obtain ⟨-, h⟩ := (returns_pure_iff _).1 returns
      cases h
    | some verdict =>
      obtain ⟨-, h⟩ := (returns_pure_iff _).1 returns
      exact absurd rfl (Except.ok.inj h ▸ unhonored verdict rfl)
  | cons c raw ih =>
    have further {last : Option HonorVerdict} {only : Bool} {own later : List (PortCall G)}
        (unhonored : ∀ verdict ∈ last, verdict.decision ≠ .honor)
        (scoring : (scoreLoop ctx raw last only).Returns later (.ok (.honor candidate formId))) :
        ∃ datum, ⟨.getOutputDatum candidate.outpoint, .ok datum⟩ ∈ own ++ later ∧
          datum.Names ctx.quote.quoteId := by
      obtain ⟨datum, read, names⟩ := ih unhonored scoring
      exact ⟨datum, List.mem_append_right _ read, names⟩
    obtain ⟨own, spine, later, rfl, bound, scoring⟩ := Returns.ok_of_bind returns
    have plain := (runBindingSpine_plain ctx c).returns bound
    cases spine with
    | skip => exact further unhonored scoring
    | verdict verdict => exact further (by simpa [SpineResult.Plain] using plain) scoring
    | ok binding =>
      obtain ⟨datum, read, names⟩ := runBindingSpine_reads bound
      obtain rfl : binding = settlementCandidate ctx c .plain := plain
      dsimp only at scoring
      split at scoring
      next honored form deep =>
        obtain ⟨-, h⟩ := (returns_pure_iff _).1 scoring
        cases h
        rw [depthGate_honor deep]
        exact ⟨datum, List.mem_append_left _ read, names⟩
      next shallow =>
        refine further (fun verdict hverdict => ?_) scoring
        cases hverdict
        cases hgate : depthGate ctx (settlementCandidate ctx c .plain) with
        | honor honored form => exact absurd hgate (shallow honored form)
        | wait reason detail => simp [HonorVerdict.decision]
        | decline reason detail => simp [HonorVerdict.decision]

end PlainOutputForm

theorem scoreQuote_reads {deps : HonorDeps G} {reserver : Bool}
    (forms : deps.forms = createFormRegistry (builtinForms reserver)) {quote : AcceptedQuote}
    (plain : quote.form = .plain) {now : Int} {calls : List (PortCall G)}
    {candidate : SettlementCandidate} {formId : SettlementFormId}
    (returns : (scoreQuote deps quote now).Returns calls (.ok (.honor candidate formId))) :
    ∃ datum, ⟨.getOutputDatum candidate.outpoint, .ok datum⟩ ∈ calls ∧
      datum.Names quote.quoteId := by
  unfold scoreQuote at returns
  rw [forms, plain] at returns
  obtain ⟨_, tip, _, rfl, rfl, discovering⟩ := Returns.of_ask_bind returns
  obtain ⟨_, raw, scored, rfl, rfl, scoring⟩ := discovering.of_ask_bind
  change (PlainOutputForm.score _ raw).Returns scored _ at scoring
  unfold PlainOutputForm.score at scoring
  split at scoring
  · cases ((returns_pure_iff _).1 scoring).2
  · obtain ⟨datum, read, names⟩ := PlainOutputForm.scoreLoop_reads (by simp) scoring
    exact ⟨datum, List.mem_cons_of_mem _ (List.mem_cons_of_mem _ read), names⟩

namespace HonorEngine

theorem plain_gate_reads {engine : HonorEngine G} {reserver : Bool} {key : HonorKey}
    {deliver : Deliver G} {opts : RegisterOpts} {past : List (PortCall G)}
    {input : HonorTxnInput G}
    (forms : engine.deps.forms = createFormRegistry (builtinForms reserver))
    (reached : GateReached engine key deliver opts past input)
    (plain : ∀ seen, ⟨.getSeen key, .ok (some seen)⟩ ∈ past → seen.form = .plain) :
    input.key = key ∧ input.mode = .single ∧ ∃ seen datum,
      ⟨.getSeen key, .ok (some seen)⟩ ∈ past ∧ input.retainUntil = seen.retainUntil ∧
      ⟨.getOutputDatum input.outpoint, .ok datum⟩ ∈ past ∧ datum.Names seen.quoteId := by
  cases reached with
  | @mk now sampling seen scoring candidate formId form preparing sampled unhonored scored
      registered prepared =>
    have hplain : seen.form = .plain := plain seen (by simp)
    obtain ⟨datum, read, names⟩ := scoreQuote_reads forms hplain scored
    rw [forms, hplain] at registered
    cases registered
    refine ⟨rfl, rfl, seen, datum, by simp, rfl, ?_, names⟩
    exact List.mem_append_right _ (List.mem_cons_of_mem _ (List.mem_append_left _ read))

end HonorEngine
end ExferHonor
