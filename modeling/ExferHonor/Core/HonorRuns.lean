import ExferHonor.Core.Engine

/-! What an `honor` call has done when it reaches the gate transaction, and what it can call at
all. Everything here is about one call, whatever its ports reply. -/
namespace ExferHonor
open Effects Program

variable {G : Type}

theorem scoreQuote_uses (deps : HonorDeps G) (quote : AcceptedQuote) (now : Int) :
    Uses (·.byForm) (scoreQuote deps quote now) := by
  apply Uses.bind (Uses.ofExcept _)
  intro form
  refine Uses.bind (Uses.ask rfl) fun tip => ?_
  exact Uses.bind (form.discover_uses _) fun raw => form.score_uses _ raw

namespace HonorEngine
variable (engine : HonorEngine G)

theorem now_uses (opt : Option Int) : Uses (· = .clockNow) (now (G := G) opt) := by
  cases opt with
  | none => exact Uses.ask rfl
  | some now => trivial

theorem prepare_uses (form : SettlementForm G) (quote : AcceptedQuote) (now : Int)
    (candidate : SettlementCandidate) :
    Uses (·.byForm) (engine.prepare form quote now candidate) := by
  unfold prepare
  split
  next => trivial
  next program hprepare =>
    exact Uses.bind (Uses.ask rfl) fun tip => form.prepare_uses program hprepare _ _

/-- The calls of an `honor` before its gate transaction, and the input it passes there. -/
inductive GateReached (key : HonorKey) (deliver : Deliver G) (opts : RegisterOpts) :
    List (PortCall G) → HonorTxnInput G → Prop
  | mk {now sampling seen scoring candidate formId form preparing}
      (sampled : (HonorEngine.now opts.now).Returns sampling (.ok now))
      (unhonored : seen.honoredAt = none)
      (scored : (scoreQuote engine.deps (quoteFromSeen seen) now).Returns scoring
        (.ok (.honor candidate formId)))
      (registered : engine.deps.forms.get seen.form = .ok form)
      (prepared : (engine.prepare form (quoteFromSeen seen) now candidate).Returns preparing
        (.ok .ready)) :
      GateReached key deliver opts
        (sampling ++ ⟨.getSeen key, .ok (some seen)⟩ :: (scoring ++ preparing))
        (txnInput key deliver seen now candidate form.gateMode)

variable {engine}

theorem gateStep0_ok {row : Option SeenRow} {seen : SeenRow} (h : gateStep0 row = .ok seen) :
    row = some seen ∧ seen.honoredAt = none := by
  unfold gateStep0 at h
  split at h
  · contradiction
  · split at h
    · contradiction
    next hunhonored =>
      cases h
      exact ⟨rfl, not_not.1 hunhonored⟩

theorem honor_runs_candidate {key : HonorKey} {deliver : Deliver G} {opts : RegisterOpts}
    {past : List (PortCall G)} {op : Op G} {resume : op.Reply → Async G HonorOutcome}
    {allowed : Op G → Prop}
    (run : (engine.honor key deliver opts).Runs past (.call op resume))
    (scores : ∀ quote now, Uses allowed (scoreQuote engine.deps quote now))
    (notScore : ¬ allowed op) (notClock : op ≠ .clockNow) (notSeen : .getSeen key ≠ op) :
    ∃ now sampling seen scoring candidate formId later,
      past = sampling ++ ⟨.getSeen key, .ok (some seen)⟩ :: (scoring ++ later) ∧
      (HonorEngine.now opts.now).Returns sampling (.ok now) ∧ seen.honoredAt = none ∧
      (scoreQuote engine.deps (quoteFromSeen seen) now).Returns scoring
        (.ok (.honor candidate formId)) ∧
      (engine.honorCandidate key deliver opts.rethrowDeliveryErrors seen now candidate).Runs later
        (.call op resume) := by
  obtain ⟨sampling, now, later, rfl, sampled, reading⟩ :=
    (now_uses opts.now).of_bind_call run notClock
  obtain ⟨_, row, later, rfl, rfl, read⟩ := reading.of_ask_bind notSeen
  cases hstep : gateStep0 row with
  | error step0 =>
    rw [hstep] at read
    cases ((runs_pure_iff _).1 read).2
  | ok seen =>
    obtain ⟨rfl, unhonored⟩ := gateStep0_ok hstep
    rw [hstep] at read
    obtain ⟨scoring, verdict, later, rfl, scored, decided⟩ :=
      (scores _ _).of_bind_call read notScore
    cases verdict with
    | wait => cases ((runs_pure_iff _).1 decided).2
    | decline => cases ((runs_pure_iff _).1 decided).2
    | honor candidate formId =>
      exact ⟨now, sampling, seen, scoring, candidate, formId, later, rfl, sampled, unhonored,
        scored, decided⟩

theorem honorCandidate_runs_prepare {key : HonorKey} {deliver : Deliver G} {rethrow : Bool}
    {seen : SeenRow} {now : Int} {candidate : SettlementCandidate} {calls : List (PortCall G)}
    {op : Op G} {resume : op.Reply → Async G HonorOutcome}
    (run : (engine.honorCandidate key deliver rethrow seen now candidate).Runs calls
      (.call op resume)) (byForm : op.byForm = true) :
    ∃ form inner next, engine.deps.forms.get seen.form = .ok form ∧
      (engine.prepare form (quoteFromSeen seen) now candidate).Runs calls (.call op inner) ∧
      (resume = fun reply => (inner reply).bind next) ∧
      (∀ claimTxId, next (.claimSubmitted claimTxId) =
        .call (.claimTxIdsSet (rowKey key) claimTxId)
          fun _ => .pure (.notReady (.wait .htlcClaimPending none))) ∧
      ∀ reason, next (.wait reason) = .pure (.notReady (.wait reason none)) := by
  obtain ⟨form, registered, found⟩ := Runs.of_ofExcept_bind run
  rcases Runs.of_bind_call found with ⟨inner, preparing, hresume⟩ |
    ⟨preparing, prep, last, rfl, prepared, ready⟩
  · exact ⟨form, inner, _, registered, preparing, hresume, fun _ => rfl, fun _ => rfl⟩
  · cases prep with
    | claimSubmitted claimTxId =>
      rcases (runs_call_iff _ _).1 ready with ⟨_, hcall⟩ | ⟨_, _, _, tail⟩
      · cases hcall
        contradiction
      · cases ((runs_pure_iff _).1 tail).2
    | wait reason => cases ((runs_pure_iff _).1 ready).2
    | ready =>
      rcases (runs_call_iff _ _).1 ready with ⟨_, hcall⟩ | ⟨_, _, _, tail⟩
      · cases hcall
        contradiction
      · exact absurd ((runs_ofExcept_iff _).1 tail).2 (call_ne_ofExcept _ _ _)

theorem honor_runs_of_prepare (key : HonorKey) (deliver : Deliver G) (opts : RegisterOpts)
    {now : Int} {sampling scoring preparing : List (PortCall G)} {seen : SeenRow}
    {candidate : SettlementCandidate} {formId : SettlementFormId} {form : SettlementForm G}
    {op : Op G} {inner : op.Reply → Async G PrepareResult}
    (sampled : (HonorEngine.now opts.now).Returns sampling (.ok now))
    (unhonored : seen.honoredAt = none)
    (scored : (scoreQuote engine.deps (quoteFromSeen seen) now).Returns scoring
      (.ok (.honor candidate formId)))
    (registered : engine.deps.forms.get seen.form = .ok form)
    (waiting : (engine.prepare form (quoteFromSeen seen) now candidate).Runs preparing
      (.call op inner)) :
    ∃ resume, (engine.honor key deliver opts).Runs
      (sampling ++ ⟨.getSeen key, .ok (some seen)⟩ :: (scoring ++ preparing))
      (.call op resume) := by
  obtain ⟨resume, decided⟩ : ∃ resume, (engine.honorCandidate key deliver
      opts.rethrowDeliveryErrors seen now candidate).Runs preparing (.call op resume) := by
    unfold honorCandidate
    dsimp only
    rw [show engine.deps.forms.get (quoteFromSeen seen).form = .ok form from registered]
    exact ⟨_, waiting.bind _⟩
  have hstep : gateStep0 (some seen) = .ok seen := by simp [gateStep0, unhonored]
  refine ⟨resume, (Runs.bind sampled _).trans ?_⟩
  refine .call _ ?_
  simp only [Program.ofExcept_ok, Program.pure_bind, Program.bind_eq, hstep]
  exact (Runs.bind scored _).trans decided

theorem honor_runs_gate {key : HonorKey} {deliver : Deliver G} {opts : RegisterOpts}
    {past : List (PortCall G)} {input : HonorTxnInput G} {resume : TxnReply → Async G HonorOutcome}
    (run : (engine.honor key deliver opts).Runs past (.call (.runHonorTxn input) resume)) :
    GateReached engine key deliver opts past input ∧
      resume = fun reply =>
        ofExcept (settleTxn opts.rethrowDeliveryErrors input.outpoint reply) := by
  obtain ⟨now, sampling, seen, scoring, candidate, formId, later, rfl, sampled, unhonored, scored,
    decided⟩ := honor_runs_candidate run (scoreQuote_uses _) nofun nofun nofun
  obtain ⟨form, registered, found⟩ := Runs.of_ofExcept_bind decided
  obtain ⟨preparing, prep, later, rfl, prepared, ready⟩ :=
    (engine.prepare_uses _ _ _ _).of_bind_call found nofun
  cases prep with
  | claimSubmitted claimTxId =>
    rcases (runs_call_iff _ _).1 ready with ⟨_, hcall⟩ | ⟨_, _, _, tail⟩
    · cases hcall
    · cases ((runs_pure_iff _).1 tail).2
  | wait reason => cases ((runs_pure_iff _).1 ready).2
  | ready =>
    rcases (runs_call_iff _ _).1 ready with ⟨rfl, hcall⟩ | ⟨reply, _, _, tail⟩
    · cases hcall
      refine ⟨?_, rfl⟩
      simpa using GateReached.mk sampled unhonored scored registered prepared
    · exact absurd ((runs_ofExcept_iff _).1 tail).2 (call_ne_ofExcept _ _ _)

theorem honor_returns_of_gate {key : HonorKey} {deliver : Deliver G} {opts : RegisterOpts}
    {past later : List (PortCall G)} {input : HonorTxnInput G} {reply : TxnReply}
    {result : Except Thrown HonorOutcome}
    (returns : (engine.honor key deliver opts).Returns
      (past ++ ⟨.runHonorTxn input, reply⟩ :: later) result) :
    GateReached engine key deliver opts past input ∧ later = [] ∧
      result = settleTxn opts.rethrowDeliveryErrors input.outpoint reply := by
  obtain ⟨resume, run, tail⟩ := Runs.split returns
  obtain ⟨reached, rfl⟩ := honor_runs_gate run
  exact ⟨reached, (returns_ofExcept_iff _).1 tail⟩

theorem honor_returns_honored {key : HonorKey} {deliver : Deliver G} {opts : RegisterOpts}
    {calls : List (PortCall G)} {outpoint : Outpoint}
    (returns : (engine.honor key deliver opts).Returns calls (.ok (.honored outpoint))) :
    ∃ past input reply, calls = past ++ [⟨.runHonorTxn input, reply⟩] := by
  obtain ⟨sampling, now, later, rfl, sampled, reading⟩ := Returns.ok_of_bind returns
  obtain ⟨_, row, later, rfl, rfl, read⟩ := reading.of_ask_bind
  cases hstep : gateStep0 row with
  | error step0 => simp [hstep] at read
  | ok seen =>
    rw [hstep] at read
    obtain ⟨scoring, verdict, later, rfl, scored, decided⟩ := Returns.ok_of_bind read
    cases verdict with
    | wait => simp at decided
    | decline => simp at decided
    | honor candidate formId =>
      obtain ⟨_, form, later, rfl, registered, found⟩ := Returns.ok_of_bind decided
      obtain ⟨preparing, prep, later, rfl, prepared, ready⟩ := Returns.ok_of_bind found
      cases prep with
      | claimSubmitted claimTxId =>
        obtain ⟨_, _, _, tail⟩ := (returns_call_iff _ _).1 ready
        simp at tail
      | wait reason => simp at ready
      | ready =>
        obtain ⟨reply, _, rfl, tail⟩ := (returns_call_iff _ _).1 ready
        obtain ⟨rfl, _⟩ := (returns_ofExcept_iff _).1 tail
        obtain ⟨rfl, _⟩ := (returns_ofExcept_iff _).1 registered
        exact ⟨sampling ++ ⟨.getSeen key, .ok row⟩ :: (scoring ++ preparing), _, reply, by simp⟩

end HonorEngine
end ExferHonor
