import ExferHonor.Core.HtlcRuns

/-! Where a quote is declined as expired. No form does it: step 0 of the scorer does, which finds
no row, and the gate, which cannot lock it. -/
namespace ExferHonor
open Effects Program

variable {G : Type}

def HonorVerdict.isExpired : HonorVerdict → Bool
  | .decline .expiredUnobserved _ => true
  | _ => false

def SpineResult.isExpired : SpineResult → Bool
  | .verdict decided => decided.isExpired
  | _ => false

theorem runCustodySpine_unexpired (ctx : ScoringCtx) (raw : RawSettlementCandidate)
    (formId : SettlementFormId) :
    Yields (·.isExpired = false) (runCustodySpine (G := G) ctx raw formId) := by
  refine Yields.bind fun controls => Yields.ite (.pure rfl) (Yields.bind fun payerFail => ?_)
  cases payerFail with
  | none => exact .pure rfl
  | some detail => exact .pure rfl

theorem runBindingSpine_unexpired (ctx : ScoringCtx) (raw : RawSettlementCandidate)
    (formId : SettlementFormId) :
    Yields (·.isExpired = false) (runBindingSpine (G := G) ctx raw formId) := by
  refine Yields.bind fun datum => ?_
  split
  · split
    · exact .pure rfl
    · exact Yields.ite (.pure rfl) (Yields.ite (.pure rfl) (Yields.ite (.pure rfl)
        (runCustodySpine_unexpired _ _ _)))
  · exact .pure rfl

theorem PlainOutputForm.scoreLoop_unexpired (ctx : ScoringCtx)
    (raw : List RawSettlementCandidate) (lastDecline : Option HonorVerdict)
    (sawSkippedOnly : Bool) (unexpired : ∀ verdict ∈ lastDecline, verdict.isExpired = false) :
    Yields (·.isExpired = false) (scoreLoop (G := G) ctx raw lastDecline sawSkippedOnly) := by
  induction raw generalizing lastDecline sawSkippedOnly with
  | nil =>
    cases lastDecline with
    | none => exact .pure rfl
    | some verdict => exact .pure (unexpired verdict rfl)
  | cons c raw ih =>
    refine Yields.bind_of (runBindingSpine_unexpired ctx c .plain) fun spine hspine => ?_
    cases spine with
    | skip => exact ih _ _ unexpired
    | verdict verdict =>
      refine ih _ _ fun last hlast => ?_
      cases hlast
      exact (hspine :)
    | ok candidate =>
      have hdepth : (depthGate ctx candidate).isExpired = false := by
        unfold depthGate
        split
        · rfl
        · dsimp only
          split <;> rfl
      dsimp only
      split
      next => exact .pure rfl
      next =>
        refine ih _ _ fun last hlast => ?_
        cases hlast
        exact hdepth

theorem HtlcForm.score_unexpired (ctx : ScoringCtx) (raw : List RawSettlementCandidate) :
    Yields (·.isExpired = false) (score (G := G) ctx raw) := by
  have binding (htlc : OnChainHtlc) :
      ∀ verdict ∈ validateOnChain ctx htlc, verdict.isExpired = false := by
    unfold validateOnChain
    repeat' split
    all_goals
      intro verdict hverdict
      cases hverdict
    all_goals rfl
  cases raw with
  | nil => exact .pure rfl
  | cons c raw =>
    refine Yields.bind fun htlc => ?_
    cases htlc with
    | none => exact .pure rfl
    | some htlc =>
      dsimp only
      split
      next verdict hverdict => exact .pure (binding htlc verdict hverdict)
      next => exact .pure rfl

theorem scoreQuote_unexpired {deps : HonorDeps G} {reserver : Bool}
    (forms : deps.forms = createFormRegistry (builtinForms reserver)) (quote : AcceptedQuote)
    (now : Int) : Yields (·.isExpired = false) (scoreQuote deps quote now) := by
  unfold scoreQuote
  rw [forms]
  cases registered : (createFormRegistry (builtinForms (G := G) reserver)).get quote.form with
  | error e => trivial
  | ok form =>
    simp only [Program.ofExcept_ok, Program.bind_eq, Program.pure_bind]
    refine Yields.bind fun tip => Yields.bind fun raw => ?_
    rcases builtinForms_get registered with ⟨_, rfl⟩ | ⟨_, rfl⟩
    · exact Yields.ite (.pure rfl) (PlainOutputForm.scoreLoop_unexpired _ raw _ _ (by simp))
    · exact HtlcForm.score_unexpired _ raw

def TxnReply.deniesWindow : TxnReply → Bool
  | ⟨some (.error _), _⟩ => false
  | ⟨_, .error (.gateViolation .expiredWindow _)⟩ => true
  | _ => false

theorem settleTxn_expired {rethrow : Bool} {outpoint : Outpoint} {reply : TxnReply}
    {verdict : HonorVerdict}
    (settled : settleTxn rethrow outpoint reply = .ok (.notReady verdict))
    (expired : verdict.isExpired = true) : reply.deniesWindow = true := by
  obtain ⟨called, result⟩ := reply
  unfold settleTxn at settled
  dsimp only at settled
  split at settled
  · cases settled
  · split at settled
    · split at settled <;> cases settled
    next notThrown =>
      split at settled
      · cases settled
        contradiction
      · cases called with
        | none => rfl
        | some ended =>
          cases ended with
          | error e => exact absurd rfl (notThrown e)
          | ok ended => rfl
      · cases settled
        contradiction
      · cases settled

theorem SqliteStore.not_deniesWindow {db : Db G} {input : HonorTxnInput G} {row : SeenRowSql}
    (found : db.seen.find? input.key = some row)
    (lockable : row.honoredAt = none → Statements.Lockable input.now row) :
    (runHonorTxn db input).1.deniesWindow = false := by
  unfold runHonorTxn
  split
  next e denied =>
    rcases gateWrites_eq_error_iff.1 denied with unlocked | ⟨seen, -, refused⟩
    · obtain ⟨unchanged, ⟨_, _, -, -, rfl⟩ | ⟨unhonored, rfl⟩⟩ := gateSeen_error unlocked
      · rfl
      · rw [Statements.lockSeen_changes, found] at unchanged
        simp [lockable (unhonored row found)] at unchanged
    · unfold gateConsumed at refused
      split at refused
      · split at refused
        · cases refused
        · split at refused <;> cases refused <;> rfl
      · dsimp only at refused
        split at refused <;> cases refused
        rfl
  next gated passed =>
    dsimp only
    split <;> rfl

namespace HonorEngine
variable {engine : HonorEngine G} {reserver : Bool}

theorem honor_expired (forms : engine.deps.forms = createFormRegistry (builtinForms reserver))
    {key : HonorKey} {deliver : Deliver G} {opts : RegisterOpts} {calls : List (PortCall G)}
    {verdict : HonorVerdict}
    (returns : (engine.honor key deliver opts).Returns calls (.ok (.notReady verdict)))
    (expired : verdict.isExpired = true) :
    ⟨.getSeen key, .ok none⟩ ∈ calls ∨
      ∃ input reply, ⟨.runHonorTxn input, reply⟩ ∈ calls ∧ reply.deniesWindow = true := by
  obtain ⟨sampling, now, later, rfl, sampled, reading⟩ := Returns.ok_of_bind returns
  obtain ⟨_, row, later, rfl, rfl, read⟩ := reading.of_ask_bind
  cases hstep : gateStep0 row with
  | error step0 =>
    rw [hstep] at read
    obtain ⟨-, hverdict⟩ := (returns_pure_iff _).1 read
    cases hverdict
    cases row with
    | none => exact .inl (by simp)
    | some row =>
      unfold gateStep0 at hstep
      dsimp only at hstep
      split at hstep <;> cases hstep
      contradiction
  | ok seen =>
    rw [hstep] at read
    obtain ⟨scoring, scored, later, rfl, scoring', decided⟩ := Returns.ok_of_bind read
    have unexpired := (scoreQuote_unexpired forms _ _).returns scoring'
    cases scored with
    | wait =>
      cases ((returns_pure_iff _).1 decided).2
      contradiction
    | decline =>
      cases ((returns_pure_iff _).1 decided).2
      rw [unexpired] at expired
      contradiction
    | honor candidate formId =>
      obtain ⟨_, form, later, rfl, -, found⟩ := Returns.ok_of_bind decided
      obtain ⟨preparing, prep, later, rfl, -, ready⟩ := Returns.ok_of_bind found
      cases prep with
      | claimSubmitted claimTxId =>
        obtain ⟨_, _, _, tail⟩ := (returns_call_iff _ _).1 ready
        cases ((returns_pure_iff _).1 tail).2
        contradiction
      | wait reason =>
        cases ((returns_pure_iff _).1 ready).2
        contradiction
      | ready =>
        obtain ⟨reply, _, rfl, tail⟩ := (returns_call_iff _ _).1 ready
        obtain ⟨-, hsettled⟩ := (returns_ofExcept_iff _).1 tail
        exact .inr ⟨_, reply, by simp, settleTxn_expired hsettled.symm expired⟩

end HonorEngine
end ExferHonor
