import ExferHonor.Core.ClaimedHonor
import ExferHonor.Forms.HtlcVerdict

/-! What an `honor` has read when it is about to submit a claim, with the builtin forms.
Everything here is about one call. -/
namespace ExferHonor
namespace HonorEngine
open Effects Program

variable {G : Type}

/-- The calls of an `honor` at `now` before it submits a claim for `htlc` with `preimage`: the
first lock listed binds, no claim is on record, and the lock read again is in time under `tip`. -/
inductive ClaimReached (engine : HonorEngine G) (key : HonorKey) (opts : RegisterOpts)
    (now : Int) (seen : SeenRow) (candidate : SettlementCandidate) (tip : Int) :
    List (PortCall G) → OnChainHtlc → Hex → Prop
  | mk {sampling scoredTip listed more read formId htlc preimage}
      (sampled : (HonorEngine.now opts.now).Returns sampling (.ok now))
      (unhonored : seen.honoredAt = none) (htlcForm : seen.form = .htlc)
      (scored : (scoreQuote engine.deps (quoteFromSeen seen) now).Returns
        [⟨.tipHeight, .ok scoredTip⟩,
          ⟨.findSettlementsByQuoteId seen.quoteId, .ok (listed :: more)⟩,
          ⟨.getHtlc listed.outpoint, .ok (some read)⟩] (.ok (.honor candidate formId)))
      (outpoint : candidate.outpoint = listed.outpoint)
      (binds : HtlcForm.validateOnChain
        (scoringCtx engine.deps (quoteFromSeen seen) scoredTip now) read = none)
      (inTime : tip + engine.deps.config.claimMargin ≤ htlc.timeoutHeight)
      (knows : engine.deps.optional.htlcPreimageFor = true)
      (submits : engine.deps.optional.submitClaim = true) :
      ClaimReached engine key opts now seen candidate tip
        (sampling ++ [⟨.getSeen key, .ok (some seen)⟩, ⟨.tipHeight, .ok scoredTip⟩,
          ⟨.findSettlementsByQuoteId seen.quoteId, .ok (listed :: more)⟩,
          ⟨.getHtlc listed.outpoint, .ok (some read)⟩, ⟨.tipHeight, .ok tip⟩,
          ⟨.claimsGet (rowKey seen.key), none⟩, ⟨.getHtlc listed.outpoint, .ok (some htlc)⟩,
          ⟨.htlcPreimageFor seen.quoteId seen.payeePubkey, .ok (some preimage)⟩])
        htlc preimage

variable {engine : HonorEngine G} {reserver : Bool} {key : HonorKey} {deliver : Deliver G}
  {opts : RegisterOpts}

theorem ClaimReached.reads {now tip : Int} {seen : SeenRow} {candidate : SettlementCandidate}
    {past : List (PortCall G)} {htlc : OnChainHtlc} {preimage : Hex}
    (reached : ClaimReached engine key opts now seen candidate tip past htlc preimage) :
    ⟨.getSeen key, .ok (some seen)⟩ ∈ past ∧ ⟨.claimsGet (rowKey seen.key), none⟩ ∈ past ∧
      ∀ call ∈ past, call.op.isQuery = true ∨ call.op = .clockNow ∨ call.op = .getSeen key ∨
        call.op = .claimsGet (rowKey seen.key) := by
  cases reached with
  | mk sampled =>
    refine ⟨by simp, by simp, fun call hcall => ?_⟩
    rcases List.mem_append.1 hcall with h | h
    · exact .inr (.inl (((now_uses opts.now).runs sampled).1 call h))
    · simp only [List.mem_cons, List.not_mem_nil, or_false] at h
      rcases h with rfl | rfl | rfl | rfl | rfl | rfl | rfl | rfl <;> simp [Op.isQuery]

theorem honor_runs_submit {past : List (PortCall G)} {htlc : OnChainHtlc} {preimage : Hex}
    {resume : Except Thrown Hex → Async G HonorOutcome}
    (forms : engine.deps.forms = createFormRegistry (builtinForms reserver))
    (run : (engine.honor key deliver opts).Runs past (.call (.submitClaim htlc preimage) resume)) :
    ∃ now seen candidate tip, ClaimReached engine key opts now seen candidate tip past htlc
      preimage := by
  obtain ⟨now, sampling, seen, scoring, candidate, formId, later, rfl, sampled, unhonored, scored,
    decided⟩ := honor_runs_candidate run (scoreQuote_queries forms) nofun nofun nofun
  obtain ⟨form, inner, next, registered, preparing, -, -, -⟩ :=
    honorCandidate_runs_prepare decided rfl
  rw [forms] at registered
  rcases builtinForms_get registered with ⟨_, rfl⟩ | ⟨htlcForm, rfl⟩
  · obtain ⟨_, _, own, rfl, rfl, claiming⟩ := Runs.of_ask_bind preparing nofun
    cases ((runs_pure_iff _).1 claiming).2
  · obtain ⟨scoredTip, listed, more, read, rfl, binds, rfl⟩ :=
      scoreQuote_returns_htlc forms htlcForm scored
    obtain ⟨_, tip, own, rfl, rfl, claiming⟩ := Runs.of_ask_bind preparing nofun
    obtain ⟨_, rfl, submitting⟩ := HtlcForm.prepare_runs_submit claiming
    obtain ⟨rfl, inTime, knows, submits, -⟩ := HtlcForm.phaseA_runs_submit submitting
    exact ⟨now, seen, _, tip,
      .mk sampled unhonored htlcForm scored rfl binds inTime knows submits⟩

section
variable (answer : (op : Op G) → op.Reply) (config : HonorConfig) (quote : AcceptedQuote)
  (outpoint : Outpoint) (tip : Int) (htlc : OnChainHtlc) (preimage : Hex)

/-- The claim goes to a live lock that is bound to the quote; mined in the block after `tip`, it
has `claimMargin` confirmations at a height that is not above the timeout. -/
structure SoundClaim : Prop where
  onChain : answer (.getHtlc outpoint) = .ok (some htlc)
  locked : htlc.state = .locked
  receiver : htlc.receiverPubkey = quote.payeePubkey
  value : htlc.value = quote.exferAmount
  sender : ∀ payerPubkey, quote.payerPubkey = some payerPubkey → htlc.senderPubkey = payerPubkey
  preimage : answer (.htlcPreimageFor quote.quoteId quote.payeePubkey) = .ok (some preimage)
  buries : ∀ height, height - (tip + 1) + 1 = config.claimMargin → height ≤ htlc.timeoutHeight

def FirstLockLocked (quoteId : QuoteId) : Prop :=
  ∃ first more htlc, answer (.findSettlementsByQuoteId quoteId) = .ok (first :: more) ∧
    answer (.getHtlc first.outpoint) = .ok (some htlc) ∧ htlc.state = .locked

end

/-- Against a fixed chain a claim meets all that is asked of it just when the first lock listed
is in state `locked`, which nothing looks at. -/
theorem claim_sound_iff (engine : HonorEngine G) (reserver : Bool)
    (forms : engine.deps.forms = createFormRegistry (builtinForms reserver)) (key : HonorKey)
    (deliver : Deliver G) (opts : RegisterOpts) (answer : (op : Op G) → op.Reply)
    (past : List (PortCall G)) (htlc : OnChainHtlc) (preimage : Hex)
    (resume : Except Thrown Hex → Async G HonorOutcome)
    (run : (engine.honor key deliver opts).Runs past (.call (.submitClaim htlc preimage) resume))
    (fixed : ∀ call ∈ past, call.op.isQuery = true → call.reply = answer call.op) :
    ∃ now seen candidate formId tip, ⟨.getSeen key, .ok (some seen)⟩ ∈ past ∧
      (scoreQuote engine.deps (quoteFromSeen seen) now).eval answer =
        .ok (.honor candidate formId) ∧
      answer .tipHeight = .ok tip ∧
      (SoundClaim answer engine.deps.config (quoteFromSeen seen) candidate.outpoint tip htlc
          preimage ↔
        FirstLockLocked answer seen.quoteId) := by
  obtain ⟨now, seen, candidate, tip, reached⟩ := honor_runs_submit forms run
  cases reached with
  | @mk sampling scoredTip listed more read formId _ _ sampled unhonored htlcForm scored outpoint
      binds inTime knows submits =>
    have hscored : (scoreQuote engine.deps (quoteFromSeen seen) now).eval answer =
        .ok (.honor candidate formId) := by
      apply scored.eval_eq
      intro call hcall
      refine fixed call ?_ (((scoreQuote_queries forms _ now).runs scored).1 call hcall)
      simp only [List.mem_append, List.mem_cons, List.not_mem_nil, or_false] at hcall ⊢
      tauto
    have replied {op : Op G} {reply : op.Reply} (query : op.isQuery = true)
        (hcall : ⟨op, reply⟩ ∈ sampling ++ _) : answer op = reply :=
      (fixed ⟨op, reply⟩ hcall query).symm
    have hlisted : answer (.findSettlementsByQuoteId seen.quoteId) = .ok (listed :: more) :=
      replied rfl (by simp)
    have hread : answer (.getHtlc listed.outpoint) = .ok (some read) := replied rfl (by simp)
    have hagain : answer (.getHtlc listed.outpoint) = .ok (some htlc) := replied rfl (by simp)
    obtain rfl : read = htlc := Option.some.inj (Except.ok.inj (hread.symm.trans hagain))
    refine ⟨now, seen, candidate, formId, tip, by simp, hscored, replied rfl (by simp), ?_⟩
    rw [outpoint]
    constructor
    · exact fun sound => ⟨listed, more, read, hlisted, hread, sound.locked⟩
    · rintro ⟨first, others, onChain, hfirst, honChain, locked⟩
      obtain ⟨rfl, -⟩ := List.cons.inj (Except.ok.inj (hlisted.symm.trans hfirst))
      obtain rfl : read = onChain := Option.some.inj (Except.ok.inj (hread.symm.trans honChain))
      obtain ⟨-, receiver, value, sender⟩ := (HtlcForm.validateOnChain_eq_none_iff _ _).1 binds
      refine ⟨hread, locked, receiver, value, sender, replied rfl (by simp [quoteFromSeen]), ?_⟩
      intro height buried
      omega

/-! An honor of `htlcQuote` on its own, over a chain that lists the payee's lock. -/

def htlcDb : Db Unit :=
  (Store.perform .sync (Db.empty ()) (.upsertAccepted htlcQuote 10 4600) (.ok ())).2

def statePorts (state : HtlcState) : TotalPorts :=
  samplePorts 100 [HtlcForm.ownCandidate] (some { HtlcForm.ownLock with state := state }) none

def honorClaim : Async Unit HonorOutcome :=
  sampleEngine.honor htlcQuote.key (fun _ => .pure .value) {}

def claimRun (clock : Int) (state : HtlcState) :
    List (PortCall Unit) × Except Thrown HonorOutcome × World Unit :=
  runAlone .sync (statePorts state) (.booted htlcDb clock) honorClaim

def claimPast (clock : Int) (state : HtlcState) : List (PortCall Unit) :=
  (claimRun clock state).1.take 9

theorem claimPast_submits (clock : Int) (state : HtlcState)
    (called : (claimRun clock state).1[9]? =
      some ⟨.submitClaim { HtlcForm.ownLock with state := state } "c0", .ok "c0"⟩) :
    ∃ resume, honorClaim.Runs (claimPast clock state)
      (.call (.submitClaim { HtlcForm.ownLock with state := state } "c0") resume) := by
  have returns : honorClaim.Returns (claimRun clock state).1 (claimRun clock state).2.1 :=
    run_returns _ _ _
  obtain ⟨resume, run, -⟩ := returns.split_at called
  exact ⟨resume, run⟩

theorem claimPast_fixed (clock : Int) (state : HtlcState) :
    ∀ call ∈ claimPast clock state, call.op.isQuery = true →
      call.reply = (statePorts state).answer call.op := by
  intro call hcall
  refine run_answered (fun call => call.op.isQuery = true →
    call.reply = (statePorts state).answer call.op) (fun world op query => ?_) _ _ call
    (List.mem_of_mem_take hcall)
  exact congrArg Prod.fst (World.perform_query .sync world query _)

theorem claims_spent_lock :
    ∃ resume, honorClaim.Runs (claimPast 20 .claimed)
        (.call (.submitClaim { HtlcForm.ownLock with state := .claimed } "c0") resume) ∧
      (∀ call ∈ claimPast 20 .claimed, call.op.isQuery = true →
        call.reply = (statePorts .claimed).answer call.op) ∧
      ¬ SoundClaim (statePorts .claimed).answer (G := Unit) sampleConfig htlcQuote ⟨"01", 0⟩ 100
        { HtlcForm.ownLock with state := .claimed } "c0" := by
  obtain ⟨resume, run⟩ := claimPast_submits 20 .claimed rfl
  exact ⟨resume, run, claimPast_fixed 20 .claimed, fun sound => absurd sound.locked nofun⟩

theorem claim_sound_iff_locked :
    ∃ seen, ∃ candidate : SettlementCandidate, ∃ tip,
      ⟨.getSeen htlcQuote.key, .ok (some seen)⟩ ∈ claimPast 20 .locked ∧
      SoundClaim (statePorts .locked).answer (G := Unit) sampleConfig (quoteFromSeen seen)
        candidate.outpoint tip HtlcForm.ownLock "c0" := by
  obtain ⟨resume, run⟩ := claimPast_submits 20 .locked rfl
  obtain ⟨_, seen, candidate, _, tip, hseen, _, _, sound⟩ :=
    claim_sound_iff sampleEngine true rfl htlcQuote.key _ _ (statePorts .locked).answer _ _ _ _ run
      (claimPast_fixed 20 .locked)
  exact ⟨seen, candidate, tip, hseen, sound.2 ⟨_, _, _, rfl, rfl, rfl⟩⟩

end HonorEngine
end ExferHonor
