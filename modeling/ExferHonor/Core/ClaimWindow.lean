import ExferHonor.Core.ClaimRuns

/-! The time window of the gate and the claim that goes out before it. Nothing compares `now` with
the quote's times until the gate transaction, which is another call. -/
namespace ExferHonor
namespace HonorEngine
open Effects Program Statements

variable {G : Type}

def InWindow (now : Int) (row : SeenRowSql) : Prop :=
  now < row.retainUntil ∧ (now < row.expiresAt ∨ row.observedBeforeExpiry = true)

/-- What an HTLC quote's claim needs besides the chain and the keystore: a row still to be honored
under a strict quote id, and the two optional ports. -/
structure Claimable (optional : OptionalPorts) (row : SeenRowSql) : Prop where
  unhonored : row.honoredAt = none
  strict : IsQuoteId row.quoteId
  knows : optional.htlcPreimageFor = true
  submits : optional.submitClaim = true

def SampledAt (opts : RegisterOpts) (now : Int) (calls : List (PortCall G)) : Prop :=
  ∃ sampling later, calls = sampling ++ later ∧
    (HonorEngine.now opts.now).Returns sampling (.ok now)

def ReadsSeen (model : TxnModel) (db : Db G) (calls : List (PortCall G)) : Prop :=
  ∀ key reply, ⟨.getSeen key, reply⟩ ∈ calls →
    reply = .ok ((getSeen db.seen key).map (Store.rowFromSql model))

section
variable {deps : HonorDeps G} {reserver : Bool}

theorem scoreQuote_honors_lock (forms : deps.forms = createFormRegistry (builtinForms reserver))
    {quote : AcceptedQuote} (htlcForm : quote.form = .htlc) {now tip : Int}
    (listed : RawSettlementCandidate) (more : List RawSettlementCandidate) {htlc : OnChainHtlc}
    (binds : HtlcForm.validateOnChain (scoringCtx deps quote tip now) htlc = none) :
    (scoreQuote deps quote now).Returns [⟨.tipHeight, .ok tip⟩,
        ⟨.findSettlementsByQuoteId quote.quoteId, .ok (listed :: more)⟩,
        ⟨.getHtlc listed.outpoint, .ok (some htlc)⟩]
      (.ok (.honor (HtlcForm.lockCandidate (scoringCtx deps quote tip now) listed htlc)
        .htlc)) := by
  unfold scoreQuote
  rw [forms, htlcForm]
  refine .call _ ?_
  refine .call _ ?_
  refine .call _ ?_
  simp only [Program.ofExcept_ok, Program.pure_bind, binds]
  exact .nil

end

theorem prepare_claims (reserver : Bool) {ctx : ScoringCtx} (candidate : SettlementCandidate)
    {htlc : OnChainHtlc} (preimage : Hex)
    (inTime : ctx.tip + ctx.config.claimMargin ≤ htlc.timeoutHeight)
    (knows : ctx.optional.htlcPreimageFor = true) (submits : ctx.optional.submitClaim = true) :
    (HtlcForm.prepare (G := G) reserver ctx candidate).Runs
      [⟨.claimsGet (HtlcForm.rk ctx), none⟩, ⟨.getHtlc candidate.outpoint, .ok (some htlc)⟩,
        ⟨.htlcPreimageFor ctx.quote.quoteId ctx.quote.payeePubkey, .ok (some preimage)⟩]
      (HtlcForm.claimLock reserver ctx candidate.outpoint htlc preimage) := by
  refine .call _ ?_
  refine .call _ ?_
  simp only [Program.ofExcept_ok, Program.pure_bind, knows, submits, if_neg (Int.not_lt.2 inTime)]
  refine .call _ ?_
  exact .nil

variable {engine : HonorEngine G} {reserver : Bool}

theorem honor_submits (forms : engine.deps.forms = createFormRegistry (builtinForms reserver))
    (key : HonorKey) (deliver : Deliver G) (now : Int) (seen : SeenRow)
    (unhonored : seen.honoredAt = none) (htlcForm : seen.form = .htlc)
    (strict : IsQuoteId seen.quoteId) (knows : engine.deps.optional.htlcPreimageFor = true)
    (submits : engine.deps.optional.submitClaim = true) :
    ∃ later htlc preimage resume, (∀ call ∈ later, call.op.byForm = true) ∧
      (engine.honor key deliver { now := some now }).Runs
        (⟨.getSeen key, .ok (some seen)⟩ :: later) (.call (.submitClaim htlc preimage) resume) := by
  have registered : engine.deps.forms.get seen.form = .ok (HtlcForm.form reserver) := by
    rw [forms, htlcForm]
    rfl
  let quote := quoteFromSeen seen
  let listed : RawSettlementCandidate := ⟨⟨"", 0⟩, quote.exferAmount, "", none⟩
  let htlc : OnChainHtlc := ⟨listed.outpoint, quote.payeePubkey, quote.payerPubkey.getD "", "",
    engine.deps.config.claimMargin, quote.exferAmount, none, .locked⟩
  let ctx := scoringCtx engine.deps quote 0 now
  have binds : HtlcForm.validateOnChain ctx htlc = none := by
    refine (HtlcForm.validateOnChain_eq_none_iff _ _).2 ⟨strict, rfl, rfl, ?_⟩
    intro payerPubkey hpayer
    show quote.payerPubkey.getD "" = payerPubkey
    rw [show quote.payerPubkey = some payerPubkey from hpayer, Option.getD_some]
  have scored := scoreQuote_honors_lock (G := G) forms htlcForm listed [] binds
  have inTime : ctx.tip + ctx.config.claimMargin ≤ htlc.timeoutHeight :=
    Int.le_of_eq (Int.zero_add _)
  have claiming := prepare_claims (G := G) reserver (HtlcForm.lockCandidate ctx listed htlc) ""
    inTime knows submits
  have preparing : (engine.prepare (HtlcForm.form reserver) quote now
      (HtlcForm.lockCandidate ctx listed htlc)).Runs (⟨.tipHeight, .ok 0⟩ :: _) _ :=
    .call _ claiming
  obtain ⟨resume, run⟩ :=
    honor_runs_of_prepare key deliver { now := some now } .nil unhonored scored registered preparing
  exact ⟨_, htlc, "", resume, by simp [Op.byForm, Op.isQuery], run⟩

theorem SampledAt.unique {opts : RegisterOpts} {now now' : Int} {calls : List (PortCall G)}
    (sampled : SampledAt opts now calls) (sampled' : SampledAt opts now' calls) : now = now' := by
  obtain ⟨sampling, later, rfl, returns⟩ := sampled
  obtain ⟨sampling', later', heq, returns'⟩ := sampled'
  unfold HonorEngine.now at returns returns'
  cases hnow : opts.now with
  | some at_ =>
    simp only [hnow, Program.pure_eq, returns_pure_iff, Except.ok.injEq] at returns returns'
    exact returns.2.trans returns'.2.symm
  | none =>
    rw [hnow] at returns returns'
    obtain ⟨_, rfl, rfl⟩ := returns_ask_iff.1 returns
    obtain ⟨_, rfl, rfl⟩ := returns_ask_iff.1 returns'
    cases heq
    rfl

/-- The row an honor reads at `now` is lockable whenever it submits a claim, just when nothing
claimable is outside the window. -/
theorem claims_lockable_iff (engine : HonorEngine G) (reserver : Bool)
    (forms : engine.deps.forms = createFormRegistry (builtinForms reserver)) (model : TxnModel)
    (db : Db G) (key : HonorKey) (row : SeenRowSql) (found : db.seen.find? key = some row)
    (htlcForm : row.form = .htlc) (now : Int) :
    (∀ deliver opts past htlc preimage resume,
      (engine.honor key deliver opts).Runs past (.call (.submitClaim htlc preimage) resume) →
      SampledAt opts now past → ReadsSeen model db past → Lockable now row) ↔
    (Claimable engine.deps.optional row → InWindow now row) := by
  constructor
  · rintro lockable ⟨unhonored, strict, knows, submits⟩
    obtain ⟨later, htlc, preimage, resume, byForm, run⟩ :=
      honor_submits forms key (fun _ => .pure .value) now (SqliteStore.rowFromSql row) unhonored
        htlcForm strict knows submits
    rw [← Store.rowFromSql_eq model] at run
    refine (lockable _ _ _ _ _ _ run ⟨[], _, rfl, .nil⟩ fun other reply hcall => ?_).2
    rcases List.mem_cons.1 hcall with h | h
    · cases h
      rw [getSeen, found]
      rfl
    · cases byForm _ h
  · intro window deliver opts past htlc preimage resume run sampled reads
    obtain ⟨now', seen, candidate, tip, reached⟩ := honor_runs_submit forms run
    cases reached with
    | mk sampled' unhonored _ _ _ binds _ knows submits =>
      obtain rfl : now = now' := sampled.unique ⟨_, _, rfl, sampled'⟩
      have hread := reads key (.ok (some seen)) (by simp)
      rw [getSeen, found, Option.map_some, Store.rowFromSql_eq] at hread
      obtain rfl := Option.some.inj (Except.ok.inj hread)
      exact ⟨unhonored, window ⟨unhonored, HtlcForm.validateOnChain_strict binds, knows, submits⟩⟩

/-! `htlcQuote` is registered and never observed; at 2000 it has expired. -/

def htlcRow : SeenRowSql := acceptedRow htlcQuote 10 4600

theorem claims_expired_quote :
    htlcDb.seen.find? htlcQuote.key = some htlcRow ∧
    (∃ resume, honorClaim.Runs (claimPast 2000 .locked)
      (.call (.submitClaim HtlcForm.ownLock "c0") resume)) ∧
    SampledAt {} 2000 (claimPast 2000 .locked) ∧ ReadsSeen .sync htlcDb (claimPast 2000 .locked) ∧
    ¬ Lockable 2000 htlcRow := by
  have hpast : claimPast 2000 .locked = ⟨.clockNow, .ok 2000⟩ ::
      ⟨.getSeen htlcQuote.key, .ok ((getSeen htlcDb.seen htlcQuote.key).map
        (Store.rowFromSql .sync))⟩ :: (claimPast 2000 .locked).drop 2 := rfl
  refine ⟨rfl, claimPast_submits 2000 .locked rfl, ?_, ?_, by decide⟩
  · exact ⟨[⟨.clockNow, .ok 2000⟩], (claimPast 2000 .locked).drop 1, rfl,
      returns_ask_iff.2 ⟨_, rfl, rfl⟩⟩
  · intro key reply hcall
    have later : ((claimPast 2000 .locked).drop 2).all (·.op.byForm) = true := rfl
    rw [hpast] at hcall
    rcases List.mem_cons.1 hcall with h | h
    · cases h
    · rcases List.mem_cons.1 h with h | h
      · cases h
        rfl
      · cases List.all_eq_true.1 later _ h

theorem claims_lockable_iff_expired :
    Claimable ⟨true, true⟩ htlcRow ∧
    ¬ ∀ deliver opts past htlc preimage resume,
      (sampleEngine.honor htlcQuote.key deliver opts).Runs past
        (.call (.submitClaim htlc preimage) resume) →
      SampledAt opts 2000 past → ReadsSeen .sync htlcDb past → Lockable 2000 htlcRow := by
  have claimable : Claimable ⟨true, true⟩ htlcRow := ⟨rfl, by decide, rfl, rfl⟩
  refine ⟨claimable, fun lockable => ?_⟩
  have window := (claims_lockable_iff sampleEngine true rfl .sync htlcDb htlcQuote.key htlcRow rfl
    rfl 2000).1 lockable claimable
  exact absurd window (by unfold InWindow; decide)

end HonorEngine
end ExferHonor
