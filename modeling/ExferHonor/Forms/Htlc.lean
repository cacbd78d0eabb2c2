import ExferHonor.Forms.Plain

/-! The HTLC form: submit the acceptor's own claim first, honor only once that claim is buried
`claimMargin` deep under the live tip. The claims of this process live in a map. -/
namespace ExferHonor
open Effects

variable {G : Type}

namespace HtlcForm

/-- `${signerPubkey}:${quoteId}` -/
def rk (ctx : ScoringCtx) : String := ctx.quote.signerPubkey ++ ":" ++ ctx.quote.quoteId

def discover (ctx : ScoringCtx) : Async G (List RawSettlementCandidate) :=
  Port.findSettlementsByQuoteId ctx.quote.quoteId

/-- `decoded.ok && decoded.quoteId === quoteId` -/
def decodesStrict (quoteId : QuoteId) : Bool :=
  match decodeSettlementDatum quoteId settlementDatumVersion with
  | .ok decoded => decoded = quoteId
  | .error _ => false

/-- R3 on the actual on-chain script: `none` when the lock binds, else a decline. -/
def validateOnChain (ctx : ScoringCtx) (htlc : OnChainHtlc) : Option HonorVerdict :=
  if !decodesStrict ctx.quote.quoteId then
    some (.decline .datumUnhonorable (some "quote_id not strict"))
  else if htlc.receiverPubkey ≠ ctx.quote.payeePubkey then
    some (.decline .addressMismatch (some "HTLC receiver != payee (R3)"))
  else if htlc.value ≠ ctx.quote.exferAmount then
    let value := htlc.value
    let exferAmount := ctx.quote.exferAmount
    some (.decline .amountMismatch
      (some s!"HTLC value {value} != exferAmount {exferAmount}"))
  else if ctx.quote.payerPubkey ≠ none ∧ some htlc.senderPubkey ≠ ctx.quote.payerPubkey then
    some (.decline .payerBindingFailed (some "HTLC sender != payer (R5-HTLC)"))
  else none

def lockCandidate (ctx : ScoringCtx) (c : RawSettlementCandidate) (htlc : OnChainHtlc) :
    SettlementCandidate where
  form := .htlc
  quoteId := ctx.quote.quoteId
  txId := c.outpoint.txId
  outputIndex := c.outpoint.outputIndex
  value := htlc.value
  scriptHex := c.scriptHex
  blockHeight := c.blockHeight
  honorable := true

/-- Only the first candidate is looked at. -/
def score (ctx : ScoringCtx) : List RawSettlementCandidate → Async G HonorVerdict
  | [] => pure (.wait .noCandidate none)
  | c :: _ => do
      match ← Port.getHtlc c.outpoint with
      | none => pure (.wait .noCandidate (some "no on-chain HTLC"))
      | some htlc =>
          match validateOnChain ctx htlc with
          | some binding => pure binding
          | none => pure (.honor (lockCandidate ctx c htlc) .htlc)

def recordClaim (ctx : ScoringCtx) (claimTxId : Hex) (lock : Outpoint) :
    Async G PrepareResult := do
  Port.claimsSet (rk ctx) ⟨claimTxId, lock⟩
  pure (.claimSubmitted claimTxId)

/-- The claim goes out first; with a reserver the lock is then reserved, and last comes the
record. -/
def claimLock (reserver : Bool) (ctx : ScoringCtx) (lock : Outpoint) (htlc : OnChainHtlc)
    (preimage : Hex) : Async G PrepareResult := do
  let claimTxId ← Port.submitClaim htlc preimage
  if reserver then do
    Port.reserveClaimOutpoint ctx.quote.key lock claimTxId ctx.now
    recordClaim ctx claimTxId lock
  else recordClaim ctx claimTxId lock

def phaseA (reserver : Bool) (ctx : ScoringCtx) (candidate : SettlementCandidate) :
    Async G PrepareResult := do
  let lock := candidate.outpoint
  match ← Port.getHtlc lock with
  | none => pure (.wait .noCandidate)
  | some htlc =>
      -- the claim must bury past the deepest tolerated reorg before the timeout
      if ctx.tip + ctx.config.claimMargin > htlc.timeoutHeight then
        pure (.wait .reorgWithheld)
      else if !ctx.optional.htlcPreimageFor then pure (.wait .noCandidate)
      else
        match ← Port.htlcPreimageFor ctx.quote.quoteId ctx.quote.payeePubkey with
        | none => pure (.wait .noCandidate)
        | some preimage =>
            if !ctx.optional.submitClaim then pure (.wait .noCandidate)
            else claimLock reserver ctx lock htlc preimage

/-- Phase B, with the claim's height read again each time. -/
def phaseB (ctx : ScoringCtx) (prior : ClaimRecord) : Async G PrepareResult := do
  match ← Port.getTransaction prior.claimTxId with
  | some ⟨some blockHeight⟩ =>
      let depth := ctx.tip - blockHeight + 1
      if depth < ctx.config.claimMargin then pure (.wait .reorgWithheld)
      else pure .ready
  | _ => pure (.wait .reorgWithheld)

def prepare (reserver : Bool) (ctx : ScoringCtx) (candidate : SettlementCandidate) :
    Async G PrepareResult := do
  match ← Port.claimsGet (rk ctx) with
  | none => phaseA reserver ctx candidate
  | some prior => phaseB ctx prior

def gateMode : GateMode := .promote

/-! Discovery and scoring only read; `prepare` also submits, reserves and records. -/

theorem discover_uses (ctx : ScoringCtx) : Uses (·.isQuery) (discover (G := G) ctx) :=
  ⟨rfl, fun reply => Uses.ofExcept reply⟩

theorem score_uses (ctx : ScoringCtx) (raw : List RawSettlementCandidate) :
    Uses (·.isQuery) (score (G := G) ctx raw) := by
  cases raw with
  | nil => trivial
  | cons c _ =>
    refine Uses.bind ⟨rfl, fun reply => Uses.ofExcept reply⟩ fun htlc => ?_
    split
    · trivial
    · split <;> trivial

theorem claimLock_uses (reserver : Bool) (ctx : ScoringCtx) (lock : Outpoint)
    (htlc : OnChainHtlc) (preimage : Hex) :
    Uses (·.byForm) (claimLock (G := G) reserver ctx lock htlc preimage) := by
  refine Uses.bind ⟨rfl, fun reply => Uses.ofExcept reply⟩ fun claimTxId => ?_
  split
  · exact Uses.bind ⟨rfl, fun reply => Uses.ofExcept reply⟩ fun _ => ⟨rfl, fun _ => trivial⟩
  · exact ⟨rfl, fun _ => trivial⟩

theorem phaseA_uses (reserver : Bool) (ctx : ScoringCtx) (candidate : SettlementCandidate) :
    Uses (·.byForm) (phaseA (G := G) reserver ctx candidate) := by
  refine Uses.bind ⟨rfl, fun reply => Uses.ofExcept reply⟩ fun htlc => ?_
  cases htlc with
  | none => trivial
  | some htlc =>
    dsimp only
    refine Uses.ite trivial (Uses.ite trivial ?_)
    refine Uses.bind ⟨rfl, fun reply => Uses.ofExcept reply⟩ fun preimage => ?_
    cases preimage with
    | none => trivial
    | some preimage => exact Uses.ite trivial (claimLock_uses _ _ _ _ _)

theorem phaseB_uses (ctx : ScoringCtx) (prior : ClaimRecord) :
    Uses (·.isQuery) (phaseB (G := G) ctx prior) := by
  refine Uses.bind ⟨rfl, fun reply => Uses.ofExcept reply⟩ fun claim => ?_
  split
  · dsimp only
    split <;> trivial
  · trivial

theorem prepare_uses (reserver : Bool) (ctx : ScoringCtx) (candidate : SettlementCandidate) :
    Uses (·.byForm) (prepare (G := G) reserver ctx candidate) := by
  refine Uses.bind ⟨rfl, fun _ => trivial⟩ fun prior => ?_
  cases prior with
  | none => exact phaseA_uses reserver ctx candidate
  | some prior => exact (phaseB_uses ctx prior).mono fun _ => Op.byForm_of_isQuery

/-! What the form has read when it lets the honor go on. -/

theorem validateOnChain_eq_none_iff (ctx : ScoringCtx) (htlc : OnChainHtlc) :
    validateOnChain ctx htlc = none ↔ IsQuoteId ctx.quote.quoteId ∧
      htlc.receiverPubkey = ctx.quote.payeePubkey ∧ htlc.value = ctx.quote.exferAmount ∧
      ∀ payerPubkey, ctx.quote.payerPubkey = some payerPubkey →
        htlc.senderPubkey = payerPubkey := by
  have hstrict : decodesStrict ctx.quote.quoteId = true ↔ IsQuoteId ctx.quote.quoteId := by
    unfold decodesStrict
    constructor
    · intro h
      split at h
      next decoded hdecoded => exact ((decodeSettlementDatum_ok_iff _ _).1 hdecoded).1
      next => contradiction
    · intro strict
      rw [decodeSettlementDatum_of_isQuoteId strict]
      exact decide_eq_true rfl
  unfold validateOnChain
  rw [← hstrict]
  cases decodesStrict ctx.quote.quoteId with
  | false => simp
  | true =>
    by_cases hreceiver : htlc.receiverPubkey = ctx.quote.payeePubkey
    · by_cases hvalue : htlc.value = ctx.quote.exferAmount
      · cases ctx.quote.payerPubkey <;> simp [hreceiver, hvalue]
      · simp [hreceiver, hvalue]
    · simp [hreceiver]

theorem validateOnChain_strict {ctx : ScoringCtx} {htlc : OnChainHtlc}
    (binds : validateOnChain ctx htlc = none) : IsQuoteId ctx.quote.quoteId :=
  ((validateOnChain_eq_none_iff ctx htlc).1 binds).1

theorem validateOnChain_decision {ctx : ScoringCtx} {htlc : OnChainHtlc} {verdict : HonorVerdict}
    (fails : validateOnChain ctx htlc = some verdict) : verdict.decision = .decline := by
  unfold validateOnChain at fails
  repeat' split at fails
  all_goals first | contradiction | (cases fails; rfl)

theorem score_returns_honor {ctx : ScoringCtx} {raw : List RawSettlementCandidate}
    {calls : List (PortCall G)} {candidate : SettlementCandidate} {form : SettlementFormId}
    (returns : (score ctx raw).Returns calls (.ok (.honor candidate form))) :
    ∃ c rest htlc, raw = c :: rest ∧ calls = [⟨.getHtlc c.outpoint, .ok (some htlc)⟩] ∧
      validateOnChain ctx htlc = none ∧ candidate = lockCandidate ctx c htlc := by
  cases raw with
  | nil => simp [score] at returns
  | cons c rest =>
    obtain ⟨_, htlc, later, rfl, rfl, hrest⟩ := returns.of_ask_bind
    cases htlc with
    | none => simp at hrest
    | some htlc =>
      cases hbinding : validateOnChain ctx htlc with
      | some binding =>
        simp only [hbinding, Program.pure_eq, Program.returns_pure_iff, Except.ok.injEq] at hrest
        have hdecline := validateOnChain_decision hbinding
        rw [← hrest.2] at hdecline
        contradiction
      | none =>
        simp only [hbinding, Program.pure_eq, Program.returns_pure_iff, Except.ok.injEq,
          HonorVerdict.honor.injEq] at hrest
        obtain ⟨rfl, rfl, rfl⟩ := hrest
        exact ⟨c, rest, htlc, rfl, rfl, hbinding, rfl⟩

theorem phaseA_yields (reserver : Bool) (ctx : ScoringCtx) (candidate : SettlementCandidate) :
    Yields (· ≠ .ready) (phaseA (G := G) reserver ctx candidate) := by
  apply Yields.bind
  intro htlc
  cases htlc with
  | none => exact nofun
  | some htlc =>
    refine Yields.ite nofun (Yields.ite nofun (Yields.bind fun preimage => ?_))
    cases preimage with
    | none => exact nofun
    | some preimage =>
      refine Yields.ite nofun (Yields.bind fun claimTxId => Yields.ite ?_ ?_)
      · exact Yields.bind fun _ _ => nofun
      · exact fun _ => nofun

theorem prepare_returns_ready {reserver : Bool} {ctx : ScoringCtx}
    {candidate : SettlementCandidate} {calls : List (PortCall G)}
    (returns : (prepare reserver ctx candidate).Returns calls (.ok .ready)) :
    ∃ prior height, calls = [⟨.claimsGet (rk ctx), some prior⟩,
        ⟨.getTransaction prior.claimTxId, .ok (some ⟨some height⟩)⟩] ∧
      ctx.config.claimMargin ≤ ctx.tip - height + 1 := by
  obtain ⟨prior, later, rfl, hphase⟩ := (Program.returns_call_iff _ _).1 returns
  cases prior with
  | none => exact absurd rfl ((phaseA_yields reserver ctx candidate).returns hphase)
  | some prior =>
    obtain ⟨_, claim, rest, rfl, rfl, hrest⟩ :=
      Program.Returns.of_ask_bind (show Program.Returns (phaseB ctx prior) later _ from hphase)
    dsimp only at hrest
    split at hrest
    next height =>
      split at hrest
      next => simp at hrest
      next hdepth =>
        simp only [Program.pure_eq, Program.returns_pure_iff] at hrest
        obtain ⟨rfl, -⟩ := hrest
        exact ⟨prior, height, rfl, Int.not_lt.1 hdepth⟩
    next => simp at hrest

private theorem claimLock_runs_claim {reserver : Bool} {ctx : ScoringCtx} {lock : Outpoint}
    {htlc : OnChainHtlc} {preimage : Hex} {calls : List (PortCall G)} {key : String}
    {record : ClaimRecord} {resume : Unit → Async G PrepareResult}
    (run : (claimLock reserver ctx lock htlc preimage).Runs calls
      (.call (.claimsSet key record) resume)) :
    key = rk ctx ∧ record.lock = lock ∧
      ⟨.submitClaim htlc preimage, .ok record.claimTxId⟩ ∈ calls ∧
      resume = fun _ => .pure (.claimSubmitted record.claimTxId) := by
  have recorded {calls : List (PortCall G)} {claimTxId : Hex}
      (run : (recordClaim ctx claimTxId lock).Runs calls (.call (.claimsSet key record) resume)) :
      key = rk ctx ∧ record = ⟨claimTxId, lock⟩ ∧
        resume = fun _ => .pure (.claimSubmitted claimTxId) := by
    rcases (Program.runs_call_iff _ _).1 run with ⟨_, hcall⟩ | ⟨reply, _, _, tail⟩
    · cases hcall
      exact ⟨rfl, rfl, rfl⟩
    · cases ((Program.runs_pure_iff _).1 tail).2
  obtain ⟨_, claimTxId, later, rfl, rfl, tail⟩ := run.of_ask_bind nofun
  split at tail
  · obtain ⟨_, _, later, rfl, _, run⟩ := tail.of_ask_bind nofun
    obtain ⟨hkey, rfl, hresume⟩ := recorded run
    exact ⟨hkey, rfl, by simp, hresume⟩
  · obtain ⟨hkey, rfl, hresume⟩ := recorded tail
    exact ⟨hkey, rfl, by simp, hresume⟩

section
variable {reserver : Bool} {ctx : ScoringCtx} {candidate : SettlementCandidate}
  {calls : List (PortCall G)} {op : Op G} {resume : op.Reply → Async G PrepareResult}

theorem phaseA_runs_claimLock
    (run : (phaseA reserver ctx candidate).Runs calls (.call op resume))
    (noQuery : op.isQuery = false) :
    ∃ htlc preimage later, calls = ⟨.getHtlc candidate.outpoint, .ok (some htlc)⟩ ::
        ⟨.htlcPreimageFor ctx.quote.quoteId ctx.quote.payeePubkey, .ok (some preimage)⟩ :: later ∧
      ctx.tip + ctx.config.claimMargin ≤ htlc.timeoutHeight ∧
      ctx.optional.htlcPreimageFor = true ∧ ctx.optional.submitClaim = true ∧
      (claimLock reserver ctx candidate.outpoint htlc preimage).Runs later (.call op resume) := by
  have other {query : Op G} (hquery : query.isQuery = true) : query ≠ op := by
    rintro rfl
    rw [hquery] at noQuery
    contradiction
  obtain ⟨_, found, later, rfl, rfl, read⟩ := run.of_ask_bind (other rfl)
  cases found with
  | none => cases ((Program.runs_pure_iff _).1 read).2
  | some htlc =>
    dsimp only at read
    split at read
    next => cases ((Program.runs_pure_iff _).1 read).2
    next inTime =>
      split at read
      next => cases ((Program.runs_pure_iff _).1 read).2
      next knows =>
        obtain ⟨_, secret, later, rfl, rfl, claiming⟩ := read.of_ask_bind (other rfl)
        cases secret with
        | none => cases ((Program.runs_pure_iff _).1 claiming).2
        | some preimage =>
          dsimp only at claiming
          split at claiming
          next => cases ((Program.runs_pure_iff _).1 claiming).2
          next submits =>
            exact ⟨htlc, preimage, later, rfl, Int.not_lt.1 inTime, by simpa using knows,
              by simpa using submits, claiming⟩

theorem prepare_runs_phaseA
    (run : (prepare reserver ctx candidate).Runs calls (.call op resume))
    (noQuery : op.isQuery = false) (noLook : .claimsGet (rk ctx) ≠ op) :
    ∃ later, calls = ⟨.claimsGet (rk ctx), none⟩ :: later ∧
      (phaseA reserver ctx candidate).Runs later (.call op resume) := by
  rcases (Program.runs_call_iff _ _).1 run with ⟨_, hcall⟩ | ⟨prior, later, rfl, hphase⟩
  · cases hcall
    contradiction
  · cases prior with
    | some prior =>
      have query := (phaseB_uses ctx prior).of_call hphase
      rw [query] at noQuery
      contradiction
    | none => exact ⟨later, rfl, hphase⟩

end

theorem prepare_runs_claim {reserver : Bool} {ctx : ScoringCtx}
    {candidate : SettlementCandidate} {calls : List (PortCall G)} {key : String}
    {record : ClaimRecord} {resume : Unit → Async G PrepareResult}
    (run : (prepare reserver ctx candidate).Runs calls (.call (.claimsSet key record) resume)) :
    key = rk ctx ∧ record.lock = candidate.outpoint ∧
      (∃ htlc preimage, ⟨.submitClaim htlc preimage, .ok record.claimTxId⟩ ∈ calls) ∧
      resume = fun _ => .pure (.claimSubmitted record.claimTxId) := by
  obtain ⟨later, rfl, hphase⟩ := prepare_runs_phaseA run rfl nofun
  obtain ⟨htlc, preimage, last, rfl, -, -, -, claiming⟩ := phaseA_runs_claimLock hphase rfl
  obtain ⟨hkey, hlock, hsubmit, hresume⟩ := claimLock_runs_claim claiming
  exact ⟨hkey, hlock, ⟨htlc, preimage, by simp [hsubmit]⟩, hresume⟩

private theorem claimLock_runs_submit {reserver : Bool} {ctx : ScoringCtx} {lock : Outpoint}
    {htlc submitted : OnChainHtlc} {preimage secret : Hex} {calls : List (PortCall G)}
    {resume : Except Thrown Hex → Async G PrepareResult}
    (run : (claimLock reserver ctx lock htlc preimage).Runs calls
      (.call (.submitClaim submitted secret) resume)) :
    calls = [] ∧ submitted = htlc ∧ secret = preimage ∧
      claimLock reserver ctx lock htlc preimage = .call (.submitClaim submitted secret) resume := by
  rcases (Program.runs_call_iff _ _).1 run with ⟨rfl, hcall⟩ | ⟨reply, later, rfl, tail⟩
  · cases hcall
    exact ⟨rfl, rfl, rfl, rfl⟩
  · obtain ⟨claimTxId, _, tail⟩ := Program.Runs.of_ofExcept_bind tail
    split at tail
    · obtain ⟨_, _, _, _, _, tail⟩ := tail.of_ask_bind nofun
      rcases (Program.runs_call_iff _ _).1 tail with ⟨_, hcall⟩ | ⟨_, _, _, hend⟩
      · cases hcall
      · cases ((Program.runs_pure_iff _).1 hend).2
    · rcases (Program.runs_call_iff _ _).1 tail with ⟨_, hcall⟩ | ⟨_, _, _, hend⟩
      · cases hcall
      · cases ((Program.runs_pure_iff _).1 hend).2

theorem phaseA_runs_submit {reserver : Bool} {ctx : ScoringCtx}
    {candidate : SettlementCandidate} {calls : List (PortCall G)} {htlc : OnChainHtlc}
    {preimage : Hex} {resume : Except Thrown Hex → Async G PrepareResult}
    (run : (phaseA reserver ctx candidate).Runs calls (.call (.submitClaim htlc preimage) resume)) :
    calls = [⟨.getHtlc candidate.outpoint, .ok (some htlc)⟩,
        ⟨.htlcPreimageFor ctx.quote.quoteId ctx.quote.payeePubkey, .ok (some preimage)⟩] ∧
      ctx.tip + ctx.config.claimMargin ≤ htlc.timeoutHeight ∧
      ctx.optional.htlcPreimageFor = true ∧ ctx.optional.submitClaim = true ∧
      claimLock reserver ctx candidate.outpoint htlc preimage =
        .call (.submitClaim htlc preimage) resume := by
  obtain ⟨found, secret, later, rfl, inTime, knows, submits, claiming⟩ :=
    phaseA_runs_claimLock run rfl
  obtain ⟨rfl, rfl, rfl, hclaim⟩ := claimLock_runs_submit claiming
  exact ⟨rfl, inTime, knows, submits, hclaim⟩

theorem prepare_runs_submit {reserver : Bool} {ctx : ScoringCtx}
    {candidate : SettlementCandidate} {calls : List (PortCall G)} {htlc : OnChainHtlc}
    {preimage : Hex} {resume : Except Thrown Hex → Async G PrepareResult}
    (run : (prepare reserver ctx candidate).Runs calls
      (.call (.submitClaim htlc preimage) resume)) :
    ∃ later, calls = ⟨.claimsGet (rk ctx), none⟩ :: later ∧
      (phaseA reserver ctx candidate).Runs later (.call (.submitClaim htlc preimage) resume) :=
  prepare_runs_phaseA run rfl nofun

theorem prepare_runs_reserve {reserver : Bool} {ctx : ScoringCtx}
    {candidate : SettlementCandidate} {calls : List (PortCall G)} {key : HonorKey}
    {lock : Outpoint} {claimTxId : Hex} {now : Int}
    {resume : Except Thrown Unit → Async G PrepareResult}
    (run : (prepare reserver ctx candidate).Runs calls
      (.call (.reserveClaimOutpoint key lock claimTxId now) resume)) :
    ∃ htlc preimage, calls = [⟨.claimsGet (rk ctx), none⟩,
        ⟨.getHtlc candidate.outpoint, .ok (some htlc)⟩,
        ⟨.htlcPreimageFor ctx.quote.quoteId ctx.quote.payeePubkey, .ok (some preimage)⟩,
        ⟨.submitClaim htlc preimage, .ok claimTxId⟩] ∧
      key = ctx.quote.key ∧ lock = candidate.outpoint ∧
      resume = fun reply => (Program.ofExcept reply).bind fun _ =>
        recordClaim ctx claimTxId candidate.outpoint := by
  obtain ⟨later, rfl, hphase⟩ := prepare_runs_phaseA run rfl nofun
  obtain ⟨htlc, preimage, last, rfl, -, -, -, claiming⟩ := phaseA_runs_claimLock hphase rfl
  obtain ⟨_, submitted, last, rfl, rfl, reserving⟩ := claiming.of_ask_bind nofun
  split at reserving
  · rcases (Program.runs_call_iff _ _).1 reserving with ⟨rfl, hcall⟩ | ⟨_, _, _, recording⟩
    · cases hcall
      exact ⟨htlc, preimage, rfl, rfl, rfl, rfl⟩
    · obtain ⟨_, _, setting⟩ := Program.Runs.of_ofExcept_bind recording
      rcases (Program.runs_call_iff _ _).1 setting with ⟨_, hcall⟩ | ⟨_, _, _, hend⟩
      · cases hcall
      · cases ((Program.runs_pure_iff _).1 hend).2
  · rcases (Program.runs_call_iff _ _).1 reserving with ⟨_, hcall⟩ | ⟨_, _, _, hend⟩
    · cases hcall
    · cases ((Program.runs_pure_iff _).1 hend).2

def form (reserver : Bool) : SettlementForm G where
  id := .htlc
  discover := discover
  score := score
  prepare := some (prepare reserver)
  gateMode := gateMode
  discover_uses ctx := (discover_uses ctx).mono fun _ => Op.byForm_of_isQuery
  score_uses ctx raw := (score_uses ctx raw).mono fun _ => Op.byForm_of_isQuery
  prepare_uses program h ctx candidate := by
    cases h
    exact prepare_uses reserver ctx candidate

end HtlcForm

def builtinForms (reserver : Bool) : List (SettlementForm G) :=
  [PlainOutputForm.form, HtlcForm.form reserver]

end ExferHonor
