import ExferHonor.Forms.Htlc

/-! What the HTLC form decides on a list of candidates, against a chain and a keystore that
always reply the same. Only the first candidate and its lock count. -/
namespace ExferHonor
namespace HtlcForm
open Effects

variable {G : Type}

section
variable (answer : (op : Op G) → op.Reply) (ctx : ScoringCtx)

def LockBinds (c : RawSettlementCandidate) : Prop :=
  ∃ htlc, answer (.getHtlc c.outpoint) = .ok (some htlc) ∧ validateOnChain ctx htlc = none

def DatumBinds (outpoint : Outpoint) : Prop :=
  ∃ datum quoteIdHex, answer (.getOutputDatum outpoint) = .ok datum ∧ datum.honorable = true ∧
    datum.quoteIdHex = some quoteIdHex ∧
    decodeSettlementDatum quoteIdHex settlementDatumVersion = .ok ctx.quote.quoteId

def CustodyHeld : Prop := answer (.controlsPayee ctx.quote.payeePubkey) = .ok true

end

variable {answer : (op : Op G) → op.Reply} {ctx : ScoringCtx}

@[simp] theorem lockCandidate_outpoint (c : RawSettlementCandidate) (htlc : OnChainHtlc) :
    (lockCandidate ctx c htlc).outpoint = c.outpoint := rfl

/-- The candidate honored is the first one listed, and its lock binds. -/
theorem score_eq_honor_iff (raw : List RawSettlementCandidate) (candidate : SettlementCandidate)
    (form : SettlementFormId) :
    (score ctx raw).eval answer = .ok (.honor candidate form) ↔
      ∃ first htlc, raw.head? = some first ∧ answer (.getHtlc first.outpoint) = .ok (some htlc) ∧
        validateOnChain ctx htlc = none ∧ candidate = lockCandidate ctx first htlc ∧
        form = .htlc := by
  cases raw with
  | nil => simp [score]
  | cons c rest =>
    have asked : (Port.getHtlc c.outpoint : Async G (Option OnChainHtlc)).eval answer =
        answer (.getHtlc c.outpoint) := by
      show (Program.ofExcept (answer (.getHtlc c.outpoint))).eval answer = _
      cases answer (.getHtlc c.outpoint) <;> rfl
    simp only [score, Program.bind_eq, Program.eval_bind, asked]
    cases hhtlc : answer (.getHtlc c.outpoint) with
    | error e => simp [Except.bind, hhtlc]
    | ok found =>
      cases found with
      | none => simp [Except.bind, hhtlc]
      | some htlc =>
        cases hbinding : validateOnChain ctx htlc with
        | none => simp [Except.bind, hhtlc, hbinding, eq_comm]
        | some binding =>
          have hdecline := validateOnChain_decision hbinding
          simp only [Except.bind, hbinding, Program.pure_eq, Program.eval_pure, Except.ok.injEq,
            List.head?_cons, Option.some.injEq]
          constructor
          · rintro rfl
            contradiction
          · rintro ⟨_, _, rfl, hother, hnone, _⟩
            rw [hhtlc] at hother
            cases hother
            rw [hbinding] at hnone
            contradiction

theorem score_honors_bound_iff (answer : (op : Op G) → op.Reply) (ctx : ScoringCtx)
    (raw : List RawSettlementCandidate) :
    (∃ c ∈ raw, LockBinds answer ctx c ∧ ∃ candidate form,
        (score ctx raw).eval answer = .ok (.honor candidate form) ∧
        candidate.outpoint = c.outpoint) ↔
      ∃ first, raw.head? = some first ∧ LockBinds answer ctx first := by
  constructor
  · rintro ⟨c, hmem, binds, candidate, form, heval, -⟩
    obtain ⟨first, htlc, hfirst, hhtlc, hvalid, -, -⟩ := (score_eq_honor_iff _ _ _).1 heval
    exact ⟨first, hfirst, htlc, hhtlc, hvalid⟩
  · rintro ⟨first, hfirst, htlc, hhtlc, hvalid⟩
    refine ⟨first, List.mem_of_mem_head? hfirst, ⟨htlc, hhtlc, hvalid⟩,
      lockCandidate ctx first htlc, .htlc, ?_, rfl⟩
    exact (score_eq_honor_iff _ _ _).2 ⟨first, htlc, hfirst, hhtlc, hvalid, rfl, rfl⟩

/-- What the spine demands of every form in steps 2 and 5: an honored output carries the quote's
id and the payee key is controlled; a keystore that throws is a retryable fault. -/
structure EnforcesSpine (answer : (op : Op G) → op.Reply) (ctx : ScoringCtx)
    (raw : List RawSettlementCandidate) : Prop where
  honored : ∀ candidate form, (score ctx raw).eval answer = .ok (.honor candidate form) →
    DatumBinds answer ctx candidate.outpoint ∧ CustodyHeld answer ctx
  keystoreFault : ∀ (calls : List (PortCall G)) result e, (score ctx raw).Returns calls result →
    ⟨.controlsPayee ctx.quote.payeePubkey, .error e⟩ ∈ calls →
    ∃ message, result = .error (.honorError .keystoreFault message e)

theorem score_asks_no_custody {raw : List RawSettlementCandidate} {calls : List (PortCall G)}
    {result : Except Thrown HonorVerdict} (returns : (score ctx raw).Returns calls result)
    (payeePubkey : PubKey) : ∀ call ∈ calls, call.op ≠ .controlsPayee payeePubkey := by
  have uses : Uses (· ≠ .controlsPayee payeePubkey) (score (G := G) ctx raw) := by
    cases raw with
    | nil => trivial
    | cons c rest =>
      apply Uses.bind (Uses.ask nofun)
      intro htlc
      cases htlc with
      | none => trivial
      | some htlc =>
        dsimp only
        split <;> trivial
  exact (uses.runs returns).1

/-- The form enforces the spine just where the first lock does not bind anyway, or its datum and
the payee's custody happen to be in order. -/
theorem enforces_spine_iff (answer : (op : Op G) → op.Reply) (ctx : ScoringCtx)
    (raw : List RawSettlementCandidate) :
    EnforcesSpine answer ctx raw ↔ ∀ first, raw.head? = some first →
      LockBinds answer ctx first → DatumBinds answer ctx first.outpoint ∧
        CustodyHeld answer ctx := by
  constructor
  · rintro enforced first hfirst ⟨htlc, hhtlc, hvalid⟩
    exact enforced.honored (lockCandidate ctx first htlc) .htlc
      ((score_eq_honor_iff _ _ _).2 ⟨first, htlc, hfirst, hhtlc, hvalid, rfl, rfl⟩)
  · intro inOrder
    constructor
    · intro candidate form heval
      obtain ⟨first, htlc, hfirst, hhtlc, hvalid, rfl, -⟩ := (score_eq_honor_iff _ _ _).1 heval
      exact inOrder first hfirst ⟨htlc, hhtlc, hvalid⟩
    · intro calls result e returns asked
      exact absurd rfl (score_asks_no_custody returns ctx.quote.payeePubkey _ asked)

/-! Two candidates that carry `sampleQuote`'s id: a stranger's HTLC and the payee's own. -/

def ownLock : OnChainHtlc := ⟨⟨"01", 0⟩, "bb", "cc", "dd", 1000, 500, some 60, .locked⟩
def foreignLock : OnChainHtlc := ⟨⟨"09", 0⟩, "99", "cc", "dd", 1000, 1, some 60, .locked⟩

def ownCandidate : RawSettlementCandidate := ⟨⟨"01", 0⟩, 500, "ee", some 60⟩
def foreignCandidate : RawSettlementCandidate := ⟨⟨"09", 0⟩, 1, "ff", some 60⟩

def looseLockPorts : TotalPorts where
  tip := 100
  outputDatum _ := ⟨none, false⟩
  settlements _ := [foreignCandidate, ownCandidate]
  transaction _ := none
  txInputs _ := []
  outputScript _ := ""
  htlc lock := if lock = ⟨"01", 0⟩ then some ownLock else some foreignLock
  submitClaim _ preimage := preimage
  controlsPayee _ := false
  htlcPreimage _ _ := none

def lockCtx : ScoringCtx :=
  ⟨{ sampleQuote with form := .htlc }, 100, 20, sampleConfig, ⟨true, true⟩⟩

theorem score_blocked_by_foreign :
    ownCandidate ∈ [foreignCandidate, ownCandidate] ∧
    LockBinds (G := Unit) looseLockPorts.answer lockCtx ownCandidate ∧
    (score lockCtx [foreignCandidate, ownCandidate]).eval
        (looseLockPorts.answer : (op : Op Unit) → op.Reply) =
      .ok (.decline .addressMismatch (some "HTLC receiver != payee (R3)")) := by
  refine ⟨by simp, ⟨ownLock, rfl, ?_⟩, ?_⟩
  · decide
  · rfl

theorem spine_not_enforced :
    (score lockCtx [ownCandidate]).eval (looseLockPorts.answer : (op : Op Unit) → op.Reply) =
      .ok (.honor (lockCandidate lockCtx ownCandidate ownLock) .htlc) ∧
    ¬ EnforcesSpine (G := Unit) looseLockPorts.answer lockCtx [ownCandidate] := by
  refine ⟨rfl, fun enforced => ?_⟩
  have hcustody := (enforced.honored (lockCandidate lockCtx ownCandidate ownLock) .htlc rfl).2
  cases hcustody

end HtlcForm
end ExferHonor
