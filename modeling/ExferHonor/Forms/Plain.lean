import ExferHonor.Forms.Spine

/-! The plain form: one confirmed output that pays the payee exactly, honored once it is
buried to the confirmation depth under the live tip. -/
namespace ExferHonor
open Effects

variable {G : Type}

namespace PlainOutputForm

def discover (ctx : ScoringCtx) : Async G (List RawSettlementCandidate) :=
  Port.findSettlementsByQuoteId ctx.quote.quoteId

/-- R4: confirmed to depth, off the live tip. -/
def depthGate (ctx : ScoringCtx) (candidate : SettlementCandidate) : HonorVerdict :=
  match candidate.blockHeight with
  | none => .wait .insufficientDepth (some "unconfirmed")
  | some blockHeight =>
      let depth := ctx.tip - blockHeight + 1
      let confirmationDepth := ctx.config.confirmationDepth
      if depth < confirmationDepth then
        .wait .insufficientDepth
          (some s!"depth {depth} < CONFIRMATION_DEPTH {confirmationDepth}")
      else .honor candidate .plain

/-- The candidates still to be scored, the last verdict that was not a skip and whether all
so far were skipped. -/
def scoreLoop (ctx : ScoringCtx) :
    List RawSettlementCandidate → Option HonorVerdict → Bool → Async G HonorVerdict
  | [], some lastDecline, _ => pure lastDecline
  | [], none, sawSkippedOnly =>
      pure (.wait .noCandidate
        (if sawSkippedOnly then some "no candidate carried this quote_id" else none))
  | c :: raw, lastDecline, sawSkippedOnly => do
      match ← runBindingSpine ctx c .plain with
      | .skip => scoreLoop ctx raw lastDecline sawSkippedOnly
      | .verdict verdict => scoreLoop ctx raw (some verdict) false
      | .ok candidate =>
          match depthGate ctx candidate with
          | .honor candidate form => pure (.honor candidate form)
          | depthVerdict => scoreLoop ctx raw (some depthVerdict) false

def score (ctx : ScoringCtx) (raw : List RawSettlementCandidate) : Async G HonorVerdict :=
  if raw.isEmpty then pure (.wait .noCandidate none)
  else scoreLoop ctx raw none true

def prepare (_ : ScoringCtx) (_ : SettlementCandidate) : Async G PrepareResult := pure .ready

def gateMode : GateMode := .single

theorem discover_uses (ctx : ScoringCtx) : Uses (·.isQuery) (discover (G := G) ctx) :=
  ⟨rfl, fun reply => Uses.ofExcept reply⟩

theorem scoreLoop_uses (ctx : ScoringCtx) (raw : List RawSettlementCandidate)
    (lastDecline : Option HonorVerdict) (sawSkippedOnly : Bool) :
    Uses (·.isQuery) (scoreLoop (G := G) ctx raw lastDecline sawSkippedOnly) := by
  induction raw generalizing lastDecline sawSkippedOnly with
  | nil => cases lastDecline <;> trivial
  | cons c raw ih =>
    apply Uses.bind (runBindingSpine_uses ctx c .plain)
    intro spine
    split
    · exact ih _ _
    · exact ih _ _
    · split
      · trivial
      · exact ih _ _

theorem score_uses (ctx : ScoringCtx) (raw : List RawSettlementCandidate) :
    Uses (·.isQuery) (score (G := G) ctx raw) := by
  unfold score
  split
  · trivial
  · exact scoreLoop_uses ctx raw none true

def form : SettlementForm G where
  id := .plain
  discover := discover
  score := score
  prepare := some prepare
  gateMode := gateMode
  discover_uses ctx := (discover_uses ctx).mono fun _ => Op.byForm_of_isQuery
  score_uses ctx raw := (score_uses ctx raw).mono fun _ => Op.byForm_of_isQuery
  prepare_uses program h ctx candidate := by
    cases h
    trivial

end PlainOutputForm
end ExferHonor
