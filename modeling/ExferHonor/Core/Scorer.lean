import ExferHonor.Forms.Htlc

/-! The verdict scorer: step 0 against the SEEN row, then the form's discovery and scoring under
the live tip. -/
namespace ExferHonor
open Effects

variable {G : Type}

/-- A later registration under the same id replaces an earlier one. -/
def createFormRegistry (forms : List (SettlementForm G)) : SettlementFormRegistry G :=
  fun id => forms.reverse.find? (·.id = id)

def SettlementFormId.text : SettlementFormId → String
  | .plain => "plain"
  | .htlc => "htlc"

def SettlementFormRegistry.get (forms : SettlementFormRegistry G) (id : SettlementFormId) :
    Except Thrown (SettlementForm G) :=
  match forms id with
  | some form => .ok form
  | none =>
      let text := id.text
      .error (.honorError .malformedQuote s!"no SettlementForm registered for id '{text}'"
        .undefined)

/-- The ports that are always there answer calls of the program; what is left of the injected
bag is the registry, the tuning and which optional port methods exist. -/
structure HonorDeps (G : Type) where
  forms : SettlementFormRegistry G
  config : HonorConfig
  optional : OptionalPorts

def quoteFromSeen (row : SeenRow) : AcceptedQuote where
  quoteId := row.quoteId
  signerPubkey := row.signerPubkey
  payeePubkey := row.payeePubkey
  payerPubkey := row.payerPubkey
  exferAmount := row.exferAmount
  expiresAt := row.expiresAt
  issuedAt := row.acceptedAt
  form := row.form

def scoringCtx (deps : HonorDeps G) (quote : AcceptedQuote) (tip now : Int) : ScoringCtx where
  quote := quote
  tip := tip
  now := now
  config := deps.config
  optional := deps.optional

def scoreQuote (deps : HonorDeps G) (quote : AcceptedQuote) (now : Int) :
    Async G HonorVerdict := do
  let form ← Program.ofExcept (deps.forms.get quote.form)
  let tip ← Port.tipHeight
  let ctx := scoringCtx deps quote tip now
  let raw ← form.discover ctx
  form.score ctx raw

/-- Step 0: a terminal verdict, or the row to go on with. -/
def gateStep0 : Option SeenRow → Except HonorVerdict SeenRow
  | none => .error (.decline .expiredUnobserved none)
  | some row =>
      if row.honoredAt ≠ none then .error (.decline .alreadyHonored none)
      else .ok row

end ExferHonor
