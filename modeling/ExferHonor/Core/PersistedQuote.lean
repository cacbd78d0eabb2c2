import ExferHonor.Core.Alone
import ExferHonor.Core.HtlcRuns

/-! What becomes of an accepted quote that goes through `register` into the SEEN row and is put
together again for the forms. -/
namespace ExferHonor
open Effects Statements

variable {G : Type}

/-! The builtin forms do not look at the time of issue. -/

def AcceptedQuote.issued (quote : AcceptedQuote) (issuedAt : Int) : AcceptedQuote :=
  { quote with issuedAt := issuedAt }

def ScoringCtx.issued (ctx : ScoringCtx) (issuedAt : Int) : ScoringCtx :=
  { ctx with quote := ctx.quote.issued issuedAt }

theorem runBindingSpine_issued (ctx : ScoringCtx) (issuedAt : Int) (raw : RawSettlementCandidate)
    (formId : SettlementFormId) :
    (runBindingSpine (ctx.issued issuedAt) raw formId : Async G SpineResult) =
      runBindingSpine ctx raw formId := rfl

theorem PlainOutputForm.scoreLoop_issued (ctx : ScoringCtx) (issuedAt : Int)
    (raw : List RawSettlementCandidate) (lastDecline : Option HonorVerdict)
    (sawSkippedOnly : Bool) :
    (scoreLoop (ctx.issued issuedAt) raw lastDecline sawSkippedOnly : Async G HonorVerdict) =
      scoreLoop ctx raw lastDecline sawSkippedOnly := by
  induction raw generalizing lastDecline sawSkippedOnly with
  | nil => cases lastDecline <;> rfl
  | cons c raw ih =>
    unfold scoreLoop
    rw [runBindingSpine_issued]
    simp only [ih]
    rfl

theorem PlainOutputForm.score_issued (ctx : ScoringCtx) (issuedAt : Int)
    (raw : List RawSettlementCandidate) :
    (score (ctx.issued issuedAt) raw : Async G HonorVerdict) = score ctx raw := by
  unfold score
  rw [scoreLoop_issued]

theorem scoreQuote_issued {deps : HonorDeps G} {reserver : Bool}
    (forms : deps.forms = createFormRegistry (builtinForms reserver)) (quote : AcceptedQuote)
    (issuedAt now : Int) :
    scoreQuote deps (quote.issued issuedAt) now = scoreQuote deps quote now := by
  unfold scoreQuote
  rw [show (quote.issued issuedAt).form = quote.form from rfl, forms]
  cases registered : (createFormRegistry (builtinForms (G := G) reserver)).get quote.form with
  | error e => rfl
  | ok form =>
    simp only [Program.ofExcept_ok, Program.bind_eq, Program.pure_bind]
    refine congrArg (Program.bind _) (funext fun tip => ?_)
    rcases builtinForms_get registered with ⟨-, rfl⟩ | ⟨-, rfl⟩
    · exact congrArg (Program.bind _) (funext fun raw =>
        PlainOutputForm.score_issued (scoringCtx deps quote tip now) issuedAt raw)
    · rfl

def readBack (model : TxnModel) (world : World G) (key : HonorKey) :
    Except Thrown (Option AcceptedQuote) :=
  (world.perform model (.getSeen key) (.ok none)).1.map (·.map quoteFromSeen)

theorem readBack_eq {model : TxnModel} {world : World G} {key : HonorKey} {row : SeenRowSql}
    (present : world.db.seen.find? key = some row) :
    readBack model world key = .ok (some (quoteFromSeen (Store.rowFromSql model row))) := by
  have found : getSeen world.db.seen key = some row := present
  simp [readBack, World.perform, Store.perform, Except.map, found]

theorem quoteFromSeen_acceptedRow (model : TxnModel) (quote : AcceptedQuote)
    (acceptedAt retainUntil : Int) :
    quoteFromSeen (Store.rowFromSql model (acceptedRow quote acceptedAt retainUntil)) =
      quote.issued acceptedAt := by
  rw [Store.rowFromSql_eq]
  simp [quoteFromSeen, SqliteStore.rowFromSql, acceptedRow, AcceptedQuote.issued]

namespace HonorEngine

/-- After a `register` of an unseen key that does not throw, the quote reads back as it was accepted
but for `issuedAt`, which is the time of the call, and the builtin forms score it as the accepted
one. -/
theorem quote_persisted (engine : HonorEngine G) (model : TxnModel)
    (answer : (op : Op G) → op.Reply) (world : World G) (quote : AcceptedQuote)
    (opts : RegisterOpts) (unseen : world.db.seen.find? quote.key = none) (result : RegisterResult)
    (registered : (registerIn engine model answer world quote opts).2.1 = .ok result) :
    readBack model (registerIn engine model answer world quote opts).2.2 quote.key =
        .ok (some (quote.issued (opts.now.getD world.clock))) ∧
      ∀ (deps : HonorDeps G) (reserver : Bool) (now : Int),
        deps.forms = createFormRegistry (builtinForms reserver) →
        scoreQuote deps (quote.issued (opts.now.getD world.clock)) now =
          scoreQuote deps quote now := by
  obtain ⟨-, present⟩ := registerIn_ok unseen registered
  refine ⟨?_, fun deps reserver now forms => scoreQuote_issued forms quote _ now⟩
  rw [readBack_eq present, registeredRow, quoteFromSeen_acceptedRow]

def registered20 (model : TxnModel) :
    List (PortCall Unit) × Except Thrown RegisterResult × World Unit :=
  registerIn sampleEngine model paidPorts.answer (.booted (.empty ()) 20) sampleQuote {}

theorem quote_persisted_async :
    readBack .async (registered20 .async).2.2 sampleQuote.key =
        .ok (some (sampleQuote.issued 20)) ∧
      ∀ (deps : HonorDeps Unit) (reserver : Bool) (now : Int),
        deps.forms = createFormRegistry (builtinForms reserver) →
        scoreQuote deps (sampleQuote.issued 20) now = scoreQuote deps sampleQuote now :=
  quote_persisted sampleEngine .async paidPorts.answer (.booted (.empty ()) 20) sampleQuote {}
    rfl ⟨true, 4600⟩ rfl

theorem issuedAt_lost :
    (registered20 .sync).2.1 = .ok ⟨true, 4600⟩ ∧
      readBack .sync (registered20 .sync).2.2 sampleQuote.key ≠ .ok (some sampleQuote) := by
  refine ⟨rfl, fun same => ?_⟩
  have unseen : (World.booted (Db.empty ()) 20).db.seen.find? sampleQuote.key = none := rfl
  have succeeded : (registered20 .sync).2.1 = .ok ⟨true, 4600⟩ := rfl
  rw [registered20, readBack_eq (registerIn_ok unseen succeeded).2, registeredRow,
    quoteFromSeen_acceptedRow] at same
  exact absurd (congrArg AcceptedQuote.issuedAt (Option.some.inj (Except.ok.inj same))) (by decide)

end HonorEngine
end ExferHonor
