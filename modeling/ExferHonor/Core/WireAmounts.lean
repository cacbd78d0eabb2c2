import ExferHonor.Adapters.IndexerChain
import ExferHonor.Adapters.WalletdVerifier
import ExferHonor.Core.PersistedQuote
import ExferHonor.Numeric.Significant

/-! Amounts on their way from JSON text through the adapters and the store to the forms. Behind the
JSON number every step is exact. -/
namespace ExferHonor
open Effects Statements

variable {G : Type}

/-- The double that JSON parsing makes of an integer literal. -/
def jsonNumber (literal : Nat) : Int := Numeric.roundSignificant 53 literal

def QuoteJson.parsed (q : QuoteJson) (literal : Nat) : QuoteJson :=
  { q with exferAmount := jsonNumber literal }

def RawHtlcRecord.parsed (r : RawHtlcRecord) (literal : Nat) : RawHtlcRecord :=
  { r with amount := .number (jsonNumber literal) }

def seenAfterUpsert (model : TxnModel) (db : Db G) (quote : AcceptedQuote)
    (acceptedAt retainUntil : Int) : Except Thrown (Option SeenRow) :=
  (Store.perform model
    (Store.perform model db (.upsertAccepted quote acceptedAt retainUntil) (.ok ())).2
    (.getSeen quote.key) (.ok none)).1

structure AmountsAre (literal : Nat) (amount : Int) : Prop where
  accepted : ∀ (q : QuoteJson) (form : SettlementFormId),
    (toAcceptedQuote (q.parsed literal) form).exferAmount = amount
  stored : ∀ (G : Type) (model : TxnModel) (db : Db G) (q : QuoteJson) (form : SettlementFormId)
    (acceptedAt retainUntil : Int),
    db.seen.find? (toAcceptedQuote (q.parsed literal) form).key = none →
    ∃ row, seenAfterUpsert model db (toAcceptedQuote (q.parsed literal) form) acceptedAt
      retainUntil = .ok (some row) ∧ row.exferAmount = amount ∧
      (quoteFromSeen row).exferAmount = amount
  htlc : ∀ (lock : Outpoint) (record : RawHtlcRecord) (answer : (op : RpcOp) → op.Reply),
    answer (.htlcStatus lock.txId lock.outputIndex) = .ok (some (record.parsed literal)) →
    ∃ htlc, (IndexerChainSource.getHtlc lock).eval answer = .ok (some htlc) ∧ htlc.value = amount

theorem seenAfterUpsert_eq (model : TxnModel) {db : Db G} {quote : AcceptedQuote}
    (unseen : db.seen.find? quote.key = none) (acceptedAt retainUntil : Int) :
    seenAfterUpsert model db quote acceptedAt retainUntil =
      .ok (some (Store.rowFromSql model (acceptedRow quote acceptedAt retainUntil))) := by
  have present : getSeen (upsertAccepted db.seen quote acceptedAt retainUntil) quote.key =
      some (acceptedRow quote acceptedAt retainUntil) := by
    rw [getSeen, find?_upsertAccepted, if_pos rfl, unseen, Option.getD_none]
  simp only [seenAfterUpsert, Store.perform, present, Option.map_some]

theorem amounts_are (literal : Nat) : AmountsAre literal (jsonNumber literal) where
  accepted q form := rfl
  stored G model db q form acceptedAt retainUntil unseen := by
    refine ⟨_, seenAfterUpsert_eq model unseen acceptedAt retainUntil, ?_⟩
    have same := quoteFromSeen_acceptedRow model (toAcceptedQuote (q.parsed literal) form)
      acceptedAt retainUntil
    exact ⟨congrArg AcceptedQuote.exferAmount same, congrArg AcceptedQuote.exferAmount same⟩
  htlc lock record answer answered := by
    unfold IndexerChainSource.getHtlc
    simp only [Program.handle, Program.bind_eq, Program.call_bind, Program.eval, answered]
    exact ⟨_, rfl, rfl⟩

/-- The amounts are those of the JSON text exactly when the literal has 53 significant bits. -/
theorem amounts_exact_iff (n : UInt64) :
    AmountsAre n.toNat n.toNat ↔ Numeric.Significant 53 n.toNat := by
  rw [← Numeric.roundSignificant_eq_iff (by decide)]
  constructor
  · intro kept
    have rounded := (amounts_are n.toNat).accepted WalletdVerifier.sampleQuoteJson .plain
    exact Int.ofNat.inj (rounded.symm.trans (kept.accepted _ _))
  · intro same
    have amounts := amounts_are n.toNat
    rwa [jsonNumber, same] at amounts

theorem amount_rounded :
    (toAcceptedQuote (WalletdVerifier.sampleQuoteJson.parsed 9007199254740993) .plain).exferAmount =
        9007199254740992 ∧
      ¬ AmountsAre 9007199254740993 9007199254740993 := by
  have rounded : (toAcceptedQuote (WalletdVerifier.sampleQuoteJson.parsed 9007199254740993)
      .plain).exferAmount = 9007199254740992 := by decide
  refine ⟨rounded, fun kept => ?_⟩
  have := kept.accepted WalletdVerifier.sampleQuoteJson .plain
  rw [rounded] at this
  contradiction

end ExferHonor
