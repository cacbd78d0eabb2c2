import ExferHonor.Adapters.SeenRow

/-! What a call of the synchronous store makes of one row of either table, told from the call and
its reply. -/
namespace ExferHonor
namespace Store
open Effects Relational Statements

variable {G : Type}

def succeeds : PortCall G → Bool
  | ⟨.upsertAccepted _ _ _, reply⟩ => Except.toBool reply
  | ⟨.markObservedBeforeExpiry _ _, reply⟩ => Except.toBool reply
  | ⟨.reserveClaimOutpoint _ _ _ _, reply⟩ => Except.toBool reply
  | ⟨.runHonorTxn _, reply⟩ => Except.toBool (TxnReply.result reply)
  | ⟨.sweep _, reply⟩ => Except.toBool reply
  | _ => false

def seenAfter (key : HonorKey) (row : Option SeenRowSql) : Op G → Option SeenRowSql
  | .upsertAccepted quote acceptedAt retainUntil =>
      if quote.key = key then some (row.getD (acceptedRow quote acceptedAt retainUntil)) else row
  | .markObservedBeforeExpiry observed now => row.map fun row =>
      if key = observed ∧ now < row.expiresAt then observedRow row else row
  | .runHonorTxn input => row.map fun row =>
      if key = input.key then lockedRow input.now input.outpoint row else row
  | .sweep now => row.filter fun row => !(row.retainUntil < now)
  | _ => row

def honoredRow (input : HonorTxnInput G) (row : Option ConsumedRow) : Option ConsumedRow :=
  match input.mode with
  | .single => some (consumedRow input.key input.outpoint input.now input.retainUntil)
  | .promote => row.map (promotedRow input.now input.retainUntil)

def consumedAfter (outpoint : Outpoint) (row : Option ConsumedRow) : Op G → Option ConsumedRow
  | .reserveClaimOutpoint key reserved claimTxId _ =>
      if reserved = outpoint then some (row.getD (reservedRow key reserved claimTxId)) else row
  | .runHonorTxn input => if outpoint = input.outpoint then honoredRow input row else row
  | .sweep now => row.filter fun row => !(row.retainUntil < now)
  | _ => row

/-- `next` is `row` after one call of the store: only its latch and its lock can have been set, the
latch by an observation in time. -/
structure KeepsRow (row : SeenRowSql) (op : Op G) (next : SeenRowSql) : Prop where
  form : next.form = row.form
  expiresAt : next.expiresAt = row.expiresAt
  retainUntil : next.retainUntil = row.retainUntil
  honored : row.honoredAt ≠ none → next.honoredAt ≠ none
  observed : next.observedBeforeExpiry = true → row.observedBeforeExpiry = true ∨
    ∃ key now, op = .markObservedBeforeExpiry key now ∧ now < row.expiresAt

theorem seenAfter_some (key : HonorKey) (row : SeenRowSql) (op : Op G) :
    (∃ next, seenAfter key (some row) op = some next ∧ KeepsRow row op next) ∨
      ∃ now, op = .sweep now ∧ row.retainUntil < now ∧ seenAfter key (some row) op = none := by
  have same : KeepsRow row op row := ⟨rfl, rfl, rfl, id, .inl⟩
  cases op
  case upsertAccepted quote acceptedAt retainUntil =>
    exact .inl ⟨row, by simp [seenAfter], same⟩
  case markObservedBeforeExpiry observed now =>
    refine .inl ⟨_, rfl, ?_⟩
    dsimp only
    split
    next early => exact ⟨rfl, rfl, rfl, id, fun _ => .inr ⟨_, _, rfl, early.2⟩⟩
    next => exact same
  case runHonorTxn input =>
    refine .inl ⟨_, rfl, ?_⟩
    dsimp only
    split
    next => exact ⟨rfl, rfl, rfl, by simp [lockedRow], .inl⟩
    next => exact same
  case sweep now =>
    by_cases expired : row.retainUntil < now
    · exact .inr ⟨now, rfl, expired, by simp [seenAfter, Option.filter_some, expired]⟩
    · exact .inl ⟨row, by simp [seenAfter, Option.filter_some, expired], same⟩
  all_goals exact .inl ⟨row, rfl, same⟩

theorem seenAfter_none {key : HonorKey} {op : Op G} {next : SeenRowSql}
    (created : seenAfter key none op = some next) :
    ∃ quote acceptedAt retainUntil, op = .upsertAccepted quote acceptedAt retainUntil ∧
      quote.key = key ∧ next = acceptedRow quote acceptedAt retainUntil := by
  cases op
  case upsertAccepted quote acceptedAt retainUntil =>
    simp only [seenAfter, Option.getD_none] at created
    split at created
    next own => exact ⟨quote, acceptedAt, retainUntil, rfl, own, (Option.some.inj created).symm⟩
    next => cases created
  all_goals cases created

theorem seenAfter_honored {key : HonorKey} {row : Option SeenRowSql} {op : Op G} {next : SeenRowSql}
    (after : seenAfter key row op = some next) (honored : next.honoredAt ≠ none) :
    (∃ old, row = some old ∧ old.honoredAt ≠ none) ∨
      ∃ input, op = .runHonorTxn input ∧ input.key = key := by
  cases row with
  | none =>
    obtain ⟨quote, acceptedAt, retainUntil, -, -, rfl⟩ := seenAfter_none after
    exact absurd rfl honored
  | some old =>
    by_cases txn : ∃ input, op = .runHonorTxn input ∧ input.key = key
    · exact .inr txn
    · refine .inl ⟨old, rfl, ?_⟩
      cases op
      case upsertAccepted quote acceptedAt retainUntil =>
        simp only [seenAfter, Option.getD_some, ite_self, Option.some.injEq] at after
        exact after ▸ honored
      case markObservedBeforeExpiry observed now =>
        simp only [seenAfter, Option.map_some, Option.some.injEq] at after
        subst after
        split at honored <;> exact honored
      case runHonorTxn input =>
        have other : ¬ key = input.key := fun same => txn ⟨input, rfl, same.symm⟩
        simp only [seenAfter, Option.map_some, if_neg other, Option.some.injEq] at after
        exact after ▸ honored
      case sweep now =>
        simp only [seenAfter, Option.filter_eq_some_iff, Option.some.injEq] at after
        exact after.1 ▸ honored
      all_goals exact Option.some.inj after ▸ honored

theorem consumedAfter_some {outpoint : Outpoint} (row : ConsumedRow) {op : Op G}
    (elsewhere : ∀ input, op = .runHonorTxn input → input.outpoint ≠ outpoint) :
    consumedAfter outpoint (some row) op = some row ∨
      ∃ now, op = .sweep now ∧ row.retainUntil < now ∧
        consumedAfter outpoint (some row) op = none := by
  cases op
  case reserveClaimOutpoint key reserved claimTxId now => exact .inl (by simp [consumedAfter])
  case runHonorTxn input => exact .inl (if_neg fun same => elsewhere input rfl same.symm)
  case sweep now =>
    by_cases expired : row.retainUntil < now
    · exact .inr ⟨now, rfl, expired, by simp [consumedAfter, Option.filter_some, expired]⟩
    · exact .inl (by simp [consumedAfter, Option.filter_some, expired])
  all_goals exact .inl rfl

theorem succeeds_txn_iff {input : HonorTxnInput G} {reply : TxnReply} :
    succeeds (⟨.runHonorTxn input, reply⟩ : PortCall G) = true ↔ reply.result = .ok () := by
  obtain ⟨called, result⟩ := reply
  cases result with
  | error e => exact ⟨nofun, nofun⟩
  | ok value => exact ⟨fun _ => rfl, fun _ => rfl⟩

theorem committed_txn {db : Db G} {input : HonorTxnInput G} {answer : TxnReply}
    (success : succeeds (⟨.runHonorTxn input, (perform .sync db (.runHonorTxn input) answer).1⟩ :
      PortCall G) = true) :
    ∃ gated, gateWrites SqliteStore.driver db input = .ok gated ∧
      (perform .sync db (.runHonorTxn input) answer).2 =
        { gated with goods := goodsAfter gated.goods (deliverCalls .sync gated.goods input) } := by
  have resolved := succeeds_txn_iff.1 success
  have executed := perform_txn_ok resolved
  obtain ⟨gated, passed, hafter⟩ := runHonorTxn_ok (executed ▸ resolved)
  rw [executed, hafter, if_neg (by simp)]
  exact ⟨gated, passed, rfl⟩

theorem ended_txn {db gated : Db G} {input : HonorTxnInput G} {answer : TxnReply}
    (success : succeeds (⟨.runHonorTxn input, (perform .sync db (.runHonorTxn input) answer).1⟩ :
      PortCall G) = true) (passed : gateWrites SqliteStore.driver db input = .ok gated) :
    deliverEnd .sync gated.goods input = .ok .value := by
  have resolved := succeeds_txn_iff.1 success
  rw [perform_txn_ok resolved] at resolved
  simp only [runHonorTxn, SqliteStore.runHonorTxn, passed] at resolved
  unfold deliverEnd
  dsimp only
  split at resolved
  · contradiction
  next hended => exact hended
  · contradiction

theorem succeeds_txn {db : Db G} {input : HonorTxnInput G} {answer : TxnReply}
    (success : succeeds (⟨.runHonorTxn input, (perform .sync db (.runHonorTxn input) answer).1⟩ :
      PortCall G) = true) :
    ∃ gated goods, gateWrites SqliteStore.driver db input = .ok gated ∧
      (perform .sync db (.runHonorTxn input) answer).2 = { gated with goods := goods } := by
  obtain ⟨gated, passed, hafter⟩ := committed_txn success
  exact ⟨gated, _, passed, hafter⟩

theorem perform_fails {db : Db G} {op : Op G} {answer : op.Reply}
    (failed : succeeds (⟨op, (perform .sync db op answer).1⟩ : PortCall G) = false) :
    (perform .sync db op answer).2 = db := by
  cases op
  case runHonorTxn input =>
    cases hresult : (perform .sync db (.runHonorTxn input) answer).1.result with
    | error e => exact perform_txn_error hresult
    | ok value =>
      unfold succeeds at failed
      simp [hresult, Except.toBool] at failed
  case upsertAccepted => cases answer <;> first | rfl | cases failed
  case markObservedBeforeExpiry => cases answer <;> first | rfl | cases failed
  case reserveClaimOutpoint => cases answer <;> first | rfl | cases failed
  case sweep => cases answer <;> first | rfl | cases failed
  case getSeen => cases answer <;> rfl
  all_goals rfl

theorem perform_goods (db : Db G) {op : Op G} (answer : op.Reply)
    (other : ∀ input, op ≠ .runHonorTxn input) :
    (perform .sync db op answer).2.goods = db.goods := by
  cases op
  case runHonorTxn input => exact absurd rfl (other input)
  all_goals cases answer <;> rfl

theorem perform_seenAfter (db : Db G) (op : Op G) (answer : op.Reply) (key : HonorKey) :
    (perform .sync db op answer).2.seen.find? key =
      if succeeds ⟨op, (perform .sync db op answer).1⟩ = true then
        seenAfter key (db.seen.find? key) op
      else db.seen.find? key := by
  split
  next success =>
    cases op
    case runHonorTxn input =>
      obtain ⟨gated, goods, passed, hafter⟩ := succeeds_txn success
      obtain ⟨⟨row, found, -, hseen⟩, -, -⟩ := gateWrites_ok passed
      rw [hafter, hseen, seenAfter]
      by_cases hkey : key = input.key
      · subst hkey
        simp [found]
      · simp [hkey]
    case upsertAccepted =>
      cases answer with
      | error e => cases success
      | ok value => exact find?_upsertAccepted _ _ _ _ _
    case markObservedBeforeExpiry =>
      cases answer with
      | error e => cases success
      | ok value => exact find?_markObserved _ _ _ _
    case sweep =>
      cases answer with
      | error e => cases success
      | ok value => exact find?_sweepSeen _ _ _
    case reserveClaimOutpoint => cases answer <;> rfl
    all_goals cases success
  next failed => rw [perform_fails (by simpa using failed)]

theorem perform_consumedAfter (db : Db G) (op : Op G) (answer : op.Reply) (outpoint : Outpoint) :
    (perform .sync db op answer).2.consumed.find? outpoint =
      if succeeds ⟨op, (perform .sync db op answer).1⟩ = true then
        consumedAfter outpoint (db.consumed.find? outpoint) op
      else db.consumed.find? outpoint := by
  split
  next success =>
    cases op
    case runHonorTxn input =>
      obtain ⟨gated, goods, passed, hafter⟩ := succeeds_txn success
      obtain ⟨-, ⟨row, honored, hconsumed⟩, -⟩ := gateWrites_ok passed
      rw [hafter, hconsumed, consumedAfter]
      by_cases ho : outpoint = input.outpoint
      · subst ho
        rw [if_pos rfl, if_pos rfl, honoredRow]
        generalize db.consumed.find? input.outpoint = before at honored
        cases honored with
        | inserted mode => rw [mode]
        | promoted mode state outpoint =>
          rw [mode]
          rfl
      · rw [if_neg ho, if_neg ho]
    case reserveClaimOutpoint =>
      cases answer with
      | error e => cases success
      | ok value => exact find?_reserveClaim _ _ _ _ _
    case sweep =>
      cases answer with
      | error e => cases success
      | ok value => exact find?_sweepOutpoints _ _ _
    case upsertAccepted => cases answer <;> rfl
    case markObservedBeforeExpiry => cases answer <;> rfl
    all_goals cases success
  next failed => rw [perform_fails (by simpa using failed)]

theorem txn_gated {db : Db G} {input : HonorTxnInput G} {answer : TxnReply}
    (success : succeeds (⟨.runHonorTxn input, (perform .sync db (.runHonorTxn input) answer).1⟩ :
      PortCall G) = true) :
    (∃ row, db.seen.find? input.key = some row ∧ Lockable input.now row) ∧
      ∃ row, HonoredRow input (db.consumed.find? input.outpoint) row := by
  obtain ⟨gated, goods, passed, -⟩ := succeeds_txn success
  obtain ⟨⟨row, found, lockable, -⟩, ⟨new, honored, -⟩, -⟩ := gateWrites_ok passed
  exact ⟨⟨row, found, lockable⟩, new, honored⟩

end Store
end ExferHonor
