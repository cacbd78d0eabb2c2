import ExferHonor.Adapters.Store

/-! The life of one SEEN row: accepted, perhaps observed, locked by the honor transaction that
resolves, swept. -/
namespace ExferHonor
namespace Store
open Effects Relational Statements

variable {G : Type}

inductive SeenChange (key : HonorKey) (before : Option SeenRowSql) :
    PortCall G → Option SeenRowSql → Prop
  | same {call} : SeenChange key before call before
  | accepted {quote acceptedAt retainUntil reply} (own : quote.key = key) (absent : before = none) :
      SeenChange key before ⟨.upsertAccepted quote acceptedAt retainUntil, reply⟩
        (some (acceptedRow quote acceptedAt retainUntil))
  | observed {row now reply} (present : before = some row) (early : now < row.expiresAt) :
      SeenChange key before ⟨.markObservedBeforeExpiry key now, reply⟩ (some (observedRow row))
  | locked {row input reply} (own : input.key = key) (present : before = some row)
      (lockable : Lockable input.now row) (resolved : reply.result = .ok ()) :
      SeenChange key before ⟨.runHonorTxn input, reply⟩
        (some (lockedRow input.now input.outpoint row))
  | swept {row now reply} (present : before = some row) (expired : row.retainUntil < now) :
      SeenChange key before ⟨.sweep now, reply⟩ none

theorem perform_txn_ok {model : TxnModel} {db : Db G} {input : HonorTxnInput G}
    {answer : TxnReply}
    (resolved : (perform model db (.runHonorTxn input) answer).1.result = .ok ()) :
    perform model db (.runHonorTxn input) answer = runHonorTxn model db input := by
  obtain ⟨_ | called, result⟩ := answer
  · cases result with
    | error e => simp [perform] at resolved
    | ok _ => rfl
  · rfl

theorem perform_txn_error {model : TxnModel} {db : Db G} {input : HonorTxnInput G}
    {answer : TxnReply} {e : Thrown}
    (thrown : (perform model db (.runHonorTxn input) answer).1.result = .error e) :
    (perform model db (.runHonorTxn input) answer).2 = db := by
  obtain ⟨_ | called, result⟩ := answer
  · cases result with
    | error e => rfl
    | ok _ => exact runHonorTxn_error thrown
  · exact runHonorTxn_error thrown

theorem perform_txn_seen (model : TxnModel) (db : Db G) (input : HonorTxnInput G)
    (answer : TxnReply) (key : HonorKey) :
    SeenChange key (db.seen.find? key)
      ⟨.runHonorTxn input, (perform model db (.runHonorTxn input) answer).1⟩
      ((perform model db (.runHonorTxn input) answer).2.seen.find? key) := by
  cases hresult : (perform model db (.runHonorTxn input) answer).1.result with
  | error e =>
    rw [perform_txn_error hresult]
    exact .same
  | ok _ =>
    have hexecuted := perform_txn_ok hresult
    obtain ⟨gated, passed, hafter⟩ := runHonorTxn_ok (hexecuted ▸ hresult)
    rw [hexecuted] at hresult ⊢
    rw [hafter]
    split
    · exact .same
    · obtain ⟨⟨row, hrow, lockable, hseen⟩, -, -⟩ := gateWrites_ok passed
      dsimp only
      rw [hseen]
      by_cases hkey : key = input.key
      · rw [if_pos hkey]
        exact .locked hkey.symm (hkey ▸ hrow) lockable hresult
      · rw [if_neg hkey]
        exact .same

theorem perform_seen (model : TxnModel) (db : Db G) (op : Op G) (answer : op.Reply)
    (key : HonorKey) :
    SeenChange key (db.seen.find? key) ⟨op, (perform model db op answer).1⟩
      ((perform model db op answer).2.seen.find? key) := by
  by_cases htxn : ∃ input, op = .runHonorTxn input
  · obtain ⟨input, rfl⟩ := htxn
    exact perform_txn_seen model db input answer key
  · have change := perform_change model db op answer
    generalize (perform model db op answer).2 = after at change ⊢
    cases change with
    | same => exact .same
    | accepted =>
      rw [find?_upsertAccepted]
      split
      next hkey =>
        cases hrow : db.seen.find? key with
        | none => exact .accepted hkey rfl
        | some row => exact .same
      next => exact .same
    | @observed observedKey now =>
      rw [find?_markObserved]
      cases hrow : db.seen.find? key with
      | none => exact .same
      | some row =>
        rw [Option.map_some]
        split
        next h =>
          obtain ⟨rfl, early⟩ := h
          exact .observed rfl early
        next => exact .same
    | reserved => exact .same
    | honored => exact absurd ⟨_, rfl⟩ htxn
    | swept =>
      rw [sweep, find?_sweepSeen]
      cases hrow : db.seen.find? key with
      | none => exact .same
      | some row =>
        rw [Option.filter_some]
        split
        next => exact .same
        next hexpired => exact .swept rfl (by simpa using hexpired)

theorem perform_txn_locks {db : Db G} {input : HonorTxnInput G} {answer : TxnReply}
    (resolved : (perform .sync db (.runHonorTxn input) answer).1.result = .ok ()) :
    ∃ row, db.seen.find? input.key = some row ∧ Lockable input.now row ∧
      (perform .sync db (.runHonorTxn input) answer).2.seen.find? input.key =
        some (lockedRow input.now input.outpoint row) := by
  have hexecuted := perform_txn_ok resolved
  obtain ⟨gated, passed, hafter⟩ := runHonorTxn_ok (hexecuted ▸ resolved)
  obtain ⟨⟨row, hrow, lockable, hseen⟩, -, -⟩ := gateWrites_ok passed
  refine ⟨row, hrow, lockable, ?_⟩
  rw [hexecuted, hafter, if_neg (fun h => nomatch h.1)]
  simp [hseen]

end Store
end ExferHonor
