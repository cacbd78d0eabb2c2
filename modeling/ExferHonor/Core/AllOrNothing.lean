import ExferHonor.Core.Delivery
import ExferHonor.Core.HtlcRuns
import ExferHonor.Effects.Session

/-! An `honor` that has a synchronous store to itself changes all it should change, or nothing but
for the reservation of a lock whose claim it has submitted. -/
namespace ExferHonor
open Effects Program Relational Statements Store

variable {G : Type}

def Op.keepsDb : Op G → Bool
  | .upsertAccepted _ _ _ => false
  | .markObservedBeforeExpiry _ _ => false
  | .reserveClaimOutpoint _ _ _ _ => false
  | .runHonorTxn _ => false
  | .sweep _ => false
  | _ => true

theorem Op.keepsDb_of_isQuery {op : Op G} (query : op.isQuery = true) : op.keepsDb = true := by
  cases op <;> first | rfl | contradiction

theorem World.perform_db (model : TxnModel) (world : World G) (op : Op G) (answer : op.Reply)
    (keeps : op.keepsDb = true) : (World.perform model world op answer).2.db = world.db := by
  cases op <;> first | contradiction | skip
  all_goals first | rfl | (cases answer <;> rfl)

theorem reserveClaim_taken {consumed : ConsumedTable} {key : HonorKey} {outpoint : Outpoint}
    {claimTxId : Hex} (taken : consumed.find? outpoint ≠ none) :
    reserveClaim consumed key outpoint claimTxId = consumed := by
  rw [reserveClaim, Table.insertIgnore, Table.insert?_eq_none_iff.2 taken, Option.getD_none]

namespace HonorEngine

structure Honors (input : HonorTxnInput G) (before after : Db G) : Prop where
  seen : ∃ row, before.seen.find? input.key = some row ∧ row.honoredAt = none ∧
    ∀ k, after.seen.find? k =
      if k = input.key then some (lockedRow input.now input.outpoint row) else before.seen.find? k
  consumed : ∃ row, HonoredRow input (before.consumed.find? input.outpoint) row ∧
    ∀ o, after.consumed.find? o =
      if o = input.outpoint then some row else before.consumed.find? o
  goods : after.goods = goodsAfter before.goods (deliverCalls .sync before.goods input)

inductive LeavesBehind (key : HonorKey) (calls : List (PortCall G)) (before after : Db G) : Prop
  | nothing (same : after = before)
  | reservation {row lock claimTxId htlc preimage} (found : before.seen.find? key = some row)
      (htlcForm : row.form = .htlc) (unclaimed : ⟨.claimsGet (rowKey key), none⟩ ∈ calls)
      (submitted : ⟨.submitClaim htlc preimage, .ok claimTxId⟩ ∈ calls)
      (seen : after.seen = before.seen) (goods : after.goods = before.goods)
      (free : before.consumed.find? lock = none)
      (added : ∀ o, after.consumed.find? o =
        if o = lock then some (reservedRow key lock claimTxId) else before.consumed.find? o)

variable {engine : HonorEngine G} {reserver : Bool} {key : HonorKey} {deliver : Deliver G}
  {opts : RegisterOpts} {calls : List (PortCall G)} {world after : World G}

theorem reads_keepDb (owner : HonorKey) (row : Option SeenRow)
    (forms : engine.deps.forms = createFormRegistry (builtinForms reserver))
    {sampling scoring : List (PortCall G)} {clock : Except Thrown Int} {quote : AcceptedQuote}
    {now : Int} {verdict : Except Thrown HonorVerdict}
    (sampled : (HonorEngine.now opts.now).Returns sampling clock)
    (scored : (scoreQuote engine.deps quote now).Returns scoring verdict) :
    ∀ call ∈ sampling ++ ⟨.getSeen owner, .ok row⟩ :: scoring, call.op.keepsDb = true := by
  refine List.forall_mem_append.2 ⟨fun call hcall => ?_, List.forall_mem_cons.2 ⟨rfl, ?_⟩⟩
  · rw [((now_uses opts.now).runs sampled).1 call hcall]
    rfl
  · exact fun call hcall =>
      Op.keepsDb_of_isQuery (((scoreQuote_queries forms _ _).runs scored).1 call hcall)

/-- About to reserve a lock, an honor has found no claim on record for its HTLC quote and has
submitted one; then it only keeps books in this process. -/
theorem honor_runs_reserve
    (forms : engine.deps.forms = createFormRegistry (builtinForms reserver))
    {past : List (PortCall G)} {owner : HonorKey} {lock : Outpoint} {claimTxId : Hex} {now : Int}
    {resume : Except Thrown Unit → Async G HonorOutcome}
    (run : (engine.honor key deliver opts).Runs past
      (.call (.reserveClaimOutpoint owner lock claimTxId now) resume)) :
    ∃ seen htlc preimage, owner = seen.key ∧ seen.form = .htlc ∧
      ⟨.getSeen key, .ok (some seen)⟩ ∈ past ∧ ⟨.claimsGet (rowKey seen.key), none⟩ ∈ past ∧
      ⟨.submitClaim htlc preimage, .ok claimTxId⟩ ∈ past ∧
      (∀ call ∈ past, call.op.keepsDb = true) ∧ ∀ reply, Uses (·.keepsDb) (resume reply) := by
  obtain ⟨now, sampling, seen, scoring, candidate, formId, later, rfl, sampled, unhonored, scored,
    decided⟩ := honor_runs_candidate run (scoreQuote_queries forms) nofun nofun nofun
  have reads := reads_keepDb key (some seen) forms sampled scored
  obtain ⟨form, inner, next, registered, preparing, rfl, hsubmitted, -⟩ :=
    honorCandidate_runs_prepare decided rfl
  rw [forms] at registered
  rcases builtinForms_get registered with ⟨_, rfl⟩ | ⟨htlcForm, rfl⟩
  · obtain ⟨_, _, own, rfl, rfl, claiming⟩ := Runs.of_ask_bind preparing nofun
    cases ((runs_pure_iff _).1 claiming).2
  · obtain ⟨_, tip, own, rfl, rfl, claiming⟩ := Runs.of_ask_bind preparing nofun
    obtain ⟨htlc, preimage, rfl, rfl, rfl, rfl⟩ := HtlcForm.prepare_runs_reserve claiming
    refine ⟨seen, htlc, preimage, rfl, htlcForm, by simp, ?_, by simp, ?_, fun reply => ?_⟩
    · exact List.mem_append_right _ (List.mem_cons_of_mem _ (List.mem_append_right _
        (List.mem_cons_of_mem _ (List.mem_cons_self ..))))
    · rw [← List.cons_append, ← List.append_assoc]
      exact List.forall_mem_append.2 ⟨reads, by simp [Op.keepsDb]⟩
    · cases reply with
      | error e => trivial
      | ok _ =>
        refine ⟨rfl, fun _ => ?_⟩
        show Uses _ (next (.claimSubmitted claimTxId))
        rw [hsubmitted]
        exact ⟨rfl, fun _ => trivial⟩

theorem GateReached.keepsDb
    (forms : engine.deps.forms = createFormRegistry (builtinForms reserver))
    {past : List (PortCall G)} {input : HonorTxnInput G}
    (reached : GateReached engine key deliver opts past input) :
    ∀ call ∈ past, call.op.keepsDb = true := by
  cases reached with
  | @mk now sampling seen scoring candidate formId form preparing sampled unhonored scored
      registered prepared =>
    rw [← List.cons_append, ← List.append_assoc]
    refine List.forall_mem_append.2 ⟨reads_keepDb key _ forms sampled scored, ?_⟩
    rw [forms] at registered
    rcases builtinForms_get registered with ⟨_, rfl⟩ | ⟨_, rfl⟩
    · obtain ⟨_, tip, own, rfl, rfl, ready⟩ := Returns.of_ask_bind prepared
      obtain ⟨rfl, _⟩ := (returns_pure_iff _).1 ready
      simp [Op.keepsDb]
    · obtain ⟨tip, prior, height, rfl, _⟩ := prepare_returns_ready prepared
      simp [Op.keepsDb]

theorem gate_all_or_nothing {world after : World G} {input : HonorTxnInput G} {answer : TxnReply}
    {rethrow : Bool}
    (executed : after = (World.perform .sync world (.runHonorTxn input) answer).2) :
    (settleTxn rethrow input.outpoint (World.perform .sync world (.runHonorTxn input) answer).1 =
        .ok (.honored input.outpoint) ∧ Honors input world.db after.db) ∨
      ((∀ outpoint, settleTxn rethrow input.outpoint
          (World.perform .sync world (.runHonorTxn input) answer).1 ≠ .ok (.honored outpoint)) ∧
        after.db = world.db) := by
  subst executed
  cases hresult : (Store.perform .sync world.db (.runHonorTxn input) answer).1.result with
  | error e =>
    refine .inr ⟨fun outpoint honored => ?_, perform_txn_error hresult⟩
    have resolved := (settleTxn_honored honored).1
    rw [show (World.perform .sync world (.runHonorTxn input) answer).1.result = .error e from
      hresult] at resolved
    cases resolved
  | ok _ =>
    have hexecuted := perform_txn_ok hresult
    obtain ⟨gated, passed, hafter⟩ := runHonorTxn_ok (hexecuted ▸ hresult)
    rw [if_neg (by simp)] at hafter
    obtain ⟨⟨row, hrow, lockable, hseen⟩, ⟨honored, hnew, hconsumed⟩, hgoods⟩ :=
      gateWrites_ok passed
    have hdb : (World.perform .sync world (.runHonorTxn input) answer).2.db =
        { gated with goods := goodsAfter gated.goods (deliverCalls .sync gated.goods input) } :=
      (congrArg Prod.snd hexecuted).trans hafter
    refine .inl ⟨?_, ⟨row, hrow, lockable.1, ?_⟩, ⟨honored, hnew, ?_⟩, ?_⟩
    · rw [settleTxn, show (World.perform .sync world (.runHonorTxn input) answer).1.result =
        .ok () from hresult]
    · exact fun k => hdb ▸ hseen k
    · exact fun o => hdb ▸ hconsumed o
    · rw [hdb, hgoods]

theorem seen_of_reads {calls : List (PortCall G)} {middle : World G} {seen : SeenRow}
    (session : Session (World.perform .sync) world calls middle)
    (reads : ∀ call ∈ calls, call.op.keepsDb = true)
    (read : ⟨.getSeen key, .ok (some seen)⟩ ∈ calls) :
    ∃ row, world.db.seen.find? key = some row ∧ seen = SqliteStore.rowFromSql row := by
  obtain ⟨past, later, found, answer, rfl, reading, hreply, -⟩ := session.answered read
  obtain ⟨row, hrow, rfl⟩ := World.perform_getSeen hreply.symm
  have sameDb : found.db = world.db := reading.frame World.db (World.perform_db .sync)
    fun call hcall => reads call (List.mem_append_left _ hcall)
  exact ⟨row, sameDb ▸ hrow, rfl⟩

theorem leavesBehind_of_reserve
    (forms : engine.deps.forms = createFormRegistry (builtinForms reserver))
    {past later : List (PortCall G)} {middle : World G} {owner : HonorKey} {lock : Outpoint}
    {claimTxId : Hex} {now : Int} {answer : Except Thrown Unit}
    {result : Except Thrown HonorOutcome}
    (returns : (engine.honor key deliver opts).Returns (past ++ ⟨.reserveClaimOutpoint owner lock
      claimTxId now, (World.perform .sync middle (.reserveClaimOutpoint owner lock claimTxId now)
        answer).1⟩ :: later) result)
    (reading : Session (World.perform .sync) world past middle)
    (done : Session (World.perform .sync) (World.perform .sync middle
      (.reserveClaimOutpoint owner lock claimTxId now) answer).2 later after) :
    LeavesBehind key (past ++ ⟨.reserveClaimOutpoint owner lock claimTxId now,
      (World.perform .sync middle (.reserveClaimOutpoint owner lock claimTxId now) answer).1⟩ ::
        later) world.db after.db := by
  obtain ⟨resume, run, tail⟩ := Runs.split returns
  obtain ⟨seen, htlc, preimage, rfl, htlcForm, hseen, unclaimed, submitted, reads, keeps⟩ :=
    honor_runs_reserve forms run
  have sameDb : middle.db = world.db := reading.frame World.db (World.perform_db .sync) reads
  have finished := done.frame World.db (World.perform_db .sync) ((keeps _).runs tail).1
  obtain ⟨row, hrow, rfl⟩ := seen_of_reads reading reads hseen
  obtain rfl : row.key = key := Table.find?_key hrow
  cases answer with
  | error e => exact .nothing (finished.trans sameDb)
  | ok _ =>
    have hdb : after.db = { world.db with
        consumed := reserveClaim world.db.consumed row.key lock claimTxId } := by
      rw [finished, ← sameDb]
      rfl
    by_cases free : world.db.consumed.find? lock = none
    · refine .reservation hrow htlcForm (List.mem_append_left _ unclaimed)
        (List.mem_append_left _ submitted) (by rw [hdb]) (by rw [hdb]) free fun o => ?_
      rw [hdb, find?_reserveClaim]
      by_cases ho : lock = o
      · subst ho
        rw [if_pos rfl, if_pos rfl, free, Option.getD_none]
      · rw [if_neg ho, if_neg (Ne.symm ho)]
    · rw [hdb, reserveClaim_taken free]
      exact .nothing rfl

/-- The honor of a quote on a synchronous store, with nothing else going on: an `honored` outcome
changes one SEEN row, one consumed row and what `deliver` changes; any other end leaves all as it
was, but for at most one reservation by a Phase A. -/
theorem honor_all_or_nothing (engine : HonorEngine G) (reserver : Bool)
    (forms : engine.deps.forms = createFormRegistry (builtinForms reserver)) (key : HonorKey)
    (deliver : Deliver G) (opts : RegisterOpts) (world after : World G)
    (calls : List (PortCall G)) (result : Except Thrown HonorOutcome)
    (returns : (engine.honor key deliver opts).Returns calls result)
    (session : Session (World.perform .sync) world calls after) :
    (∃ input, input.key = key ∧ input.deliver = deliver ∧
        result = .ok (.honored input.outpoint) ∧ Honors input world.db after.db) ∨
      (∀ outpoint, result ≠ .ok (.honored outpoint)) ∧
        LeavesBehind key calls world.db after.db := by
  by_cases hgate : ∃ input reply, ⟨.runHonorTxn input, reply⟩ ∈ calls
  · obtain ⟨input, reply, called⟩ := hgate
    obtain ⟨past, later, middle, answer, rfl, reading, rfl, done⟩ := session.answered called
    obtain ⟨reached, rfl, rfl⟩ := honor_returns_of_gate returns
    cases done
    have sameDb : middle.db = world.db :=
      reading.frame World.db (World.perform_db .sync) (reached.keepsDb forms)
    rcases gate_all_or_nothing rfl with ⟨honored, honors⟩ | ⟨notHonored, same⟩
    · refine .inl ⟨input, ?_, ?_, honored, sameDb ▸ honors⟩
      · cases reached
        rfl
      · cases reached
        rfl
    · exact .inr ⟨notHonored, .nothing (same.trans sameDb)⟩
  · have notHonored : ∀ outpoint, result ≠ .ok (.honored outpoint) := by
      rintro outpoint rfl
      obtain ⟨past, input, reply, rfl⟩ := honor_returns_honored returns
      exact hgate ⟨input, reply, by simp⟩
    refine .inr ⟨notHonored, ?_⟩
    by_cases hreserve : ∃ owner lock claimTxId now reply,
        ⟨.reserveClaimOutpoint owner lock claimTxId now, reply⟩ ∈ calls
    · obtain ⟨owner, lock, claimTxId, now, reply, called⟩ := hreserve
      obtain ⟨past, later, middle, answer, rfl, reading, rfl, done⟩ := session.answered called
      exact leavesBehind_of_reserve forms returns reading done
    · refine .nothing (session.frame World.db (World.perform_db .sync) fun call hcall => ?_)
      have byHonor := ((engine.honor_uses key deliver opts).runs returns).1 call hcall
      obtain ⟨op, reply⟩ := call
      cases op <;> first | rfl | contradiction | skip
      · exact absurd ⟨_, _, _, _, _, hcall⟩ hreserve
      · exact absurd ⟨_, _, hcall⟩ hgate

theorem sampleHonor_session (deliver : Deliver Unit) :
    Session (World.perform .sync) (.booted (registeredDb .sync) 20) (sampleHonor .sync deliver).1
      (sampleHonor .sync deliver).2.2 :=
  Session.of_run (fun _ op => paidPorts.answer op) _ _

theorem honor_all_or_nothing_paid :
    ∃ input, input.key = sampleQuote.key ∧ Honors input (registeredDb .sync)
      (sampleHonor .sync fun _ => .pure .value).2.2.db := by
  rcases honor_all_or_nothing sampleEngine true rfl sampleQuote.key _ {} _ _ _ _
    (sampleHonor_returns .sync fun _ => .pure .value)
    (sampleHonor_session fun _ => .pure .value) with
    ⟨input, hkey, -, -, honors⟩ | ⟨notHonored, -⟩
  · exact ⟨input, hkey, honors⟩
  · exact absurd rfl (notHonored ⟨"01", 0⟩)

end HonorEngine
end ExferHonor
