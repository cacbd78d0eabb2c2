import ExferHonor.Core.Clients
import ExferHonor.Core.ExactlyOnce
import ExferHonor.Core.PlainRuns

/-! One payment and the quotes it could be delivered for, over any interleaving of the façade calls
of several engines on one synchronous store. The consumed row is swept on the schedule of the quote
that was honored; what is left to stop a second delivery is the datum, which names one quote id, and
the SEEN row, which is swept no earlier than the consumed row. -/
namespace ExferHonor
open Effects Program Store Statements

variable {G ι : Type}

/-- Engines that share one store, each with a tuning of its own. Plain quotes leave the maps of
claims alone, so it does not matter whose they are. -/
def fleetSystem (engines : ι → HonorEngine G) (mayStart : World G → ι × EngineTask G → Prop)
    (mayShift : World G → World G → Prop) :
    System (World G) (Op G) Op.Reply Thrown EngineResult (ι × EngineTask G) where
  program task := (engines task.1).program task.2
  perform := World.perform .sync
  mayStart := mayStart
  mayShift := mayShift

abbrev FleetEvent (ι G : Type) := Event (World G) (Op G) Op.Reply (ι × EngineTask G)
abbrev FleetPool (ι G : Type) :=
  Pool (World G) (Op G) Op.Reply Thrown EngineResult (ι × EngineTask G)

def PlainUse (quoteOf : HonorKey → AcceptedQuote) (_ : World G) : ι × EngineTask G → Prop
  | (_, .register quote _) => quote = quoteOf quote.key ∧ quote.form = .plain
  | _ => True

def Op.time? : Op G → Option Int
  | .markObservedBeforeExpiry _ now => some now
  | .runHonorTxn input => some input.now
  | .sweep now => some now
  | _ => none

def OnTime (event : FleetEvent ι G) : Prop :=
  ∀ now, event.call.op.time? = some now → now = event.before.clock

def KeepsDatum (datumOf : Outpoint → OutputDatum) (event : FleetEvent ι G) : Prop :=
  ∀ outpoint datum, event.call = ⟨.getOutputDatum outpoint, .ok datum⟩ → datum = datumOf outpoint

structure DeletesConsumed (outpoint : Outpoint) (row : ConsumedRow) (now : Int)
    (event : FleetEvent ι G) : Prop where
  called : event.call.op = .sweep now
  present : event.before.consumedRow outpoint = some row
  deleted : event.after.consumedRow outpoint = none

/-- A transaction that can lock its row does not take an outpoint whose consumed row has been swept
after it was kept for another signer's quote of the same id, or for the same quote but not up to its
expiry. -/
def NotRetaken (quoteOf : HonorKey → AcceptedQuote) (earlier : List (FleetEvent ι G))
    (event : FleetEvent ι G) : Prop :=
  ∀ input row, event.call.op = .runHonorTxn input → event.before.seenRow input.key = some row →
    Lockable input.now row → ∀ sweep ∈ earlier, ∀ consumed now,
      DeletesConsumed input.outpoint consumed now sweep →
      consumed.quoteId = input.key.quoteId →
      consumed.key = input.key ∧ (quoteOf input.key).expiresAt ≤ now

def delivered (log : List (FleetEvent ι G)) : List Outpoint :=
  log.filterMap fun event => (committed event.call).map (·.outpoint)

def RowOf (quoteOf : HonorKey → AcceptedQuote) (key : HonorKey) (row : SeenRowSql) : Prop :=
  row.form = .plain ∧ row.expiresAt = (quoteOf key).expiresAt

def Retained (world : World G) (key : HonorKey) (retainUntil : Int) : Prop :=
  (∃ row, world.seenRow key = some row ∧ row.retainUntil = retainUntil) ∨
    retainUntil < world.clock

/-- The delivery's consumed row is there, and the SEEN row that will outlast it is honored. -/
def Held (world : World G) (key : HonorKey) (outpoint : Outpoint) : Prop :=
  ∃ consumed row, world.consumedRow outpoint = some consumed ∧ consumed.key = key ∧
    world.seenRow key = some row ∧ row.honoredAt ≠ none ∧
    consumed.retainUntil ≤ row.retainUntil

def Shut (world : World G) (key : HonorKey) : Prop :=
  ∀ row, world.seenRow key = some row → row.honoredAt = none → row.observedBeforeExpiry = false

/-- The delivery's consumed row has been swept. If that was past the quote's expiry, no new row of
the quote can be observed in time. -/
def Released (quoteOf : HonorKey → AcceptedQuote) (pool : FleetPool ι G) (key : HonorKey)
    (outpoint : Outpoint) : Prop :=
  ∃ sweep ∈ pool.log, ∃ consumed now, DeletesConsumed outpoint consumed now sweep ∧
    consumed.key = key ∧ now ≤ pool.shared.clock ∧
    ((quoteOf key).expiresAt ≤ now → Shut pool.shared key)

structure Ledger (quoteOf : HonorKey → AcceptedQuote) (datumOf : Outpoint → OutputDatum)
    (pool : FleetPool ι G) : Prop where
  rows : ∀ key row, pool.shared.seenRow key = some row → RowOf quoteOf key row
  reads : ∀ event ∈ pool.log, ∀ key seen, event.call = ⟨.getSeen key, .ok (some seen)⟩ →
    seen.form = .plain ∧ seen.quoteId = key.quoteId ∧
      Retained pool.shared key seen.retainUntil
  kept : ∀ event ∈ pool.log, ∀ input, committed event.call = some input →
    (datumOf input.outpoint).Names input.key.quoteId ∧
      (Held pool.shared input.key input.outpoint ∨ Released quoteOf pool input.key input.outpoint)
  once : (delivered pool.log).Nodup

/-! One call. -/

section
variable {quoteOf : HonorKey → AcceptedQuote} {world : World G} {op : Op G} {key : HonorKey}

theorem rowOf_perform (rows : ∀ key row, world.seenRow key = some row → RowOf quoteOf key row)
    (answer : op.Reply) (accepts : ∀ quote acceptedAt retainUntil,
      op = .upsertAccepted quote acceptedAt retainUntil →
        quote = quoteOf quote.key ∧ quote.form = .plain) (key : HonorKey) (row : SeenRowSql)
    (found : (world.perform .sync op answer).2.seenRow key = some row) :
    RowOf quoteOf key row := by
  rw [World.perform_seenRow] at found
  split at found
  next =>
    cases hrow : world.seenRow key with
    | none =>
      rw [hrow] at found
      obtain ⟨quote, acceptedAt, retainUntil, rfl, rfl, rfl⟩ := seenAfter_none found
      obtain ⟨own, plain⟩ := accepts _ _ _ rfl
      exact ⟨plain, congrArg AcceptedQuote.expiresAt own⟩
    | some old =>
      rw [hrow] at found
      rcases seenAfter_some key old op with ⟨next, hnext, keeps⟩ | ⟨_, _, _, hnone⟩
      · rw [hnext] at found
        cases found
        obtain ⟨plain, expires⟩ := rows key old hrow
        exact ⟨keeps.form.trans plain, keeps.expiresAt.trans expires⟩
      · rw [hnone] at found
        cases found
  next => exact rows key row found

theorem Retained.perform {retainUntil : Int} (retained : Retained world key retainUntil)
    (answer : op.Reply) (onTime : ∀ now, op = .sweep now → now = world.clock) :
    Retained (world.perform .sync op answer).2 key retainUntil := by
  unfold Retained
  rw [World.perform_seenRow, World.perform_clock]
  rcases retained with ⟨row, found, rfl⟩ | passed
  · rw [found]
    split
    next =>
      rcases seenAfter_some key row op with ⟨next, hnext, keeps⟩ | ⟨now, rfl, expired, -⟩
      · exact .inl ⟨next, hnext, keeps.retainUntil⟩
      · exact .inr (onTime now rfl ▸ expired)
    next => exact .inl ⟨row, rfl, rfl⟩
  · exact .inr passed

theorem Shut.perform (shut : Shut world key) (answer : op.Reply)
    (late : ∀ row, world.seenRow key = some row → row.expiresAt ≤ world.clock)
    (onTime : ∀ observed now, op = .markObservedBeforeExpiry observed now → now = world.clock) :
    Shut (world.perform .sync op answer).2 key := by
  intro row found unhonored
  rw [World.perform_seenRow] at found
  split at found
  next =>
    cases hrow : world.seenRow key with
    | none =>
      rw [hrow] at found
      obtain ⟨quote, acceptedAt, retainUntil, rfl, rfl, rfl⟩ := seenAfter_none found
      rfl
    | some old =>
      rw [hrow] at found
      rcases seenAfter_some key old op with ⟨next, hnext, keeps⟩ | ⟨_, _, _, hnone⟩
      · rw [hnext] at found
        cases found
        have closed := shut old hrow (not_not.1 fun honored => keeps.honored honored unhonored)
        by_contra observed
        rcases keeps.observed (by simpa using observed) with already | ⟨_, now, rfl, early⟩
        · rw [closed] at already
          cases already
        · have := late old hrow
          have := onTime _ now rfl
          omega
      · rw [hnone] at found
        cases found
  next => exact shut row found unhonored

/-- A delivery stays held until a sweep deletes its consumed row; the SEEN row may go with it, but
not before it. -/
theorem Held.perform {outpoint : Outpoint} (held : Held world key outpoint) (answer : op.Reply)
    (elsewhere : ∀ input, op = .runHonorTxn input →
      succeeds (⟨op, (world.perform .sync op answer).1⟩ : PortCall G) = true →
        input.outpoint ≠ outpoint) :
    Held (world.perform .sync op answer).2 key outpoint ∨
      ∃ now consumed, op = .sweep now ∧ world.consumedRow outpoint = some consumed ∧
        consumed.key = key ∧ (world.perform .sync op answer).2.consumedRow outpoint = none ∧
        Shut (world.perform .sync op answer).2 key := by
  obtain ⟨consumed, row, hconsumed, own, hrow, honored, outlasts⟩ := held
  by_cases success : succeeds (⟨op, (world.perform .sync op answer).1⟩ : PortCall G) = true
  · have consumedNext := World.perform_consumedRow world op answer outpoint
    have seenNext := World.perform_seenRow world op answer key
    rw [if_pos success, hconsumed] at consumedNext
    rw [if_pos success, hrow] at seenNext
    rcases consumedAfter_some consumed fun input hop => elsewhere input hop success with
      stays | ⟨now, rfl, expired, gone⟩
    · rcases seenAfter_some key row op with ⟨next, hnext, keeps⟩ | ⟨now, rfl, expired, -⟩
      · exact .inl ⟨consumed, next, consumedNext.trans stays, own, seenNext.trans hnext,
          keeps.honored honored, keeps.retainUntil ▸ outlasts⟩
      · have swept : consumedAfter outpoint (some consumed) (.sweep now : Op G) = none := by
          simp [consumedAfter, Option.filter_some, show consumed.retainUntil < now by omega]
        rw [swept] at stays
        cases stays
    · refine .inr ⟨now, consumed, rfl, hconsumed, own, consumedNext.trans gone, ?_⟩
      intro next hnext unhonored
      rw [seenNext] at hnext
      rcases seenAfter_some key row (.sweep now : Op G) with ⟨same, hsame, keeps⟩ | ⟨_, _, _, hnone⟩
      · rw [hsame] at hnext
        cases hnext
        exact absurd unhonored (keeps.honored honored)
      · rw [hnone] at hnext
        cases hnext
  · refine .inl ⟨consumed, row, ?_, own, ?_, honored, outlasts⟩
    · rw [World.perform_consumedRow, if_neg success, hconsumed]
    · rw [World.perform_seenRow, if_neg success, hrow]

theorem read_perform (rows : ∀ key row, world.seenRow key = some row → RowOf quoteOf key row)
    {answer : op.Reply} {seen : SeenRow}
    (read : (⟨op, (world.perform .sync op answer).1⟩ : PortCall G) =
      ⟨.getSeen key, .ok (some seen)⟩) :
    seen.form = .plain ∧ seen.quoteId = key.quoteId ∧
      Retained (world.perform .sync op answer).2 key seen.retainUntil := by
  obtain rfl : op = .getSeen key := congrArg Call.op read
  obtain ⟨row, found, rfl⟩ := World.perform_getSeen (eq_of_heq (Call.mk.inj read).2)
  have hrow : world.seenRow key = some row := found
  have ownKey : row.key = key := Relational.Table.find?_key found
  refine ⟨(rows key row hrow).1, congrArg HonorKey.quoteId ownKey, ?_⟩
  exact Retained.perform (.inl ⟨row, hrow, rfl⟩) answer (by simp)

end

/-! The run. -/

section
variable {engines : ι → HonorEngine G} {quoteOf : HonorKey → AcceptedQuote}
  {datumOf : Outpoint → OutputDatum} {mayStart : World G → ι × EngineTask G → Prop}
  {mayShift : World G → World G → Prop} {initial : World G} {pool : FleetPool ι G} {index : Nat}
  {task : ι × EngineTask G} {past : List (PortCall G)}

theorem gate_reads (plainForms : ∀ i, ∃ reserver,
      (engines i).deps.forms = createFormRegistry (builtinForms reserver))
    (run : Reachable (fleetSystem engines mayStart mayShift) initial pool)
    (ledger : Ledger quoteOf datumOf pool)
    (keepsDatum : ∀ event ∈ pool.log, KeepsDatum datumOf event)
    {input : HonorTxnInput G} {resume : TxnReply → Async G EngineResult}
    (waiting : pool.threads[index]? = some ⟨task, past, .call (.runHonorTxn input) resume⟩) :
    input.mode = .single ∧ (datumOf input.outpoint).Names input.key.quoteId ∧
      Retained pool.shared input.key input.retainUntil := by
  obtain ⟨i, task⟩ := task
  have made (call : PortCall G) (hcall : call ∈ past) : ∃ event ∈ pool.log, event.call = call := by
    obtain ⟨earlier, later, hpast⟩ := List.mem_iff_append.1 hcall
    obtain ⟨event, logged, -, -, -, same⟩ :=
      run.event_of_past index _ waiting earlier call later hpast
    exact ⟨event, logged, same⟩
  obtain ⟨reserver, forms⟩ := plainForms i
  obtain ⟨deliver, opts, -, reached, -⟩ :=
    HonorEngine.program_runs_gate (run.runs _ (List.mem_of_getElem? waiting))
  obtain ⟨-, single, seen, datum, hseen, hretain, hdatum, names⟩ :=
    HonorEngine.plain_gate_reads forms reached fun seen hseen => by
      obtain ⟨event, logged, same⟩ := made _ hseen
      exact (ledger.reads event logged _ seen same).1
  obtain ⟨reading, hreading, sameRead⟩ := made _ hseen
  obtain ⟨-, hid, retained⟩ := ledger.reads reading hreading _ seen sameRead
  obtain ⟨asking, hasking, sameDatum⟩ := made _ hdatum
  rw [hid, keepsDatum asking hasking _ _ sameDatum] at names
  exact ⟨single, names, hretain ▸ retained⟩

theorem held_of_committed {world : World G} {input : HonorTxnInput G} {answer : TxnReply}
    (single : input.mode = .single) (onTime : input.now = world.clock)
    (retained : Retained world input.key input.retainUntil)
    (success : succeeds (⟨.runHonorTxn input,
      (world.perform .sync (.runHonorTxn input) answer).1⟩ : PortCall G) = true) :
    (∃ row, world.seenRow input.key = some row ∧ Lockable input.now row) ∧
      world.consumedRow input.outpoint = none ∧
      Held (world.perform .sync (.runHonorTxn input) answer).2 input.key input.outpoint := by
  obtain ⟨⟨row, found, lockable⟩, honored, fresh⟩ := txn_gated success
  have hrow : world.seenRow input.key = some row := found
  have hfree : world.consumedRow input.outpoint = none := by
    change HonoredRow input (world.consumedRow input.outpoint) honored at fresh
    generalize world.consumedRow input.outpoint = before at fresh
    cases fresh with
    | inserted mode => rfl
    | promoted mode state outpoint =>
      rw [single] at mode
      cases mode
  refine ⟨⟨row, hrow, lockable⟩, hfree, consumedRow input.key input.outpoint input.now
    input.retainUntil, lockedRow input.now input.outpoint row, ?_, rfl, ?_, by simp [lockedRow], ?_⟩
  · rw [World.perform_consumedRow, if_pos success]
    simp [consumedAfter, honoredRow, single]
  · rw [World.perform_seenRow, if_pos success, hrow]
    simp [seenAfter]
  · rcases retained with ⟨same, hsame, hretain⟩ | passed
    · rw [hrow] at hsame
      cases hsame
      exact Int.le_of_eq hretain.symm
    · have inWindow := lockable.2.1
      change input.retainUntil ≤ row.retainUntil
      omega

/-- The earlier delivery of an outpoint that is free again had its consumed row swept, and then the
rules leave no row to lock. -/
theorem fresh_of_lockable {earlier : HonorTxnInput G} {input : HonorTxnInput G}
    {row : SeenRowSql} {event : FleetEvent ι G} (ledger : Ledger quoteOf datumOf pool)
    (names : (datumOf input.outpoint).Names input.key.quoteId)
    (called : event.call.op = .runHonorTxn input) (before : event.before = pool.shared)
    (onTime : input.now = pool.shared.clock)
    (found : pool.shared.seenRow input.key = some row) (lockable : Lockable input.now row)
    (free : pool.shared.consumedRow input.outpoint = none)
    (notRetaken : NotRetaken quoteOf pool.log event) {commit : FleetEvent ι G}
    (logged : commit ∈ pool.log) (commits : committed commit.call = some earlier) :
    earlier.outpoint ≠ input.outpoint := by
  intro same
  obtain ⟨itsNames, held | ⟨sweep, hsweep, consumed, now, deletes, own, passed, shut⟩⟩ :=
    ledger.kept commit logged earlier commits
  · obtain ⟨consumed, _, present, -⟩ := held
    rw [same, free] at present
    cases present
  · rw [same] at itsNames deletes
    obtain ⟨ownKey, expired⟩ := notRetaken input row called (before ▸ found) lockable sweep hsweep
      consumed now deletes ((congrArg HonorKey.quoteId own).trans (itsNames.unique names))
    obtain ⟨unhonored, -, early | observed⟩ := lockable
    · have expires := (ledger.rows _ row found).2
      omega
    · have sameKey : earlier.key = input.key := own.symm.trans ownKey
      rw [sameKey] at shut
      rw [shut expired row found unhonored] at observed
      cases observed

theorem delivered_concat (log : List (FleetEvent ι G)) (event : FleetEvent ι G) :
    delivered (log ++ [event]) =
      delivered log ++ ((committed event.call).map (·.outpoint)).toList := by
  rw [delivered, List.filterMap_append]
  cases hevent : committed event.call with
  | none => simp [delivered, hevent]
  | some input => simp [delivered, hevent]

theorem delivered_nodup {log : List (FleetEvent ι G)} {event : FleetEvent ι G}
    (once : (delivered log).Nodup) (fresh : ∀ input, committed event.call = some input →
      ∀ commit ∈ log, ∀ earlier, committed commit.call = some earlier →
        earlier.outpoint ≠ input.outpoint) : (delivered (log ++ [event])).Nodup := by
  rw [delivered_concat]
  cases hcommitted : committed event.call with
  | none => simpa using once
  | some input =>
    refine List.nodup_append.2 ⟨once, by simp, fun outpoint already other hother same => ?_⟩
    obtain ⟨commit, hcommit, hout⟩ := List.mem_filterMap.1 already
    obtain ⟨earlier, commits, rfl⟩ := Option.map_eq_some_iff.1 hout
    have hown : other = input.outpoint := by simpa using hother
    exact fresh input hcommitted commit hcommit earlier commits (same.trans hown)

section
variable {op : Op G} {resume : op.Reply → Async G EngineResult} {answer : op.Reply}
  {event : FleetEvent ι G} {next : FleetPool ι G}

theorem Released.perform {outpoint : Outpoint} (ledger : Ledger quoteOf datumOf pool)
    {key : HonorKey} (released : Released quoteOf pool key outpoint)
    (timely : ∀ now, op.time? = some now → now = pool.shared.clock)
    (logs : next.log = pool.log ++ [event])
    (shared : next.shared = (pool.shared.perform .sync op answer).2) :
    Released quoteOf next key outpoint := by
  obtain ⟨sweep, hsweep, consumed, now, deletes, own, passed, shut⟩ := released
  have clock : next.shared.clock = pool.shared.clock := by rw [shared, World.perform_clock]
  refine ⟨sweep, logs ▸ List.mem_append_left _ hsweep, consumed, now, deletes, own, ?_,
    fun expired => ?_⟩
  · rwa [clock]
  · rw [shared]
    refine (shut expired).perform answer (fun row found => ?_)
      fun observed time hop => timely time (hop ▸ rfl)
    have expires := (ledger.rows _ row found).2
    omega

theorem Held.advance {outpoint : Outpoint} {key : HonorKey} (held : Held pool.shared key outpoint)
    (timely : ∀ now, op.time? = some now → now = pool.shared.clock)
    (elsewhere : ∀ input, op = .runHonorTxn input →
      succeeds (⟨op, (pool.shared.perform .sync op answer).1⟩ : PortCall G) = true →
        pool.shared.consumedRow input.outpoint = none)
    (made : event = ⟨index, task, past, pool.shared, ⟨op, (pool.shared.perform .sync op answer).1⟩,
      (pool.shared.perform .sync op answer).2⟩)
    (logs : next.log = pool.log ++ [event])
    (shared : next.shared = (pool.shared.perform .sync op answer).2) :
    Held next.shared key outpoint ∨ Released quoteOf next key outpoint := by
  have apart : ∀ input, op = .runHonorTxn input →
      succeeds (⟨op, (pool.shared.perform .sync op answer).1⟩ : PortCall G) = true →
      input.outpoint ≠ outpoint := by
    intro input hop success same
    have free := elsewhere input hop success
    obtain ⟨consumed, _, present, -⟩ := held
    rw [← same, free] at present
    cases present
  rw [shared]
  rcases held.perform answer apart with stays | ⟨now, consumed, rfl, present, own, gone, shut⟩
  · exact .inl stays
  · refine .inr ⟨event, by simp [logs], consumed, now, ?_, own, ?_, fun _ => shared ▸ shut⟩
    · subst made
      exact ⟨rfl, present, gone⟩
    · rw [shared, World.perform_clock]
      exact Int.le_of_eq (timely now rfl)

end

theorem Ledger.advance {op : Op G} {resume : op.Reply → Async G EngineResult}
    (plainForms : ∀ i, ∃ reserver,
      (engines i).deps.forms = createFormRegistry (builtinForms reserver))
    (run : Reachable (fleetSystem engines (PlainUse quoteOf) mayShift) initial pool)
    (ledger : Ledger quoteOf datumOf pool)
    (keepsDatum : ∀ event ∈ pool.log, KeepsDatum datumOf event)
    (waiting : pool.threads[index]? = some ⟨task, past, .call op resume⟩) (answer : op.Reply)
    {event : FleetEvent ι G} (made : event = ⟨index, task, past, pool.shared,
      ⟨op, (pool.shared.perform .sync op answer).1⟩, (pool.shared.perform .sync op answer).2⟩)
    (onTime : OnTime event) (notRetaken : NotRetaken quoteOf pool.log event) :
    Ledger quoteOf datumOf (pool.advance (fleetSystem engines (PlainUse quoteOf) mayShift) index
      task past op resume answer) := by
  have hthread := List.mem_of_getElem? waiting
  have logs : (pool.advance (fleetSystem engines (PlainUse quoteOf) mayShift) index task past op
      resume answer).log = pool.log ++ [event] := by rw [made]; rfl
  have accepts : ∀ quote acceptedAt retainUntil, op = .upsertAccepted quote acceptedAt retainUntil →
      quote = quoteOf quote.key ∧ quote.form = .plain := by
    rintro quote acceptedAt retainUntil rfl
    obtain ⟨i, started⟩ := task
    obtain ⟨⟨opts, rfl⟩, -⟩ := HonorEngine.program_runs_upsert (run.runs _ hthread)
    obtain ⟨_, may⟩ := run.task_may_start _ hthread
    exact may
  have timely (now : Int) (works : op.time? = some now) : now = pool.shared.clock := by
    subst made
    exact onTime now works
  have gated : ∀ input, op = .runHonorTxn input →
      succeeds (⟨op, (pool.shared.perform .sync op answer).1⟩ : PortCall G) = true →
      (datumOf input.outpoint).Names input.key.quoteId ∧
        (∃ row, pool.shared.seenRow input.key = some row ∧ Lockable input.now row) ∧
        pool.shared.consumedRow input.outpoint = none ∧
        Held (pool.shared.perform .sync op answer).2 input.key input.outpoint := by
    rintro input rfl success
    obtain ⟨single, names, retained⟩ := gate_reads plainForms run ledger keepsDatum waiting
    exact ⟨names, held_of_committed single (timely _ rfl) retained success⟩
  have committing : ∀ input, committed event.call = some input → op = .runHonorTxn input ∧
      succeeds (⟨op, (pool.shared.perform .sync op answer).1⟩ : PortCall G) = true := by
    subst made
    exact fun input commits => committed_eq_some commits
  constructor
  · exact rowOf_perform ledger.rows answer accepts
  · rw [logs]
    intro reading hreading key seen read
    rcases List.mem_append.1 hreading with h | h
    · obtain ⟨plain, hid, retained⟩ := ledger.reads reading h key seen read
      exact ⟨plain, hid, retained.perform answer fun now hop => timely now (hop ▸ rfl)⟩
    · obtain rfl := List.mem_singleton.1 h
      subst made
      exact read_perform ledger.rows read
  · intro commit hcommit earlier commits
    rw [logs] at hcommit
    rcases List.mem_append.1 hcommit with h | h
    · obtain ⟨names, held | released⟩ := ledger.kept commit h earlier commits
      · exact ⟨names, held.advance timely (fun input hop success =>
          (gated input hop success).2.2.1) made logs rfl⟩
      · exact ⟨names, .inr (released.perform ledger timely logs rfl)⟩
    · obtain rfl := List.mem_singleton.1 h
      obtain ⟨hop, success⟩ := committing earlier commits
      obtain ⟨names, -, -, held⟩ := gated earlier hop success
      exact ⟨names, .inl held⟩
  · rw [logs]
    refine delivered_nodup ledger.once fun input commits commit hcommit earlier committed => ?_
    obtain ⟨hop, success⟩ := committing input commits
    obtain ⟨names, ⟨row, found, lockable⟩, free, -⟩ := gated input hop success
    subst made
    exact fresh_of_lockable ledger names hop rfl (timely _ (hop ▸ rfl)) found lockable free
      notRetaken hcommit committed

theorem Ledger.shift {next : World G} (ledger : Ledger quoteOf datumOf pool)
    (forward : HonorEngine.ClockForward pool.shared next) :
    Ledger quoteOf datumOf (pool.shift next) := by
  obtain ⟨later, same⟩ := forward
  have seen (key : HonorKey) : next.seenRow key = pool.shared.seenRow key := by rw [same]; rfl
  have consumed (outpoint : Outpoint) :
      next.consumedRow outpoint = pool.shared.consumedRow outpoint := by rw [same]; rfl
  constructor
  · exact fun key row found => ledger.rows key row (seen key ▸ found)
  · intro event logged key row read
    obtain ⟨plain, hid, retained⟩ := ledger.reads event logged key row read
    refine ⟨plain, hid, ?_⟩
    rcases retained with ⟨row, found, hretain⟩ | passed
    · exact .inl ⟨row, (seen key).trans found, hretain⟩
    · exact .inr (Int.lt_of_lt_of_le passed later)
  · intro event logged input commits
    obtain ⟨names, held | ⟨sweep, hsweep, row, now, deletes, own, passed, shut⟩⟩ :=
      ledger.kept event logged input commits
    · obtain ⟨row, honored, hrow, own, hhonored, rest⟩ := held
      exact ⟨names, .inl ⟨row, honored, (consumed _).trans hrow, own, (seen _).trans hhonored,
        rest⟩⟩
    · refine ⟨names, .inr ⟨sweep, hsweep, row, now, deletes, own, Int.le_trans passed later, ?_⟩⟩
      exact fun expired row found => shut expired row (seen _ ▸ found)
  · exact ledger.once

end

/-- Provided no transaction that can lock its row takes an outpoint whose consumed row was kept for
another signer's quote of the same id, or for its own quote but not up to the expiry, and has been
swept. -/
theorem deliveries_distinct (engines : ι → HonorEngine G)
    (plainForms : ∀ i, ∃ reserver,
      (engines i).deps.forms = createFormRegistry (builtinForms reserver))
    (quoteOf : HonorKey → AcceptedQuote) (datumOf : Outpoint → OutputDatum) (goods : G)
    (clock : Int) (pool : FleetPool ι G)
    (reached : Reachable (fleetSystem engines (PlainUse quoteOf) HonorEngine.ClockForward)
      (.booted (.empty goods) clock) pool)
    (onTime : ∀ event ∈ pool.log, OnTime event)
    (keepsDatum : ∀ event ∈ pool.log, KeepsDatum datumOf event)
    (notRetaken : Along (NotRetaken quoteOf) pool.log) : (delivered pool.log).Nodup := by
  suffices rules : (∀ event ∈ pool.log, OnTime event) →
      (∀ event ∈ pool.log, KeepsDatum datumOf event) → Along (NotRetaken quoteOf) pool.log →
      Ledger quoteOf datumOf pool from (rules onTime keepsDatum notRetaken).once
  refine reached.invariant (fun pool => (∀ event ∈ pool.log, OnTime event) →
    (∀ event ∈ pool.log, KeepsDatum datumOf event) → Along (NotRetaken quoteOf) pool.log →
    Ledger quoteOf datumOf pool) (fun _ _ _ => ?_)
    fun before after run ih step onTime keepsDatum notRetaken => ?_
  · constructor
    · intro key row found
      cases found
    · simp [Pool.fresh]
    · simp [Pool.fresh]
    · exact List.nodup_nil
  · cases step with
    | start task may =>
      obtain ⟨rows, reads, kept, once⟩ := ih onTime keepsDatum notRetaken
      exact ⟨rows, reads, kept, once⟩
    | shift next may => exact (ih onTime keepsDatum notRetaken).shift may
    | advance answer waiting =>
      obtain ⟨earlier, fresh⟩ := along_concat_iff.1 notRetaken
      obtain ⟨timely, current⟩ := List.forall_mem_append.1 onTime
      obtain ⟨keeps, -⟩ := List.forall_mem_append.1 keepsDatum
      exact (ih timely keeps earlier).advance plainForms run keeps waiting answer rfl
        (current _ (List.mem_singleton_self _)) fresh

/-! Two signers issued quotes of the same id and terms, which one output pays; the second quote is
kept longer. -/

def laterQuote : AcceptedQuote := { sampleQuote with signerPubkey := "cc", expiresAt := 10000 }

def sampleQuoteOf (key : HonorKey) : AcceptedQuote :=
  if key = sampleQuote.key then sampleQuote else laterQuote

def sampleDatumOf (_ : Outpoint) : OutputDatum := ⟨some sampleQuote.quoteId, true⟩

abbrev FleetMove := Move (World Unit) (Op Unit) Op.Reply (Unit × EngineTask Unit)

def sampleFleet :
    System (World Unit) (Op Unit) Op.Reply Thrown EngineResult (Unit × EngineTask Unit) :=
  fleetSystem (fun _ => sampleEngine) (PlainUse sampleQuoteOf) HonorEngine.ClockForward

def fleetTurns (index count : Nat) : List FleetMove :=
  .replicate count (.advance index paidPorts.answer)

def firstDelivery : List FleetMove :=
  .start ((), .register sampleQuote {}) :: fleetTurns 0 3 ++
  .start ((), .register laterQuote {}) :: fleetTurns 1 3 ++
  .start ((), .honor sampleQuote.key sampleTxn.deliver {}) :: fleetTurns 2 8

/-- The second is honored after a sweep past the retention of the first. -/
def sweptDelivery : List FleetMove :=
  firstDelivery ++ .shift (fun world => { world with clock := 5000 }) ::
  .start ((), .sweep 5000) :: fleetTurns 3 1 ++
  .start ((), .honor laterQuote.key sampleTxn.deliver {}) :: fleetTurns 4 8

def otherPorts : TotalPorts := samplePorts 100 [⟨⟨"02", 0⟩, 500, "ee", some 90⟩] none none

/-- The second is tried while the outpoint is on record, and honored for another one after the
sweep. -/
def blockedDelivery : List FleetMove :=
  firstDelivery ++ .start ((), .honor laterQuote.key sampleTxn.deliver {}) :: fleetTurns 3 8 ++
  .shift (fun world => { world with clock := 5000 }) ::
  .start ((), .sweep 5000) :: fleetTurns 4 1 ++
  .start ((), .honor laterQuote.key sampleTxn.deliver {}) ::
  .replicate 8 (.advance 5 otherPorts.answer)

def fleetPool (moves : List FleetMove) : FleetPool Unit Unit :=
  (Pool.fresh (.booted (.empty ()) 20)).play sampleFleet moves

def timely (event : FleetEvent Unit Unit) : Bool :=
  event.call.op.time?.all fun now => now = event.before.clock

def sampleRead : PortCall Unit → Bool
  | ⟨.getOutputDatum outpoint, .ok datum⟩ => datum = sampleDatumOf outpoint
  | _ => true

theorem sample_onTime {moves : List FleetMove} (checked : (fleetPool moves).log.all timely = true) :
    ∀ event ∈ (fleetPool moves).log, OnTime event := by
  intro event logged now works
  have := List.all_eq_true.1 checked event logged
  simpa [timely, works] using this

theorem sample_keepsDatum {moves : List FleetMove}
    (checked : ((fleetPool moves).log.map (·.call)).all sampleRead = true) :
    ∀ event ∈ (fleetPool moves).log, KeepsDatum sampleDatumOf event := by
  intro event logged outpoint datum read
  have := List.all_eq_true.1 checked _ (List.mem_map_of_mem logged)
  rw [read] at this
  exact of_decide_eq_true this

theorem delivered_twice :
    Reachable sampleFleet (.booted (.empty ()) 20) (fleetPool sweptDelivery) ∧
    (∀ event ∈ (fleetPool sweptDelivery).log, OnTime event) ∧
    (∀ event ∈ (fleetPool sweptDelivery).log, KeepsDatum sampleDatumOf event) ∧
    delivered (fleetPool sweptDelivery).log = [⟨"01", 0⟩, ⟨"01", 0⟩] := by
  refine ⟨Pool.play_reachable ?_, sample_onTime (by decide +kernel),
    sample_keepsDatum (by decide +kernel), by decide +kernel⟩
  simp only [sweptDelivery, firstDelivery, fleetTurns, List.append_assoc, List.cons_append]
  exact ⟨⟨rfl, rfl⟩, Pool.allowed_advances 3 ⟨⟨rfl, rfl⟩, Pool.allowed_advances 3 ⟨trivial,
    Pool.allowed_advances 8 ⟨⟨by decide +kernel, rfl⟩, trivial, Pool.allowed_advances 1 ⟨trivial,
      Pool.allowed_advances 8 trivial⟩⟩⟩⟩⟩

def sweptOther (sweep event : FleetEvent Unit Unit) : Bool :=
  match sweep.call.op, event.call.op with
  | .sweep _, .runHonorTxn input => (sweep.before.consumedRow input.outpoint).isNone
  | _, _ => true

theorem deliveries_distinct_blocked :
    (fleetPool blockedDelivery).log.countP (fun event => event.call.op.bySweep) = 1 ∧
    delivered (fleetPool blockedDelivery).log = [⟨"01", 0⟩, ⟨"02", 0⟩] ∧
    (delivered (fleetPool blockedDelivery).log).Nodup := by
  refine ⟨by decide +kernel, by decide +kernel, deliveries_distinct (fun _ => sampleEngine)
    (fun _ => ⟨true, rfl⟩) sampleQuoteOf sampleDatumOf () 20 _ (Pool.play_reachable ?_)
    (sample_onTime (by decide +kernel)) (sample_keepsDatum (by decide +kernel))
    (along_of_pairwise (fun sweep event => sweptOther sweep event = true) (by decide +kernel) ?_)⟩
  · simp only [blockedDelivery, firstDelivery, fleetTurns, List.append_assoc, List.cons_append]
    exact ⟨⟨rfl, rfl⟩, Pool.allowed_advances 3 ⟨⟨rfl, rfl⟩, Pool.allowed_advances 3 ⟨trivial,
      Pool.allowed_advances 8 ⟨trivial, Pool.allowed_advances 8 ⟨⟨by decide +kernel, rfl⟩, trivial,
        Pool.allowed_advances 1 ⟨trivial, Pool.allowed_advances 8 trivial⟩⟩⟩⟩⟩⟩
  · intro earlier event later input row called _ _ sweep hsweep consumed now deletes _
    have absent := later sweep hsweep
    simp only [sweptOther, deletes.called, called, deletes.present] at absent
    contradiction

end ExferHonor
