import ExferHonor.Core.Contenders
import ExferHonor.Core.Delivery
import ExferHonor.Core.ExactlyOnce

/-! Any number of honors of one plain quote over a synchronous store and a chain that answers alike
every time: they agree on one winner. -/
namespace ExferHonor
namespace HonorEngine
open Effects Program Store Statements

variable {G : Type}

section
variable (goods : G) (deliver : Deliver G)

def Delivers : Prop :=
  ∀ input : HonorTxnInput G, input.deliver = deliver → deliverEnd .sync goods input = .ok .value

def Throws : Prop :=
  ∀ input : HonorTxnInput G, input.deliver = deliver → ∃ e, deliverEnd .sync goods input = .error e

end

section
variable (engine : HonorEngine G) (answer : (op : Op G) → op.Reply) (key : HonorKey)
  (row : SeenRowSql)

def Contends (goods : G) : EngineTask G → Prop
  | .honor other deliver opts => other = key ∧ (∀ now, opts.now = some now → Lockable now row) ∧
      (Delivers goods deliver ∨ Throws goods deliver)
  | _ => False

def Lets (goods : G) : EngineTask G → Prop
  | .honor _ deliver _ => Delivers goods deliver
  | _ => False

def StaysInside (before after : World G) : Prop :=
  after.db = before.db ∧ Lockable after.clock row

def contest (goods : G) :
    System (World G) (Op G) Op.Reply Thrown EngineResult (EngineTask G) where
  program := engine.program
  perform world op _ := World.perform .sync world op (answer op)
  mayStart _ := Contends key row goods
  mayShift := StaysInside row

structure Contested (world : World G) : Prop where
  found : world.db.seen.find? key = some row
  plain : row.form = .plain
  lockable : Lockable world.clock row
  scores : ∀ now, Lockable now row → ∃ candidate formId,
    (scoreQuote engine.deps (quoteFromSeen (SqliteStore.rowFromSql row)) now).eval answer =
      .ok (.honor candidate formId) ∧ world.db.consumed.find? candidate.outpoint = none
  reads : ∃ read, answer (.getSeen key) = .ok read
  executes : ∀ input, (answer (.runHonorTxn input)).result = .ok ()

inductive ContestTxn (goods : G) (settled : Prop) : HonorTxnInput G → TxnReply → Prop
  | won {input} (ended : deliverEnd .sync goods input = .ok .value) :
      ContestTxn goods settled input ⟨some (.ok .value), .ok ()⟩
  | failed {input e} (ended : deliverEnd .sync goods input = .error e) :
      ContestTxn goods settled input ⟨some (.error e), .error e⟩
  | late {input} (since : settled) : ContestTxn goods settled input ⟨none, .error alreadyHonored⟩

abbrev ContestTold (goods : G) (settled : Prop) : PortCall G → Prop :=
  Told key row (fun call => call.reply = answer call.op) (ContestTxn goods settled) settled

/-- What one call of a contender does: most calls change nothing, and a transaction honors the
quote once, if `deliver` lets it. -/
inductive Moves (db : Db G) (shared : World G) (op : Op G) : op.Reply × World G → Prop
  | idle {reply} (told : ContestTold answer key row db.goods (Settled key shared.db) ⟨op, reply⟩)
      (uncommitted : commits key ⟨op, reply⟩ = false) : Moves db shared op (reply, shared)
  | wins {reply} {after : World G} (unsettled : shared.db = db)
      (told : ContestTold answer key row db.goods (Settled key after.db) ⟨op, reply⟩)
      (committed : commits key ⟨op, reply⟩ = true) (settled : Settled key after.db)
      (clock : after.clock = shared.clock) : Moves db shared op (reply, after)

end

section
variable {engine : HonorEngine G} {answer : (op : Op G) → op.Reply} {reserver : Bool}
  {key : HonorKey} {row : SeenRowSql} {goods : G} {settled : Prop} {deliver : Deliver G}
  {opts : RegisterOpts}

theorem ContestTold.mono {later : Prop} (imp : settled → later) {call : PortCall G}
    (told : ContestTold answer key row goods settled call) :
    ContestTold answer key row goods later call := by
  refine Told.mono (fun input reply ended => ?_) imp told
  cases ended with
  | won ended => exact .won ended
  | failed ended => exact .failed ended
  | late since => exact .late (imp since)

theorem contested_scored
    (forms : engine.deps.forms = createFormRegistry (builtinForms reserver)) {world : World G}
    (contested : Contested engine answer key row world)
    (injected : ∀ now, opts.now = some now → Lockable now row) {calls : List (PortCall G)}
    (told : ∀ call ∈ calls, ContestTold answer key row goods settled call) :
    Scored engine key opts (fun outpoint => world.db.consumed.find? outpoint = none) calls := by
  apply scored_of_alike forms (fun call hcall query => (told call hcall).answered query)
  rintro sampling now seen later rfl sampled unhonored
  obtain rfl := (told _ (by simp)).row_eq unhonored
  exact contested.scores now
    (sampled_inside injected sampled fun call hcall => told call (by simp [hcall]))

theorem scored_tip {quote : AcceptedQuote} {now : Int} {verdict : HonorVerdict}
    (scores : (scoreQuote engine.deps quote now).eval answer = .ok verdict) :
    ∃ tip, answer .tipHeight = .ok tip := by
  obtain ⟨calls, returns, answered⟩ := returns_eval answer (scoreQuote engine.deps quote now)
  rw [scores] at returns
  obtain ⟨_, form, later, rfl, registered, asking⟩ := Returns.ok_of_bind returns
  obtain ⟨_, tip, _, rfl, rfl, -⟩ := Returns.of_ask_bind asking
  exact ⟨tip, (answered ⟨.tipHeight, .ok tip⟩ (by simp)).symm⟩

theorem contested_tipped {world : World G} (contested : Contested engine answer key row world)
    (e : Thrown) : .error e ≠ answer .tipHeight := by
  obtain ⟨candidate, formId, scores, -⟩ := contested.scores world.clock contested.lockable
  obtain ⟨tip, htip⟩ := scored_tip scores
  rw [htip]
  nofun

theorem contest_ends
    (forms : engine.deps.forms = createFormRegistry (builtinForms reserver)) {world : World G}
    (contested : Contested engine answer key row world)
    (injected : ∀ now, opts.now = some now → Lockable now row) {calls : List (PortCall G)}
    (told : ∀ call ∈ calls, ContestTold answer key row goods settled call)
    {result : Except Thrown HonorOutcome}
    (returns : (engine.honor key deliver opts).Returns calls result) :
    (∃ outpoint, result = .ok (.honored outpoint)) ∨
      (∃ input e, input.deliver = deliver ∧ deliverEnd .sync goods input = .error e ∧
        result = failureReport opts.rethrowDeliveryErrors e) ∨
      settled ∧ result = .ok (.notReady (.decline .alreadyHonored none)) := by
  rcases contender_ends forms contested.plain contested.lockable.1 injected
    (contested_tipped contested) (contested_scored forms contested injected told) told returns with
    ⟨input, reply, -, ended, hdeliver, rfl⟩ | late
  · cases ended with
    | won ended => exact .inl ⟨_, rfl⟩
    | @failed e ended => exact .inr (.inl ⟨input, e, hdeliver, ended, rfl⟩)
    | late since => exact .inr (.inr ⟨since, rfl⟩)
  · exact .inr (.inr late)

theorem commits_query {op : Op G} (query : op.isQuery = true) (reply : op.Reply) :
    commits key ⟨op, reply⟩ = false := by
  cases op <;> first | rfl | contradiction

theorem perform_txn_executes (model : TxnModel) (world : World G) {input : HonorTxnInput G}
    {reply : TxnReply} (executes : reply.result = .ok ()) :
    World.perform model world (.runHonorTxn input) reply =
      ((Store.runHonorTxn model world.db input).1,
        { world with db := (Store.runHonorTxn model world.db input).2 }) := by
  obtain ⟨_ | called, result⟩ := reply
  · cases executes
    rfl
  · rfl

theorem runHonorTxn_delivers {db gated : Db G} {input : HonorTxnInput G}
    (passed : gateWrites (driver .sync) db input = .ok gated)
    (ended : deliverEnd .sync gated.goods input = .ok .value) :
    (Store.runHonorTxn .sync db input).1 = ⟨some (.ok .value), .ok ()⟩ := by
  simp only [deliverEnd] at ended
  simp only [Store.runHonorTxn, SqliteStore.runHonorTxn, ended,
    show gateWrites SqliteStore.driver db input = .ok gated from passed]

theorem settled_of_txn {db : Db G} {input : HonorTxnInput G}
    (resolved : (Store.runHonorTxn .sync db input).1.result = .ok ()) :
    Settled input.key (Store.runHonorTxn .sync db input).2 := by
  obtain ⟨gated, passed, hafter⟩ := runHonorTxn_ok resolved
  rw [if_neg (by simp)] at hafter
  obtain ⟨⟨row, -, -, hseen⟩, -, -⟩ := gateWrites_ok passed
  refine ⟨lockedRow input.now input.outpoint row, ?_, nofun⟩
  rw [hafter]
  exact (hseen input.key).trans (if_pos rfl)

theorem contest_txn {world shared : World G} {input : HonorTxnInput G}
    (contested : Contested engine answer key row world) (own : input.key = key)
    (single : input.mode = .single) (lockable : Lockable input.now row)
    (free : world.db.consumed.find? input.outpoint = none)
    (ends : deliverEnd .sync world.db.goods input = .ok .value ∨
      ∃ e, deliverEnd .sync world.db.goods input = .error e)
    (state : shared.db = world.db ∨ Settled key shared.db) :
    Moves answer key row world.db shared (.runHonorTxn input)
      (World.perform .sync shared (.runHonorTxn input) (answer (.runHonorTxn input))) := by
  rw [perform_txn_executes .sync shared (contested.executes input)]
  subst own
  rcases state with sameDb | ⟨other, hother, honored⟩
  · obtain ⟨gated, passed⟩ := gateWrites_passes (driver .sync) contested.found lockable single free
    have hgoods : gated.goods = world.db.goods := (gateWrites_ok passed).2.2
    rw [← hgoods] at ends
    rcases ends with ended | ⟨e, ended⟩
    · have hreply := runHonorTxn_delivers passed ended
      rw [sameDb, hreply]
      refine .wins sameDb (.txn (.won (hgoods ▸ ended))) (commits_iff.2 ⟨rfl, rfl⟩) ?_ rfl
      exact settled_of_txn (congrArg TxnReply.result hreply)
    · have unchanged : { shared with db := world.db } = shared := by rw [← sameDb]
      rw [sameDb, runHonorTxn_fails passed (.inl ended), ended]
      dsimp only
      rw [unchanged]
      exact .idle (.txn (.failed (hgoods ▸ ended))) rfl
  · have hlate : Store.runHonorTxn .sync shared.db input =
        (⟨none, .error alreadyHonored⟩, shared.db) := by
      have hgate : gateWrites SqliteStore.driver shared.db input = .error alreadyHonored :=
        gateWrites_honored _ hother honored
      simp only [Store.runHonorTxn, SqliteStore.runHonorTxn, hgate]
    rw [hlate]
    exact .idle (.txn (.late ⟨other, hother, honored⟩)) rfl

theorem contest_read {world shared : World G} {op : Op G}
    (contested : Contested engine answer key row world) (inside : Lockable shared.clock row)
    (state : shared.db = world.db ∨ Settled key shared.db)
    (reads : op.isQuery = true ∨ op = .clockNow ∨ op = .getSeen key) :
    Moves answer key row world.db shared op (World.perform .sync shared op (answer op)) := by
  rcases reads with query | rfl | rfl
  · rw [World.perform_query .sync shared query]
    exact .idle (.query query rfl) (commits_query query _)
  · exact .idle (.clock inside) rfl
  · obtain ⟨read, hread⟩ := contested.reads
    have found {r : SeenRowSql} (hr : shared.db.seen.find? key = some r) :
        World.perform .sync shared (.getSeen key) (answer (.getSeen key)) =
          (.ok (some (SqliteStore.rowFromSql r)), shared) := by
      have hrow : (getSeen shared.db.seen key).map (Store.rowFromSql .sync) =
          some (SqliteStore.rowFromSql r) := by
        rw [getSeen, hr]
        rfl
      rw [hread, ← hrow]
      rfl
    rcases state with sameDb | ⟨other, hother, honored⟩
    · rw [found (sameDb ▸ contested.found)]
      exact .idle .unhonored rfl
    · rw [found hother]
      exact .idle (.honored honored ⟨other, hother, honored⟩) rfl

theorem contender_moves
    (forms : engine.deps.forms = createFormRegistry (builtinForms reserver))
    {world shared : World G} (contested : Contested engine answer key row world)
    (inside : Lockable shared.clock row) (state : shared.db = world.db ∨ Settled key shared.db)
    {task : EngineTask G} (contends : Contends key row world.db.goods task)
    {past : List (PortCall G)}
    (told : ∀ call ∈ past, ContestTold answer key row world.db.goods settled call) {op : Op G}
    {resume : op.Reply → Async G EngineResult}
    (run : (engine.program task).Runs past (.call op resume)) :
    Moves answer key row world.db shared op (World.perform .sync shared op (answer op)) := by
  cases task with
  | honor other deliver opts =>
    obtain ⟨rfl, injected, ends⟩ := contends
    obtain ⟨_, inner, _⟩ := Runs.of_map_call run
    rcases contender_calls forms contested.plain told inner with query | clock | seen | ⟨input, rfl⟩
    · exact contest_read contested inside state (.inl query)
    · exact contest_read contested inside state (.inr (.inl clock))
    · exact contest_read contested inside state (.inr (.inr seen))
    · obtain ⟨own, hdeliver, single, lockable, free⟩ :=
        contender_gate forms contested.plain injected
          (contested_scored forms contested injected told) told (honor_runs_gate inner).1
      exact contest_txn contested own single lockable free
        (ends.imp (· input hdeliver) (· input hdeliver)) state
  | _ => contradiction

def committed (key : HonorKey)
    (thread : Thread (Op G) Op.Reply Thrown EngineResult (EngineTask G)) : Bool :=
  thread.past.any (commits key)

theorem waiting_uncommitted (key : HonorKey) {task : EngineTask G} {past : List (PortCall G)}
    {op : Op G} {resume : op.Reply → Async G EngineResult}
    (run : (engine.program task).Runs past (.call op resume)) :
    past.any (commits key) = false := by
  apply List.any_eq_false.2
  rintro ⟨called, reply⟩ hcall hcommits
  obtain ⟨input, rfl⟩ := exists_txn_of_commits hcommits
  obtain ⟨before, later, rfl⟩ := List.mem_iff_append.1 hcall
  obtain ⟨_, point, rest⟩ := run.split
  obtain ⟨_, _, _, _, rfl⟩ := program_runs_gate point
  obtain ⟨_, _, ended⟩ := Runs.of_ofExcept_bind rest
  cases ((runs_pure_iff _).1 ended).2

/-- Nobody has won and the database is as it was, or one call has and the quote is honored. -/
structure ContestInvariant (answer : (op : Op G) → op.Reply) (key : HonorKey) (row : SeenRowSql)
    (db : Db G) (pool : EnginePool G) : Prop where
  told : ∀ thread ∈ pool.threads, ∀ call ∈ thread.past,
    ContestTold answer key row db.goods (Settled key pool.shared.db) call
  inside : Lockable pool.shared.clock row
  state : (pool.shared.db = db ∧ pool.threads.countP (committed key) = 0) ∨
    (Settled key pool.shared.db ∧ pool.threads.countP (committed key) = 1)

theorem ContestInvariant.advance
    (forms : engine.deps.forms = createFormRegistry (builtinForms reserver)) {world : World G}
    (contested : Contested engine answer key row world) {before : EnginePool G}
    (run : Reachable (contest engine answer key row world.db.goods) world before)
    (inv : ContestInvariant answer key row world.db before) {index : Nat} {task : EngineTask G}
    {past : List (PortCall G)} {op : Op G} {resume : op.Reply → Async G EngineResult}
    (waiting : before.threads[index]? = some ⟨task, past, .call op resume⟩) (given : op.Reply) :
    ContestInvariant answer key row world.db (before.advance
      (contest engine answer key row world.db.goods) index task past op resume given) := by
  obtain ⟨told, inside, state⟩ := inv
  have hmem := List.mem_of_getElem? waiting
  have unwon := waiting_uncommitted key (run.runs _ hmem)
  have moves := contender_moves forms contested inside (state.imp And.left And.left)
    (run.task_may_start _ hmem).choose_spec (told _ hmem) (run.runs _ hmem)
  have count := Pool.countP_advance (contest engine answer key row world.db.goods)
    (committed key) waiting unwon given
  have performed : (contest engine answer key row world.db.goods).perform before.shared op given =
      World.perform .sync before.shared op (answer op) := rfl
  have flag (call : PortCall G) (rest : Async G EngineResult) :
      committed key ⟨task, past ++ [call], rest⟩ = commits key call := by
    simp [committed, show past.any (commits key) = false from unwon]
  rw [Pool.advance, performed, flag] at count
  rw [Pool.advance, performed]
  generalize World.perform .sync before.shared op (answer op) = result at moves count
  cases moves with
  | @idle reply told' uncommitted =>
    refine ⟨fun thread hthread => ?_, inside, ?_⟩
    · rcases List.mem_or_eq_of_mem_set hthread with h | rfl
      · exact told thread h
      · exact List.forall_mem_append.2 ⟨told _ hmem, List.forall_mem_singleton.2 told'⟩
    · have same := count.trans (congrArg (_ + ·) (if_neg (Bool.eq_false_iff.1 uncommitted)))
      exact state.imp (And.imp_right same.trans) (And.imp_right same.trans)
  | @wins reply after unsettled told' won settled clock =>
    have lost : ¬ Settled key before.shared.db := by
      rintro ⟨other, hother, honored⟩
      rw [unsettled, contested.found] at hother
      cases hother
      exact honored contested.lockable.1
    have zero : before.threads.countP (committed key) = 0 :=
      (state.resolve_right fun h => lost h.1).2
    refine ⟨fun thread hthread => ?_, ?_, .inr ⟨settled, ?_⟩⟩
    · rcases List.mem_or_eq_of_mem_set hthread with h | rfl
      · exact fun call hcall => (told thread h call hcall).mono fun h => absurd h lost
      · refine List.forall_mem_append.2 ⟨fun call hcall => ?_, List.forall_mem_singleton.2 told'⟩
        exact (told _ hmem call hcall).mono fun h => absurd h lost
    · exact clock ▸ inside
    · exact count.trans (congrArg₂ (· + ·) zero (if_pos won))

theorem contest_invariant
    (forms : engine.deps.forms = createFormRegistry (builtinForms reserver)) {world : World G}
    (contested : Contested engine answer key row world) {pool : EnginePool G}
    (reached : Reachable (contest engine answer key row world.db.goods) world pool) :
    ContestInvariant answer key row world.db pool := by
  refine reached.invariant (ContestInvariant answer key row world.db) ?_ ?_
  · exact ⟨by simp [Pool.fresh], contested.lockable, .inl ⟨rfl, rfl⟩⟩
  · intro before after run inv step
    cases step with
    | start task may =>
      obtain ⟨told, inside, state⟩ := inv
      refine ⟨fun thread hthread => ?_, inside, ?_⟩
      · rcases List.mem_append.1 hthread with h | h
        · exact told thread h
        · rw [List.mem_singleton.1 h]
          exact fun call hcall => absurd hcall List.not_mem_nil
      · simpa [Pool.start, committed] using state
    | shift next may =>
      obtain ⟨told, inside, state⟩ := inv
      obtain ⟨sameDb, still⟩ : next.db = before.shared.db ∧ Lockable next.clock row := may
      refine ⟨fun thread hthread call hcall => (told thread hthread call hcall).mono ?_, still, ?_⟩
      · exact fun settled => sameDb.symm ▸ settled
      · exact state.imp (fun h => ⟨sameDb.trans h.1, h.2⟩) fun h => ⟨sameDb.symm ▸ h.1, h.2⟩
    | advance given waiting => exact inv.advance forms contested run waiting given

end

def wins (thread : Thread (Op G) Op.Reply Thrown EngineResult (EngineTask G)) : Bool :=
  match thread.rest with
  | .pure (.outcome (.honored _)) => true
  | _ => false

inductive Ends (goods : G) : EngineTask G → Async G EngineResult → Prop
  | honored {task outpoint} : Ends goods task (.pure (.outcome (.honored outpoint)))
  | failed {key deliver opts} (throws : Throws goods deliver)
      (reports : opts.rethrowDeliveryErrors = false) :
      Ends goods (.honor key deliver opts) (.pure (.outcome .deliveryFailed))
  | rethrown {key deliver opts e} (throws : Throws goods deliver)
      (rethrows : opts.rethrowDeliveryErrors = true) :
      Ends goods (.honor key deliver opts) (.throw e)
  | late {task} : Ends goods task (.pure (.outcome (.notReady (.decline .alreadyHonored none))))

section
variable {engine : HonorEngine G} {answer : (op : Op G) → op.Reply} {reserver : Bool}
  {key : HonorKey} {row : SeenRowSql} {world : World G} {pool : EnginePool G}

theorem honored_iff_commits {deliver : Deliver G} {opts : RegisterOpts}
    {calls : List (PortCall G)} {result : Except Thrown HonorOutcome}
    (returns : (engine.honor key deliver opts).Returns calls result) :
    (∃ outpoint, result = .ok (.honored outpoint)) ↔ calls.any (commits key) = true := by
  constructor
  · rintro ⟨outpoint, rfl⟩
    obtain ⟨past, input, reply, rfl⟩ := honor_returns_honored returns
    obtain ⟨reached, -, settled⟩ := honor_returns_of_gate returns
    refine List.any_eq_true.2 ⟨⟨.runHonorTxn input, reply⟩, by simp, commits_iff.2 ⟨?_, ?_⟩⟩
    · cases reached
      rfl
    · exact (settleTxn_honored settled.symm).1
  · intro hany
    obtain ⟨⟨op, reply⟩, called, committed⟩ := List.any_eq_true.1 hany
    obtain ⟨input, rfl⟩ := exists_txn_of_commits committed
    obtain ⟨past, later, rfl⟩ := List.mem_iff_append.1 called
    obtain ⟨-, -, rfl⟩ := honor_returns_of_gate returns
    refine ⟨input.outpoint, ?_⟩
    rw [settleTxn, (commits_iff.1 committed).2]

theorem contender_answered
    (forms : engine.deps.forms = createFormRegistry (builtinForms reserver))
    (contested : Contested engine answer key row world)
    (reached : Reachable (contest engine answer key row world.db.goods) world pool)
    {thread : Thread (Op G) Op.Reply Thrown EngineResult (EngineTask G)}
    (present : thread ∈ pool.threads) (ended : thread.rest.waits = false) :
    Ends world.db.goods thread.task thread.rest ∧ wins thread = committed key thread ∧
      (Lets world.db.goods thread.task → wins thread = false → Settled key pool.shared.db) := by
  have told := (contest_invariant forms contested reached).told thread present
  have run := reached.runs thread present
  obtain ⟨_, contends⟩ := reached.task_may_start thread present
  obtain ⟨task, past, rest⟩ := thread
  obtain ⟨result, rfl⟩ := exists_ofExcept ended
  cases task with
  | honor other deliver opts =>
    obtain ⟨rfl, injected, ends⟩ := contends
    obtain ⟨outcome, returns, rfl⟩ := Returns.of_map run
    have won := honored_iff_commits returns
    rcases contest_ends forms contested injected told returns with
      ⟨outpoint, rfl⟩ | ⟨input, e, rfl, failed, rfl⟩ | ⟨since, rfl⟩
    · refine ⟨.honored, ?_, fun _ lost => ?_⟩
      · exact (won.1 ⟨_, rfl⟩).symm
      · cases lost
    · have throws : Throws world.db.goods input.deliver := by
        apply ends.resolve_left
        intro delivers
        rw [delivers input rfl] at failed
        cases failed
      have notDelivers (lets : Delivers world.db.goods input.deliver) : False := by
        rw [lets input rfl] at failed
        cases failed
      have lost : past.any (commits other) = false := by
        apply Bool.eq_false_iff.2
        intro h
        obtain ⟨outpoint, honored⟩ := won.2 h
        cases hrethrow : opts.rethrowDeliveryErrors <;> simp [failureReport, hrethrow] at honored
      cases hrethrow : opts.rethrowDeliveryErrors with
      | false => exact ⟨.failed throws hrethrow, lost.symm, fun lets => absurd lets notDelivers⟩
      | true => exact ⟨.rethrown throws hrethrow, lost.symm, fun lets => absurd lets notDelivers⟩
    · refine ⟨.late, ?_, fun _ _ => since⟩
      refine (Bool.eq_false_iff.2 fun h => ?_).symm
      obtain ⟨outpoint, honored⟩ := won.2 h
      cases honored
  | _ => contradiction

theorem lets_of_wins
    (forms : engine.deps.forms = createFormRegistry (builtinForms reserver))
    (contested : Contested engine answer key row world)
    (reached : Reachable (contest engine answer key row world.db.goods) world pool)
    {thread : Thread (Op G) Op.Reply Thrown EngineResult (EngineTask G)}
    (present : thread ∈ pool.threads) (won : committed key thread = true) :
    Lets world.db.goods thread.task := by
  have told := (contest_invariant forms contested reached).told thread present
  have run := reached.runs thread present
  obtain ⟨_, contends⟩ := reached.task_may_start thread present
  obtain ⟨task, past, rest⟩ := thread
  obtain ⟨⟨op, reply⟩, called, committed⟩ := List.any_eq_true.1 won
  obtain ⟨input, rfl⟩ := exists_txn_of_commits committed
  obtain ⟨before, later, rfl⟩ := List.mem_iff_append.1 called
  obtain ⟨_, point, -⟩ := run.split
  cases task with
  | honor other deliver opts =>
    obtain ⟨rfl, injected, ends⟩ := contends
    obtain ⟨_, inner, _⟩ := Runs.of_map_call point
    have earlier : ∀ call ∈ before, ContestTold answer other row world.db.goods _ call :=
      fun call hcall => told call (List.mem_append_left _ hcall)
    obtain ⟨-, rfl, -⟩ := contender_gate forms contested.plain injected
      (contested_scored forms contested injected earlier) earlier (honor_runs_gate inner).1
    apply ends.resolve_right
    intro throws
    obtain ⟨e, failed⟩ := throws input rfl
    have ended := (told _ called).ended
    cases ended with
    | won ended =>
      rw [failed] at ended
      cases ended
    | failed ended => cases (commits_iff.1 committed).2
    | late since => cases (commits_iff.1 committed).2
  | _ => contradiction

theorem wins_le_committed
    (forms : engine.deps.forms = createFormRegistry (builtinForms reserver))
    (contested : Contested engine answer key row world)
    (reached : Reachable (contest engine answer key row world.db.goods) world pool) :
    pool.threads.countP wins ≤ pool.threads.countP (committed key) := by
  apply List.countP_mono_left
  intro thread present won
  have ended : thread.rest.waits = false := by
    unfold wins at won
    split at won
    next hrest => rw [hrest]; rfl
    next => cases won
  rw [← (contender_answered forms contested reached present ended).2.1, won]

end

/-- However the awaits of any number of honors of one plain quote interleave: each that returns is
told `honored`, `already_honored` or that its own `deliver` threw; at most one is told `honored`,
and when all have returned exactly one, unless every `deliver` throws. All of them can return. -/
theorem contention_one_winner (engine : HonorEngine G) (reserver : Bool)
    (forms : engine.deps.forms = createFormRegistry (builtinForms reserver))
    (answer : (op : Op G) → op.Reply) (key : HonorKey) (row : SeenRowSql) (world : World G)
    (contested : Contested engine answer key row world) (pool : EnginePool G)
    (reached : Reachable (contest engine answer key row world.db.goods) world pool) :
    (∀ thread ∈ pool.threads, thread.rest.waits = false →
      Ends world.db.goods thread.task thread.rest) ∧
    pool.threads.countP wins ≤ 1 ∧
    ((∀ thread ∈ pool.threads, thread.rest.waits = false) →
      ((∃ thread ∈ pool.threads, Lets world.db.goods thread.task) →
        pool.threads.countP wins = 1) ∧
      ((∀ thread ∈ pool.threads, ¬ Lets world.db.goods thread.task) →
        pool.threads.countP wins = 0)) ∧
    ∃ final, Relation.ReflTransGen (Step (contest engine answer key row world.db.goods)) pool
        final ∧
      final.threads.map (·.task) = pool.threads.map (·.task) ∧
      ∀ thread ∈ final.threads, thread.rest.waits = false := by
  have answered : ∀ thread ∈ pool.threads, thread.rest.waits = false → _ :=
    fun thread present ended => contender_answered forms contested reached present ended
  have state := (contest_invariant forms contested reached).state
  refine ⟨fun thread present ended => (answered thread present ended).1, ?_, fun ended => ?_,
    exists_finished _ answer pool⟩
  · have mono := wins_le_committed forms contested reached
    omega
  have same : pool.threads.countP wins = pool.threads.countP (committed key) :=
    List.countP_congr fun thread present => by
      rw [(answered thread present (ended thread present)).2.1]
  constructor
  · rintro ⟨thread, present, lets⟩
    rw [same]
    rcases state with ⟨sameDb, none⟩ | ⟨-, one⟩
    · have lost : wins thread = false :=
        Bool.eq_false_iff.2 (List.countP_eq_zero.1 (same.trans none) thread present)
      obtain ⟨other, hother, honored⟩ :=
        (answered thread present (ended thread present)).2.2 lets lost
      rw [sameDb, contested.found] at hother
      cases hother
      exact absurd contested.lockable.1 honored
    · exact one
  · intro allThrow
    rw [same]
    exact List.countP_eq_zero.2 fun thread present won =>
      allThrow thread present (lets_of_wins forms contested reached present won)

/-! Three honors of `sampleQuote`: the first one's `deliver` throws, the other two wait at the gate
together. -/

def sampleContest : System (World Unit) (Op Unit) Op.Reply Thrown EngineResult (EngineTask Unit) :=
  contest sampleEngine paidPorts.answer sampleQuote.key sampleRow ()

def honorWith (deliver : Deliver Unit) : EngineTask Unit := .honor sampleQuote.key deliver {}
def returning : Deliver Unit := fun _ => .pure .value

def contestMoves : List SampleMove :=
  [.start (honorWith throwing), .start (honorWith returning), .start (honorWith returning)] ++
  turns 1 7 ++ turns 2 7 ++ turns 0 8 ++ turns 2 1 ++ turns 1 1

def contestPool : EnginePool Unit :=
  (Pool.fresh (.booted (registeredDb .sync) 20)).play sampleContest contestMoves

theorem contest_delivers : Delivers () returning := by
  intro input hdeliver
  rw [deliverEnd, hdeliver]
  rfl

theorem contest_throws : Throws () throwing := by
  intro input hdeliver
  refine ⟨boom, ?_⟩
  rw [deliverEnd, hdeliver]
  rfl

theorem sample_contested : Contested sampleEngine paidPorts.answer sampleQuote.key sampleRow
    (.booted (registeredDb .sync) 20) where
  found := rfl
  plain := rfl
  lockable := by decide
  scores now _ := ⟨_, _, rfl, rfl⟩
  reads := ⟨_, rfl⟩
  executes _ := rfl

theorem contestPool_reachable :
    Reachable sampleContest (.booted (registeredDb .sync) 20) contestPool := by
  have contends {deliver : Deliver Unit} (ends : Delivers () deliver ∨ Throws () deliver) :
      Contends sampleQuote.key sampleRow () (honorWith deliver) := ⟨rfl, nofun, ends⟩
  apply Pool.play_reachable
  simp only [contestMoves, turns, List.append_assoc, List.cons_append, List.nil_append]
  exact ⟨contends (.inr contest_throws), contends (.inl contest_delivers),
    contends (.inl contest_delivers), Pool.allowed_advances 7 (Pool.allowed_advances 7
      (Pool.allowed_advances 8 (Pool.allowed_advances 1
        (List.append_nil (List.replicate 1 _) ▸ Pool.allowed_advances 1 trivial))))⟩

theorem contention_one_winner_three : contestPool.threads.countP wins = 1 := by
  obtain ⟨-, -, finished, -⟩ := contention_one_winner sampleEngine true rfl paidPorts.answer
    sampleQuote.key sampleRow _ sample_contested contestPool contestPool_reachable
  refine (finished (by decide +kernel)).1 ⟨_, List.mem_of_getElem? (i := 1) rfl, ?_⟩
  exact contest_delivers

end HonorEngine
end ExferHonor
