import ExferHonor.Adapters.GateTables
import ExferHonor.Core.TaskCalls

/-! At most one honor transaction of a quote commits, over any interleaving of façade calls on
the synchronous store, also when the quote's row is swept and registered again. -/
namespace ExferHonor
namespace HonorEngine
open Effects Store Statements

variable {G : Type}

/-- The façade used as intended: one quote under its key, and the clock for every time. -/
def IntendedUse (quote : AcceptedQuote) (world : World G) : EngineTask G → Prop
  | .register other _ => other.key = quote.key → other = quote
  | .markObserved _ observedAt => observedAt = world.clock
  | .honor _ _ opts => opts.now = none
  | .sweep now => now = world.clock
  | .canHonor _ => True
  | .status _ => True

def ClockForward (before after : World G) : Prop :=
  before.clock ≤ after.clock ∧ after = { before with clock := after.clock }

def commits (key : HonorKey) : PortCall G → Bool
  | ⟨.runHonorTxn input, reply⟩ =>
      match reply.result with
      | .ok _ => input.key = key
      | .error _ => false
  | _ => false

structure SweepsHonored (key : HonorKey) (time : Int) (event : EngineEvent G) : Prop where
  called : event.call.op = .sweep time
  honored : ∃ row, event.before.db.seen.find? key = some row ∧ row.honoredAt ≠ none
  deleted : event.after.db.seen.find? key = none

/-- The transaction's `now` was not sampled before a sweep that has deleted the honored row. -/
def SampledAfterSweeps (key : HonorKey) (earlier : List (EngineEvent G))
    (event : EngineEvent G) : Prop :=
  ∀ input, event.call.op = .runHonorTxn input → input.key = key →
    ∀ sweep ∈ earlier, ∀ time, SweepsHonored key time sweep → time ≤ input.now

/-- The row of `key` is honored, or was and has been swept after its retention. -/
def Spent (key : HonorKey) (retention : Int) (pool : EnginePool G) : Prop :=
  (∃ row, pool.shared.db.seen.find? key = some row ∧ row.honoredAt ≠ none) ∨
  ∃ sweep ∈ pool.log, ∃ time, SweepsHonored key time sweep ∧ retention < time

def commitCount (key : HonorKey) (pool : EnginePool G) : Nat :=
  pool.log.countP fun event => commits key event.call

structure OnceInvariant (key : HonorKey) (retention : Int) (pool : EnginePool G) : Prop where
  retains : ∀ row, pool.shared.db.seen.find? key = some row → row.retainUntil = retention
  once : commitCount key pool ≤ 1
  spent : 0 < commitCount key pool → Spent key retention pool

theorem commits_iff {key : HonorKey} {input : HonorTxnInput G} {reply : TxnReply} :
    commits key ⟨.runHonorTxn input, reply⟩ = true ↔
      input.key = key ∧ reply.result = .ok () := by
  obtain ⟨called, result⟩ := reply
  cases result <;> simp [commits]

theorem exists_txn_of_commits {key : HonorKey} {call : PortCall G}
    (committed : commits key call = true) : ∃ input, call.op = .runHonorTxn input := by
  unfold commits at committed
  split at committed
  · exact ⟨_, rfl⟩
  · contradiction

/-- A lockable row has not been spent, if the transaction's `now` is not older than a sweep
that spent it. -/
theorem not_spent {key : HonorKey} {retention : Int} {pool : EnginePool G} {row : SeenRowSql}
    {now : Int} (retains : row.retainUntil = retention)
    (found : pool.shared.db.seen.find? key = some row) (lockable : Lockable now row)
    (fresh : ∀ sweep ∈ pool.log, ∀ time, SweepsHonored key time sweep → time ≤ now) :
    ¬ Spent key retention pool := by
  rintro (⟨other, hother, honored⟩ | ⟨sweep, hsweep, time, swept, expired⟩)
  · rw [found] at hother
    cases hother
    exact honored lockable.1
  · have hfresh := fresh sweep hsweep time swept
    have hretained := lockable.2.1
    omega

section
variable {engine : HonorEngine G} {mayStart : World G → EngineTask G → Prop}
  {mayShift : World G → World G → Prop} {key : HonorKey} {retention : Int}
  {pool : EnginePool G} {index : Nat} {task : EngineTask G} {past : List (PortCall G)}
  {op : Op G} {resume : op.Reply → Async G EngineResult} {answer : op.Reply}

theorem commitCount_advance :
    commitCount key (pool.advance (engineSystem engine .sync mayStart mayShift) index task past
        op resume answer) =
      commitCount key pool +
        if commits key ⟨op, (World.perform .sync pool.shared op answer).1⟩ then 1 else 0 := by
  simp only [commitCount, Pool.advance, List.countP_append, List.countP_singleton, engineSystem]

theorem OnceInvariant.advance (inv : OnceInvariant key retention pool)
    (accepts : ∀ quote acceptedAt retainUntil, op = .upsertAccepted quote acceptedAt retainUntil →
      quote.key = key → retainUntil = retention)
    (fresh : ∀ input, op = .runHonorTxn input → input.key = key →
      ∀ sweep ∈ pool.log, ∀ time, SweepsHonored key time sweep → time ≤ input.now) :
    OnceInvariant key retention (pool.advance (engineSystem engine .sync mayStart mayShift)
      index task past op resume answer) := by
  by_cases hcommit : commits key ⟨op, (World.perform .sync pool.shared op answer).1⟩ = true
  · obtain ⟨input, rfl⟩ := exists_txn_of_commits hcommit
    obtain ⟨rfl, resolved⟩ := commits_iff.1 hcommit
    obtain ⟨row, hrow, lockable, hlocked⟩ := perform_txn_locks resolved
    have hzero : commitCount input.key pool = 0 := by
      by_contra hpos
      exact not_spent (inv.retains row hrow) hrow lockable (fresh input rfl rfl)
        (inv.spent (Nat.pos_of_ne_zero hpos))
    constructor
    · intro after hafter
      cases hlocked.symm.trans hafter
      exact inv.retains row hrow
    · rw [commitCount_advance, hzero]
      split <;> decide
    · exact fun _ => .inl ⟨_, hlocked, nofun⟩
  · have hcount : commitCount key (pool.advance (engineSystem engine .sync mayStart mayShift)
        index task past op resume answer) = commitCount key pool := by
      rw [commitCount_advance, if_neg hcommit, Nat.add_zero]
    have change := World.perform_seen .sync pool.shared op answer key
    refine ⟨fun row hrow => ?_, hcount ▸ inv.once, fun hpos => ?_⟩
    · change (World.perform .sync pool.shared op answer).2.db.seen.find? key = some row at hrow
      rw [hrow] at change
      generalize (World.perform .sync pool.shared op answer).1 = reply at change
      generalize hbefore : pool.shared.db.seen.find? key = before at change
      cases change with
      | same => exact inv.retains row hbefore
      | accepted own _ => exact accepts _ _ _ rfl own
      | observed present _ => exact (inv.retains _ (hbefore.trans present) :)
      | locked _ present _ _ => exact (inv.retains _ (hbefore.trans present) :)
    · rcases inv.spent (hcount ▸ hpos) with ⟨row, hrow, honored⟩ | ⟨sweep, hsweep, h⟩
      · rw [hrow] at change
        generalize (World.perform .sync pool.shared op answer).1 = reply at change
        generalize hafter :
          (World.perform .sync pool.shared op answer).2.db.seen.find? key = after at change
        cases change with
        | same => exact .inl ⟨row, hafter, honored⟩
        | accepted _ absent => cases absent
        | observed present _ =>
          cases present
          exact .inl ⟨_, hafter, honored⟩
        | locked _ present lockable _ =>
          cases present
          exact absurd lockable.1 honored
        | swept present expired =>
          cases present
          exact .inr ⟨_, List.mem_append_right _ (List.mem_singleton_self _), _,
            ⟨rfl, ⟨row, hrow, honored⟩, hafter⟩, inv.retains row hrow ▸ expired⟩
      · exact .inr ⟨sweep, List.mem_append_left _ hsweep, h⟩

end

/-- Provided no transaction of the quote runs with a `now` sampled before a sweep that has
deleted the quote's honored row. -/
theorem commits_at_most_once (engine : HonorEngine G) (quote : AcceptedQuote) (goods : G)
    (clock : Int) (pool : EnginePool G)
    (reached : Reachable (engineSystem engine .sync (IntendedUse quote) ClockForward)
      (.booted (.empty goods) clock) pool)
    (sampled : Along (SampledAfterSweeps quote.key) pool.log) :
    commitCount quote.key pool ≤ 1 := by
  suffices inv : Along (SampledAfterSweeps quote.key) pool.log →
      OnceInvariant quote.key (quote.expiresAt + engine.deps.config.maxRecheckWindow) pool from
    (inv sampled).once
  refine reached.invariant (fun pool => Along (SampledAfterSweeps quote.key) pool.log →
    OnceInvariant quote.key (quote.expiresAt + engine.deps.config.maxRecheckWindow) pool)
    (fun _ => ?_) fun before after run ih step sampled => ?_
  · constructor
    · intro row hrow
      cases hrow
    · exact Nat.zero_le 1
    · exact fun hpos => absurd hpos (Nat.lt_irrefl 0)
  · cases step with
    | start task may =>
      obtain ⟨retains, once, spent⟩ := ih sampled
      exact ⟨retains, once, spent⟩
    | shift next may =>
      obtain ⟨retains, once, spent⟩ := ih sampled
      obtain ⟨_, hnext⟩ := may
      have hdb : next.db = before.shared.db := by rw [hnext]
      refine ⟨fun row hrow => retains row (hdb ▸ hrow), once, fun hpos => ?_⟩
      rcases spent hpos with ⟨row, hrow, honored⟩ | swept
      · exact .inl ⟨row, hdb.symm ▸ hrow, honored⟩
      · exact .inr swept
    | advance answer waiting =>
      obtain ⟨earlier, fresh⟩ := along_concat_iff.1 sampled
      refine (ih earlier).advance ?_ fresh
      rintro other acceptedAt retainUntil rfl own
      have hthread := List.mem_of_getElem? waiting
      obtain ⟨⟨opts, rfl⟩, hretain⟩ := program_runs_upsert (run.runs _ hthread)
      obtain ⟨_, may⟩ := run.task_may_start _ hthread
      rw [hretain, may own]

/-! Two honors of `sampleQuote` in flight at once, with and without a sweep between them. -/

abbrev SampleMove := Move (World Unit) (Op Unit) Op.Reply (EngineTask Unit)

def sampleSystem : System (World Unit) (Op Unit) Op.Reply Thrown EngineResult (EngineTask Unit) :=
  engineSystem sampleEngine .sync (IntendedUse sampleQuote) ClockForward

def turns (index count : Nat) : List SampleMove :=
  .replicate count (.advance index paidPorts.answer)

/-- The second of two honors commits while the first waits at the gate. -/
def overlapMoves : List SampleMove :=
  .start (.register sampleQuote {}) :: turns 0 3 ++
  .start (.honor sampleQuote.key sampleTxn.deliver {}) :: turns 1 7 ++
  .start (.honor sampleQuote.key sampleTxn.deliver {}) :: turns 2 8

def sweepMoves (index : Nat) : List SampleMove :=
  .shift (fun world => { world with clock := 5000 }) ::
  .start (.sweep 5000) :: turns index 1 ++
  .start (.register sampleQuote {}) :: turns (index + 1) 3

def straddleMoves : List SampleMove := overlapMoves ++ sweepMoves 3 ++ turns 1 1

/-- It goes on before the sweep, and a third honor comes after it. -/
def renewedMoves : List SampleMove :=
  overlapMoves ++ turns 1 1 ++ sweepMoves 3 ++
  .start (.honor sampleQuote.key sampleTxn.deliver {}) :: turns 5 8

def samplePool (moves : List SampleMove) : EnginePool Unit :=
  (Pool.fresh (.booted (.empty ()) 20)).play sampleSystem moves

theorem commits_twice :
    Reachable sampleSystem (.booted (.empty ()) 20) (samplePool straddleMoves) ∧
    commitCount sampleQuote.key (samplePool straddleMoves) = 2 := by
  refine ⟨Pool.play_reachable ?_, by decide +kernel⟩
  simp only [straddleMoves, overlapMoves, sweepMoves, turns, List.append_assoc, List.cons_append]
  refine ⟨fun _ => rfl, Pool.allowed_advances 3 ⟨rfl, Pool.allowed_advances 7 ⟨rfl,
    Pool.allowed_advances 8 ⟨⟨by decide +kernel, rfl⟩, rfl, Pool.allowed_advances 1 ⟨fun _ => rfl,
      Pool.allowed_advances 3 ⟨trivial, trivial⟩⟩⟩⟩⟩⟩

def sampledLater (sweep event : PortCall Unit) : Bool :=
  match sweep.op, event.op with
  | .sweep time, .runHonorTxn input => decide (time ≤ input.now)
  | _, _ => true

theorem commits_at_most_once_overlap :
    (samplePool renewedMoves).log.countP (fun event => event.call.op.bySweep) = 1 ∧
    commitCount sampleQuote.key (samplePool renewedMoves) = 1 ∧
    commitCount sampleQuote.key (samplePool renewedMoves) ≤ 1 := by
  refine ⟨by decide +kernel, by decide +kernel, commits_at_most_once sampleEngine sampleQuote () 20
    _ (Pool.play_reachable ?_) (along_of_pairwise (fun sweep event =>
      sampledLater sweep.call event.call = true) (by decide +kernel) ?_)⟩
  · simp only [renewedMoves, overlapMoves, sweepMoves, turns, List.append_assoc, List.cons_append]
    exact ⟨fun _ => rfl, Pool.allowed_advances 3 ⟨rfl, Pool.allowed_advances 7 ⟨rfl,
      Pool.allowed_advances 8 (Pool.allowed_advances 1 ⟨⟨by decide +kernel, rfl⟩, rfl,
        Pool.allowed_advances 1 ⟨fun _ => rfl, Pool.allowed_advances 3 ⟨rfl,
          Pool.allowed_advances 8 trivial⟩⟩⟩)⟩⟩⟩
  · intro earlier event later input called _ sweep hsweep time swept
    have := later sweep hsweep
    simpa only [sampledLater, swept.called, called, decide_eq_true_eq] using this

end HonorEngine
end ExferHonor
