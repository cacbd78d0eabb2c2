import ExferHonor.Core.ExactlyOnce

/-! The R6 window against the clock at the commit. An `honor` reads the clock when it starts, and
its transaction is guarded by, and records, the time read then. -/
namespace ExferHonor
namespace HonorEngine
open Effects Program Store Statements

variable {G : Type}

def WindowHolds (key : HonorKey) (event : EngineEvent G) : Prop :=
  (∃ row, event.before.db.seen.find? key = some row ∧ event.before.clock < row.retainUntil ∧
    (event.before.clock < row.expiresAt ∨ row.observedBeforeExpiry = true)) ∧
  ∃ honored, event.after.db.seen.find? key = some honored ∧
    honored.honoredAt = some event.before.clock

theorem gate_sampled {engine : HonorEngine G} {key : HonorKey} {deliver : Deliver G}
    {opts : RegisterOpts} {past : List (PortCall G)} {input : HonorTxnInput G}
    (reached : GateReached engine key deliver opts past input) (clocked : opts.now = none) :
    ∃ later, past = ⟨.clockNow, .ok input.now⟩ :: later := by
  cases reached with
  | mk sampled =>
    rw [clocked] at sampled
    obtain ⟨reply, rfl, hreply⟩ := returns_ask_iff.1 sampled
    cases hreply
    exact ⟨_, rfl⟩

theorem sampled_of_commit {engine : HonorEngine G} {mayStart : World G → EngineTask G → Prop}
    {mayShift : World G → World G → Prop} {initial : World G} {pool : EnginePool G}
    (reached : Reachable (engineSystem engine .sync mayStart mayShift) initial pool)
    {event : EngineEvent G} (logged : event ∈ pool.log) {input : HonorTxnInput G}
    (gate : event.call.op = .runHonorTxn input) {key : HonorKey} {deliver : Deliver G}
    {opts : RegisterOpts} (task : event.task = .honor key deliver opts)
    (clocked : opts.now = none) :
    ∃ first ∈ pool.log, first.thread = event.thread ∧ first.past = [] ∧
      first.before.clock = input.now := by
  obtain ⟨resume, run⟩ := reached.runs_to_event event logged
  obtain ⟨thread, hthread, htask, rest, hpast⟩ := reached.thread_of_event event logged
  obtain ⟨index, _, past, before, ⟨op, reply⟩, after⟩ := event
  obtain rfl : op = .runHonorTxn input := gate
  change _ = EngineTask.honor key deliver opts at task
  subst task
  obtain ⟨_, atGate, -⟩ := Runs.of_map_call run
  obtain ⟨later, hsampled⟩ := gate_sampled (honor_runs_gate atGate).1 clocked
  obtain ⟨first, hfirst, hsame, -, hstart, hcall⟩ := reached.event_of_past index thread hthread []
    ⟨.clockNow, .ok input.now⟩ (later ++ ⟨.runHonorTxn input, reply⟩ :: rest)
    (by rw [hpast, show past = _ from hsampled]; rfl)
  refine ⟨first, hfirst, hsame, hstart, ?_⟩
  obtain ⟨answer, hreply, -⟩ := reached.performed first hfirst
  obtain ⟨_, _, _, started, call, _⟩ := first
  obtain rfl : call = ⟨.clockNow, .ok input.now⟩ := hcall
  exact (Except.ok.inj hreply).symm

/-- A delivery commits inside the window of the moment, and with its time on record, if and only if
the clock has not moved since the `honor` read it. -/
theorem commit_window_iff (engine : HonorEngine G) (mayStart : World G → EngineTask G → Prop)
    (mayShift : World G → World G → Prop) (initial : World G) (pool : EnginePool G)
    (reached : Reachable (engineSystem engine .sync mayStart mayShift) initial pool)
    (event : EngineEvent G) (logged : event ∈ pool.log) (key : HonorKey) (deliver : Deliver G)
    (opts : RegisterOpts) (task : event.task = .honor key deliver opts)
    (clocked : opts.now = none) (committed : commits key event.call = true) :
    ∃ first ∈ pool.log, first.thread = event.thread ∧ first.past = [] ∧
      (WindowHolds key event ↔ event.before.clock = first.before.clock) := by
  obtain ⟨input, gate⟩ := exists_txn_of_commits committed
  obtain ⟨first, hfirst, hsame, hstart, hnow⟩ :=
    sampled_of_commit reached logged gate task clocked
  refine ⟨first, hfirst, hsame, hstart, ?_⟩
  obtain ⟨answer, hreply, hafter⟩ := reached.performed event logged
  obtain ⟨_, _, _, before, ⟨op, reply⟩, after⟩ := event
  obtain rfl : op = .runHonorTxn input := gate
  obtain ⟨rfl, resolved⟩ := commits_iff.1 committed
  dsimp only at hreply hafter
  rw [hreply] at resolved
  obtain ⟨row, found, ⟨_, retained, unexpired⟩, locked⟩ := perform_txn_locks resolved
  have hlocked : after.db.seen.find? input.key = some (lockedRow input.now input.outpoint row) := by
    rw [hafter]
    exact locked
  rw [hnow]
  constructor
  · rintro ⟨-, honored, hhonored, recorded⟩
    rw [hlocked] at hhonored
    cases hhonored
    exact (Option.some.inj recorded).symm
  · rintro still
    change before.clock = input.now at still
    refine ⟨⟨row, found, ?_, ?_⟩, _, hlocked, ?_⟩
    · exact still ▸ retained
    · exact still ▸ unexpired
    · exact congrArg some still.symm

/-! An `honor` of `sampleQuote` that waits at the gate, with and without the clock moving. -/

def atGateMoves : List SampleMove :=
  .start (.register sampleQuote {}) :: turns 0 3 ++
  .start (.honor sampleQuote.key sampleTxn.deliver {}) :: turns 1 7

def promptMoves : List SampleMove := atGateMoves ++ turns 1 1

def lateGateMoves : List SampleMove :=
  atGateMoves ++ .shift (fun world => { world with clock := 5000 }) :: turns 1 1

def lastEvent (moves : List SampleMove) : Option (EngineEvent Unit) :=
  (samplePool moves).log.getLast?

theorem lastEvent_task (late : Bool) :
    (lastEvent (if late then lateGateMoves else promptMoves)).map (·.task) =
      some (.honor sampleQuote.key sampleTxn.deliver {}) := by
  cases late <;> rfl

theorem commits_after_window :
    Reachable sampleSystem (.booted (.empty ()) 20) (samplePool lateGateMoves) ∧
    ∃ event ∈ (samplePool lateGateMoves).log,
      event.task = .honor sampleQuote.key sampleTxn.deliver {} ∧
      commits sampleQuote.key event.call = true ∧ ¬ WindowHolds sampleQuote.key event := by
  constructor
  · refine Pool.play_reachable ?_
    simp only [lateGateMoves, atGateMoves, turns, List.append_assoc, List.cons_append]
    exact ⟨fun _ => rfl, Pool.allowed_advances 3 ⟨rfl, Pool.allowed_advances 7
      ⟨⟨by decide +kernel, rfl⟩, Pool.allowed_advances 1 trivial⟩⟩⟩
  · have found : (lastEvent lateGateMoves).map (fun event => (commits sampleQuote.key event.call,
        event.before.clock, (event.before.db.seen.find? sampleQuote.key).map (·.retainUntil))) =
        some (true, 5000, some 4600) := by decide +kernel
    have htask := lastEvent_task true
    cases hlast : lastEvent lateGateMoves with
    | none =>
      rw [hlast] at found
      contradiction
    | some event =>
      simp only [hlast, if_true, Option.map_some, Option.some.injEq, Prod.mk.injEq]
        at found htask
      obtain ⟨committed, hclock, hretain⟩ := found
      refine ⟨event, List.mem_of_getLast? hlast, htask, committed, ?_⟩
      rintro ⟨⟨row, present, retained, -⟩, -⟩
      rw [present] at hretain
      have hkept : row.retainUntil = 4600 := Option.some.inj hretain
      omega

theorem commit_window_prompt :
    ∃ event ∈ (samplePool promptMoves).log, commits sampleQuote.key event.call = true ∧
      ∃ first ∈ (samplePool promptMoves).log, first.thread = event.thread ∧ first.past = [] ∧
        (WindowHolds sampleQuote.key event ↔ event.before.clock = first.before.clock) := by
  have hplay : Reachable sampleSystem (.booted (.empty ()) 20) (samplePool promptMoves) := by
    refine Pool.play_reachable ?_
    simp only [promptMoves, atGateMoves, turns, List.append_assoc, List.cons_append]
    exact ⟨fun _ => rfl, Pool.allowed_advances 3 ⟨rfl, Pool.allowed_advances 7
      (Pool.allowed_advances 1 trivial)⟩⟩
  have found : (lastEvent promptMoves).map (fun event => commits sampleQuote.key event.call) =
      some true := by decide +kernel
  have htask := lastEvent_task false
  cases hlast : lastEvent promptMoves with
  | none =>
    rw [hlast] at found
    contradiction
  | some event =>
    simp only [Bool.false_eq_true, hlast, if_false, Option.map_some, Option.some.injEq]
      at found htask
    exact ⟨event, List.mem_of_getLast? hlast, found, commit_window_iff sampleEngine _ _ _ _ hplay
      event (List.mem_of_getLast? hlast) _ _ _ htask rfl found⟩

end HonorEngine
end ExferHonor
