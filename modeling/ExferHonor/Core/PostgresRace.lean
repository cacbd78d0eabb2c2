import ExferHonor.Core.PostgresPhases

/-! Honors of one plain quote over one PostgresStore, statement by statement: as long as their
transactions do not overlap, one is honored and the others are told so. -/
namespace ExferHonor
namespace PostgresPool
open Effects Program Store Statements PostgresServer HonorEngine

variable {G : Type}

/-- The statement that was answered was not blocked when it was. -/
def waitedItsTurn (event : Event (Server G) (PgOp G) PgOp.Reply (HonorCall G)) : Bool :=
  match event.call.op with
  | .client id (.stmt stmt) => !event.before.blocked id stmt
  | _ => true

/-- No statement is answered while a row it changes is locked by another transaction, each call's
scoring gives `honor`, and the row and the tip can be read. -/
structure Granted (engine : HonorEngine G) (key : HonorKey) (pool : RacePool G) : Prop where
  waits : ∀ event ∈ pool.log, waitedItsTurn event = true
  scored : ∀ thread ∈ pool.threads,
    Scored engine key thread.task.opts (fun _ => True) (ports thread.past)
  faultless : ∀ thread ∈ pool.threads, ∀ call ∈ ports thread.past, Faultless key call

structure Meets (engine : HonorEngine G) (key : HonorKey) (db : Db G) (pool : RacePool G) :
    Prop where
  apart : pool.threads.countP inFlight ≤ 1
  free : ∀ thread ∈ pool.threads, Scored engine key thread.task.opts
    (fun outpoint => db.consumed.find? outpoint = none) (ports thread.past)
  clean : ∀ thread ∈ pool.threads, Clean db.goods thread.task.deliver

structure RaceInvariant (engine : HonorEngine G) (key : HonorKey) (row : SeenRowSql) (db : Db G)
    (pool : RacePool G) : Prop where
  phases : ∀ thread ∈ pool.threads, Phase engine key row pool.shared thread
  inside : Lockable pool.shared.world.clock row
  apart : pool.threads.countP inFlight ≤ 1
  state : (pool.shared.world.db = db ∧ pool.threads.countP wins = 0) ∨
    (Settled key pool.shared.world.db ∧ pool.threads.countP wins = 1)

section
variable {engine : HonorEngine G} {reserver : Bool} {key : HonorKey} {row : SeenRowSql}
  {server : Server G} {pool : RacePool G}

private theorem eq_of_countP_le_one {T : Type} {threads : List T} {p : T → Bool}
    (single : threads.countP p ≤ 1) {i j : Nat} {first second : T}
    (hi : threads[i]? = some first) (hj : threads[j]? = some second) (pi : p first = true)
    (pj : p second = true) : i = j := by
  induction threads generalizing i j with
  | nil => cases hi
  | cons head tail ih =>
    have counts {k : Nat} {thread : T} (hk : tail[k]? = some thread) (pk : p thread = true) :
        1 ≤ tail.countP p :=
      List.one_le_countP_iff.2 ⟨thread, List.mem_of_getElem? hk, pk⟩
    rw [List.countP_cons] at single
    cases i with
    | zero =>
      cases j with
      | zero => rfl
      | succ j =>
        cases hi
        have := counts hj pj
        rw [if_pos pi] at single
        omega
    | succ i =>
      cases j with
      | zero =>
        cases hj
        have := counts hi pi
        rw [if_pos pj] at single
        omega
      | succ j => exact congrArg (· + 1) (ih (Nat.le_of_add_right_le single) hi hj)

theorem honor_waits (engine : HonorEngine G) (key : HonorKey) (deliver : Deliver G)
    (opts : RegisterOpts) :
    (engine.honor key deliver opts).waits = true := by
  unfold HonorEngine.honor HonorEngine.now
  cases opts.now <;> rfl

theorem others_move {index : Nat} {task : HonorCall G} {past : List (PgCall G)} {op : PgOp G}
    {resume : op.Reply → OverPool G HonorOutcome} {after : RaceThread G} (answer : op.Reply)
    (held : Owned pool) (apart : pool.threads.countP inFlight ≤ 1)
    (phases : ∀ thread ∈ pool.threads, Phase engine key row pool.shared thread)
    (waiting : pool.threads[index]? = some ⟨task, past, .call op resume⟩)
    (moved : Moved engine key row db pool.shared (perform pool.shared op answer).2
      ⟨task, past, .call op resume⟩ after)
    (settles : Settled key pool.shared.world.db →
      Settled key (perform pool.shared op answer).2.world.db)
    {other : Nat} {thread : RaceThread G} (elsewhere : index ≠ other)
    (present : pool.threads[other]? = some thread) :
    Phase engine key row (perform pool.shared op answer).2 thread := by
  have hmem := List.mem_of_getElem? present
  have grounded (flying : inFlight (G := G) ⟨task, past, .call op resume⟩ = true) :
      inFlight thread = false := by
    refine Bool.eq_false_iff.2 fun h => elsewhere ?_
    exact eq_of_countP_le_one apart waiting present flying h
  refine (phases thread hmem).mono settles (fun id holds => ?_) ?_
  · apply perform_clients answer (held.handedOut thread hmem id holds)
    rintro command rfl
    exact elsewhere (held.distinct index other _ thread id waiting present
      (phases _ (List.mem_of_getElem? waiting)).holds holds)
  · cases moved with
    | on phase sameDb quiet lost => exact quiet.imp_right grounded
    | wins unsettled settled won flying => exact .inr (grounded flying)

theorem RaceInvariant.advance
    (forms : engine.deps.forms = createFormRegistry (builtinForms reserver))
    (raced : Raced key row server) {before : RacePool G}
    (run : Reachable (race engine key row server.world.db.goods) server before)
    (inv : RaceInvariant engine key row server.world.db before) {index : Nat} {task : HonorCall G}
    {past : List (PgCall G)} {op : PgOp G} {resume : op.Reply → OverPool G HonorOutcome}
    (waiting : before.threads[index]? = some ⟨task, past, .call op resume⟩) (answer : op.Reply)
    (granted : Granted engine key (before.advance (race engine key row server.world.db.goods) index
      task past op resume answer))
    (meets : Meets engine key server.world.db (before.advance
      (race engine key row server.world.db.goods) index task past op resume answer)) :
    RaceInvariant engine key row server.world.db (before.advance
      (race engine key row server.world.db.goods) index task past op resume answer) := by
  obtain ⟨phases, inside, apart, state⟩ := inv
  have hmem := List.mem_of_getElem? waiting
  obtain ⟨_, injected, resolves⟩ := run.task_may_start _ hmem
  have present := Pool.getElem?_advance (race engine key row server.world.db.goods) waiting answer
  have self := List.mem_of_getElem? ((present index).trans (if_pos rfl))
  have clean : Clean server.world.db.goods task.deliver := meets.clean _ self
  have moved := phase_moves forms raced.plain raced.lockable.1 raced.found
    (state.imp And.left And.left) inside injected resolves clean (phases _ hmem) answer
    (granted.faultless _ self) (meets.free _ self)
  have settles : Settled key before.shared.world.db →
      Settled key (perform before.shared op answer).2.world.db := by
    cases moved with
    | on phase sameDb quiet lost => exact fun settled => sameDb ▸ settled
    | wins unsettled settled won flying => exact fun _ => settled
  refine ⟨fun thread there => ?_, ?_, meets.apart, ?_⟩
  · obtain ⟨other, hother⟩ := List.getElem?_of_mem there
    rw [present] at hother
    split at hother
    next =>
      cases hother
      cases moved with
      | on phase sameDb quiet lost => exact phase
      | wins unsettled settled won flying => exact .of_wins won
    next elsewhere =>
      exact others_move answer (owned run) apart phases waiting moved settles elsewhere hother
  · exact (perform_clock before.shared op answer).symm ▸ inside
  · have count := Pool.countP_advance (race engine key row server.world.db.goods) wins waiting
      rfl answer
    cases moved with
    | on phase sameDb quiet lost =>
      rw [count.trans (congrArg (_ + ·) (if_neg (Bool.eq_false_iff.1 lost)))]
      exact state.imp (And.imp_left sameDb.trans) fun h => ⟨settles h.1, h.2⟩
    | wins unsettled settled won flying =>
      have unhonored : ¬ Settled key server.world.db := unsettled_row raced.found raced.lockable.1
      rw [count.trans (congrArg (_ + ·) (if_pos won))]
      exact .inr ⟨settled, congrArg (· + 1)
        (state.resolve_right fun h => unhonored (unsettled ▸ h.1)).2⟩

theorem race_invariant (forms : engine.deps.forms = createFormRegistry (builtinForms reserver))
    (raced : Raced key row server)
    (reached : ReachableBy (race engine key row server.world.db.goods) (fun _ after =>
      Granted engine key after ∧ Meets engine key server.world.db after) server pool) :
    RaceInvariant engine key row server.world.db pool := by
  refine reached.invariant (RaceInvariant engine key row server.world.db)
    ⟨by simp [Pool.fresh], raced.lockable, by simp [Pool.fresh], .inl ⟨rfl, rfl⟩⟩ ?_
  rintro before after run inv step ⟨granted, meets⟩
  cases step with
  | start task may =>
    obtain ⟨phases, inside, -, state⟩ := inv
    have waits := honor_waits engine key task.deliver task.opts
    refine ⟨fun thread present => ?_, inside, meets.apart, ?_⟩
    · rcases List.mem_append.1 present with h | h
      · exact phases thread h
      · rw [List.mem_singleton.1 h]
        exact .outside .nil (by simp) rfl rfl waits
    · have lost : wins (G := G) ⟨task, [], _⟩ = false := wins_of_waits (waits_outside waits)
      rw [Pool.start, List.countP_append, List.countP_singleton]
      simp only [race, lost]
      exact state
  | shift next may =>
    obtain ⟨phases, inside, apart, state⟩ := inv
    obtain ⟨still, hnext⟩ := may
    refine ⟨fun thread present => ?_, still, apart, ?_⟩
    · rw [Pool.shift, hnext]
      exact (phases thread present).mono id (fun _ _ => rfl) (.inl rfl)
    · rw [Pool.shift, hnext]
      exact state
  | advance answer waiting => exact inv.advance forms raced run waiting answer granted meets

end

def Benign (thread : RaceThread G) : Prop :=
  (∃ outpoint, thread.rest = .pure (.honored outpoint)) ∨
    thread.rest = .pure (.notReady (.decline .alreadyHonored none))

/-- In every run in which no two transactions overlap, outpoints are free and no statement of a
`deliver` fails, honors of one plain quote return `honored` once and `already_honored` otherwise. -/
theorem race_loser_benign (engine : HonorEngine G) (reserver : Bool)
    (forms : engine.deps.forms = createFormRegistry (builtinForms reserver)) (key : HonorKey)
    (row : SeenRowSql) (server : Server G) (raced : Raced key row server) (pool : RacePool G)
    (reached : ReachableBy (race engine key row server.world.db.goods) (fun _ after =>
      Granted engine key after ∧ Meets engine key server.world.db after) server pool) :
    (∀ thread ∈ pool.threads, thread.rest.waits = false → Benign thread) ∧
    pool.threads.countP wins ≤ 1 ∧
    (pool.threads ≠ [] → (∀ thread ∈ pool.threads, thread.rest.waits = false) →
      pool.threads.countP wins = 1) := by
  obtain ⟨phases, -, -, state⟩ := race_invariant forms raced reached
  refine ⟨fun thread present ended => ?_, ?_, fun some ended => ?_⟩
  · exact ((phases thread present).of_ended ended).imp_right And.left
  · rcases state with ⟨-, none⟩ | ⟨-, one⟩
    · exact none ▸ Nat.zero_le 1
    · exact one ▸ Nat.le_refl 1
  · refine (state.resolve_left ?_).2
    rintro ⟨sameDb, none⟩
    obtain ⟨thread, present⟩ := List.exists_mem_of_ne_nil _ some
    have lost := List.countP_eq_zero.1 none thread present
    rcases (phases thread present).of_ended (ended thread present) with
      ⟨outpoint, honored⟩ | ⟨-, since⟩
    · exact lost (by rw [wins, honored])
    · exact unsettled_row raced.found raced.lockable.1 (sameDb ▸ since)

/-! Two honors of `sampleQuote`. -/

def sampleServer : Server Unit :=
  ⟨.booted (registeredDb .async) 20, fun _ => 0, fun _ => 0, fun _ => .idle, 0, false⟩

def resolving : HonorCall Unit := ⟨fun _ => .pure .resolves, {}⟩

def raceAnswer : (op : PgOp Unit) → op.Reply
  | .port op => paidPorts.answer op
  | .connect => 0
  | .client _ command => (execute sampleServer.committed .idle command).1

def sampleRace : System (Server Unit) (PgOp Unit) PgOp.Reply Thrown HonorOutcome (HonorCall Unit) :=
  { race sampleEngine sampleQuote.key sampleRow () with
    perform := fun server op _ => perform server op (raceAnswer op)
    mayStart := fun _ call => call = resolving }

abbrev RaceMove := Move (Server Unit) (PgOp Unit) PgOp.Reply (HonorCall Unit)

def raceTurns (index count : Nat) : List RaceMove :=
  .replicate count (.advance index raceAnswer)

/-- The second call's UPDATE arrives before the first call's COMMIT. -/
def overlapping : List RaceMove :=
  .start resolving :: .start resolving ::
    (raceTurns 0 11 ++ (raceTurns 1 10 ++ (raceTurns 0 3 ++ raceTurns 1 2)))

def oneAfterAnother : List RaceMove :=
  .start resolving :: .start resolving ::
    (raceTurns 0 11 ++ (raceTurns 1 9 ++ (raceTurns 0 3 ++ raceTurns 1 5)))

def racePool (moves : List RaceMove) : RacePool Unit :=
  (Pool.fresh sampleServer).play sampleRace moves

def readsSample : PortCall Unit → Bool
  | ⟨.getSeen _, .ok (some seen)⟩ =>
      decide (seen.honoredAt = none → seen = SqliteStore.rowFromSql sampleRow)
  | _ => true

def orderly (pool : RacePool Unit) : Bool :=
  pool.log.all waitedItsTurn && pool.threads.all fun thread => (ports thread.past).all readsSample

theorem raced_sample : Raced sampleQuote.key sampleRow sampleServer := ⟨rfl, rfl, by decide⟩

theorem resolving_resolves : Resolves () resolving.deliver := by
  intro input hdeliver
  refine ⟨.resolves, ?_, nofun⟩
  rw [deliverEnd, hdeliver]
  rfl

theorem resolving_clean : Clean () resolving.deliver := by
  intro input hdeliver call called
  rw [deliverCalls, hdeliver] at called
  cases called

def AnsweredAsPaid (made : PgCall Unit) : Prop :=
  ∀ call, portCall? made = some call →
    (call.op.isQuery = true → call.reply = paidPorts.answer call.op) ∧
      Faultless sampleQuote.key call

theorem sampleRace_answers (server : Server Unit) (op : PgOp Unit) (answer : op.Reply) :
    AnsweredAsPaid ⟨op, (sampleRace.perform server op answer).1⟩ := by
  intro call hcall
  cases op with
  | port op =>
    cases hcall
    refine ⟨fun query => ?_, ?_⟩
    · exact congrArg Prod.fst (World.perform_query .async server.world query (paidPorts.answer op))
    · cases op <;> exact fun e => ⟨nofun, nofun⟩
  | connect => cases hcall
  | client id command => cases hcall

theorem sampleRace_answered {pool : RacePool Unit}
    (reached : Reachable sampleRace sampleServer pool) {thread : RaceThread Unit}
    (present : thread ∈ pool.threads) {call : PortCall Unit} (called : call ∈ ports thread.past) :
    (call.op.isQuery = true → call.reply = paidPorts.answer call.op) ∧
      Faultless sampleQuote.key call := by
  obtain ⟨made, inPast, hmade⟩ := List.mem_filterMap.1 called
  exact reached.answered sampleRace_answers thread present made inPast call hmade

theorem sampleRace_scored {pool : RacePool Unit}
    (reached : Reachable sampleRace sampleServer pool) (checked : orderly pool = true)
    {thread : RaceThread Unit} (present : thread ∈ pool.threads) :
    Scored sampleEngine sampleQuote.key thread.task.opts
      (fun outpoint => sampleServer.world.db.consumed.find? outpoint = none)
      (ports thread.past) := by
  refine scored_of_alike (show sampleEngine.deps.forms = createFormRegistry (builtinForms true) from
    rfl)
    (fun call called => (sampleRace_answered reached present called).1) ?_
  intro sampling now seen later hpast sampled unhonored
  have reads := List.all_eq_true.1 (List.all_eq_true.1 (Bool.and_eq_true_iff.1 checked).2 thread
    present) ⟨.getSeen sampleQuote.key, .ok (some seen)⟩ (by simp [hpast])
  obtain rfl := of_decide_eq_true reads unhonored
  exact ⟨_, _, rfl, rfl⟩

theorem sampleRace_granted {pool : RacePool Unit} (reached : Reachable sampleRace sampleServer pool)
    (checked : orderly pool = true) : Granted sampleEngine sampleQuote.key pool where
  waits := List.all_eq_true.1 (Bool.and_eq_true_iff.1 checked).1
  scored thread present := by
    intro sampling now seen scoring later verdict hpast sampled unhonored scores
    obtain ⟨candidate, formId, hverdict, -⟩ := sampleRace_scored reached checked present sampling
      now seen scoring later verdict hpast sampled unhonored scores
    exact ⟨candidate, formId, hverdict, trivial⟩
  faultless thread present call called := (sampleRace_answered reached present called).2

theorem race_of_sampleRace (check : RacePool Unit → Bool) {holds : RacePool Unit → Prop}
    (checks : ∀ pool, Reachable sampleRace sampleServer pool → check pool = true → holds pool)
    {pool : RacePool Unit}
    (reached : ReachableBy sampleRace (fun _ after => check after = true) sampleServer pool) :
    ReachableBy (race sampleEngine sampleQuote.key sampleRow ()) (fun _ after => holds after)
      sampleServer pool := by
  refine reached.invariant (fun pool => ReachableBy (race sampleEngine sampleQuote.key sampleRow ())
    (fun _ after => holds after) sampleServer pool) .refl fun before after run ih step checked => ?_
  refine ih.tail ⟨?_, checks after (run.tail step) checked⟩
  cases step with
  | start task may =>
    refine .start task ?_
    rw [show task = resolving from may]
    exact ⟨nofun, resolving_resolves⟩
  | shift next may => exact .shift next may
  | @advance index task past op resume answer waiting => exact .advance (raceAnswer op) waiting

theorem sampleRace_meets {pool : RacePool Unit} (reached : Reachable sampleRace sampleServer pool)
    (checked : orderly pool = true) (apart : pool.threads.countP inFlight ≤ 1) :
    Meets sampleEngine sampleQuote.key sampleServer.world.db pool where
  apart := apart
  free _ present := sampleRace_scored reached checked present
  clean thread present := by
    obtain ⟨_, may⟩ := reached.task_may_start thread present
    rw [show thread.task = resolving from may]
    exact resolving_clean

theorem race_loser_benign_two :
    (∀ thread ∈ (racePool oneAfterAnother).threads, Benign thread) ∧
      (racePool oneAfterAnother).threads.countP wins = 1 := by
  have reached : ReachableBy (race sampleEngine sampleQuote.key sampleRow ()) (fun _ after =>
      Granted sampleEngine sampleQuote.key after ∧
        Meets sampleEngine sampleQuote.key sampleServer.world.db after) sampleServer
      (racePool oneAfterAnother) := by
    refine race_of_sampleRace (fun pool =>
      orderly pool && decide (pool.threads.countP inFlight ≤ 1)) (fun pool run checked => ?_)
      (Pool.play_reachableBy ?_ ?_)
    · obtain ⟨order, apart⟩ := Bool.and_eq_true_iff.1 checked
      exact ⟨sampleRace_granted run order, sampleRace_meets run order (of_decide_eq_true apart)⟩
    · exact ⟨rfl, rfl, Pool.allowed_advances 11 (Pool.allowed_advances 9 (Pool.allowed_advances 3
        (List.append_nil (raceTurns 1 5) ▸ Pool.allowed_advances 5 trivial)))⟩
    · decide +kernel
  have ended : ∀ thread ∈ (racePool oneAfterAnother).threads, thread.rest.waits = false := by
    decide +kernel
  obtain ⟨benign, -, finished⟩ := race_loser_benign sampleEngine true rfl sampleQuote.key sampleRow
    sampleServer raced_sample _ reached
  exact ⟨fun thread present => benign thread present (ended thread present),
    finished (List.ne_nil_of_mem (List.mem_of_getElem? (i := 0) rfl)) ended⟩

/-- The UPDATE that waited for the other call's COMMIT fails, and the failure comes out of
`honor`. -/
theorem race_loser_throws :
    Raced sampleQuote.key sampleRow sampleServer ∧
    ReachableBy (race sampleEngine sampleQuote.key sampleRow ())
      (fun _ after => Granted sampleEngine sampleQuote.key after) sampleServer
      (racePool overlapping) ∧
    (racePool overlapping).threads.length = 2 ∧
    ∃ thread ∈ (racePool overlapping).threads, thread.rest = .throw serializationFailure ∧
      ¬ Benign thread := by
  refine ⟨raced_sample, ?_, by decide +kernel, ?_⟩
  · refine race_of_sampleRace orderly (fun _ => sampleRace_granted) (Pool.play_reachableBy ?_ ?_)
    · exact ⟨rfl, rfl, Pool.allowed_advances 11 (Pool.allowed_advances 10
        (Pool.allowed_advances 3
          (List.append_nil (raceTurns 1 2) ▸ Pool.allowed_advances 2 trivial)))⟩
    · decide +kernel
  · refine ⟨_, List.mem_of_getElem? (i := 1) rfl, rfl, ?_⟩
    rintro (⟨outpoint, h⟩ | h) <;> cases h

end PostgresPool
end ExferHonor
