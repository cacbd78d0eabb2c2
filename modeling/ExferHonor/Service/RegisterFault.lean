import ExferHonor.Core.ExpiredVerdict
import ExferHonor.Service.Cancel

/-! A loop whose `register` failed. Its timer starts all the same, and a tick that finds no row of
the quote declines it as expired, however early it is. -/
namespace ExferHonor
namespace OnPaid
open Effects Program Facade Store Statements

variable {G : Type}

def swept (state : LoopState G) : LoopState G :=
  { state with
    world := { state.world with db := (Store.sweep state.world.db state.world.clock).2 } }

def sweptSystem (loop : OnPaid G) :
    System (LoopState G) (Op G ⊕ LoopOp) (Sum.elim Op.Reply LoopOp.Reply) Thrown Unit LoopTask :=
  { loop.system with
    mayShift := fun before after => LoopState.mayShift before after ∨ after = swept before }

theorem swept_hosts (loop : OnPaid G) : Hosts loop.facade LoopState.vars loop.sweptSystem where
  program := loop.hosts.program
  port := loop.hosts.port
  replied := loop.hosts.replied
  changed := loop.hosts.changed
  timed := loop.hosts.timed
  shifted before after may := by
    rcases may with may | rfl
    · exact loop.hosts.shifted before after may
    · rfl

def retains (quote : AcceptedQuote) (retainUntil : Int) (db : Db G) : Bool :=
  (db.seen.find? quote.key).any fun row =>
    decide (row.expiresAt = quote.expiresAt ∧ retainUntil ≤ row.retainUntil)

/-- Before the expiry the timer is not started without the quote's row. The clock goes forward, and
no tick that started before the expiry calls anything from `retainUntil` on. -/
def Sheltered (quote : AcceptedQuote) (retainUntil : Int) (before after : LoopPool G) : Prop :=
  (before.shared.timer = false → after.shared.timer = true →
    before.shared.world.clock < quote.expiresAt →
    retains quote retainUntil before.shared.world.db = true) ∧
  before.shared.world.clock ≤ after.shared.world.clock ∧
  ∀ event ∈ after.log.drop before.log.length, EarlyTick quote event →
    event.before.world.clock < retainUntil

instance (quote : AcceptedQuote) (retainUntil : Int) :
    DecidableRel (Sheltered (G := G) quote retainUntil) := fun before after =>
  inferInstanceAs (Decidable ((_ → _ → _ → _) ∧ _ ∧
    ∀ event ∈ after.log.drop before.log.length, EarlyTick quote event →
      event.before.world.clock < retainUntil))

/-- A denial by the gate that the store has not decided on: the database would have thrown a
`GateViolation`. -/
def forgesDenial (event : LoopEvent G) : Bool :=
  match event.call with
  | ⟨.inl (.runHonorTxn input), reply⟩ => TxnReply.deniesWindow reply &&
      !(Store.runHonorTxn .sync event.before.world.db input).1.deniesWindow
  | _ => false

def NoForgery (before after : LoopPool G) : Prop :=
  ∀ event ∈ after.log.drop before.log.length, forgesDenial event = false

instance : DecidableRel (NoForgery (G := G)) := fun before after =>
  inferInstanceAs (Decidable (∀ event ∈ after.log.drop before.log.length,
    forgesDenial event = false))

def Backs (quote : AcceptedQuote) (retainUntil : Int) (latched : Bool) (state : LoopState G) :
    Prop :=
  retainUntil ≤ state.world.clock ∨ ∃ row, state.world.db.seen.find? quote.key = some row ∧
    row.expiresAt = quote.expiresAt ∧ retainUntil ≤ row.retainUntil ∧
    (latched = true → row.observedBeforeExpiry = true)

structure Told (quote : AcceptedQuote) (retainUntil : Int) (state : LoopState G)
    (past : List (LoopCall G)) : Prop where
  sampled : ∀ now, ⟨.inl .clockNow, .ok now⟩ ∈ past → now ≤ state.world.clock
  read : ∀ found, ⟨.inl (.getSeen quote.key), .ok found⟩ ∈ past → ∃ row, found = some row ∧
    row.expiresAt = quote.expiresAt ∧
    (row.observedBeforeExpiry = true → Backs quote retainUntil true state)
  latched : ∀ now, ⟨.inl (.markObservedBeforeExpiry quote.key now), .ok ()⟩ ∈ past →
    Backs quote retainUntil true state
  admitted : ∀ input reply, ⟨.inl (.runHonorTxn input), reply⟩ ∈ past →
    TxnReply.deniesWindow reply = false

structure Backed (quote : AcceptedQuote) (retainUntil : Int) (pool : LoopPool G) : Prop where
  timed : (pool.shared.timer = true ∨ ∃ thread ∈ pool.threads, thread.task = .tick) →
    pool.shared.world.clock < quote.expiresAt → Backs quote retainUntil false pool.shared
  told : ∀ thread ∈ pool.threads, thread.task = .tick → early quote thread.past = true →
    Backs quote retainUntil false pool.shared ∧ Told quote retainUntil pool.shared thread.past

def Later (quote : AcceptedQuote) (retainUntil : Int) (state after : LoopState G) : Prop :=
  state.world.clock ≤ after.world.clock ∧
    ∀ latched, Backs quote retainUntil latched state → Backs quote retainUntil latched after

variable {quote : AcceptedQuote} {retainUntil : Int} {state after : LoopState G}
  {past : List (LoopCall G)}

theorem later_of_change {call : PortCall G} (clock : state.world.clock ≤ after.world.clock)
    (change : SeenChange quote.key (state.world.db.seen.find? quote.key) call
      (after.world.db.seen.find? quote.key))
    (timely : ∀ now, call.op = .sweep now → now ≤ after.world.clock) :
    Later quote retainUntil state after := by
  refine ⟨clock, fun latched backs => ?_⟩
  rcases backs with late | ⟨row, found, hexpires, hretain, hobserved⟩
  · exact .inl (Int.le_trans late clock)
  · rw [found] at change
    generalize hafter : after.world.db.seen.find? quote.key = rest at change
    cases change with
    | same => exact .inr ⟨row, hafter, hexpires, hretain, hobserved⟩
    | accepted _ absent => cases absent
    | observed present early =>
      cases present
      exact .inr ⟨_, hafter, hexpires, hretain, fun _ => rfl⟩
    | locked _ present lockable resolved =>
      cases present
      exact .inr ⟨_, hafter, hexpires, hretain, hobserved⟩
    | swept present expired =>
      cases present
      have := timely _ rfl
      exact .inl (by omega)

theorem Told.later (told : Told quote retainUntil state past)
    (later : Later quote retainUntil state after) : Told quote retainUntil after past where
  sampled now h := Int.le_trans (told.sampled now h) later.1
  read found h := by
    obtain ⟨row, hrow, hexpires, hobserved⟩ := told.read found h
    exact ⟨row, hrow, hexpires, fun observed => later.2 _ (hobserved observed)⟩
  latched now h := later.2 _ (told.latched now h)
  admitted := told.admitted

theorem Told.append {last : List (LoopCall G)} (told : Told quote retainUntil state past)
    (tail : Told quote retainUntil state last) : Told quote retainUntil state (past ++ last) where
  sampled now h := (List.mem_append.1 h).elim (told.sampled now) (tail.sampled now)
  read found h := (List.mem_append.1 h).elim (told.read found) (tail.read found)
  latched now h := (List.mem_append.1 h).elim (told.latched now) (tail.latched now)
  admitted input reply h :=
    (List.mem_append.1 h).elim (told.admitted input reply) (tail.admitted input reply)

theorem Told.backs_latched {now : Int} {seen : List (PortCall G)} {result : ObserveResult}
    (told : Told quote retainUntil state past) (before : now < quote.expiresAt)
    (returns : (HonorEngine.markObserved quote.key now).Returns seen (.ok result))
    (among : ∀ call ∈ seen, call.alongside ∈ past) : Backs quote retainUntil true state := by
  obtain ⟨_, found, later, rfl, rfl, rest⟩ := Returns.of_ask_bind returns
  obtain ⟨row, rfl, hexpires, hobserved⟩ := told.read found (among _ List.mem_cons_self)
  by_cases observed : row.observedBeforeExpiry = true
  · exact hobserved observed
  · dsimp only at rest
    rw [if_pos (by simp [hexpires, before, observed])] at rest
    obtain ⟨_, _, later, rfl, rfl, -⟩ := Returns.of_ask_bind rest
    exact told.latched now (among _ (List.mem_cons_of_mem _ List.mem_cons_self))

variable {loop : OnPaid G} {op : Op G}

theorem program_not_sweep {task : LoopTask} {now : Int}
    {resume : Except Thrown SweepResult → LoopAsync G Unit} :
    ¬ (loop.facade.program task).Runs past (.call (.inl (.sweep now)) resume) := by
  intro run
  rcases program_runs_port run with ⟨-, _, _, -, registering⟩ | ⟨-, _, _, -, polling⟩
  · cases (loop.engine.register_uses _ _).of_call registering
  · obtain ⟨_, _, _, _, -, -, honoring⟩ := poll_runs_honor polling nofun nofun
    cases (loop.engine.honor_uses _ _ _).of_call honoring

theorem tick_before_clock {resume : op.Reply → LoopAsync G Unit}
    (run : loop.facade.tick.Runs past (.call (.inl op) resume)) (unread : tickTime past = none) :
    past = [entering] ∧ op = .clockNow := by
  rcases program_runs_port (show (loop.facade.program .tick).Runs past _ from run) with
    ⟨hstartup, -⟩ | ⟨-, own, _, rfl, polling⟩
  · cases hstartup
  · rcases (runs_call_iff _ _).1 polling with ⟨rfl, hcall⟩ | ⟨reply, later, rfl, tail⟩
    · cases hcall
      exact ⟨rfl, rfl⟩
    · obtain e | now := (reply : Except Thrown Int)
      · cases ((runs_throw_iff e).1 tail).2
      · cases unread

theorem performPort_clock (state : LoopState G) (op : Op G) (answer : op.Reply) :
    (state.performPort op answer).2.world.clock = state.world.clock := by
  unfold LoopState.performPort
  split
  · rfl
  · exact World.perform_clock _ _ _ _

theorem later_performPort (answer : op.Reply) (noSweep : ∀ now, op ≠ .sweep now) :
    Later quote retainUntil state (state.performPort op answer).2 :=
  later_of_change (Int.le_of_eq (performPort_clock state op answer).symm)
    (performPort_seen state op answer quote.key) fun now h => absurd h (noSweep now)

theorem later_swept (state : LoopState G) : Later quote retainUntil state (swept state) := by
  have change := Store.perform_seen .sync state.world.db (.sweep state.world.clock) (.ok ⟨0, 0⟩)
    quote.key
  refine later_of_change (Int.le_refl _) change fun now h => ?_
  cases h
  exact Int.le_refl _

theorem tick_at_gate {input : HonorTxnInput G} {resume : TxnReply → LoopAsync G Unit}
    (run : loop.facade.tick.Runs past (.call (.inl (.runHonorTxn input)) resume)) :
    input.key = loop.quote.key ∧ ⟨.inl .clockNow, .ok input.now⟩ ∈ past ∧
      ∃ now seen result, tickTime past = some now ∧ (∀ call ∈ seen, call.alongside ∈ past) ∧
        (HonorEngine.markObserved loop.quote.key now).Returns seen (.ok result) := by
  rcases program_runs_port (show (loop.facade.program .tick).Runs past _ from run) with
    ⟨hstartup, -⟩ | ⟨-, own, _, rfl, polling⟩
  · cases hstartup
  · obtain ⟨now, seen, result, honoring, rfl, observed, atGate⟩ :=
      poll_runs_honor polling nofun nofun
    cases (HonorEngine.honor_runs_gate atGate).1 with
    | @mk sample _ _ _ _ _ _ _ sampled =>
      obtain ⟨reply, rfl, hreply⟩ := returns_ask_iff.1 sampled
      cases hreply
      refine ⟨rfl, List.mem_cons_of_mem _ (List.mem_map.2 ⟨⟨.clockNow, .ok sample⟩, by simp, rfl⟩),
        now, seen, result, rfl, fun call hcall => ?_, observed⟩
      exact List.mem_cons_of_mem _ (List.mem_map_of_mem (by simp [hcall]))

/-- The gate does not deny the window to a tick that started before the expiry: the row it locks is
latched. -/
theorem gate_admits {input : HonorTxnInput G} {resume : TxnReply → LoopAsync G Unit}
    {answer : TxnReply}
    (run : loop.facade.tick.Runs past (.call (.inl (.runHonorTxn input)) resume))
    (isEarly : early loop.quote past = true) (told : Told loop.quote retainUntil state past)
    (kept : state.world.clock < retainUntil) {row : SeenRowSql}
    (found : state.world.db.seen.find? loop.quote.key = some row) {event : LoopEvent G}
    (here : event.before = state) (call : event.call =
      ⟨.inl (.runHonorTxn input), (state.performPort (.runHonorTxn input) answer).1⟩)
    (honest : forgesDenial event = false) :
    TxnReply.deniesWindow (state.performPort (.runHonorTxn input) answer).1 = false := by
  obtain ⟨hkey, sampled, now, seen, result, htime, among, observed⟩ := tick_at_gate run
  rw [early, htime, Option.any_some, decide_eq_true_eq] at isEarly
  have hnow := told.sampled _ sampled
  obtain late | ⟨other, foundAgain, -, hretain, latched⟩ :=
    told.backs_latched isEarly observed among
  · omega
  rw [found] at foundAgain
  cases foundAgain
  have denied : (SqliteStore.runHonorTxn state.world.db input).1.deniesWindow = false :=
    SqliteStore.not_deniesWindow (hkey ▸ found) fun unhonored =>
      ⟨unhonored, by omega, .inr (latched rfl)⟩
  unfold forgesDenial at honest
  rw [call, here] at honest
  simpa [Store.runHonorTxn, denied] using honest

theorem told_port {resume : op.Reply → LoopAsync G Unit} {answer : op.Reply}
    (run : loop.facade.tick.Runs past (.call (.inl op) resume))
    (isEarly : early loop.quote past = true) (told : Told loop.quote retainUntil state past)
    (kept : state.world.clock < retainUntil) (backs : Backs loop.quote retainUntil false state)
    {event : LoopEvent G} (here : event.before = state)
    (call : event.call = ⟨.inl op, (state.performPort op answer).1⟩)
    (honest : forgesDenial event = false) :
    Told loop.quote retainUntil (state.performPort op answer).2
      [⟨.inl op, (state.performPort op answer).1⟩] := by
  obtain late | ⟨row, found, hexpires, hretain, -⟩ := backs
  · omega
  have later : Later loop.quote retainUntil state (state.performPort op answer).2 := by
    refine later_performPort answer ?_
    rintro now rfl
    exact program_not_sweep (show (loop.facade.program .tick).Runs past _ from run)
  constructor
  · intro now h
    have hcall := List.mem_singleton.1 h
    obtain rfl : Op.clockNow = op := Sum.inl.inj (congrArg Call.op hcall)
    cases eq_of_heq (Call.mk.inj hcall).2
    exact Int.le_refl _
  · intro read h
    have hcall := List.mem_singleton.1 h
    obtain rfl : Op.getSeen loop.quote.key = op := Sum.inl.inj (congrArg Call.op hcall)
    have hreply := eq_of_heq (Call.mk.inj hcall).2
    cases answer with
    | error e => cases hreply
    | ok _ =>
      have hread : read = (state.world.db.seen.find? loop.quote.key).map (rowFromSql .sync) :=
        Except.ok.inj hreply
      rw [found] at hread
      exact ⟨_, hread, hexpires, fun observed =>
        later.2 _ (.inr ⟨row, found, hexpires, hretain, fun _ => observed⟩)⟩
  · intro now h
    have hcall := List.mem_singleton.1 h
    obtain rfl : Op.markObservedBeforeExpiry loop.quote.key now = op :=
      Sum.inl.inj (congrArg Call.op hcall)
    have hreply := eq_of_heq (Call.mk.inj hcall).2
    have program : (loop.facade.program .tick).Runs past _ := run
    rw [← loop.program_eq] at program
    obtain ⟨-, htime⟩ := program_runs_latch program
    rw [early, htime, Option.any_some, decide_eq_true_eq] at isEarly
    cases answer with
    | error e => cases hreply
    | ok _ =>
      refine .inr ⟨observedRow row, ?_, hexpires, hretain, fun _ => rfl⟩
      change (markObserved state.world.db.seen loop.quote.key now).find? loop.quote.key = _
      rw [find?_markObserved, found, Option.map_some, if_pos ⟨rfl, hexpires ▸ isEarly⟩]
  · intro input reply h
    have hcall := List.mem_singleton.1 h
    obtain rfl : Op.runHonorTxn input = op := Sum.inl.inj (congrArg Call.op hcall)
    obtain rfl := eq_of_heq (Call.mk.inj hcall).2
    exact gate_admits run isEarly told kept found here call honest

theorem backs_of_retains (retained : retains quote retainUntil state.world.db = true) :
    Backs quote retainUntil false state := by
  obtain ⟨row, found, hrow⟩ := (Option.any_eq_true _ _).1 retained
  obtain ⟨hexpires, hretain⟩ := of_decide_eq_true hrow
  exact .inr ⟨row, found, hexpires, hretain, by simp⟩

theorem early_concat (call : LoopCall G) :
    early quote (past ++ [call]) = true ↔ early quote past = true ∨
      tickTime past = none ∧ ∃ now, clockReading call = some now ∧ now < quote.expiresAt := by
  unfold early tickTime
  rw [List.findSome?_append, List.findSome?_singleton]
  cases past.findSome? clockReading with
  | none => cases clockReading call <;> simp
  | some now => simp

theorem clockReading_eq_some {call : LoopCall G} {now : Int}
    (reading : clockReading call = some now) : call = ⟨.inl .clockNow, .ok now⟩ := by
  obtain ⟨op, reply⟩ := call
  cases op with
  | inr op => cases reading
  | inl op =>
    cases op
    case clockNow =>
      obtain e | read := (reply : Except Thrown Int)
      · cases reading
      · cases reading
        rfl
    all_goals cases reading

theorem later_perform {task : LoopTask} {op : Op G ⊕ LoopOp}
    {resume : Sum.elim Op.Reply LoopOp.Reply op → LoopAsync G Unit}
    (run : (loop.facade.program task).Runs past (.call op resume))
    (answer : Sum.elim Op.Reply LoopOp.Reply op) :
    Later quote retainUntil state (loop.sweptSystem.perform state op answer).2 := by
  cases op with
  | inl op =>
    refine later_performPort answer ?_
    rintro now rfl
    exact program_not_sweep run
  | inr op =>
    have same : (state.performOwn op).2.world = state.world := performOwn_world state op
    unfold Later Backs
    change _ ≤ (state.performOwn op).2.world.clock ∧ ∀ _, _ →
      _ ≤ (state.performOwn op).2.world.clock ∨
        ∃ _, (state.performOwn op).2.world.db.seen.find? _ = _ ∧ _
    rw [same]
    exact ⟨Int.le_refl _, fun _ => id⟩

theorem told_own (op : LoopOp) (reply : op.Reply) :
    Told quote retainUntil state [⟨.inr op, reply⟩] := by
  constructor
  · intro now h
    cases List.mem_singleton.1 h
  · intro found h
    cases List.mem_singleton.1 h
  · intro now h
    cases List.mem_singleton.1 h
  · intro input _ h
    cases List.mem_singleton.1 h

theorem told_clock : Told quote retainUntil state [⟨.inl .clockNow, .ok state.world.clock⟩] := by
  constructor
  · intro now h
    cases List.mem_singleton.1 h
    exact Int.le_refl _
  · intro found h
    cases List.mem_singleton.1 h
  · intro now h
    cases List.mem_singleton.1 h
  · intro input reply h
    cases List.mem_singleton.1 h

theorem Backed.start {pool : LoopPool G} (backed : Backed loop.quote retainUntil pool)
    {task : LoopTask} (may : loop.sweptSystem.mayStart pool.shared task) :
    Backed loop.quote retainUntil (pool.start loop.sweptSystem task) := by
  constructor
  · intro ticks
    apply backed.timed
    rcases ticks with timer | ⟨thread, hthread, htask⟩
    · exact .inl timer
    · rcases List.mem_append.1 hthread with h | h
      · exact .inr ⟨thread, h, htask⟩
      · rw [List.mem_singleton.1 h] at htask
        obtain rfl : task = .tick := htask
        exact .inl (loop.swept_hosts.timed _ may)
  · intro thread hthread htask isEarly
    rcases List.mem_append.1 hthread with h | h
    · exact backed.told thread h htask isEarly
    · rw [List.mem_singleton.1 h] at isEarly
      cases isEarly

theorem Backed.shift {pool : LoopPool G} {after : LoopState G}
    (backed : Backed loop.quote retainUntil pool)
    (may : loop.sweptSystem.mayShift pool.shared after)
    (forward : pool.shared.world.clock ≤ after.world.clock) :
    Backed loop.quote retainUntil (pool.shift after) := by
  have later : Later loop.quote retainUntil pool.shared after ∧
      after.timer = pool.shared.timer := by
    rcases may with may | rfl
    · have hdb : after.world.db = pool.shared.world.db := by rw [show after = _ from may]
      refine ⟨⟨forward, fun latched backs => ?_⟩, by rw [show after = _ from may]⟩
      rcases backs with late | backs
      · exact .inl (Int.le_trans late forward)
      · exact .inr (hdb.symm ▸ backs)
    · exact ⟨later_swept _, rfl⟩
  obtain ⟨later, htimer⟩ := later
  constructor
  · intro ticks unexpired
    rw [show (pool.shift after).shared.timer = _ from htimer] at ticks
    exact later.2 _ (backed.timed ticks (Int.lt_of_le_of_lt forward unexpired))
  · intro thread hthread htask isEarly
    obtain ⟨backs, told⟩ := backed.told thread hthread htask isEarly
    exact ⟨later.2 _ backs, told.later later⟩

/-- A call of one thread: only the first clock reading of a tick, or a call of an early tick, is
news. -/
theorem Backed.advance {pool : LoopPool G} {index : Nat} {task : LoopTask}
    {op : Op G ⊕ LoopOp} {resume : Sum.elim Op.Reply LoopOp.Reply op → LoopAsync G Unit}
    (backed : Backed loop.quote retainUntil pool)
    (run : Reachable loop.sweptSystem state pool)
    (waiting : pool.threads[index]? = some ⟨task, past, .call op resume⟩)
    (answer : Sum.elim Op.Reply LoopOp.Reply op)
    (sheltered : Sheltered loop.quote retainUntil pool
      (pool.advance loop.sweptSystem index task past op resume answer))
    (honest : NoForgery pool (pool.advance loop.sweptSystem index task past op resume answer)) :
    Backed loop.quote retainUntil
      (pool.advance loop.sweptSystem index task past op resume answer) := by
  obtain ⟨hstart, forward, prompt⟩ := sheltered
  have present := List.mem_of_getElem? waiting
  have program := run.runs _ present
  rw [loop.swept_hosts.program] at program
  have later : Later loop.quote retainUntil pool.shared
      (loop.sweptSystem.perform pool.shared op answer).2 := later_perform program answer
  have logged : ⟨index, task, past, pool.shared,
      ⟨op, (loop.sweptSystem.perform pool.shared op answer).1⟩,
      (loop.sweptSystem.perform pool.shared op answer).2⟩ ∈
        (pool.advance loop.sweptSystem index task past op resume answer).log.drop
          pool.log.length := by
    rw [Pool.advance, List.drop_left]
    exact List.mem_singleton_self _
  constructor
  · intro ticks unexpired
    have unexpired := Int.lt_of_le_of_lt forward unexpired
    apply later.2
    rcases ticks with timer | ⟨thread, hthread, htask⟩
    · by_cases was : pool.shared.timer = true
      · exact backed.timed (.inl was) unexpired
      · exact backs_of_retains (hstart (by simpa using was) timer unexpired)
    · rcases List.mem_or_eq_of_mem_set hthread with h | rfl
      · exact backed.timed (.inr ⟨thread, h, htask⟩) unexpired
      · exact backed.timed (.inr ⟨_, present, htask⟩) unexpired
  · intro thread hthread htask isEarly
    rcases List.mem_or_eq_of_mem_set hthread with h | rfl
    · obtain ⟨backs, told⟩ := backed.told thread h htask isEarly
      exact ⟨later.2 _ backs, told.later later⟩
    · obtain rfl : task = .tick := htask
      rcases (early_concat _).1 isEarly with started | ⟨unread, now, reading, unexpired⟩
      · obtain ⟨backs, told⟩ := backed.told _ present rfl started
        refine ⟨later.2 _ backs, (told.later later).append ?_⟩
        cases op with
        | inl op =>
          exact told_port program started told (prompt _ logged ⟨rfl, started⟩) backs rfl rfl
            (honest _ logged)
        | inr op => exact told_own op _
      · -- the first thing a tick calls is the clock
        have hcall := clockReading_eq_some reading
        obtain rfl : op = .inl .clockNow := congrArg Call.op hcall
        obtain ⟨rfl, -⟩ := tick_before_clock program unread
        cases reading
        refine ⟨later.2 _ (backed.timed (.inr ⟨_, present, rfl⟩) unexpired), ?_⟩
        exact (told_own .enterTick true).append (told_clock.later later)

theorem Backed.step {before next : LoopPool G} (backed : Backed loop.quote retainUntil before)
    (step : Step loop.sweptSystem before next) (run : Reachable loop.sweptSystem state before)
    (sheltered : Sheltered loop.quote retainUntil before next) (honest : NoForgery before next) :
    Backed loop.quote retainUntil next := by
  cases step with
  | start task may => exact backed.start may
  | shift after may => exact backed.shift may sheltered.2.1
  | advance answer waiting => exact backed.advance run waiting answer sheltered honest

theorem settlement_expired {ended : Except Thrown HonorOutcome} {outcome : HonorOutcome}
    (settled : settlement ended = some (.ok (.declined .expiredUnobserved outcome))) :
    ∃ verdict, ended = .ok (.notReady verdict) ∧ verdict.isExpired = true := by
  cases ended with
  | error e =>
    simp only [settlement] at settled
    split at settled <;> cases settled
  | ok reached =>
    cases reached with
    | honored outpoint => cases settled
    | deliveryFailed => cases settled
    | notReady verdict =>
      cases verdict <;> cases settled
      exact ⟨_, rfl, rfl⟩

theorem poll_expired {reserver : Bool} {own : List (PortCall G)} {verdict : HonorVerdict}
    (forms : loop.engine.deps.forms = createFormRegistry (builtinForms reserver))
    (returns : loop.facade.poll.Returns own (.ok (.notReady verdict)))
    (expired : verdict.isExpired = true) :
    ⟨.getSeen loop.quote.key, .ok none⟩ ∈ own ∨
      ∃ input reply, ⟨.runHonorTxn input, reply⟩ ∈ own ∧ reply.deniesWindow = true := by
  obtain ⟨_, now, later, rfl, -, observing⟩ := Returns.ok_of_bind returns
  obtain ⟨seen, _, honoring, rfl, -, honored⟩ := Returns.ok_of_bind observing
  rcases HonorEngine.honor_expired forms honored expired with missing | ⟨input, reply, gate, denied⟩
  · exact .inl (by simp [missing])
  · exact .inr ⟨input, reply, by simp [gate], denied⟩

/-- Provided the timer is not started on an unexpired quote without a row, no tick that started
before the expiry declines the quote as expired. -/
theorem declines_no_unexpired (loop : OnPaid G) (reserver : Bool)
    (forms : loop.engine.deps.forms = createFormRegistry (builtinForms reserver)) (db : Db G)
    (clock retainUntil : Int) (listed : QuoteId → List RawSettlementCandidate) (pool : LoopPool G)
    (reached : ReachableBy loop.sweptSystem
      (fun before after => Sheltered loop.quote retainUntil before after ∧ NoForgery before after)
      (.booted db clock listed) pool) :
    ∀ event ∈ pool.log, EarlyTick loop.quote event → ∀ outcome,
      settles event.call ≠ some (.ok (.declined .expiredUnobserved outcome)) := by
  have host := loop.swept_hosts
  have backed : Backed loop.quote retainUntil pool := by
    refine reached.invariant (Backed loop.quote retainUntil) ⟨?_, by simp [Pool.fresh]⟩
      fun before after run ih step allowed => ih.step step run allowed.1 allowed.2
    simp [Pool.fresh, LoopState.booted]
  rintro event logged ⟨tick, isEarly⟩ outcome settling
  obtain ⟨thread, hthread, htask, later, hpast⟩ := reached.reachable.thread_of_event event logged
  have startedEarly : early loop.quote thread.past = true := hpast ▸ early_append _ isEarly
  obtain ⟨-, told⟩ := backed.told thread (List.mem_of_getElem? hthread) (htask.trans tick)
    startedEarly
  have terminal := (host.image reached.reachable event logged _).1 settling
  rw [tick] at terminal
  generalize event.past = past at terminal hpast
  cases terminal with
  | @tick own ended _ returns settles =>
    obtain ⟨verdict, rfl, expired⟩ := settlement_expired settles
    have among (call : PortCall G) (hcall : call ∈ own) : call.alongside ∈ thread.past := by
      rw [hpast]
      exact List.mem_append_left _ (List.mem_cons_of_mem _ (List.mem_map_of_mem hcall))
    rcases poll_expired forms returns expired with missing | ⟨input, reply, gate, denied⟩
    · obtain ⟨row, hrow, -⟩ := told.read none (among _ missing)
      cases hrow
    · rw [told.admitted input reply (among _ gate)] at denied
      contradiction

/-! `sampleQuote`, which expires at time 1000, and a `register` whose read of the SEEN row fails. -/

def seenFault : Thrown := .honorError .dbFault "database is locked" .undefined

def seenThrows : (op : Op Unit ⊕ LoopOp) → Sum.elim Op.Reply LoopOp.Reply op
  | .inl (.getSeen _) => .error seenFault
  | op => loopAnswer op

def faultyStart : List LoopMove := .start .startup :: .replicate 3 (.advance 0 seenThrows)

def faultyMoves (calls : Nat) : List LoopMove :=
  faultyStart ++ .shift swept :: .start .tick :: turns 1 calls ++ [.shift swept]

def startedOn (db : Db Unit) (moves : List LoopMove) : LoopPool Unit :=
  (Pool.fresh (.booted db 20 paidPorts.settlements)).play sampleLoop.sweptSystem moves

theorem faultyMoves_allowed {db : Db Unit} (calls : Nat)
    (timer : (startedOn db (faultyStart ++ [.shift swept])).shared.timer = true) :
    (Pool.fresh (.booted db 20 paidPorts.settlements)).Allowed sampleLoop.sweptSystem
      (faultyMoves calls) := by
  simp only [faultyMoves, faultyStart, turns, List.cons_append, List.append_assoc]
  refine ⟨trivial, Pool.allowed_advances 3 ⟨.inr rfl, timer, Pool.allowed_advances calls ?_⟩⟩
  exact ⟨.inr rfl, trivial⟩

theorem fault_declines_unexpired :
    Reachable sampleLoop.sweptSystem (.booted (.empty ()) 20 paidPorts.settlements)
        (startedOn (.empty ()) (faultyMoves 7)) ∧
    isRetryableFault seenFault = true ∧
    (∃ event ∈ (startedOn (.empty ()) (faultyMoves 7)).log, EarlyTick sampleQuote event ∧
      ∃ outcome, settles event.call = some (.ok (.declined .expiredUnobserved outcome))) ∧
    ∃ outcome, (startedOn (.empty ()) (faultyMoves 7)).shared.settled =
      some (.ok (.declined .expiredUnobserved outcome)) :=
  ⟨Pool.play_reachable (faultyMoves_allowed 7 rfl), rfl,
    ⟨_, List.mem_of_getElem? (i := 8) rfl, by decide +kernel, _, rfl⟩, _, rfl⟩

theorem declines_no_unexpired_registered :
    (startedOn (registeredDb .sync) (faultyMoves 14)).shared.settled =
      some (.ok (.honored (.honored ⟨"01", 0⟩))) ∧
    ∀ event ∈ (startedOn (registeredDb .sync) (faultyMoves 14)).log,
      EarlyTick sampleQuote event → ∀ outcome,
        settles event.call ≠ some (.ok (.declined .expiredUnobserved outcome)) := by
  refine ⟨rfl, declines_no_unexpired sampleLoop true rfl (registeredDb .sync) 20 4600
    paidPorts.settlements _ (Pool.play_reachableBy (faultyMoves_allowed 14 rfl) ?_)⟩
  decide +kernel

end OnPaid
end ExferHonor
