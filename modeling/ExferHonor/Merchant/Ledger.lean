import ExferHonor.Merchant.Goods

/-! The service's tables over whole runs: they tell the orders placed and the sales committed, every
sale is committed with the gate's own writes, and no quote is honored without its key. -/
namespace ExferHonor
namespace Merchant
open Effects Program Relational Store

namespace Service
variable {service : Service}

def ofShop : ShopOp → Bool
  | .port _ => false
  | .loop _ _ => false
  | _ => true

theorem fulfilment_uses (id : Nat) (quote : AcceptedQuote) :
    Uses (ofShop · = true) (fulfilment id quote) := by
  refine ⟨rfl, fun settled => Uses.bind (Uses.ofExcept _) fun result => ?_⟩
  cases result with
  | honored outcome =>
    exact ⟨rfl, fun selected => Uses.bind (Uses.ofExcept _) fun row => trivial⟩
  | declined reason outcome => trivial
  | cancelled => trivial

theorem not_mayCall_gate {task : EngineTask Tables}
    (other : ∀ key deliver opts, task ≠ .honor key deliver opts) (input : HonorTxnInput Tables) :
    ¬ task.mayCall (.runHonorTxn input) = true := by
  cases task
  case honor key deliver opts => exact absurd rfl (other _ _ _)
  all_goals nofun

inductive Calls (service : Service) : ShopTask → ShopOp → Prop
  | port {id own op inner calls}
      (run : ((service.onPaid id).facade.program own).Runs calls (.call (.inl op) inner)) :
      Calls service (.onPaid id own) (.port op)
  | loop {id own op} : Calls service (.onPaid id own) (.loop id op)
  | engine {own op inner calls} (run : (service.honor.program own).Runs calls (.call op inner)) :
      Calls service (.engine own) (.port op)
  | fulfil {id op} (shop : ofShop op = true) : Calls service (.fulfil id) op
  | placeOrder {quoteId sku credits op} (shop : ofShop op = true) :
      Calls service (.placeOrder quoteId sku credits) op

theorem runs_calls {task : ShopTask} {past : List ShopCall} {op : ShopOp}
    {resume : op.Reply → ShopAsync (Option Fulfilment)}
    (run : (service.program task).Runs past (.call op resume)) : service.Calls task op := by
  cases task with
  | onPaid id own =>
    obtain ⟨calls, later, -, hrest, running⟩ := Runs.of_rename (loopReply id) run
    cases later with
    | pure value => cases hrest
    | throw error => cases hrest
    | call called inner =>
      cases called with
      | inl port =>
        cases hrest
        exact .port running
      | inr loop =>
        cases hrest
        exact .loop
  | engine own =>
    obtain ⟨calls, later, -, hrest, running⟩ := Runs.of_rename (fun _ => .refl _) run
    cases later with
    | pure value => cases hrest
    | throw error => cases hrest
    | call called inner =>
      cases hrest
      exact .engine running
  | fulfil id =>
    have uses : Uses (ofShop · = true) (service.program (.fulfil id)) :=
      (fulfilment_uses id (service.quote id)).bind fun _ => trivial
    exact .fulfil (uses.of_call run)
  | placeOrder quoteId sku credits =>
    have uses : Uses (ofShop · = true) (service.program (.placeOrder quoteId sku credits)) :=
      ⟨rfl, fun inserted => Uses.bind (Uses.ofExcept _) fun _ => trivial⟩
    exact .placeOrder (uses.of_call run)

theorem no_honor {initial : Shop} {pool : ShopPool}
    (reached : Reachable service.system initial pool) : ∀ thread ∈ pool.threads,
      ∀ key deliver opts, thread.task ≠ .engine (.honor key deliver opts) :=
  fun thread present key deliver opts same => by
    obtain ⟨shop, may⟩ := reached.task_may_start thread present
    rw [same] at may
    exact may

theorem gate_of_runs {task : ShopTask} {past : List ShopCall} {input : HonorTxnInput Tables}
    {resume : TxnReply → ShopAsync (Option Fulfilment)}
    (other : ∀ key deliver opts, task ≠ .engine (.honor key deliver opts))
    (run : (service.program task).Runs past (.call (.port (.runHonorTxn input)) resume)) :
    input.deliver = deliver := by
  cases runs_calls run with
  | port running =>
    rcases Facade.program_runs_port running with ⟨rfl, ported, inner, -, registering⟩ |
      ⟨rfl, ported, inner, -, polling⟩
    · exact absurd ((HonorEngine.register_uses _ _ _).of_call registering) Bool.false_ne_true
    · exact (OnPaid.poll_returns_of_gate polling ⟨none, .ok ()⟩).2.1
  | @engine own _ _ _ running =>
    refine absurd ((service.honor.program_uses own).of_call running) (not_mayCall_gate ?_ input)
    intro key deliver opts same
    exact other key deliver opts (same ▸ rfl)
  | fulfil shop => cases shop
  | placeOrder shop => cases shop

end Service

/-! What one call of a port makes of the tables. -/

section
variable {shop : Shop} {op : Op Tables} {answer : op.Reply}

theorem tables_same (uncommitted : committed
      ⟨op, (World.perform .sync shop.world op answer).1⟩ = none) :
    (shop.perform (.port op) answer).2.tables = shop.tables :=
  World.perform_goods uncommitted

theorem sells {input : HonorTxnInput Tables} (delivers : input.deliver = deliver)
    (commits : committed ⟨op, (World.perform .sync shop.world op answer).1⟩ = some input) :
    ∃ gated, gateWrites SqliteStore.driver shop.world.db input = .ok gated ∧
      (shop.perform (.port op) answer).2.world.db =
        { gated with goods := shop.tables.sell input.key.quoteId input.now } := by
  obtain ⟨gated, passed, hdb, ended⟩ := World.perform_committed commits
  obtain ⟨-, -, hgoods⟩ := gateWrites_ok passed
  refine ⟨gated, passed, hdb.trans ?_⟩
  unfold deliverEnd at ended
  unfold deliverCalls
  rw [delivers] at ended ⊢
  rw [deliver_sells ended, hgoods]
  rfl

end

def Keyed (shop : Shop) : Prop :=
  ∀ key row, shop.world.db.seen.find? key = some row → row.honoredAt ≠ none →
    (shop.tables.apiKeys.find? key.quoteId).isSome = true

theorem Keyed.opened (clock : Int) : Keyed (.opened clock) := by
  intro key row found
  cases found

section
variable {shop : Shop}

theorem Tells.perform {entries : List Entry} (tells : Tells entries shop.tables) (op : ShopOp)
    (answer : op.Reply)
    (delivers : ∀ input, op = .port (.runHonorTxn input) → input.deliver = deliver) :
    Tells (entries ++ (entry ⟨op, (shop.perform op answer).1⟩).toList)
      (shop.perform op answer).2.tables := by
  cases op with
  | port op =>
    change Tells (_ ++ ((committed ⟨op, (World.perform .sync shop.world op answer).1⟩).map
      _).toList) _
    cases commits : committed ⟨op, (World.perform .sync shop.world op answer).1⟩ with
    | none =>
      rw [Option.map_none, Option.toList_none, List.append_nil, tables_same commits]
      exact tells
    | some input =>
      obtain ⟨hop, -⟩ := committed_eq_some commits
      obtain ⟨gated, -, hdb⟩ := sells (delivers input (hop ▸ rfl)) commits
      rw [Option.map_some, Option.toList_some, Shop.tables, hdb]
      exact tells.sold _ _
  | loop id op => exact (List.append_nil entries).symm ▸ tells
  | done id => exact (List.append_nil entries).symm ▸ tells
  | insertOrder quoteId sku credits =>
    cases answer with
    | error e => exact (List.append_nil entries).symm ▸ tells
    | ok _ => exact tells.placed quoteId sku credits
  | selectKey quoteId =>
    cases answer <;> exact (List.append_nil entries).symm ▸ tells

theorem sell_apiKeys (tables : Tables) (sold : QuoteId) (honoredAt : Int) (quoteId : QuoteId)
    (issued : (tables.apiKeys.find? quoteId).isSome = true ∨ sold = quoteId) :
    ((tables.sell sold honoredAt).apiKeys.find? quoteId).isSome = true := by
  refine Eq.trans (congrArg Option.isSome (Table.find?_insertIgnore _ _ quoteId)) ?_
  dsimp only
  split
  · rfl
  next other => exact issued.resolve_right other

theorem Keyed.perform (keyed : Keyed shop) (op : ShopOp) (answer : op.Reply)
    (delivers : ∀ input, op = .port (.runHonorTxn input) → input.deliver = deliver) :
    Keyed (shop.perform op answer).2 := by
  cases op with
  | port op =>
    intro key row found honored
    have seen := World.perform_seenRow shop.world op answer key
    rw [show (World.perform .sync shop.world op answer).2.seenRow key = some row from found] at seen
    cases commits : committed ⟨op, (World.perform .sync shop.world op answer).1⟩ with
    | none =>
      rw [tables_same commits]
      split at seen
      next success =>
        rcases seenAfter_honored seen.symm honored with ⟨old, hold, before⟩ | ⟨input, rfl, -⟩
        · exact keyed key old hold before
        · rw [committed_of_succeeds success] at commits
          cases commits
      next => exact keyed key row seen.symm honored
    | some input =>
      obtain ⟨rfl, success⟩ := committed_eq_some commits
      obtain ⟨gated, -, hdb⟩ := sells (delivers input rfl) commits
      rw [Shop.tables, hdb]
      refine sell_apiKeys _ _ _ _ ?_
      rw [if_pos success] at seen
      rcases seenAfter_honored seen.symm honored with ⟨old, hold, before⟩ | ⟨other, same, own⟩
      · exact .inl (keyed key old hold before)
      · cases same
        exact .inr (congrArg HonorKey.quoteId own)
  | loop id op => exact keyed
  | done id => exact keyed
  | insertOrder quoteId sku credits => cases answer <;> exact keyed
  | selectKey quoteId => cases answer <;> exact keyed

end

section
variable {service : Service} {clock : Int} {pool : ShopPool}

theorem delivers_next (reached : Reachable service.system (.opened clock) pool) {index : Nat}
    {task : ShopTask} {past : List ShopCall} {op : ShopOp}
    {resume : op.Reply → ShopAsync (Option Fulfilment)}
    (waiting : pool.threads[index]? = some ⟨task, past, .call op resume⟩)
    (input : HonorTxnInput Tables) (gate : op = .port (.runHonorTxn input)) :
    input.deliver = deliver := by
  subst gate
  have present := List.mem_of_getElem? waiting
  exact Service.gate_of_runs (service.no_honor reached _ present) (reached.runs _ present)

theorem tells_and_keyed (reached : Reachable service.system (.opened clock) pool) :
    Tells (entries pool) pool.shared.tables ∧ Keyed pool.shared := by
  refine reached.invariant (fun pool => Tells (entries pool) pool.shared.tables ∧ Keyed pool.shared)
    ⟨.init, .opened clock⟩ fun before after run ⟨tells, keyed⟩ step => ?_
  cases step with
  | start task may => exact ⟨tells, keyed⟩
  | shift next may =>
    obtain ⟨clock, claims, claimTxIds, fails, rfl⟩ := may
    exact ⟨tells, keyed⟩
  | @advance index task past op resume answer waiting =>
    have delivers := delivers_next run waiting
    have grows : entries (before.advance service.system index task past op resume answer) =
        entries before ++ (entry ⟨op, (before.shared.perform op answer).1⟩).toList := by
      rw [entries, Pool.advance, List.filterMap_append, filterMap_cons_toList, List.filterMap_nil,
        List.append_nil]
      rfl
    exact ⟨grows ▸ tells.perform op answer delivers, keyed.perform op answer delivers⟩

/-- What the tables hold is what has been ordered and sold; every sale is committed with the gate's
writes in one step, and every honored quote has its key. -/
theorem tables_tell_entries (service : Service) (clock : Int) (pool : ShopPool)
    (reached : Reachable service.system (.opened clock) pool) :
    Tells (entries pool) pool.shared.tables ∧ Keyed pool.shared ∧
    ∀ event ∈ pool.log, ∀ input, sale event.call = some input → ∃ gated,
      gateWrites SqliteStore.driver event.before.world.db input = .ok gated ∧
      event.after.world.db =
        { gated with goods := event.before.tables.sell input.key.quoteId input.now } := by
  obtain ⟨tells, keyed⟩ := tells_and_keyed reached
  refine ⟨tells, keyed, fun event logged input sold => ?_⟩
  obtain ⟨moment, run, shared, ⟨resume, waiting⟩, -, -⟩ := reached.moment event logged
  have delivers := delivers_next run waiting
  obtain ⟨_, _, _, before, op, answer, rfl⟩ := reached.performedBy event logged
  cases op with
  | port op =>
    obtain ⟨hop, -⟩ := committed_eq_some sold
    exact sells (delivers input (hop ▸ rfl)) sold
  | loop id op => cases sold
  | done id => cases sold
  | insertOrder quoteId sku credits => cases sold
  | selectKey quoteId => cases sold

end

/-! A buyer orders a hundred calls and pays for them. -/

abbrev ShopMove := Move Shop ShopOp ShopOp.Reply ShopTask

def sampleService : Service := ⟨sampleEngine, fun _ => sampleQuote⟩

def shopAnswer : (op : ShopOp) → op.Reply
  | .port op => paidPorts.answer op
  | .loop _ op => (LoopVars.fresh.perform op).1
  | .done _ => .ok .cancelled
  | .insertOrder _ _ _ => .ok ()
  | .selectKey _ => .ok none

def shopTurns (index count : Nat) : List ShopMove := .replicate count (.advance index shopAnswer)

def soldMoves : List ShopMove :=
  .start (.placeOrder sampleQuote.quoteId "inference-api" 100) :: shopTurns 0 1 ++
    .start (.onPaid 0 .startup) :: shopTurns 1 4 ++ .start (.onPaid 0 .tick) :: shopTurns 2 13 ++
    .start (.fulfil 0) :: shopTurns 3 2

def soldPool : ShopPool := (Pool.fresh (.opened 20)).play sampleService.system soldMoves

theorem soldMoves_allowed : (Pool.fresh (.opened 20)).Allowed sampleService.system soldMoves := by
  simp only [soldMoves, shopTurns, List.append_assoc, List.cons_append]
  refine ⟨trivial, Pool.allowed_advances 1 ⟨trivial, Pool.allowed_advances 4 ⟨rfl,
    Pool.allowed_advances 13 ⟨rfl, ?_⟩⟩⟩⟩
  exact List.append_nil (List.replicate 2 _) ▸ Pool.allowed_advances 2 trivial

theorem tables_tell_entries_sold :
    keyOf sampleQuote.quoteId (entries soldPool) =
      some ⟨sampleQuote.quoteId, mintApiKey sampleQuote.quoteId, 100⟩ ∧
    Tells (entries soldPool) soldPool.shared.tables ∧ Keyed soldPool.shared := by
  obtain ⟨tells, keyed, -⟩ := tables_tell_entries sampleService 20 soldPool
    (Pool.play_reachable soldMoves_allowed)
  exact ⟨by decide +kernel, tells, keyed⟩

end Merchant
end ExferHonor
