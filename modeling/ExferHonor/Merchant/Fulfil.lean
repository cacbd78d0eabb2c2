import ExferHonor.Merchant.Ledger

/-! What a buyer is told. Each `onPaid` call of the service is a loop of its own among all the
others, and `fulfilOnPayment` reports a sale exactly when its own loop has made one. -/
namespace ExferHonor
namespace Merchant
open Effects Program Relational Facade Service

def opens : ShopTask → Option Nat
  | .onPaid id .startup => some id
  | _ => none

def Numbered (pool : ShopPool) : Prop := (pool.threads.filterMap fun t => opens t.task).Nodup

instance (pool : ShopPool) : Decidable (Numbered pool) :=
  inferInstanceAs (Decidable (List.Nodup _))

namespace Service
variable (service : Service) (id : Nat)

/-- The loop of one `onPaid` call, in surroundings that leave its variables alone. -/
def loopPart : System Shop (Op Tables ⊕ LoopOp) (Sum.elim Op.Reply LoopOp.Reply) Thrown Unit
    LoopTask where
  program := (service.onPaid id).facade.program
  perform shop := fun
    | .inl op, answer => shop.perform (.port op) answer
    | .inr op, answer => shop.perform (.loop id op) answer
  mayStart shop task := mayStart shop (.onPaid id task)
  mayShift before after := after.loops id = before.loops id

theorem loopPart_hosts :
    Hosts (service.onPaid id).facade (fun shop => shop.loops id) (service.loopPart id) where
  program := rfl
  port _ _ _ := rfl
  replied _ _ _ := rfl
  changed _ _ _ := if_pos rfl
  timed _ may := may
  shifted _ _ may := may

def ownTask : ShopTask → Option LoopTask
  | .onPaid other task => if other = id then some task else none
  | _ => none

theorem ownTask_iff {any : ShopTask} {mine : LoopTask} :
    ownTask id any = some mine ↔ any = .onPaid id mine := by
  cases any with
  | onPaid other task =>
    by_cases own : other = id
    · simp [ownTask, own]
    · simp [ownTask, own]
  | fulfil other => simp [ownTask]
  | placeOrder quoteId sku credits => simp [ownTask]
  | engine task => simp [ownTask]

variable {service id}

theorem opens_of_own {task : ShopTask} (own : ownTask id task = some .startup) :
    opens task = some id := by
  rw [(ownTask_iff id).1 own]
  rfl

theorem perform_loops {shop : Shop} {op : ShopOp} {answer : op.Reply}
    (other : ∀ own, op ≠ .loop id own) : (shop.perform op answer).2.loops id = shop.loops id := by
  cases op with
  | port op => rfl
  | loop called op =>
    refine if_neg fun same => ?_
    subst same
    exact other op rfl
  | done called => rfl
  | insertOrder quoteId sku credits => cases answer <;> rfl
  | selectKey quoteId => cases answer <;> rfl

def view (service : Service) (id : Nat) : Part service.system (service.loopPart id) where
  task := .onPaid id
  own := ownTask id
  own_iff := ownTask_iff id
  op := loopOp id
  reply := loopReply id
  value _ := none
  program _ := rfl
  performs shop op answer := by
    cases op <;> rfl
  starts may := may
  shifts may := by
    obtain ⟨clock, claims, claimTxIds, fails, rfl⟩ := may
    rfl
  others foreign run shop answer := by
    refine perform_loops fun op same => ?_
    subst same
    cases runs_calls run with
    | loop => simp [ownTask] at foreign
    | fulfil shop => cases shop
    | placeOrder shop => cases shop

end Service

def Sold (service : Service) (id : Nat) (pool : ShopPool) : Prop :=
  ∃ event ∈ pool.log, event.task = .onPaid id .tick ∧ ∃ input, sale event.call = some input ∧
    input.key = (service.quote id).key

section
variable {service : Service} {clock : Int} {pool : ShopPool} {id : Nat}

/-! The loop of one call, seen by itself. -/

theorem startup_first {mine : FacadePool Shop (Op Tables) Op.Reply}
    (reached : Reachable (service.loopPart id) (.opened clock) mine) :
    (mine.threads = [] ∧ (mine.shared.loops id).timer = false) ∨
      (mine.threads.map (·.task)).head? = some .startup := by
  refine reached.invariant (fun mine => (mine.threads = [] ∧
    (mine.shared.loops id).timer = false) ∨ (mine.threads.map (·.task)).head? = some .startup)
    (.inl ⟨rfl, rfl⟩) fun before after run ih step => ?_
  rcases ih with ⟨idle, untimed⟩ | first
  · cases step with
    | start task may =>
      rw [Pool.start, idle]
      cases task with
      | startup => exact .inr rfl
      | tick =>
        have timed : (before.shared.loops id).timer = true := may
        rw [untimed] at timed
        cases timed
      | cancel => exact (show False from may).elim
    | shift next may =>
      exact .inl ⟨idle, (congrArg LoopVars.timer may).trans untimed⟩
    | advance answer waiting =>
      rw [idle] at waiting
      cases waiting
  · obtain ⟨more, same⟩ := step.tasks_grow
    rw [← same, List.head?_append, first]
    exact .inr rfl

theorem uncancelled {mine : FacadePool Shop (Op Tables) Op.Reply} (numbered : Numbered pool)
    (reached : Reachable (service.loopPart id) (.opened clock) mine)
    (shown : (service.view id).Shown pool mine) : Uncancelled mine := by
  rw [uncancelled_iff]
  constructor
  · have alone : (mine.threads.map (·.task)).Pairwise fun first second =>
        ¬ (first = .startup ∧ second = .startup) := by
      rw [shown.tasks, List.filterMap_map, List.pairwise_filterMap]
      refine (List.pairwise_filterMap.1 numbered).imp fun apart first hfirst second hsecond => ?_
      rintro ⟨rfl, rfl⟩
      exact apart id (opens_of_own hfirst) id (opens_of_own hsecond) rfl
    rcases startup_first reached with ⟨idle, -⟩ | first
    · simp [idle]
    · cases tasks : mine.threads.map (·.task) with
      | nil => simp
      | cons head rest =>
        rw [tasks] at first alone
        cases first
        exact fun task later same => (List.pairwise_cons.1 alone).1 task later ⟨rfl, same⟩
  · intro task present same
    obtain ⟨thread, hthread, rfl⟩ := List.mem_map.1 present
    obtain ⟨shop, may⟩ := reached.task_may_start thread hthread
    rw [same] at may
    exact may

theorem delivered_of_sale {call : ShopCall} {mine : LoopCall Tables} {input : HonorTxnInput Tables}
    (shows : call = (service.view id).call mine) :
    sale call = some input ↔ OnPaid.delivered mine = some input := by
  subst shows
  obtain ⟨op, reply⟩ := mine
  cases op <;> rfl

theorem sold_of_settled (reached : Reachable service.system (.opened clock) pool)
    {outcome : HonorOutcome}
    (settled : (pool.shared.loops id).settled = some (.ok (.honored outcome))) :
    Sold service id pool := by
  obtain ⟨mine, running, shown⟩ := (service.view id).exists_shown reached
  rw [← shown.shared] at settled
  have host := service.loopPart_hosts id
  obtain ⟨seen, logged, tick, input, commits, -⟩ :=
    OnPaid.delivered_of_settled host rfl running settled
  obtain ⟨resume, run⟩ := running.runs_to_event seen logged
  obtain ⟨-, key, -⟩ := OnPaid.tick_honors run commits
  obtain ⟨event, hevent, shows⟩ := shown.of_event logged
  exact ⟨event, hevent, shows.task.trans (congrArg (ShopTask.onPaid id) tick), input,
    (delivered_of_sale shows.call).2 commits, key⟩

theorem settled_of_sold (reached : Reachable service.system (.opened clock) pool)
    (numbered : Numbered pool) {event : ShopEvent} (logged : event ∈ pool.log)
    (task : event.task = .onPaid id .tick) {input : HonorTxnInput Tables}
    (sold : sale event.call = some input) (settled : (pool.shared.loops id).settled ≠ none) :
    (pool.shared.loops id).settled = some (.ok (.honored (.honored input.outpoint))) := by
  obtain ⟨mine, running, shown⟩ := (service.view id).exists_shown reached
  obtain ⟨seen, hseen, shows⟩ := shown.event logged task
  rw [← shown.shared] at settled ⊢
  have host := service.loopPart_hosts id
  exact OnPaid.settled_of_delivered host rfl running (uncancelled numbered running shown) hseen
    ((delivered_of_sale shows.call).1 sold) settled

/-! What the thread that waits for the payment hears. -/

theorem perform_settled {shop : Shop} (op : ShopOp) (answer : op.Reply)
    {result : Except Thrown OnPaidResult} (settled : (shop.loops id).settled = some result) :
    ((shop.perform op answer).2.loops id).settled = some result := by
  by_cases own : ∃ called, op = .loop id called
  · obtain ⟨called, rfl⟩ := own
    have after : (shop.perform (.loop id called) answer).2.loops id =
        ((shop.loops id).perform called).2 := if_pos rfl
    have kept := @LoopVars.perform_settled _ (Op.Reply (G := Tables)) (shop.loops id) called answer
    rw [after, kept, settled]
    rfl
  · rw [perform_loops fun called same => own ⟨called, same⟩]
    exact settled

theorem settled_lasts (reached : Reachable service.system (.opened clock) pool) :
    ∀ event ∈ pool.log, ∀ result, (event.before.loops id).settled = some result →
      (pool.shared.loops id).settled = some result := by
  refine reached.invariant (fun pool => ∀ event ∈ pool.log, ∀ result,
    (event.before.loops id).settled = some result → (pool.shared.loops id).settled = some result)
    (by simp [Pool.fresh]) fun before after run ih step => ?_
  cases step with
  | start task may => exact ih
  | shift next may =>
    obtain ⟨clock, claims, claimTxIds, fails, rfl⟩ := may
    exact ih
  | advance answer waiting =>
    intro event hevent result settled
    refine perform_settled _ answer ?_
    rcases List.mem_append.1 hevent with h | h
    · exact ih event h result settled
    · rw [List.mem_singleton.1 h] at settled
      exact settled

theorem fulfil_settled (reached : Reachable service.system (.opened clock) pool) :
    ∀ thread ∈ pool.threads, thread.task = .fulfil id → (pool.shared.loops id).settled ≠ none := by
  refine reached.invariant (fun pool => ∀ thread ∈ pool.threads, thread.task = .fulfil id →
    (pool.shared.loops id).settled ≠ none) (by simp [Pool.fresh]) fun before after run ih step => ?_
  cases step with
  | start task may =>
    intro thread hthread waits
    rcases List.mem_append.1 hthread with h | h
    · exact ih thread h waits
    · rw [List.mem_singleton.1 h] at waits
      obtain rfl : task = .fulfil id := waits
      exact Option.isSome_iff_ne_none.1 may
  | shift next may =>
    obtain ⟨clock, claims, claimTxIds, fails, rfl⟩ := may
    exact ih
  | @advance index task past op resume answer waiting =>
    intro thread hthread waits
    have settled : (before.shared.loops id).settled ≠ none := by
      rcases List.mem_or_eq_of_mem_set hthread with h | h
      · exact ih thread h waits
      · rw [h] at waits
        exact ih _ (List.mem_of_getElem? waiting) waits
    obtain ⟨result, hresult⟩ := Option.ne_none_iff_exists'.1 settled
    exact Option.ne_none_iff_exists'.2 ⟨result, perform_settled op answer hresult⟩

theorem settled_of_done (reached : Reachable service.system (.opened clock) pool)
    {event : ShopEvent} (logged : event ∈ pool.log) (waits : event.task = .fulfil id)
    {settled : Except Thrown OnPaidResult} (told : event.call = ⟨.done id, settled⟩) :
    (pool.shared.loops id).settled = some settled := by
  obtain ⟨moment, run, shared, ⟨resume, waiting⟩, -, -⟩ := reached.moment event logged
  obtain ⟨result, hresult⟩ := Option.ne_none_iff_exists'.1
    (fulfil_settled run _ (List.mem_of_getElem? waiting) waits)
  rw [shared] at hresult
  obtain ⟨_, _, _, before, op, answer, rfl⟩ := reached.performedBy event logged
  cases told
  rw [settled_lasts reached _ logged result hresult]
  exact congrArg some (show result = ((before.loops id).settled).getD answer by
    rw [show (before.loops id).settled = some result from hresult, Option.getD_some])

inductive Told (id : Nat) (quoteId : QuoteId) : List ShopCall → Fulfilment → Prop
  | honored {outcome row} : Told id quoteId
      [⟨.done id, .ok (.honored outcome)⟩, ⟨.selectKey quoteId, .ok row⟩]
      { status := .honored, apiKey := row.map (·.apiKey), credits := row.map (·.credits) }
  | declined {reason outcome} : Told id quoteId [⟨.done id, .ok (.declined reason outcome)⟩]
      { status := .declined, declineReason := some reason }
  | cancelled : Told id quoteId [⟨.done id, .ok .cancelled⟩] { status := .cancelled }

theorem fulfil_told {past : List ShopCall} {result : Fulfilment}
    (run : (service.program (.fulfil id)).Runs past (.pure (some result))) :
    Told id (service.quote id).quoteId past result := by
  cases run with
  | call settled asked =>
    cases settled with
    | error e =>
      obtain ⟨-, ended⟩ := (runs_throw_iff _).1 asked
      cases ended
    | ok settled =>
      cases settled with
      | declined reason outcome =>
        obtain ⟨rfl, ended⟩ := (runs_pure_iff _).1 asked
        cases ended
        exact .declined
      | cancelled =>
        obtain ⟨rfl, ended⟩ := (runs_pure_iff _).1 asked
        cases ended
        exact .cancelled
      | honored outcome =>
        cases asked with
        | call selected answered =>
          cases selected with
          | error e =>
            obtain ⟨-, ended⟩ := (runs_throw_iff _).1 answered
            cases ended
          | ok row =>
            obtain ⟨rfl, ended⟩ := (runs_pure_iff _).1 answered
            cases ended
            exact .honored

theorem Sold.issued (sold : Sold service id pool) :
    ∃ row, keyOf (service.quote id).quoteId (entries pool) = some row := by
  obtain ⟨event, logged, -, input, sells, key⟩ := sold
  refine @exists_keyOf _ _ input.now (List.mem_filterMap.2 ⟨event, logged, ?_⟩)
  have sameQuote : input.key.quoteId = (service.quote id).quoteId := congrArg HonorKey.quoteId key
  obtain ⟨_, _, _, _, ⟨op, reply⟩, _⟩ := event
  cases op with
  | port op =>
    change (committed ⟨op, reply⟩).map _ = _
    rw [show committed ⟨op, reply⟩ = some input from sells, Option.map_some, sameQuote]
  | loop called op => cases sells
  | done called => cases sells
  | insertOrder quoteId sku credits => cases sells
  | selectKey quoteId => cases sells

theorem perform_selectKey {shop : Shop} {quoteId : QuoteId} {row : Option ApiKeyRow}
    {answer : (ShopOp.selectKey quoteId).Reply}
    (selects : (shop.perform (.selectKey quoteId) answer).1 = .ok row) :
    shop.tables.apiKeys.find? quoteId = row := by
  cases answer with
  | error e => cases selects
  | ok _ => exact Except.ok.inj selects

theorem selected_key (reached : Reachable service.system (.opened clock) pool)
    {event : ShopEvent} (logged : event ∈ pool.log) (waits : event.task = .fulfil id)
    {outcome : HonorOutcome} (past : event.past = [⟨.done id, .ok (.honored outcome)⟩])
    {row : Option ApiKeyRow}
    (selects : event.call = ⟨.selectKey (service.quote id).quoteId, .ok row⟩) :
    row ≠ none ∧ keyOf (service.quote id).quoteId (entries pool) = row := by
  obtain ⟨moment, run, shared, ⟨resume, waiting⟩, ⟨more, grows⟩, -⟩ := reached.moment event logged
  obtain ⟨told, htold, -, task, -, hcall⟩ := run.event_of_past _ _ waiting [] _ [] past
  have settled := settled_of_done run htold (task.trans waits) hcall
  obtain ⟨issued, hissued⟩ := (sold_of_settled run settled).issued
  have selected := ((tells_and_keyed run).1 (service.quote id).quoteId).2
  rw [shared, hissued] at selected
  obtain ⟨_, _, _, before, op, answer, rfl⟩ := reached.performedBy event logged
  obtain ⟨rfl, hreply⟩ := Call.mk.inj selects
  obtain rfl := selected.symm.trans (perform_selectKey (eq_of_heq hreply))
  refine ⟨Option.some_ne_none _, ?_⟩
  rw [entries, ← grows, List.filterMap_append]
  exact keyOf_append hissued _

/-- A buyer is told of a sale exactly when the call's own loop has made one, and then gets the key
issued for the quote and the credits on it. -/
theorem fulfilled_iff_sold (service : Service) (clock : Int) (pool : ShopPool)
    (reached : Reachable service.system (.opened clock) pool) (numbered : Numbered pool) :
    ∀ thread ∈ pool.threads, ∀ id result, thread.task = .fulfil id →
      thread.rest = .pure (some result) →
      (result.status = .honored ↔ Sold service id pool) ∧
      (result.status = .honored → ∃ credits,
        result.apiKey = some (mintApiKey (service.quote id).quoteId) ∧
        result.credits = some credits ∧ keyOf (service.quote id).quoteId (entries pool) =
          some ⟨(service.quote id).quoteId, mintApiKey (service.quote id).quoteId, credits⟩) := by
  intro thread present id result waits ended
  have run := reached.runs thread present
  rw [waits, ended] at run
  obtain ⟨index, hindex⟩ := List.getElem?_of_mem present
  have heard {settled : OnPaidResult} {later : List ShopCall}
      (past : thread.past = ⟨.done id, .ok settled⟩ :: later) :
      (pool.shared.loops id).settled = some (.ok settled) := by
    obtain ⟨event, logged, -, task, -, hcall⟩ :=
      reached.event_of_past index thread hindex [] _ _ past
    exact settled_of_done reached logged (task.trans waits) hcall
  have unsold {settled : OnPaidResult} (past : thread.past = [⟨.done id, .ok settled⟩])
      (other : ∀ outcome, settled ≠ .honored outcome) : ¬ Sold service id pool := by
    rintro ⟨event, logged, task, input, sold, -⟩
    have settled := settled_of_sold reached numbered logged task sold (heard past ▸ nofun)
    rw [heard past] at settled
    exact other _ (Except.ok.inj (Option.some.inj settled))
  generalize hpast : thread.past = past at run
  cases fulfil_told run with
  | honored =>
    obtain ⟨event, logged, -, task, before, selects⟩ :=
      reached.event_of_past index thread hindex [_] _ [] hpast
    obtain ⟨there, issued⟩ := selected_key reached logged (task.trans waits) before selects
    refine ⟨⟨fun _ => sold_of_settled reached (heard hpast), fun _ => rfl⟩, fun _ => ?_⟩
    obtain ⟨row, rfl⟩ := Option.ne_none_iff_exists'.1 there
    have minted := keyOf_eq_some issued
    exact ⟨row.credits, congrArg (fun row => some (ApiKeyRow.apiKey row)) minted, rfl,
      issued.trans (congrArg some minted)⟩
  | declined => exact ⟨⟨nofun, fun sold => absurd sold (unsold hpast nofun)⟩, nofun⟩
  | cancelled => exact ⟨⟨nofun, fun sold => absurd sold (unsold hpast nofun)⟩, nofun⟩

end

def soldFulfilment : Fulfilment where
  status := .honored
  apiKey := some (mintApiKey sampleQuote.quoteId)
  credits := some 100

theorem fulfilled_iff_sold_paid :
    Numbered soldPool ∧ Sold sampleService 0 soldPool ∧
      (soldPool.threads.map (·.rest))[3]? = some (.pure (some soldFulfilment)) := by
  have ended : (soldPool.threads.map (·.rest))[3]? = some (.pure (some soldFulfilment)) := rfl
  have task : (soldPool.threads.map (·.task))[3]? = some (.fulfil 0) := rfl
  have numbered : Numbered soldPool := by decide +kernel
  rw [List.getElem?_map, Option.map_eq_some_iff] at ended task
  obtain ⟨thread, present, hrest⟩ := ended
  obtain ⟨_, same, waits⟩ := task
  cases present.symm.trans same
  exact ⟨numbered, (fulfilled_iff_sold sampleService 20 soldPool
    (Pool.play_reachable soldMoves_allowed) numbered thread (List.mem_of_getElem? present) 0 _
    waits hrest).1.1 rfl, by rw [List.getElem?_map, present, Option.map_some, hrest]⟩

end Merchant
end ExferHonor
