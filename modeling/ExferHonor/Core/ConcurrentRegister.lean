import ExferHonor.Core.ExactlyOnce
import ExferHonor.Effects.WriteOnce

/-! Registers of one unseen key in any interleaving. The row keeps what was inserted first, but a
register does not learn whether its insert was that one. -/
namespace ExferHonor
namespace HonorEngine
open Effects Program Store Statements

variable {G : Type}

def RegistersKey (key : HonorKey) (_ : World G) : EngineTask G → Prop
  | .register quote _ => quote.key = key
  | _ => False

def LeavesRow (key : HonorKey) (before after : World G) : Prop :=
  after.db.seen.find? key = before.db.seen.find? key

abbrev registerSystem (engine : HonorEngine G) (model : TxnModel) (key : HonorKey) :
    System (World G) (Op G) Op.Reply Thrown EngineResult (EngineTask G) :=
  engineSystem engine model (RegistersKey key) (LeavesRow key)

abbrev EngineThread (G : Type) := Thread (Op G) Op.Reply Thrown EngineResult (EngineTask G)

def registeredOf (thread : EngineThread G) : Option RegisterResult :=
  match thread.rest with
  | .pure (.registered result) => some result
  | _ => none

def createdRow (thread : EngineThread G) : Bool := (registeredOf thread).any (·.created)

theorem createdRow_eq {thread : EngineThread G} {result : RegisterResult}
    (returned : registeredOf thread = some result) : createdRow thread = result.created := by
  rw [createdRow, returned, Option.any_some]

def retention (key : HonorKey) (world : World G) : Option Int :=
  (world.db.seen.find? key).map (·.retainUntil)

structure RegistersAgree (key : HonorKey) (pool : EnginePool G) : Prop where
  one : pool.threads.countP createdRow = 1
  stored : ∀ thread ∈ pool.threads, ∀ result, registeredOf thread = some result →
    retention key pool.shared = some result.retainUntil

/-- Behind the first read of the row, the row is read only after an insert. -/
def ReadsInserted (key : HonorKey) (earlier : List (EngineEvent G)) (event : EngineEvent G) :
    Prop :=
  event.call.op = .getSeen key → (∃ other ∈ earlier, other.call.op = .getSeen key) →
    ∃ other ∈ earlier, ∃ quote acceptedAt retainUntil,
      other.call.op = .upsertAccepted quote acceptedAt retainUntil

def insertOf (key : HonorKey) : PortCall G → Option Int
  | ⟨.upsertAccepted quote _ retainUntil, .ok _⟩ =>
      if quote.key = key then some retainUntil else none
  | _ => none

def readOf (key : HonorKey) : PortCall G → Option (Option Int)
  | ⟨.getSeen read, .ok found⟩ => if read = key then some (found.map (·.retainUntil)) else none
  | _ => none

def readsNothing (key : HonorKey) (call : PortCall G) : Bool := decide (readOf key call = some none)

theorem insertOf_eq_none {key : HonorKey} {op : Op G} (reply : op.Reply)
    (other : ∀ quote acceptedAt retainUntil, op ≠ .upsertAccepted quote acceptedAt retainUntil) :
    insertOf key ⟨op, reply⟩ = none := by
  cases op
  case upsertAccepted => exact absurd rfl (other _ _ _)
  all_goals rfl

theorem readOf_eq_none {key : HonorKey} {op : Op G} (reply : op.Reply)
    (other : ∀ read, op ≠ .getSeen read) : readOf key ⟨op, reply⟩ = none := by
  cases op
  case getSeen => exact absurd rfl (other _)
  all_goals rfl

theorem perform_retention (model : TxnModel) (key : HonorKey) (world : World G) (op : Op G)
    (answer : op.Reply) (may : op.byRegister = true) :
    retention key (world.perform model op answer).2 =
      (retention key world).or (insertOf key ⟨op, (world.perform model op answer).1⟩) := by
  by_cases query : op.isQuery = true
  · rw [World.perform_query model world query, insertOf_eq_none, Option.or_none]
    rintro quote acceptedAt retainUntil rfl
    cases query
  · cases op
    case clockNow => exact (Option.or_none).symm
    case getSeen read =>
      rw [insertOf_eq_none _ (by simp), Option.or_none]
      cases answer <;> rfl
    case upsertAccepted quote acceptedAt retainUntil =>
      cases answer with
      | error e => exact (Option.or_none).symm
      | ok _ =>
        have hrow : (upsertAccepted world.db.seen quote acceptedAt retainUntil).find? key = _ :=
          find?_upsertAccepted _ _ _ _ _
        simp only [retention, World.perform, Store.perform, insertOf, hrow]
        split
        next => cases world.db.seen.find? key <;> rfl
        next => exact (Option.or_none).symm
    all_goals contradiction

theorem perform_read (model : TxnModel) (key : HonorKey) (world : World G) (op : Op G)
    (answer : op.Reply) (value : Option Int)
    (read : readOf key ⟨op, (world.perform model op answer).1⟩ = some value) :
    value = retention key world := by
  cases op
  case getSeen asked =>
    cases answer with
    | error e => cases read
    | ok _ =>
      simp only [World.perform, Store.perform, readOf, Option.ite_none_right_eq_some,
        Option.some.injEq] at read
      obtain ⟨rfl, rfl⟩ := read
      simp only [retention, getSeen, Option.map_map]
      congr 1
      funext row
      simp only [Function.comp_def, rowFromSql_eq, SqliteStore.rowFromSql]
  all_goals cases read

theorem retention_writeOnce (engine : HonorEngine G) (model : TxnModel) (key : HonorKey) :
    WriteOnce (registerSystem engine model key) (·.byRegister) (retention key) (insertOf key)
      (readOf key) := by
  constructor
  · intro shared task may
    cases task
    case register quote opts => exact engine.program_uses (.register quote opts)
    all_goals cases may
  · exact perform_retention model key
  · exact perform_read model key
  · intro before after may
    exact congrArg (Option.map (·.retainUntil)) may

/-- How a register that returned has gone. -/
inductive RegisterCalls (engine : HonorEngine G) (quote : AcceptedQuote) :
    List (PortCall G) → RegisterResult → Prop
  | found (asked : List (PortCall G)) (row : SeenRow)
      (sampling : ∀ call ∈ asked, call.op = .clockNow) :
      RegisterCalls engine quote (asked ++ [⟨.getSeen quote.key, .ok (some row)⟩])
        ⟨false, row.retainUntil⟩
  | inserted (asked screened : List (PortCall G)) (now : Int)
      (sampling : ∀ call ∈ asked, call.op = .clockNow)
      (screening : ∀ call ∈ screened, call.op.isQuery = true) :
      RegisterCalls engine quote
        (asked ++ ⟨.getSeen quote.key, .ok none⟩ :: (screened ++ [⟨.upsertAccepted quote now
          (quote.expiresAt + engine.deps.config.maxRecheckWindow), .ok ()⟩]))
        ⟨true, quote.expiresAt + engine.deps.config.maxRecheckWindow⟩

theorem register_returns {engine : HonorEngine G} {quote : AcceptedQuote} {opts : RegisterOpts}
    {calls : List (PortCall G)} {result : RegisterResult}
    (returns : (engine.register quote opts).Returns calls (.ok result)) :
    RegisterCalls engine quote calls result := by
  obtain ⟨asked, now, _, rfl, sampled, reading⟩ := returns.ok_of_bind
  have sampling := ((now_uses opts.now).runs sampled).1
  obtain ⟨_, row, _, rfl, rfl, rest⟩ := Returns.of_ask_bind reading
  cases row with
  | some existing =>
    obtain ⟨rfl, hresult⟩ := (returns_pure_iff _).1 rest
    cases hresult
    exact .found asked existing sampling
  | none =>
    obtain ⟨screened, _, _, rfl, passed, accepting⟩ := rest.ok_of_bind
    obtain ⟨_, _, _, rfl, rfl, ended⟩ := Returns.of_ask_bind accepting
    obtain ⟨rfl, hresult⟩ := (returns_pure_iff _).1 ended
    cases hresult
    exact .inserted asked screened now sampling ((preScreen_uses _ _).runs passed).1

namespace RegisterCalls
variable {engine : HonorEngine G} {quote : AcceptedQuote} {calls : List (PortCall G)}
  {result : RegisterResult} {call : PortCall G}

def wasTold (result : RegisterResult) : Option Int :=
  if result.created then none else some result.retainUntil

theorem mem_cases (register : RegisterCalls engine quote calls result) (mem : call ∈ calls) :
    (call.op = .clockNow ∨ call.op.isQuery = true) ∨
    (∃ found, call = ⟨.getSeen quote.key, .ok found⟩ ∧
      found.map (·.retainUntil) = wasTold result) ∨
    (result.created = true ∧
      ∃ now, call = ⟨.upsertAccepted quote now result.retainUntil, .ok ()⟩) := by
  cases register with
  | found asked row sampling =>
    rcases List.mem_append.1 mem with h | h
    · exact .inl (.inl (sampling call h))
    · exact .inr (.inl ⟨some row, List.mem_singleton.1 h, rfl⟩)
  | inserted asked screened now sampling screening =>
    rcases List.mem_append.1 mem with h | h
    · exact .inl (.inl (sampling call h))
    · rcases List.mem_cons.1 h with h | h
      · exact .inr (.inl ⟨none, h, rfl⟩)
      · rcases List.mem_append.1 h with h | h
        · exact .inl (.inr (screening call h))
        · exact .inr (.inr ⟨rfl, now, List.mem_singleton.1 h⟩)

theorem reads (register : RegisterCalls engine quote calls result) :
    ∃ found, ⟨.getSeen quote.key, .ok found⟩ ∈ calls ∧
      found.map (·.retainUntil) = wasTold result := by
  cases register with
  | found asked row sampling => exact ⟨some row, by simp, rfl⟩
  | inserted asked screened now sampling screening => exact ⟨none, by simp, rfl⟩

theorem insertOf_mem (register : RegisterCalls engine quote calls result) (mem : call ∈ calls)
    {retainUntil : Int} (inserted : insertOf quote.key call = some retainUntil) :
    result = ⟨true, retainUntil⟩ := by
  rcases register.mem_cases mem with inert | ⟨found, rfl, -⟩ | ⟨created, now, rfl⟩
  · obtain ⟨op, reply⟩ := call
    rw [insertOf_eq_none] at inserted
    · cases inserted
    · rintro asked _ _ rfl
      rcases inert with h | h <;> cases h
  · cases inserted
  · rw [insertOf, if_pos rfl, Option.some.injEq] at inserted
    rw [← created, ← inserted]

theorem readOf_mem (register : RegisterCalls engine quote calls result) (mem : call ∈ calls)
    {value : Option Int} (read : readOf quote.key call = some value) : value = wasTold result := by
  rcases register.mem_cases mem with inert | ⟨found, rfl, told⟩ | ⟨-, now, rfl⟩
  · obtain ⟨op, reply⟩ := call
    rw [readOf_eq_none] at read
    · cases read
    · rintro asked rfl
      rcases inert with h | h <;> cases h
  · rw [readOf, if_pos rfl, Option.some.injEq] at read
    exact read.symm.trans told
  · cases read

theorem any_readsNothing (register : RegisterCalls engine quote calls result) :
    calls.any (readsNothing quote.key) = result.created := by
  have told : wasTold result = none ↔ result.created = true := by simp [wasTold]
  rw [Bool.eq_iff_iff, List.any_eq_true, ← told]
  constructor
  · rintro ⟨call, mem, nothing⟩
    exact (register.readOf_mem mem (of_decide_eq_true nothing)).symm
  · intro nothing
    obtain ⟨found, mem, hfound⟩ := register.reads
    refine ⟨_, mem, decide_eq_true ?_⟩
    rw [readOf, if_pos rfl, hfound, nothing]

theorem inserts (register : RegisterCalls engine quote calls result)
    (created : result.created = true) :
    ∃ now, ⟨.upsertAccepted quote now result.retainUntil, .ok ()⟩ ∈ calls := by
  cases register with
  | found asked row sampling => cases created
  | inserted asked screened now sampling screening => exact ⟨now, by simp⟩

end RegisterCalls

theorem register_runs_read {engine : HonorEngine G} {quote : AcceptedQuote} {opts : RegisterOpts}
    {calls : List (PortCall G)} {key : HonorKey}
    {resume : Except Thrown (Option SeenRow) → Async G RegisterResult}
    (run : (engine.register quote opts).Runs calls (.call (.getSeen key) resume)) :
    ∀ call ∈ calls, call.op = .clockNow := by
  obtain ⟨asked, now, _, rfl, sampled, reading⟩ := (now_uses opts.now).of_bind_call run nofun
  have sampling := ((now_uses opts.now).runs sampled).1
  rcases (runs_call_iff _ _).1 reading with ⟨rfl, -⟩ | ⟨reply, later, rfl, tail⟩
  · rwa [List.append_nil]
  · obtain ⟨row, -, found⟩ := Runs.of_ofExcept_bind tail
    cases row with
    | some existing => cases ((runs_pure_iff _).1 found).2
    | none =>
      obtain ⟨_, _, _, -, -, accepting⟩ := (preScreen_uses _ _).of_bind_call found nofun
      obtain ⟨_, _, _, -, -, ended⟩ := accepting.of_ask_bind nofun
      cases ((runs_pure_iff _).1 ended).2

section
variable {key : HonorKey}

theorem rest_of_registeredOf {thread : EngineThread G} {result : RegisterResult}
    (returned : registeredOf thread = some result) : thread.rest = .pure (.registered result) := by
  unfold registeredOf at returned
  split at returned
  next hrest =>
    cases returned
    exact hrest
  next => cases returned

theorem op_of_readOf {call : PortCall G} {value : Option Int}
    (read : readOf key call = some value) : call.op = .getSeen key := by
  obtain ⟨op, reply⟩ := call
  cases op
  case getSeen asked =>
    cases reply with
    | error e => cases read
    | ok found =>
      simp only [readOf, Option.ite_none_right_eq_some] at read
      rw [read.1]
  all_goals cases read

theorem op_of_insertOf {call : PortCall G} {retainUntil : Int}
    (written : insertOf key call = some retainUntil) :
    ∃ quote acceptedAt retainUntil, call.op = .upsertAccepted quote acceptedAt retainUntil := by
  obtain ⟨op, reply⟩ := call
  cases op
  case upsertAccepted => exact ⟨_, _, _, rfl⟩
  all_goals cases written

theorem readsNothing_single {engine : HonorEngine G} {model : TxnModel} (shared : World G)
    (task : EngineTask G) (may : (registerSystem engine model key).mayStart shared task)
    (past : List (PortCall G)) (op : Op G) (resume : op.Reply → Async G EngineResult)
    (reply : op.Reply)
    (run : (engine.program task).Runs past (.call op resume))
    (nothing : readsNothing key ⟨op, reply⟩ = true) : past.any (readsNothing key) = false := by
  have read : readOf key ⟨op, reply⟩ = some none := of_decide_eq_true nothing
  cases op
  case getSeen asked =>
    cases task
    case register quote opts =>
      obtain ⟨inner, first, -⟩ := Runs.of_map_call run
      rw [List.any_eq_false]
      intro call mem
      obtain ⟨op, reply⟩ := call
      obtain rfl : op = .clockNow := register_runs_read first _ mem
      exact Bool.false_ne_true
    all_goals cases may
  all_goals cases read

end

section
variable {engine : HonorEngine G} {model : TxnModel} {key : HonorKey} {initial : World G}
  {pool : EnginePool G} (reached : Reachable (registerSystem engine model key) initial pool)
include reached

theorem registered_calls
    {thread : EngineThread G}
    (present : thread ∈ pool.threads) {result : RegisterResult}
    (returned : registeredOf thread = some result) :
    ∃ quote, quote.key = key ∧ RegisterCalls engine quote thread.past result := by
  obtain ⟨_, may⟩ := reached.task_may_start thread present
  have run := reached.runs thread present
  rw [rest_of_registeredOf returned] at run
  cases htask : thread.task
  case register quote opts =>
    rw [htask] at may run
    obtain ⟨inner, hinner, hresult⟩ := Returns.of_map
      (show Returns (engine.program (.register quote opts)) thread.past (.ok (.registered result))
        from run)
    cases inner with
    | error e => cases hresult
    | ok value =>
      cases hresult
      exact ⟨quote, may, register_returns hinner⟩
  all_goals
    rw [htask] at may
    cases may

theorem event_of_call
    {thread : EngineThread G}
    (present : thread ∈ pool.threads) {call : PortCall G} (mem : call ∈ thread.past) :
    ∃ event ∈ pool.log, event.call = call := by
  obtain ⟨index, hthread⟩ := List.getElem?_of_mem present
  obtain ⟨past, later, hpast⟩ := List.mem_iff_append.1 mem
  obtain ⟨event, logged, -, -, -, hcall⟩ :=
    reached.event_of_past index thread hthread past call later hpast
  exact ⟨event, logged, hcall⟩

section
variable (unseen : initial.db.seen.find? key = none)
include unseen

theorem retention_eq : retention key pool.shared = firstWritten (insertOf key) pool.log :=
  (retention_writeOnce engine model key).cell_eq reached
    (by rw [retention, unseen, Option.map_none])

theorem read_eq {earlier later : List (EngineEvent G)} {event : EngineEvent G}
    (hlog : pool.log = earlier ++ event :: later) {value : Option Int}
    (read : readOf key event.call = some value) : value = firstWritten (insertOf key) earlier :=
  (retention_writeOnce engine model key).found_eq reached
    (by rw [retention, unseen, Option.map_none]) earlier event later hlog value read

theorem firstWritten_of_told
    {thread : EngineThread G}
    (present : thread ∈ pool.threads) {result : RegisterResult}
    (hresult : registeredOf thread = some result) (late : result.created = false) :
    ∃ earlier later, pool.log = earlier ++ later ∧
      firstWritten (insertOf key) earlier = some result.retainUntil := by
  obtain ⟨quote, rfl, register⟩ := registered_calls reached present hresult
  obtain ⟨found, mem, told⟩ := register.reads
  obtain ⟨event, logged, hcall⟩ := event_of_call reached present mem
  obtain ⟨earlier, later, hlog⟩ := List.mem_iff_append.1 logged
  have read : readOf quote.key event.call = some (some result.retainUntil) := by
    rw [hcall, readOf, if_pos rfl, told, RegisterCalls.wasTold, late]
    rfl
  exact ⟨earlier, event :: later, hlog, (read_eq reached unseen hlog read).symm⟩

end

section
variable (returned : ∀ thread ∈ pool.threads, ∃ result, registeredOf thread = some result)
include returned

theorem event_register
    {event : EngineEvent G} (logged : event ∈ pool.log) :
    ∃ thread ∈ pool.threads, ∃ result quote, registeredOf thread = some result ∧ quote.key = key ∧
      RegisterCalls engine quote thread.past result ∧ event.call ∈ thread.past := by
  obtain ⟨thread, hthread, -, later, hpast⟩ := reached.thread_of_event event logged
  have present := List.mem_of_getElem? hthread
  obtain ⟨result, hresult⟩ := returned thread present
  obtain ⟨quote, own, register⟩ := registered_calls reached present hresult
  exact ⟨thread, present, result, quote, hresult, own, register, by simp [hpast]⟩

theorem countP_created :
    pool.threads.countP createdRow = pool.log.countP fun event => readsNothing key event.call := by
  rw [← reached.countP_past (readsNothing key) readsNothing_single]
  refine List.countP_congr fun thread present => ?_
  obtain ⟨result, hresult⟩ := returned thread present
  obtain ⟨quote, rfl, register⟩ := registered_calls reached present hresult
  rw [register.any_readsNothing, createdRow_eq hresult]

theorem event_read
    {event : EngineEvent G} (logged : event ∈ pool.log) (asks : event.call.op = .getSeen key) :
    ∃ value, readOf key event.call = some value := by
  obtain ⟨_, _, result, quote, _, rfl, register, mem⟩ := event_register reached returned logged
  rcases register.mem_cases mem with inert | ⟨found, hcall, -⟩ | ⟨-, now, hcall⟩
  · rw [asks] at inert
    rcases inert with h | h <;> cases h
  · rw [hcall, readOf, if_pos rfl]
    exact ⟨_, rfl⟩
  · rw [hcall] at asks
    cases asks

theorem event_insert
    {event : EngineEvent G} (logged : event ∈ pool.log) {quote : AcceptedQuote}
    {acceptedAt retainUntil : Int}
    (accepts : event.call.op = .upsertAccepted quote acceptedAt retainUntil) :
    ∃ retention, insertOf key event.call = some retention := by
  obtain ⟨_, _, result, quote, _, rfl, register, mem⟩ := event_register reached returned logged
  rcases register.mem_cases mem with inert | ⟨found, hcall, -⟩ | ⟨-, now, hcall⟩
  · rw [accepts] at inert
    rcases inert with h | h <;> cases h
  · rw [hcall] at accepts
    cases accepts
  · rw [hcall, insertOf, if_pos rfl]
    exact ⟨_, rfl⟩

theorem created_of_firstWritten
    {earlier : List (EngineEvent G)} (logged : ∀ event ∈ earlier, event ∈ pool.log)
    {retainUntil : Int} (first : firstWritten (insertOf key) earlier = some retainUntil) :
    ∃ thread ∈ pool.threads, registeredOf thread = some ⟨true, retainUntil⟩ := by
  obtain ⟨event, hevent, written⟩ := firstWritten_eq_some first
  obtain ⟨thread, present, result, quote, hresult, rfl, register, mem⟩ :=
    event_register reached returned (logged event hevent)
  rw [register.insertOf_mem mem written] at hresult
  exact ⟨thread, present, hresult⟩

variable (unseen : initial.db.seen.find? key = none)
include unseen

theorem countP_readsNothing_le
    (inserted : Along (ReadsInserted key) pool.log) :
    (pool.log.countP fun event => readsNothing key event.call) ≤ 1 := by
  refine countP_le_one_of_along fun earlier event later hlog nothing other before => ?_
  by_contra again
  have read : readOf key event.call = some none := of_decide_eq_true nothing
  have otherRead : readOf key other.call = some none :=
    of_decide_eq_true (Bool.not_eq_false _ ▸ again)
  obtain ⟨insert, hinsert, quote, acceptedAt, retainUntil, accepts⟩ :=
    inserted earlier event later hlog (op_of_readOf read) ⟨other, before, op_of_readOf otherRead⟩
  obtain ⟨_, written⟩ := event_insert reached returned
    (hlog ▸ List.mem_append_left _ hinsert) accepts
  have first := read_eq reached unseen hlog read
  have some := firstWritten_isSome hinsert written
  rw [← first] at some
  cases some

theorem exists_created
    (called : pool.threads ≠ []) : 0 < pool.threads.countP createdRow := by
  obtain ⟨thread, present⟩ := List.exists_mem_of_ne_nil _ called
  obtain ⟨result, hresult⟩ := returned thread present
  rw [List.countP_pos_iff]
  cases hcreated : result.created with
  | true => exact ⟨thread, present, (createdRow_eq hresult).trans hcreated⟩
  | false =>
    obtain ⟨earlier, later, hlog, first⟩ := firstWritten_of_told reached unseen present hresult
      hcreated
    obtain ⟨creator, hcreator, created⟩ := created_of_firstWritten reached returned
      (fun event hevent => hlog ▸ List.mem_append_left _ hevent) first
    exact ⟨creator, hcreator, createdRow_eq created⟩

theorem returned_stored
    (one : pool.threads.countP createdRow = 1)
    {thread : EngineThread G}
    (present : thread ∈ pool.threads) {result : RegisterResult}
    (hresult : registeredOf thread = some result) :
    retention key pool.shared = some result.retainUntil := by
  rw [retention_eq reached unseen]
  cases hcreated : result.created with
  | false =>
    obtain ⟨earlier, later, hlog, first⟩ := firstWritten_of_told reached unseen present hresult
      hcreated
    rw [hlog]
    exact firstWritten_append first later
  | true =>
    obtain ⟨quote, rfl, register⟩ := registered_calls reached present hresult
    obtain ⟨now, mem⟩ := register.inserts hcreated
    obtain ⟨event, logged, hcall⟩ := event_of_call reached present mem
    have written : insertOf quote.key event.call = some result.retainUntil := by
      rw [hcall, insertOf, if_pos rfl]
    obtain ⟨retainUntil, first⟩ := Option.isSome_iff_exists.1 (firstWritten_isSome logged written)
    obtain ⟨creator, hcreator, created⟩ := created_of_firstWritten reached returned
      (fun event hevent => hevent) first
    obtain rfl := eq_of_countP_eq_one one present ((createdRow_eq hresult).trans hcreated)
      hcreator (createdRow_eq created)
    rw [hresult] at created
    cases created
    exact first

theorem early_readsNothing
    {earlier later : List (EngineEvent G)} {event : EngineEvent G}
    (hlog : pool.log = earlier ++ event :: later) (asks : event.call.op = .getSeen key)
    (uninserted : ¬ ∃ other ∈ earlier, ∃ quote acceptedAt retainUntil,
      other.call.op = .upsertAccepted quote acceptedAt retainUntil) :
    readsNothing key event.call = true := by
  have logged : event ∈ pool.log := by simp [hlog]
  obtain ⟨value, read⟩ := event_read reached returned logged asks
  have first := read_eq reached unseen hlog read
  cases value with
  | none => exact decide_eq_true read
  | some retainUntil =>
    obtain ⟨other, hother, written⟩ := firstWritten_eq_some first.symm
    exact absurd ⟨other, hother, op_of_insertOf written⟩ uninserted

theorem readsInserted_of_one
    (one : pool.threads.countP createdRow = 1) : Along (ReadsInserted key) pool.log := by
  rintro earlier event later hlog asks ⟨other, hother, otherAsks⟩
  by_contra uninserted
  have nothing := early_readsNothing reached returned unseen hlog asks uninserted
  obtain ⟨first, rest, rfl⟩ := List.mem_iff_append.1 hother
  have before : ¬ ∃ insert ∈ first, ∃ quote acceptedAt retainUntil,
      insert.call.op = .upsertAccepted quote acceptedAt retainUntil := by
    rintro ⟨insert, hinsert, accepts⟩
    exact uninserted ⟨insert, List.mem_append_left _ hinsert, accepts⟩
  have otherNothing := early_readsNothing reached returned unseen (by simpa using hlog) otherAsks
    before
  rw [countP_created reached returned, hlog] at one
  simp only [List.countP_append, List.countP_cons, nothing, otherNothing, if_true] at one
  omega

end
end

/-- The calls agree exactly if every read of the row behind the first one comes after an insert. -/
theorem registers_agree_iff (engine : HonorEngine G) (model : TxnModel) (key : HonorKey)
    (initial : World G) (pool : EnginePool G)
    (reached : Reachable (registerSystem engine model key) initial pool)
    (unseen : initial.db.seen.find? key = none) (called : pool.threads ≠ [])
    (returned : ∀ thread ∈ pool.threads, ∃ result, registeredOf thread = some result) :
    RegistersAgree key pool ↔ Along (ReadsInserted key) pool.log := by
  constructor
  · intro agree
    exact readsInserted_of_one reached returned unseen agree.one
  · intro inserted
    have most := countP_readsNothing_le reached returned unseen inserted
    rw [← countP_created reached returned] at most
    have one := Nat.le_antisymm most (exists_created reached returned unseen called)
    exact ⟨one, fun thread present result hresult =>
      returned_stored reached returned unseen one present hresult⟩

/-! Two registers of one key; the second quote expires later. -/

def laterQuote : AcceptedQuote := { sampleQuote with expiresAt := 2000 }

def registerPool (moves : List SampleMove) : EnginePool Unit :=
  (Pool.fresh (.booted (.empty ()) 20)).play (registerSystem sampleEngine .sync sampleQuote.key)
    moves

def registerInTurn : List SampleMove :=
  .start (.register sampleQuote {}) :: turns 0 3 ++ .start (.register laterQuote {}) :: turns 1 2

/-- The second reads before the first inserts. -/
def registerAtOnce : List SampleMove :=
  .start (.register sampleQuote {}) :: .start (.register laterQuote {}) ::
    (turns 0 2 ++ turns 1 2 ++ turns 0 1 ++ turns 1 1)

theorem registers_agree_iff_in_turn :
    RegistersAgree sampleQuote.key (registerPool registerInTurn) ↔
      Along (ReadsInserted sampleQuote.key) (registerPool registerInTurn).log := by
  have all : (registerPool registerInTurn).threads.all (fun thread =>
      (registeredOf thread).isSome) = true := by decide +kernel
  have called : (registerPool registerInTurn).threads.length = 2 := by decide +kernel
  refine registers_agree_iff sampleEngine .sync sampleQuote.key (.booted (.empty ()) 20)
    (registerPool registerInTurn) (Pool.play_reachable ?_) rfl ?_ ?_
  · exact ⟨rfl, Pool.allowed_advances 3 ⟨rfl, Pool.allowed_advances 2 trivial⟩⟩
  · intro none
    rw [none] at called
    cases called
  · intro thread present
    exact Option.isSome_iff_exists.1 (List.all_eq_true.1 all thread present)

theorem registers_disagree :
    Reachable (registerSystem sampleEngine .sync sampleQuote.key) (.booted (.empty ()) 20)
        (registerPool registerAtOnce) ∧
      (registerPool registerAtOnce).threads.map registeredOf =
        [some ⟨true, 4600⟩, some ⟨true, 5600⟩] ∧
      retention sampleQuote.key (registerPool registerAtOnce).shared = some 4600 ∧
      ¬ RegistersAgree sampleQuote.key (registerPool registerAtOnce) := by
  have both : (registerPool registerAtOnce).threads.countP createdRow = 2 := by decide +kernel
  refine ⟨Pool.play_reachable ?_, by decide +kernel, by decide +kernel, fun agree => ?_⟩
  · simp only [registerAtOnce, turns, List.append_assoc]
    exact ⟨rfl, rfl, Pool.allowed_advances 2 (Pool.allowed_advances 2
      (Pool.allowed_advances 1 ⟨trivial, trivial⟩))⟩
  · rw [agree.one] at both
    cases both

end HonorEngine
end ExferHonor
