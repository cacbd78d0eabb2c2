import ExferHonor.Core.TaskCalls

/-! One call of the façade that runs alone: nothing else touches the world between its own calls of
the ports. -/
namespace ExferHonor
namespace HonorEngine
open Effects Program Store Statements

variable {G : Type}

/-- The world hands every call `answer` where it does not decide the reply itself. -/
def answering (model : TxnModel) (answer : (op : Op G) → op.Reply) (world : World G) (op : Op G) :
    op.Reply × World G :=
  World.perform model world op (answer op)

def Quiet (calls : List (PortCall G)) : Prop := ∀ call ∈ calls, call.op.onlyReads = true

theorem Quiet.append {calls later : List (PortCall G)} (quiet : Quiet calls)
    (quietly : Quiet later) : Quiet (calls ++ later) :=
  List.forall_mem_append.2 ⟨quiet, quietly⟩

section
variable {model : TxnModel} {answer : (op : Op G) → op.Reply} {world : World G}

theorem answering_query {op : Op G} (query : op.isQuery = true) {reply : op.Reply}
    (replied : answer op = reply) : answering model answer world op = (reply, world) := by
  rw [answering, World.perform_query model world query, replied]

theorem run_queries (model : TxnModel) (answer : (op : Op G) → op.Reply) (world : World G)
    {α : Type} {program : Async G α} (uses : Uses (·.isQuery) program) :
    Quiet (program.run (answering model answer) world).1 ∧
      (program.run (answering model answer) world).2 = (program.eval answer, world) := by
  refine ⟨fun call hcall => Op.onlyReads_of_isQuery ?_, ?_⟩
  · exact (uses.runs (run_returns _ _ _)).1 call hcall
  · exact congrArg Prod.snd (uses.run_eq (fun op query state => answering_query query rfl) world)

end

theorem now_run (model : TxnModel) (answer : (op : Op G) → op.Reply) (world : World G)
    (opts : RegisterOpts) :
    ∃ calls, Quiet calls ∧ (HonorEngine.now opts.now).run (answering model answer) world =
      (calls, .ok (opts.now.getD world.clock), world) := by
  cases opts.now with
  | some now => exact ⟨[], by simp [Quiet], rfl⟩
  | none => exact ⟨[⟨.clockNow, .ok world.clock⟩], by simp [Quiet, Op.onlyReads], rfl⟩

/-! `register` -/

section
variable (model : TxnModel) (answer : (op : Op G) → op.Reply) (world : World G)

theorem answering_getSeen_unseen {key : HonorKey} (unseen : world.db.seen.find? key = none) :
    (∃ e, answering model answer world (.getSeen key) = (.error e, world)) ∨
      answering model answer world (.getSeen key) = (.ok none, world) := by
  cases hseen : answer (.getSeen key) with
  | error e => exact .inl ⟨e, by simp [answering, World.perform, Store.perform, hseen]⟩
  | ok found =>
    have absent : getSeen world.db.seen key = none := unseen
    exact .inr (by simp [answering, World.perform, Store.perform, hseen, absent])

theorem answering_upsertAccepted (quote : AcceptedQuote) (acceptedAt retainUntil : Int) :
    (∃ e, answering model answer world (.upsertAccepted quote acceptedAt retainUntil) =
      (.error e, world)) ∨
    answering model answer world (.upsertAccepted quote acceptedAt retainUntil) =
      (.ok (), { world with db := { world.db with
        seen := upsertAccepted world.db.seen quote acceptedAt retainUntil } }) := by
  cases haccept : answer (.upsertAccepted quote acceptedAt retainUntil) with
  | error e => exact .inl ⟨e, by simp [answering, World.perform, Store.perform, haccept]⟩
  | ok _ => exact .inr (by simp [answering, World.perform, Store.perform, haccept])

end

section
variable (engine : HonorEngine G) (model : TxnModel) (answer : (op : Op G) → op.Reply)
  (world : World G) (quote : AcceptedQuote) (opts : RegisterOpts)

def registerIn : List (PortCall G) × Except Thrown RegisterResult × World G :=
  (engine.register quote opts).run (answering model answer) world

def registeredRow : SeenRowSql :=
  acceptedRow quote (opts.now.getD world.clock)
    (quote.expiresAt + engine.deps.config.maxRecheckWindow)

variable {engine model answer world quote opts}

theorem registerIn_ok (unseen : world.db.seen.find? quote.key = none) {result : RegisterResult}
    (registered : (registerIn engine model answer world quote opts).2.1 = .ok result) :
    result = ⟨true, quote.expiresAt + engine.deps.config.maxRecheckWindow⟩ ∧
      (registerIn engine model answer world quote opts).2.2.db.seen.find? quote.key =
        some (registeredRow engine world quote opts) := by
  obtain ⟨sampling, -, sampled⟩ := now_run model answer world opts
  have hregister : registerIn engine model answer world quote opts = _ := run_bind_ok sampled
  rw [hregister] at registered ⊢
  simp only [Port.getSeen, Program.bind_eq, Program.call_bind, Program.run] at registered ⊢
  rcases answering_getSeen_unseen model answer world unseen with ⟨e, hread⟩ | hread
  · simp only [hread, Program.ofExcept_error, Program.throw_bind, Program.run] at registered
    cases registered
  simp only [hread, Program.ofExcept_ok, Program.pure_bind] at registered ⊢
  obtain ⟨-, screening⟩ := run_queries model answer world
    (preScreen_uses quote opts.preScreenPayeeCustody)
  cases hpassed : (preScreen quote opts.preScreenPayeeCustody : Async G Unit).eval answer with
  | error e =>
    rw [hpassed] at screening
    rw [run_bind_error (Prod.ext rfl screening)] at registered
    cases registered
  | ok _ =>
    rw [hpassed] at screening
    rw [run_bind_ok (Prod.ext rfl screening)] at registered ⊢
    simp only [Port.upsertAccepted, Program.call_bind, Program.run] at registered ⊢
    rcases answering_upsertAccepted model answer world quote (opts.now.getD world.clock)
      (quote.expiresAt + engine.deps.config.maxRecheckWindow) with ⟨e, hwrite⟩ | hwrite
    · simp only [hwrite, Program.ofExcept_error, Program.throw_bind, Program.run] at registered
      cases registered
    · simp only [hwrite, Program.ofExcept_ok, Program.pure_bind, Program.pure_eq, Program.run,
        Except.ok.injEq] at registered ⊢
      refine ⟨registered.symm, ?_⟩
      rw [find?_upsertAccepted, if_pos rfl, unseen, Option.getD_none]
      rfl

end
end HonorEngine
end ExferHonor
