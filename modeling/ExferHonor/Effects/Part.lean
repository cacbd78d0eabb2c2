import ExferHonor.Effects.Pool
import Mathlib.Data.List.Forall2
import Mathlib.Logic.Equiv.Defs

/-! Some of the threads of a system, seen as a system of their own. What the other threads do is a
change of the surroundings there. -/
namespace Effects

variable {σ Op Op' : Type} {Reply : Op → Type} {Reply' : Op' → Type} {ε α α' Task Task' : Type}

/-- The same program, its operations, their replies and its value under other names. -/
def Program.rename (op : Op' → Op) (reply : (own : Op') → Reply (op own) → Reply' own)
    (value : α' → α) : Program Op' Reply' ε α' → Program Op Reply ε α
  | .pure own => .pure (value own)
  | .throw error => .throw error
  | .call own resume => .call (op own) fun answer =>
      (resume (reply own answer)).rename op reply value

def Program.within {ε' : Type} (op : Op' → Op) (reply : (own : Op') → Reply (op own) → Reply' own)
    (error : ε' → ε) : Program Op' Reply' ε' α → Program Op Reply ε α
  | .pure value => .pure value
  | .throw own => .throw (error own)
  | .call own resume => .call (op own) fun answer =>
      (resume (reply own answer)).within op reply error

theorem Uses.within {ε' : Type} {allowed : Op → Prop} {op : Op' → Op}
    {reply : (own : Op') → Reply (op own) → Reply' own} {error : ε' → ε}
    (program : Program Op' Reply' ε' α) (named : ∀ own, allowed (op own)) :
    Uses allowed (program.within op reply error) := by
  induction program with
  | pure value => trivial
  | throw own => trivial
  | call own resume ih => exact ⟨named own, fun answer => ih (reply own answer)⟩

theorem Program.Returns.of_within {ε' : Type} {op : Op' → Op} {error : ε' → ε}
    (reply : (own : Op') → Reply (op own) ≃ Reply' own) {program : Program Op' Reply' ε' α}
    {past : List (Call Op Reply)} {result : Except ε α}
    (returns : (program.within op (fun own => reply own) error).Returns past result) :
    ∃ own ended, past = own.map (fun call => ⟨op call.op, (reply _).symm call.reply⟩) ∧
      result = ended.mapError error ∧ program.Returns own ended := by
  induction program generalizing past with
  | pure value =>
    obtain ⟨rfl, rfl⟩ := (returns_pure_iff _).1 returns
    exact ⟨[], .ok value, rfl, rfl, .nil⟩
  | throw own =>
    obtain ⟨rfl, rfl⟩ := (returns_throw_iff _).1 returns
    exact ⟨[], .error own, rfl, rfl, .nil⟩
  | call called resume ih =>
    obtain ⟨answer, later, rfl, tail⟩ := (returns_call_iff _ _).1 returns
    obtain ⟨own, ended, rfl, rfl, running⟩ := ih _ tail
    exact ⟨⟨called, reply called answer⟩ :: own, ended, by simp, rfl, .call _ running⟩

theorem Program.Runs.of_rename {op : Op' → Op} {value : α' → α}
    (reply : (own : Op') → Reply (op own) ≃ Reply' own) {program : Program Op' Reply' ε α'}
    {past : List (Call Op Reply)} {rest : Program Op Reply ε α}
    (run : (program.rename op (fun own => reply own) value).Runs past rest) :
    ∃ own later, past = own.map (fun call => ⟨op call.op, (reply _).symm call.reply⟩) ∧
      rest = later.rename op (fun own => reply own) value ∧ program.Runs own later := by
  induction program generalizing past with
  | pure result =>
    obtain ⟨rfl, rfl⟩ := (runs_pure_iff _).1 run
    exact ⟨[], _, rfl, rfl, .nil⟩
  | throw error =>
    obtain ⟨rfl, rfl⟩ := (runs_throw_iff _).1 run
    exact ⟨[], _, rfl, rfl, .nil⟩
  | call called resume ih =>
    rcases (runs_call_iff _ _).1 run with ⟨rfl, rfl⟩ | ⟨answer, others, rfl, tail⟩
    · exact ⟨[], _, rfl, rfl, .nil⟩
    · obtain ⟨own, later, rfl, rfl, running⟩ := ih _ tail
      exact ⟨⟨called, reply called answer⟩ :: own, later, by simp, rfl, .call _ running⟩

/-- The tasks of `part` among those of `whole`. Every call of another task is a shift of `part`. -/
structure Part (whole : System σ Op Reply ε α Task) (part : System σ Op' Reply' ε α' Task') where
  task : Task' → Task
  own : Task → Option Task'
  own_iff : ∀ {any mine}, own any = some mine ↔ any = task mine
  op : Op' → Op
  reply : (own : Op') → Reply (op own) ≃ Reply' own
  value : α' → α
  program : ∀ mine, whole.program (task mine) =
    (part.program mine).rename op (fun own => reply own) value
  performs : ∀ shared own answer, whole.perform shared (op own) answer =
    ((reply own).symm (part.perform shared own (reply own answer)).1,
      (part.perform shared own (reply own answer)).2)
  starts : ∀ {shared mine}, whole.mayStart shared (task mine) → part.mayStart shared mine
  shifts : ∀ {before after}, whole.mayShift before after → part.mayShift before after
  others : ∀ {other past called resume}, own other = none →
    (whole.program other).Runs past (.call called resume) → ∀ shared answer,
      part.mayShift shared (whole.perform shared called answer).2

namespace Part
variable {whole : System σ Op Reply ε α Task} {part : System σ Op' Reply' ε α' Task'}
  (view : Part whole part)

def call (mine : Call Op' Reply') : Call Op Reply :=
  ⟨view.op mine.op, (view.reply _).symm mine.reply⟩

structure Shows (thread : Thread Op Reply ε α Task) (mine : Thread Op' Reply' ε α' Task') :
    Prop where
  task : thread.task = view.task mine.task
  past : thread.past = mine.past.map view.call
  rest : thread.rest = mine.rest.rename view.op (fun own => view.reply own) view.value

/-- Two events of the same call; the index of a thread tells nothing in another pool. -/
structure ShowsEvent (event : Event σ Op Reply Task) (mine : Event σ Op' Reply' Task') :
    Prop where
  task : event.task = view.task mine.task
  past : event.past = mine.past.map view.call
  before : event.before = mine.before
  call : event.call = view.call mine.call
  after : event.after = mine.after

structure Shown (pool : Pool σ Op Reply ε α Task) (mine : Pool σ Op' Reply' ε α' Task') :
    Prop where
  shared : mine.shared = pool.shared
  threads : List.Forall₂ view.Shows
    (pool.threads.filter fun thread => (view.own thread.task).isSome) mine.threads
  log : List.Forall₂ view.ShowsEvent
    (pool.log.filter fun event => (view.own event.task).isSome) mine.log

theorem own_task (mine : Task') : view.own (view.task mine) = some mine := view.own_iff.2 rfl

end Part

private theorem exists_split {S : Type} {list : List S} {index : Nat} {entry : S}
    (present : list[index]? = some entry) :
    ∃ before after, list = before ++ entry :: after ∧
      ∀ next, list.set index next = before ++ next :: after := by
  obtain ⟨hindex, rfl⟩ := List.getElem?_eq_some_iff.1 present
  refine ⟨list.take index, list.drop (index + 1), ?_, fun next => ?_⟩
  · rw [← List.drop_eq_getElem_cons hindex, List.take_append_drop]
  · rw [List.set_eq_take_append_cons_drop, if_pos hindex]

private theorem exists_middle {S T : Type} {related : S → T → Prop} {before after : List S}
    {entry : S} {list : List T} (matched : List.Forall₂ related (before ++ entry :: after) list) :
    ∃ first mine last, list = first ++ mine :: last ∧ List.Forall₂ related before first ∧
      related entry mine ∧ List.Forall₂ related after last := by
  induction before generalizing list with
  | nil =>
    cases matched with
    | cons own later => exact ⟨[], _, _, rfl, .nil, own, later⟩
  | cons head before ih =>
    cases matched with
    | cons own later =>
      obtain ⟨first, mine, last, rfl, earlier, middle, rest⟩ := ih later
      exact ⟨_ :: first, mine, last, rfl, .cons own earlier, middle, rest⟩

private theorem forall₂_concat {S T : Type} {related : S → T → Prop} {list : List S}
    {list' : List T} {entry : S} {mine : T} (matched : List.Forall₂ related list list')
    (own : related entry mine) : List.Forall₂ related (list ++ [entry]) (list' ++ [mine]) :=
  List.rel_append matched (.cons own .nil)

private theorem exists_related {S T : Type} {related : S → T → Prop} {list : List S}
    {list' : List T} {entry : S} (matched : List.Forall₂ related list list')
    (present : entry ∈ list) : ∃ mine ∈ list', related entry mine := by
  obtain ⟨before, after, rfl⟩ := List.mem_iff_append.1 present
  obtain ⟨first, mine, last, rfl, -, own, -⟩ := exists_middle matched
  exact ⟨mine, by simp, own⟩

private theorem map_eq_filterMap {S T A : Type} {related : S → T → Prop} {own : S → Option A}
    {name : T → A} {list : List S} {list' : List T}
    (matched : List.Forall₂ related (list.filter fun entry => (own entry).isSome) list')
    (named : ∀ entry mine, related entry mine → own entry = some (name mine)) :
    list'.map name = list.filterMap own := by
  induction list generalizing list' with
  | nil =>
    cases matched
    rfl
  | cons entry rest ih =>
    cases owned : own entry with
    | none =>
      rw [List.filter_cons_of_neg (by simp [owned])] at matched
      rw [List.filterMap_cons_none owned]
      exact ih matched
    | some task =>
      rw [List.filter_cons_of_pos (by simp [owned])] at matched
      rw [List.filterMap_cons_some owned]
      cases matched with
      | cons first later =>
        rw [List.map_cons, ih later, Option.some.inj ((named _ _ first).symm.trans owned)]

namespace Part
variable {whole : System σ Op Reply ε α Task} {part : System σ Op' Reply' ε α' Task'}
  {view : Part whole part} {pool : Pool σ Op Reply ε α Task}
  {mine : Pool σ Op' Reply' ε α' Task'} {index : Nat} {task : Task} {past : List (Call Op Reply)}
  {op : Op} {resume : Reply op → Program Op Reply ε α}

theorem Shown.advance_own (shown : view.Shown pool mine) {own : Task'}
    (owned : view.own task = some own)
    (waiting : pool.threads[index]? = some ⟨task, past, .call op resume⟩) (answer : Reply op) :
    ∃ next, Step part mine next ∧
      view.Shown (pool.advance whole index task past op resume answer) next := by
  obtain ⟨before, after, split, next⟩ := exists_split waiting
  obtain ⟨shared, threads, log⟩ := shown
  rw [split, List.filter_append, List.filter_cons_of_pos (by simp [owned])] at threads
  obtain ⟨first, ⟨ownTask, ownPast, ownRest⟩, last, hmine, earlier, ⟨htask, hpast, hrest⟩, later⟩ :=
    exists_middle threads
  dsimp only at htask hpast hrest
  obtain rfl : ownTask = own :=
    Option.some.inj ((view.own_task ownTask).symm.trans (htask ▸ owned))
  cases ownRest with
  | pure value => cases hrest
  | throw error => cases hrest
  | call ownOp ownResume =>
    cases hrest
    have present : mine.threads[first.length]? =
        some ⟨ownTask, ownPast, .call ownOp ownResume⟩ := by
      rw [hmine]
      simp
    have performed := view.performs mine.shared ownOp answer
    refine ⟨_, .advance (view.reply ownOp answer) present, ?_, ?_, ?_⟩
    · rw [Pool.advance, Pool.advance, ← shared, performed]
    · rw [Pool.advance, Pool.advance, ← shared, performed, next, hmine,
        List.set_append_right _ _ (Nat.le_refl _), Nat.sub_self, List.set_cons_zero,
        List.filter_append, List.filter_cons_of_pos (by simp [owned])]
      refine List.rel_append earlier (.cons ⟨htask, ?_, ?_⟩ later)
      · rw [hpast, List.map_append, List.map_singleton]
        rfl
      · simp only [Equiv.apply_symm_apply]
    · rw [Pool.advance, Pool.advance, ← shared, performed, List.filter_append,
        List.filter_cons_of_pos (by simp [owned]), List.filter_nil]
      exact forall₂_concat log ⟨htask, hpast, rfl, rfl, rfl⟩

theorem Shown.advance_other (shown : view.Shown pool mine) (foreign : view.own task = none)
    (waiting : pool.threads[index]? = some ⟨task, past, .call op resume⟩) (answer : Reply op) :
    view.Shown (pool.advance whole index task past op resume answer)
      (mine.shift (whole.perform pool.shared op answer).2) := by
  obtain ⟨before, after, split, next⟩ := exists_split waiting
  obtain ⟨shared, threads, log⟩ := shown
  refine ⟨rfl, ?_, ?_⟩
  · rw [split, List.filter_append, List.filter_cons_of_neg (by simp [foreign])] at threads
    rw [Pool.advance, next, List.filter_append, List.filter_cons_of_neg (by simp [foreign])]
    exact threads
  · rw [Pool.advance, List.filter_append, List.filter_cons_of_neg (by simp [foreign]),
      List.filter_nil, List.append_nil]
    exact log

theorem Shown.tasks (shown : view.Shown pool mine) :
    mine.threads.map (·.task) = (pool.threads.map (·.task)).filterMap view.own := by
  rw [List.filterMap_map]
  refine map_eq_filterMap shown.threads fun thread own shows => ?_
  rw [Function.comp_apply, shows.task, view.own_task]

theorem Shown.event (shown : view.Shown pool mine) {event : Event σ Op Reply Task}
    (logged : event ∈ pool.log) {own : Task'} (task : event.task = view.task own) :
    ∃ seen ∈ mine.log, view.ShowsEvent event seen :=
  exists_related shown.log (List.mem_filter.2 ⟨logged, by rw [task, view.own_task]; rfl⟩)

theorem Shown.of_event (shown : view.Shown pool mine) {seen : Event σ Op' Reply' Task'}
    (logged : seen ∈ mine.log) : ∃ event ∈ pool.log, view.ShowsEvent event seen := by
  have flipped : List.Forall₂ (flip view.ShowsEvent) mine.log _ := List.Forall₂.flip shown.log
  obtain ⟨event, hevent, shows⟩ := exists_related flipped logged
  exact ⟨event, (List.mem_filter.1 hevent).1, shows⟩

/-- A run of the whole is a run of the part. -/
theorem exists_shown (view : Part whole part) {initial : σ}
    (reached : Reachable whole initial pool) :
    ∃ mine, Reachable part initial mine ∧ view.Shown pool mine := by
  refine reached.invariant (fun pool => ∃ mine, Reachable part initial mine ∧
    view.Shown pool mine) ⟨.fresh initial, .refl, rfl, .nil, .nil⟩ ?_
  rintro before after run ⟨mine, reachable, shown⟩ step
  cases step with
  | shift next may =>
    exact ⟨_, reachable.tail (.shift next (shown.shared ▸ view.shifts may)), rfl, shown.threads,
      shown.log⟩
  | start task may =>
    cases owned : view.own task with
    | none =>
      refine ⟨mine, reachable, shown.shared, ?_, shown.log⟩
      rw [Pool.start, List.filter_append, List.filter_cons_of_neg (by simp [owned]),
        List.filter_nil, List.append_nil]
      exact shown.threads
    | some own =>
      obtain rfl := view.own_iff.1 owned
      refine ⟨_, reachable.tail (.start own (shown.shared ▸ view.starts may)), shown.shared, ?_,
        shown.log⟩
      rw [Pool.start, List.filter_append, List.filter_cons_of_pos (by simp [owned]),
        List.filter_nil]
      exact forall₂_concat shown.threads ⟨rfl, rfl, view.program own⟩
  | @advance index task past op resume answer waiting =>
    cases owned : view.own task with
    | none =>
      have ran := run.runs _ (List.mem_of_getElem? waiting)
      exact ⟨_, reachable.tail (.shift _ (shown.shared ▸ view.others owned ran _ answer)),
        shown.advance_other owned waiting answer⟩
    | some own =>
      obtain ⟨next, step, after⟩ := shown.advance_own owned waiting answer
      exact ⟨next, reachable.tail step, after⟩

end Part
end Effects
