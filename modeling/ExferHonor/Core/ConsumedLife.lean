import ExferHonor.Adapters.GateTables
import ExferHonor.Core.Clients

/-! The life of a consumed row under any clients of the store: reserved, perhaps, honored, swept. -/
namespace ExferHonor
open Effects Store Statements

variable {G : Type}

def commitsOn (outpoint : Outpoint) (call : PortCall G) : Option (HonorTxnInput G) :=
  (committed call).filter fun input => decide (outpoint = input.outpoint)

inductive ConsumedMove (outpoint : Outpoint) :
    Option ConsumedRow → PortCall G → Option ConsumedRow → Prop
  | same {row call} (quiet : commitsOn outpoint call = none) : ConsumedMove outpoint row call row
  | reserved {key claimTxId now reply} :
      ConsumedMove outpoint none ⟨.reserveClaimOutpoint key outpoint claimTxId now, reply⟩
        (some (reservedRow key outpoint claimTxId))
  | inserted {call input} (commits : commitsOn outpoint call = some input)
      (mode : input.mode = .single) :
      ConsumedMove outpoint none call
        (some (consumedRow input.key outpoint input.now input.retainUntil))
  | promoted {call input pending} (commits : commitsOn outpoint call = some input)
      (mode : input.mode = .promote) (state : pending.state = .claimPending) :
      ConsumedMove outpoint (some pending) call
        (some (promotedRow input.now input.retainUntil pending))
  | swept {row now reply} (state : row.state = .honored) (expired : row.retainUntil < now) :
      ConsumedMove outpoint (some row) ⟨.sweep now, reply⟩ none

def ConsumedRow.SameOwner (row other : ConsumedRow) : Prop :=
  row.signerPubkey = other.signerPubkey ∧ row.quoteId = other.quoteId ∧
    row.claimTxId = other.claimTxId

def deletes (outpoint : Outpoint) (event : ClientEvent G) : Prop :=
  event.before.consumedRow outpoint ≠ none ∧ event.after.consumedRow outpoint = none

structure ConsumedLaw (outpoint : Outpoint) (log : List (ClientEvent G)) : Prop where
  moves : ∀ event ∈ log, ConsumedMove outpoint (event.before.consumedRow outpoint) event.call
    (event.after.consumedRow outpoint)
  owner : ∀ earlier first during later row, log = earlier ++ first :: (during ++ later) →
    first.after.consumedRow outpoint = some row →
    (∀ event ∈ during, event.after.consumedRow outpoint ≠ none) →
    ∃ last, lastLook (World.consumedRow outpoint) first.after during = some last ∧
      last.SameOwner row
  single : ∀ event ∈ log, ∀ input, commitsOn outpoint event.call = some input →
    input.mode = .single → event.before.consumedRow outpoint = none
  once : ∀ earlier during later, log = earlier ++ during ++ later →
    (∀ event ∈ during, ¬ deletes outpoint event) →
    (during.filterMap fun event => commitsOn outpoint event.call).length ≤ 1

def KeptPending (row : Option ConsumedRow) : Prop :=
  ∀ pending, row = some pending → pending.state = .claimPending →
    pending.retainUntil = maxSafeInteger

theorem commitsOn_eq_some {outpoint : Outpoint} {call : PortCall G} {input : HonorTxnInput G}
    (commits : commitsOn outpoint call = some input) :
    committed call = some input ∧ call.op = .runHonorTxn input ∧ succeeds call = true ∧
      outpoint = input.outpoint := by
  obtain ⟨hcommitted, here⟩ := Option.filter_eq_some_iff.1 commits
  obtain ⟨hop, success⟩ := committed_eq_some hcommitted
  exact ⟨hcommitted, hop, success, of_decide_eq_true here⟩

section
variable {engine : HonorEngine G} {event : ClientEvent G} {outpoint : Outpoint}

theorem consumed_committed (performed : event.PerformedBy (clientSystem engine))
    {input : HonorTxnInput G} (commits : commitsOn outpoint event.call = some input) :
    ConsumedMove outpoint (event.before.consumedRow outpoint) event.call
      (event.after.consumedRow outpoint) := by
  have after := consumedRow_after performed outpoint
  obtain ⟨hcommitted, hop, success, rfl⟩ := commitsOn_eq_some commits
  obtain ⟨-, row, honored⟩ := gated_of_committed performed hcommitted
  rw [if_pos success, hop] at after
  simp only [consumedAfter, if_true, honoredRow] at after
  generalize event.before.consumedRow input.outpoint = before at *
  generalize event.after.consumedRow input.outpoint = next at *
  cases honored with
  | inserted mode =>
    simp only [mode] at after
    exact after ▸ .inserted commits mode
  | promoted mode state here =>
    simp only [mode, Option.map_some] at after
    exact after ▸ .promoted commits mode state

theorem consumed_swept {row : Option ConsumedRow} {now : Int} {reply : Except Thrown SweepResult}
    (kept : KeptPending row) (bounded : now ≤ maxSafeInteger) :
    ConsumedMove outpoint row (⟨.sweep now, reply⟩ : PortCall G)
      (consumedAfter outpoint row (.sweep now : Op G)) := by
  cases row with
  | none => exact .same rfl
  | some row =>
    simp only [consumedAfter, Option.filter_some]
    split
    next => exact .same rfl
    next hexpired =>
      have expired : row.retainUntil < now := by simpa using hexpired
      refine .swept ?_ expired
      cases hstate : row.state with
      | honored => rfl
      | claimPending =>
        have forever := kept row rfl hstate
        omega

/-- A call can do no more than move the row on. Reservations are not swept by times that are safe
integers. -/
theorem consumed_moves (performed : event.PerformedBy (clientSystem engine))
    (kept : KeptPending (event.before.consumedRow outpoint))
    (bounded : ∀ now, event.call.op = .sweep now → now ≤ maxSafeInteger) :
    ConsumedMove outpoint (event.before.consumedRow outpoint) event.call
      (event.after.consumedRow outpoint) := by
  cases hcommits : commitsOn outpoint event.call with
  | some input => exact consumed_committed performed hcommits
  | none =>
    have after := consumedRow_after performed outpoint
    obtain ⟨_, task, past, before, ⟨op, reply⟩, next⟩ := event
    dsimp only at *
    generalize before.consumedRow outpoint = row at *
    generalize next.consumedRow outpoint = result at *
    subst after
    split
    next success =>
      cases op
      case reserveClaimOutpoint key reserved claimTxId now =>
        simp only [consumedAfter]
        split
        next here =>
          subst here
          cases row with
          | none => exact .reserved
          | some row => exact .same hcommits
        next => exact .same hcommits
      case runHonorTxn input =>
        have other : ¬ outpoint = input.outpoint := by
          simpa [commitsOn, committed, success, Option.filter_some] using hcommits
        simp only [consumedAfter, if_neg other]
        exact .same hcommits
      case sweep now => exact consumed_swept kept (bounded now rfl)
      all_goals exact .same hcommits
    next => exact .same hcommits

theorem ConsumedMove.kept {call : PortCall G} {row next : Option ConsumedRow}
    (move : ConsumedMove outpoint row call next) (pending : KeptPending row) :
    KeptPending next := by
  cases move with
  | same => exact pending
  | reserved =>
    intro row hrow _
    cases hrow
    rfl
  | inserted =>
    intro row hrow state
    cases hrow
    cases state
  | promoted =>
    intro row hrow state
    cases hrow
    cases state
  | swept =>
    intro row hrow
    cases hrow

theorem ConsumedMove.sameOwner {call : PortCall G} {row next : ConsumedRow}
    (move : ConsumedMove outpoint (some row) call (some next)) : next.SameOwner row := by
  cases move with
  | same => exact ⟨rfl, rfl, rfl⟩
  | promoted => exact ⟨rfl, rfl, rfl⟩

theorem ConsumedMove.honors {call : PortCall G} {row next : Option ConsumedRow}
    {input : HonorTxnInput G} (move : ConsumedMove outpoint row call next)
    (commits : commitsOn outpoint call = some input) :
    (∀ old, row = some old → old.state = .claimPending) ∧
      ∃ new, next = some new ∧ new.state = .honored := by
  cases move with
  | same quiet =>
    rw [commits] at quiet
    contradiction
  | reserved => cases commits
  | inserted => exact ⟨by simp, _, rfl, rfl⟩
  | promoted _ _ state => exact ⟨by simpa using state, _, rfl, rfl⟩
  | swept => cases commits

theorem ConsumedMove.single {call : PortCall G} {row next : Option ConsumedRow}
    {input : HonorTxnInput G} (move : ConsumedMove outpoint row call next)
    (commits : commitsOn outpoint call = some input) (mode : input.mode = .single) :
    row = none := by
  cases move with
  | same quiet =>
    rw [commits] at quiet
    contradiction
  | reserved => rfl
  | inserted => rfl
  | promoted again promotes =>
    rw [commits] at again
    cases again
    rw [mode] at promotes
    contradiction
  | swept => cases commits

theorem ConsumedMove.stays {call : PortCall G} {row : ConsumedRow} {next : Option ConsumedRow}
    (move : ConsumedMove outpoint (some row) call next) (honored : row.state = .honored)
    (kept : next ≠ none) : next = some row := by
  cases move with
  | same => rfl
  | promoted _ _ state =>
    rw [honored] at state
    contradiction
  | swept => contradiction

def KeepsOwner (outpoint : Outpoint) (row : ConsumedRow) (start : Option ConsumedRow)
    (events : List (ClientEvent G)) (last : Option ConsumedRow) : Prop :=
  start = some row → (∀ event ∈ events, ConsumedMove outpoint (event.before.consumedRow outpoint)
      event.call (event.after.consumedRow outpoint) ∧ event.after.consumedRow outpoint ≠ none) →
    ∃ now, last = some now ∧ now.SameOwner row

theorem KeepsOwner.advance {row : ConsumedRow} {start : Option ConsumedRow}
    {events : List (ClientEvent G)}
    (keeps : KeepsOwner outpoint row start events (event.before.consumedRow outpoint)) :
    KeepsOwner outpoint row start (events ++ [event]) (event.after.consumedRow outpoint) := by
  intro began moves
  obtain ⟨before, after⟩ := List.forall_mem_append.1 moves
  obtain ⟨old, hold, owner⟩ := keeps began before
  obtain ⟨move, alive⟩ := after event (List.mem_singleton_self _)
  obtain ⟨next, hnext⟩ := Option.ne_none_iff_exists'.1 alive
  rw [hold, hnext] at move
  obtain ⟨signer, quote, claim⟩ := move.sameOwner
  exact ⟨next, hnext, signer.trans owner.1, quote.trans owner.2.1, claim.trans owner.2.2⟩

def CommitsOnce (outpoint : Outpoint) (_ : Option ConsumedRow) (events : List (ClientEvent G))
    (last : Option ConsumedRow) : Prop :=
  (∀ event ∈ events, ConsumedMove outpoint (event.before.consumedRow outpoint) event.call
      (event.after.consumedRow outpoint) ∧ ¬ deletes outpoint event) →
    events.filterMap (fun event => commitsOn outpoint event.call) = [] ∨
      (events.filterMap fun event => commitsOn outpoint event.call).length = 1 ∧
        ∃ row, last = some row ∧ row.state = .honored

theorem CommitsOnce.advance {start : Option ConsumedRow} {events : List (ClientEvent G)}
    (once : CommitsOnce outpoint start events (event.before.consumedRow outpoint)) :
    CommitsOnce outpoint start (events ++ [event]) (event.after.consumedRow outpoint) := by
  intro moves
  obtain ⟨before, after⟩ := List.forall_mem_append.1 moves
  obtain ⟨move, alive⟩ := after event (List.mem_singleton_self _)
  rw [List.filterMap_append]
  cases hcommits : commitsOn outpoint event.call with
  | some input =>
    obtain ⟨pending, honored⟩ := move.honors hcommits
    rcases once before with none | ⟨-, row, found, state⟩
    · exact .inr ⟨by simp [none, hcommits], honored⟩
    · rw [pending row found] at state
      contradiction
  | none =>
    have quiet : [event].filterMap (fun event => commitsOn outpoint event.call) = [] := by
      simp [hcommits]
    rw [quiet, List.append_nil]
    rcases once before with none | ⟨one, row, found, state⟩
    · exact .inl none
    · refine .inr ⟨one, row, ?_, state⟩
      rw [found] at move
      exact move.stays state fun gone => alive ⟨by simp [found], gone⟩

end

section
variable {engine : HonorEngine G}

theorem consumedRow_still (outpoint : Outpoint) (before after : World G)
    (may : (clientSystem engine).mayShift before after) :
    after.consumedRow outpoint = before.consumedRow outpoint := by
  rw [show after = _ from may]
  rfl

theorem all_moves {initial : World G} {pool : ClientPool G} (outpoint : Outpoint)
    (reached : Reachable (clientSystem engine) initial pool)
    (pending : KeptPending (initial.consumedRow outpoint))
    (bounded : ∀ event ∈ pool.log, ∀ now, event.call.op = .sweep now → now ≤ maxSafeInteger) :
    ∀ event ∈ pool.log, ConsumedMove outpoint (event.before.consumedRow outpoint) event.call
      (event.after.consumedRow outpoint) := by
  suffices inv : (∀ event ∈ pool.log, ∀ now, event.call.op = .sweep now → now ≤ maxSafeInteger) →
      KeptPending (pool.shared.consumedRow outpoint) ∧
      ∀ event ∈ pool.log, ConsumedMove outpoint (event.before.consumedRow outpoint) event.call
        (event.after.consumedRow outpoint) from (inv bounded).2
  refine reached.invariant (fun pool =>
      (∀ event ∈ pool.log, ∀ now, event.call.op = .sweep now → now ≤ maxSafeInteger) →
      KeptPending (pool.shared.consumedRow outpoint) ∧
      ∀ event ∈ pool.log, ConsumedMove outpoint (event.before.consumedRow outpoint) event.call
        (event.after.consumedRow outpoint))
    (fun _ => ⟨pending, by simp [Pool.fresh]⟩) fun before after _ ih step => ?_
  cases step with
  | start task may => exact ih
  | shift next may =>
    intro bounded
    obtain ⟨kept, moves⟩ := ih bounded
    exact ⟨(consumedRow_still outpoint _ _ may).symm ▸ kept, moves⟩
  | advance answer waiting =>
    intro bounded
    obtain ⟨earlier, last⟩ := List.forall_mem_append.1 bounded
    obtain ⟨kept, moves⟩ := ih earlier
    have move := consumed_moves ⟨_, _, _, _, _, answer, rfl⟩ kept
      (last _ (List.mem_singleton_self _))
    refine ⟨move.kept kept, List.forall_mem_append.2 ⟨moves, fun event hevent => ?_⟩⟩
    rw [List.mem_singleton.1 hevent]
    exact move

/-- From an empty database, and with sweeps at times that are safe integers, the row of an outpoint
goes from nothing to a reservation to honored, or to honored at once, and is deleted as honored and
past its retention; its owner never changes, and between two deletions one delivery commits at
most. -/
theorem consumed_row_life (engine : HonorEngine G) (goods : G) (clock : Int) (pool : ClientPool G)
    (reached : Reachable (clientSystem engine) (.booted (.empty goods) clock) pool)
    (bounded : ∀ event ∈ pool.log, ∀ now, event.call.op = .sweep now → now ≤ maxSafeInteger)
    (outpoint : Outpoint) :
    ConsumedLaw outpoint pool.log ∧ pool.shared.consumedRow outpoint =
      lastLook (World.consumedRow outpoint) (.booted (.empty goods) clock) pool.log := by
  have moves := all_moves outpoint reached (by simp [KeptPending, World.consumedRow, World.booted,
    Db.empty]) bounded
  refine ⟨⟨moves, ?_, ?_, ?_⟩, (reached.lastLook_log (consumedRow_still outpoint)).symm⟩
  · intro earlier first during later row hlog found alive
    have span := reached.history (consumedRow_still outpoint) (KeepsOwner outpoint row)
      (fun start began _ => ⟨row, began, rfl, rfl, rfl⟩) (fun _ _ _ _ keeps => keeps.advance)
      (earlier ++ [first]) during later (by simp [hlog])
    rw [List.append_assoc, List.singleton_append, lastLook_append_cons, lastLook_append_cons]
      at span
    exact span found fun event hevent => ⟨moves event (by simp [hlog, hevent]), alive event hevent⟩
  · exact fun event logged input commits mode => (moves event logged).single commits mode
  · intro earlier during later hlog undeleted
    have span := reached.history (consumedRow_still outpoint) (CommitsOnce outpoint)
      (fun _ _ => .inl rfl) (fun _ _ _ _ once => once.advance) earlier during later hlog
    rcases span fun event hevent => ⟨moves event (by simp [hlog, hevent]), undeleted event hevent⟩
      with none | one
    · simp [none]
    · exact Nat.le_of_eq one.1

end

/-! An outpoint reserved for `sampleQuote`, promoted and swept. -/

def promotingTxn : HonorTxnInput Unit := { sampleTxn with mode := .promote }

def calls (index : Nat) (op : Op Unit) : List ClientMove :=
  .start (.call op) :: clientTurns index 1

def promoteMoves : List ClientMove :=
  calls 0 (.upsertAccepted sampleQuote 10 4600) ++
    calls 1 (.reserveClaimOutpoint sampleQuote.key ⟨"01", 0⟩ "c1" 20) ++
      calls 2 (.runHonorTxn promotingTxn) ++ calls 3 (.sweep 5000)

theorem promoteMoves_allowed :
    (Pool.fresh (.booted (.empty ()) 20)).Allowed (clientSystem sampleEngine) promoteMoves := by
  simp only [promoteMoves, calls, clientTurns, List.append_assoc, List.cons_append]
  refine ⟨rfl, Pool.allowed_advances 1 ⟨rfl, Pool.allowed_advances 1 ⟨rfl,
    Pool.allowed_advances 1 ⟨rfl, ?_⟩⟩⟩⟩
  exact List.append_nil (List.replicate 1 _) ▸ Pool.allowed_advances 1 trivial

theorem consumed_row_life_promoted :
    ((clientPool promoteMoves).log.map fun event => (event.after.consumedRow ⟨"01", 0⟩).map
      (·.state)) = [none, some .claimPending, some .honored, none] ∧
    ConsumedLaw ⟨"01", 0⟩ (clientPool promoteMoves).log := by
  refine ⟨rfl, (consumed_row_life sampleEngine () 20 _ (Pool.play_reachable promoteMoves_allowed) ?_
    ⟨"01", 0⟩).1⟩
  intro event logged now hop
  have ops : (clientPool promoteMoves).log.map (·.call.op) =
    [.upsertAccepted sampleQuote 10 4600,
      .reserveClaimOutpoint sampleQuote.key ⟨"01", 0⟩ "c1" 20, .runHonorTxn promotingTxn,
      .sweep 5000] := rfl
  have made : event.call.op ∈ (clientPool promoteMoves).log.map (·.call.op) :=
    List.mem_map_of_mem logged
  rw [ops, hop] at made
  have : now = 5000 := by simpa using made
  unfold maxSafeInteger
  omega

end ExferHonor
