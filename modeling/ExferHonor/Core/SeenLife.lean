import ExferHonor.Adapters.GateTables
import ExferHonor.Core.Clients

/-! The life of a SEEN row under any clients of the store. What a row holds is told by the row it
began as and the calls that have been carried out since. -/
namespace ExferHonor
open Effects Store Statements

variable {G : Type}

def observes (key : HonorKey) (expiresAt : Int) (call : PortCall G) : Bool :=
  match call.op with
  | .markObservedBeforeExpiry observed now =>
      succeeds call && decide (key = observed ∧ now < expiresAt)
  | _ => false

def commitsFor (key : HonorKey) (call : PortCall G) : Option (HonorTxnInput G) :=
  (committed call).filter fun input => decide (key = input.key)

def lifeRow (key : HonorKey) (created : SeenRowSql) (calls : List (PortCall G)) : SeenRowSql :=
  { created with
    observedBeforeExpiry := calls.any (observes key created.expiresAt)
    honoredAt := (calls.findSome? (commitsFor key)).map (·.now)
    honoredTxId := (calls.findSome? (commitsFor key)).map (·.outpoint.txId)
    honoredOutputIndex := (calls.findSome? (commitsFor key)).map (·.outpoint.outputIndex) }

structure SeenLaw (key : HonorKey) (log : List (ClientEvent G)) : Prop where
  created : ∀ event ∈ log, event.before.seenRow key = none →
    ∀ row, event.after.seenRow key = some row → ∃ quote acceptedAt retainUntil,
      event.call.op = .upsertAccepted quote acceptedAt retainUntil ∧ quote.key = key ∧
        row = acceptedRow quote acceptedAt retainUntil
  life : ∀ earlier creation during later row, log = earlier ++ creation :: (during ++ later) →
    creation.before.seenRow key = none → creation.after.seenRow key = some row →
    (∀ event ∈ during, event.after.seenRow key ≠ none) →
    lastLook (World.seenRow key) creation.after during =
        some (lifeRow key row (during.map (·.call))) ∧
      (during.filterMap fun event => commitsFor key event.call).length ≤ 1
  locked : ∀ event ∈ log, ∀ input, commitsFor key event.call = some input →
    ∃ row, event.before.seenRow key = some row ∧ Lockable input.now row ∧
      event.after.seenRow key = some (lockedRow input.now input.outpoint row)
  kept : ∀ event ∈ log, commitsFor key event.call = none → ∀ row next,
    event.before.seenRow key = some row → event.after.seenRow key = some next →
    next.honoredAt = row.honoredAt ∧ next.honoredTxId = row.honoredTxId ∧
      next.honoredOutputIndex = row.honoredOutputIndex
  swept : ∀ event ∈ log, ∀ row, event.before.seenRow key = some row →
    (event.after.seenRow key = none ↔ ∃ now, event.call.op = .sweep now ∧
      succeeds event.call = true ∧ row.retainUntil < now)
  unlockable : ∀ event ∈ log, ∀ row now, event.before.seenRow key = some row →
    event.call.op = .sweep now → event.after.seenRow key = none → ¬ Lockable now row

theorem commitsFor_eq_some {key : HonorKey} {call : PortCall G} {input : HonorTxnInput G}
    (commits : commitsFor key call = some input) :
    committed call = some input ∧ call.op = .runHonorTxn input ∧ succeeds call = true ∧
      key = input.key := by
  obtain ⟨hcommitted, own⟩ := Option.filter_eq_some_iff.1 commits
  obtain ⟨hop, success⟩ := committed_eq_some hcommitted
  exact ⟨hcommitted, hop, success, of_decide_eq_true own⟩

theorem commitsFor_txn {key : HonorKey} {call : PortCall G} {input : HonorTxnInput G}
    (hop : call.op = .runHonorTxn input) (success : succeeds call = true) :
    commitsFor key call = if key = input.key then some input else none := by
  unfold commitsFor committed
  rw [hop]
  simp [success, Option.filter_some]

section
variable {key : HonorKey} {created : SeenRowSql} {calls : List (PortCall G)} {call : PortCall G}

theorem lifeRow_quiet (unseen : observes key created.expiresAt call = false)
    (uncommitted : commitsFor key call = none) :
    lifeRow key created (calls ++ [call]) = lifeRow key created calls := by
  simp [lifeRow, List.any_append, List.findSome?_append, unseen, uncommitted]

theorem lifeRow_observed (seen : observes key created.expiresAt call = true)
    (uncommitted : commitsFor key call = none) :
    lifeRow key created (calls ++ [call]) = observedRow (lifeRow key created calls) := by
  simp [lifeRow, observedRow, List.any_append, List.findSome?_append, seen, uncommitted]

theorem lifeRow_locked {input : HonorTxnInput G}
    (unseen : observes key created.expiresAt call = false)
    (commits : commitsFor key call = some input)
    (unhonored : (lifeRow key created calls).honoredAt = none) :
    lifeRow key created (calls ++ [call]) =
      lockedRow input.now input.outpoint (lifeRow key created calls) := by
  have first := Option.map_eq_none_iff.1 unhonored
  unfold lifeRow lockedRow
  rw [List.findSome?_append, first, List.any_append]
  simp [unseen, commits]

theorem lifeRow_concat {next : SeenRowSql}
    (after : (if succeeds call = true then
      seenAfter key (some (lifeRow key created calls)) call.op
        else some (lifeRow key created calls)) = some next)
    (unhonored : ∀ input, commitsFor key call = some input →
      (lifeRow key created calls).honoredAt = none) :
    next = lifeRow key created (calls ++ [call]) := by
  obtain ⟨op, reply⟩ := call
  by_cases success : succeeds (⟨op, reply⟩ : PortCall G) = true
  · rw [if_pos success] at after
    cases op
    case markObservedBeforeExpiry observed now =>
      obtain rfl : (if key = observed ∧ now < created.expiresAt then
          observedRow (lifeRow key created calls) else lifeRow key created calls) = next :=
        Option.some.inj after
      have hobserves : observes key created.expiresAt
          (⟨.markObservedBeforeExpiry observed now, reply⟩ : PortCall G) =
            decide (key = observed ∧ now < created.expiresAt) := by
        simp only [observes, success, Bool.true_and]
      split
      next early => rw [lifeRow_observed (hobserves.trans (decide_eq_true early)) rfl]
      next late => rw [lifeRow_quiet (hobserves.trans (decide_eq_false late)) rfl]
    case runHonorTxn input =>
      obtain rfl : (if key = input.key then
          lockedRow input.now input.outpoint (lifeRow key created calls)
            else lifeRow key created calls) = next := Option.some.inj after
      have hcommits : commitsFor key (⟨.runHonorTxn input, reply⟩ : PortCall G) =
          if key = input.key then some input else none := commitsFor_txn rfl success
      split
      next own =>
        rw [if_pos own] at hcommits
        rw [lifeRow_locked rfl hcommits (unhonored input hcommits)]
      next other => rw [lifeRow_quiet rfl (hcommits.trans (if_neg other))]
    case upsertAccepted quote acceptedAt retainUntil =>
      rw [lifeRow_quiet rfl rfl]
      simp only [seenAfter, Option.getD_some, ite_self, Option.some.injEq] at after
      exact after.symm
    case sweep now =>
      rw [lifeRow_quiet rfl rfl]
      simp only [seenAfter, Option.filter_some] at after
      split at after
      · exact (Option.some.inj after).symm
      · contradiction
    all_goals
      rw [lifeRow_quiet rfl rfl]
      exact (Option.some.inj after).symm
  · rw [if_neg success] at after
    cases after
    have failed : succeeds (⟨op, reply⟩ : PortCall G) = false := by simpa using success
    refine (lifeRow_quiet ?_ ?_).symm
    · unfold observes
      split
      · rw [failed, Bool.false_and]
      · rfl
    · cases hcommits : commitsFor key (⟨op, reply⟩ : PortCall G) with
      | none => rfl
      | some input =>
        rw [(commitsFor_eq_some hcommits).2.2.1] at failed
        contradiction

end

section
variable {engine : HonorEngine G} {event : ClientEvent G} {key : HonorKey}

theorem locked_of_commitsFor (performed : event.PerformedBy (clientSystem engine))
    {input : HonorTxnInput G} (commits : commitsFor key event.call = some input) :
    ∃ row, event.before.seenRow key = some row ∧ Lockable input.now row ∧
      event.after.seenRow key = some (lockedRow input.now input.outpoint row) := by
  obtain ⟨hcommitted, hop, success, rfl⟩ := commitsFor_eq_some commits
  obtain ⟨⟨row, found, lockable⟩, -⟩ := gated_of_committed performed hcommitted
  refine ⟨row, found, lockable, ?_⟩
  rw [seenRow_after performed, if_pos success, found, hop]
  simp [seenAfter]

theorem swept_iff (performed : event.PerformedBy (clientSystem engine)) {row : SeenRowSql}
    (found : event.before.seenRow key = some row) :
    event.after.seenRow key = none ↔ ∃ now, event.call.op = .sweep now ∧
      succeeds event.call = true ∧ row.retainUntil < now := by
  rw [seenRow_after performed, found]
  split
  next success =>
    rw [success]
    generalize event.call.op = op
    cases op <;> simp [seenAfter]
  next failed => simp [failed]

theorem created_of_absent (performed : event.PerformedBy (clientSystem engine))
    (absent : event.before.seenRow key = none) {row : SeenRowSql}
    (found : event.after.seenRow key = some row) :
    ∃ quote acceptedAt retainUntil, event.call.op = .upsertAccepted quote acceptedAt retainUntil ∧
      quote.key = key ∧ row = acceptedRow quote acceptedAt retainUntil := by
  rw [seenRow_after performed, absent] at found
  split at found
  next =>
    generalize event.call.op = op at found
    cases op <;> simp [seenAfter] at found
    case upsertAccepted quote acceptedAt retainUntil =>
      exact ⟨quote, acceptedAt, retainUntil, rfl, found.1, found.2.symm⟩
  next => cases found

theorem kept_of_uncommitted (performed : event.PerformedBy (clientSystem engine))
    (uncommitted : commitsFor key event.call = none) {row next : SeenRowSql}
    (found : event.before.seenRow key = some row) (after : event.after.seenRow key = some next) :
    next.honoredAt = row.honoredAt ∧ next.honoredTxId = row.honoredTxId ∧
      next.honoredOutputIndex = row.honoredOutputIndex := by
  rw [seenRow_after performed, found] at after
  split at after
  next success =>
    generalize hop : event.call.op = op at after
    cases op
    case markObservedBeforeExpiry observed now =>
      simp only [seenAfter, Option.map_some, Option.some.injEq] at after
      subst after
      split <;> exact ⟨rfl, rfl, rfl⟩
    case runHonorTxn input =>
      rw [commitsFor_txn hop success] at uncommitted
      simp only [seenAfter, Option.map_some, Option.some.injEq] at after
      subst after
      split at uncommitted
      · cases uncommitted
      next other =>
        rw [if_neg other]
        exact ⟨rfl, rfl, rfl⟩
    case upsertAccepted =>
      simp only [seenAfter, Option.getD_some, ite_self, Option.some.injEq] at after
      subst after
      exact ⟨rfl, rfl, rfl⟩
    case sweep now =>
      simp only [seenAfter, Option.filter_some] at after
      split at after
      · cases after
        exact ⟨rfl, rfl, rfl⟩
      · cases after
    all_goals
      cases after
      exact ⟨rfl, rfl, rfl⟩
  next =>
    cases after
    exact ⟨rfl, rfl, rfl⟩

def LivesOn (key : HonorKey) (created : SeenRowSql) (start : Option SeenRowSql)
    (events : List (ClientEvent G)) (last : Option SeenRowSql) : Prop :=
  start = some created → (∀ event ∈ events, event.after.seenRow key ≠ none) →
    last = some (lifeRow key created (events.map (·.call))) ∧
      (events.filterMap fun event => commitsFor key event.call).length ≤ 1

theorem LivesOn.advance {created : SeenRowSql} {start : Option SeenRowSql}
    {events : List (ClientEvent G)} (performed : event.PerformedBy (clientSystem engine))
    (lives : LivesOn key created start events (event.before.seenRow key)) :
    LivesOn key created start (events ++ [event]) (event.after.seenRow key) := by
  intro began alive
  obtain ⟨before, after⟩ := List.forall_mem_append.1 alive
  obtain ⟨found, once⟩ := lives began before
  have unhonored (input : HonorTxnInput G) (commits : commitsFor key event.call = some input) :
      (lifeRow key created (events.map (·.call))).honoredAt = none := by
    obtain ⟨row, hrow, lockable, -⟩ := locked_of_commitsFor performed commits
    rw [found] at hrow
    cases hrow
    exact lockable.1
  constructor
  · obtain ⟨next, hnext⟩ := Option.ne_none_iff_exists'.1 (after event (List.mem_singleton_self _))
    have hafter := seenRow_after performed key
    rw [hnext, found] at hafter
    rw [hnext, List.map_append, List.map_singleton, lifeRow_concat hafter.symm unhonored]
  · rw [List.filterMap_append, List.length_append]
    cases hcommits : commitsFor key event.call with
    | none => simpa [hcommits] using once
    | some input =>
      have none := Option.map_eq_none_iff.1 (unhonored input hcommits)
      rw [List.findSome?_map, List.findSome?_eq_none_iff] at none
      have empty : events.filterMap (fun event => commitsFor key event.call) = [] :=
        List.filterMap_eq_nil_iff.2 none
      simp [empty, hcommits]

end

theorem seenRow_still {engine : HonorEngine G} (key : HonorKey) (before after : World G)
    (may : (clientSystem engine).mayShift before after) :
    after.seenRow key = before.seenRow key := by
  rw [show after = _ from may]
  rfl

/-- From its creation until a sweep deletes it, a SEEN row holds what it was created with, the latch
if an observation before its expiry was carried out on it, and the one honor that has committed for
the key, at a time when the row could be locked. -/
theorem seen_row_life (engine : HonorEngine G) (initial : World G) (pool : ClientPool G)
    (reached : Reachable (clientSystem engine) initial pool) (key : HonorKey) :
    SeenLaw key pool.log ∧
      pool.shared.seenRow key = lastLook (World.seenRow key) initial pool.log := by
  refine ⟨?_, (reached.lastLook_log (seenRow_still key)).symm⟩
  have performed := reached.performedBy
  refine ⟨fun event logged absent row => created_of_absent (performed event logged) absent, ?_,
    fun event logged input => locked_of_commitsFor (performed event logged),
    fun event logged quiet row next => kept_of_uncommitted (performed event logged) quiet,
    fun event logged row => swept_iff (performed event logged), ?_⟩
  · intro earlier creation during later row hlog absent found alive
    obtain ⟨quote, acceptedAt, retainUntil, -, -, rfl⟩ :=
      created_of_absent (performed creation (by simp [hlog])) absent found
    have span := reached.history (seenRow_still key)
      (LivesOn key (acceptedRow quote acceptedAt retainUntil))
      (fun start began _ => ⟨began, Nat.zero_le _⟩)
      (fun _ _ _ performed lives => lives.advance performed)
      (earlier ++ [creation]) during later (by simp [hlog])
    rw [List.append_assoc, List.singleton_append, lastLook_append_cons, lastLook_append_cons]
      at span
    exact span found alive
  · intro event logged row now found hop gone lockable
    obtain ⟨other, hother, -, expired⟩ := (swept_iff (performed event logged) found).1 gone
    rw [hop] at hother
    cases hother
    exact absurd lockable.2.1 (by omega)

/-! `sampleQuote` registered by the engine, observed by another client, honored and, far later,
swept. -/

def lifeMoves : List ClientMove :=
  .start (.task (.register sampleQuote {})) :: clientTurns 0 3 ++
    .start (.call (.markObservedBeforeExpiry sampleQuote.key 20)) :: clientTurns 1 1 ++
    .start (.task (.honor sampleQuote.key sampleTxn.deliver {})) :: clientTurns 2 8

def sweepMoves : List ClientMove :=
  .shift (fun world => { world with clock := 5000 }) :: .start (.call (.sweep 5000)) ::
    clientTurns 3 1

theorem lifeMoves_allowed :
    (Pool.fresh (.booted (.empty ()) 20)).Allowed (clientSystem sampleEngine)
      (lifeMoves ++ sweepMoves) := by
  simp only [lifeMoves, sweepMoves, clientTurns, List.append_assoc, List.cons_append]
  refine ⟨trivial, Pool.allowed_advances 3 ⟨rfl, Pool.allowed_advances 1 ⟨trivial,
    Pool.allowed_advances 8 ⟨rfl, rfl, ?_⟩⟩⟩⟩
  exact List.append_nil (List.replicate 1 _) ▸ Pool.allowed_advances 1 trivial

theorem seen_row_life_swept :
    (clientPool lifeMoves).shared.seenRow sampleQuote.key =
      some (lockedRow 20 ⟨"01", 0⟩ (observedRow (acceptedRow sampleQuote 20 4600))) ∧
    (clientPool (lifeMoves ++ sweepMoves)).shared.seenRow sampleQuote.key = none ∧
    SeenLaw sampleQuote.key (clientPool (lifeMoves ++ sweepMoves)).log :=
  ⟨rfl, rfl, (seen_row_life sampleEngine (.booted (.empty ()) 20) _
    (Pool.play_reachable lifeMoves_allowed) sampleQuote.key).1⟩

end ExferHonor
