import ExferHonor.Core.ClaimRuns

/-! One claim for each quote, as long as no call reads the form's map of claims between another
call's look at it and that call's record in it. -/
namespace ExferHonor
namespace HonorEngine
open Effects Program

variable {G : Type}

section
variable (rk : String)

def readsClaims : Op G → Bool
  | .claimsGet other => other = rk
  | _ => false

def foundEmpty : PortCall G → Bool
  | ⟨.claimsGet other, none⟩ => other = rk
  | _ => false

def recordsClaim : PortCall G → Bool
  | ⟨.claimsSet other _, _⟩ => other = rk
  | _ => false

def submitsClaim : PortCall G → Bool
  | ⟨.submitClaim _ _, _⟩ => true
  | _ => false

/-- A call that found no claim under `rk` and has recorded none, although it has submitted one or
may still submit one. -/
def unrecorded (thread : Thread (Op G) Op.Reply Thrown EngineResult (EngineTask G)) : Bool :=
  thread.past.any (foundEmpty rk) && !thread.past.any (recordsClaim rk) &&
    (thread.rest.waits || thread.past.any submitsClaim)

def ReadsAlone (before after : EnginePool G) : Prop :=
  before.log.length < after.log.length →
    (after.log.getLast?.any fun event => readsClaims rk event.call.op) = true →
    ∀ thread ∈ before.threads, unrecorded rk thread = false

instance : DecidableRel (ReadsAlone (G := G) rk) := fun before _ =>
  inferInstanceAs (Decidable (_ → _ → ∀ thread ∈ before.threads, unrecorded rk thread = false))

end

def honorsQuote (key : HonorKey) : EngineTask G → Bool
  | .honor other _ _ => other = key
  | _ => false

def submitCount (key : HonorKey) (pool : EnginePool G) : Nat :=
  pool.log.countP fun event => honorsQuote key event.task && submitsClaim event.call

structure OneClaimInvariant (key : HonorKey) (pool : EnginePool G) : Prop where
  alone : ∀ (index other : Nat) thread thread', pool.threads[index]? = some thread →
    pool.threads[other]? = some thread' → unrecorded (rowKey key) thread = true →
    unrecorded (rowKey key) thread' = true → index = other
  empty : ∀ thread ∈ pool.threads, unrecorded (rowKey key) thread = true →
    pool.shared.claims (rowKey key) = none
  once : submitCount key pool ≤ 1
  recorded : 0 < submitCount key pool → pool.shared.claims (rowKey key) ≠ none ∨
    ∃ thread ∈ pool.threads, unrecorded (rowKey key) thread = true ∧
      thread.past.any submitsClaim = true

section
variable {rk : String} {task : EngineTask G} {past : List (PortCall G)} {op : Op G}
  {resume : op.Reply → Async G EngineResult} {reply : op.Reply}

theorem unrecorded_before (unseen : foundEmpty rk ⟨op, reply⟩ = false)
    (after : unrecorded rk ⟨task, past ++ [⟨op, reply⟩], resume reply⟩ = true) :
    unrecorded rk ⟨task, past, .call op resume⟩ = true ∧ recordsClaim rk ⟨op, reply⟩ = false := by
  simp only [unrecorded, List.any_append, List.any_cons, List.any_nil, unseen, Bool.or_false,
    Bool.and_eq_true, Bool.not_eq_true', Bool.or_eq_false_iff] at after ⊢
  obtain ⟨⟨found, unset, notSet⟩, -⟩ := after
  exact ⟨⟨⟨found, unset⟩, rfl⟩, notSet⟩

theorem unrecorded_after (before : unrecorded rk ⟨task, past, .call op resume⟩ = true)
    (notSet : recordsClaim rk ⟨op, reply⟩ = false)
    (submitted : (past ++ [Call.mk op reply]).any submitsClaim = true) :
    unrecorded rk ⟨task, past ++ [⟨op, reply⟩], resume reply⟩ = true := by
  simp only [unrecorded, Bool.and_eq_true, Bool.not_eq_true'] at before ⊢
  obtain ⟨⟨found, unset⟩, -⟩ := before
  refine ⟨⟨?_, ?_⟩, ?_⟩
  · simp [found]
  · simp [unset, notSet]
  · rw [submitted, Bool.or_true]

end

section
variable {engine : HonorEngine G} {reserver : Bool} {model : TxnModel} {initial : World G}
  {pool : EnginePool G} {index : Nat} {task : EngineTask G} {past : List (PortCall G)}

theorem submit_waits (forms : engine.deps.forms = createFormRegistry (builtinForms reserver))
    (reached : Reachable (openSystem engine model) initial pool) {key : HonorKey}
    {deliver : Deliver G} {opts : RegisterOpts} {htlc : OnChainHtlc} {preimage : Hex}
    {resume : Except Thrown Hex → Async G EngineResult}
    (waiting : pool.threads[index]? =
      some ⟨.honor key deliver opts, past, .call (.submitClaim htlc preimage) resume⟩) :
    past.any (foundEmpty (rowKey key)) = true ∧ past.any (recordsClaim (rowKey key)) = false ∧
      past.any submitsClaim = false := by
  have hmem := List.mem_of_getElem? waiting
  obtain ⟨_, run, _⟩ := Runs.of_map_call (reached.runs _ hmem)
  obtain ⟨now, seen, candidate, tip, submitting⟩ := honor_runs_submit forms run
  obtain ⟨hseen, hempty, reads⟩ := submitting.reads
  obtain rfl : seen.key = key := seen_row_key reached _ hmem key seen hseen
  refine ⟨List.any_eq_true.2 ⟨_, hempty, by simp [foundEmpty]⟩, ?_, ?_⟩ <;>
  · apply List.any_eq_false.2
    rintro ⟨op, reply⟩ hcall
    cases op <;> first | exact Bool.false_ne_true | simpa [Op.isQuery] using reads _ hcall

theorem record_waits (forms : engine.deps.forms = createFormRegistry (builtinForms reserver))
    (reached : Reachable (openSystem engine model) initial pool) {rk : String}
    {record : ClaimRecord} {resume : Unit → Async G EngineResult}
    (waiting : pool.threads[index]? = some ⟨task, past, .call (.claimsSet rk record) resume⟩) :
    past.any (foundEmpty rk) = true ∧ past.any (recordsClaim rk) = false := by
  have hmem := List.mem_of_getElem? waiting
  have run := reached.runs _ hmem
  obtain ⟨key, deliver, opts, seen, reads, listed, preparing, rfl, hpast, locked, rfl, -,
    ⟨htlc, preimage, hsubmit⟩, -⟩ := program_runs_claim forms run
  have hkey := seen_row_key reached _ hmem key seen (by rw [hpast]; cases locked; simp)
  constructor
  · obtain ⟨before, later, rfl⟩ := List.mem_iff_append.1 hsubmit
    obtain ⟨_, submitting, -⟩ := Runs.split run
    obtain ⟨_, inner, _⟩ := Runs.of_map_call submitting
    obtain ⟨now, own, candidate, tip, submitted⟩ := honor_runs_submit forms inner
    obtain ⟨hseen, hempty, -⟩ := submitted.reads
    have hown := seen_row_key reached _ hmem key own (List.mem_append_left _ hseen)
    rw [hkey, ← hown]
    exact List.any_eq_true.2 ⟨_, List.mem_append_left _ hempty, by simp [foundEmpty]⟩
  · apply List.any_eq_false.2
    rintro ⟨op, reply⟩ hcall hrecords
    cases op with
    | claimsSet other earlier =>
      obtain ⟨before, later, rfl⟩ := List.mem_iff_append.1 hcall
      obtain ⟨next, recording, tail⟩ := Runs.split run
      change (engine.program (.honor key deliver opts)).Runs before
        (.call (.claimsSet other earlier) next) at recording
      obtain ⟨_, _, _, _, _, _, _, _, _, _, _, _, _, rfl⟩ := program_runs_claim forms recording
      rcases (runs_call_iff _ _).1 tail with ⟨_, hcall⟩ | ⟨_, _, _, hend⟩
      · cases hcall
      · cases ((runs_pure_iff _).1 hend).2
    | _ => exact Bool.false_ne_true hrecords

variable {op : Op G} {resume : op.Reply → Async G EngineResult} {key : HonorKey}

theorem submitCount_advance (answer : op.Reply) :
    submitCount key (pool.advance (openSystem engine model) index task past op resume answer) =
      submitCount key pool +
        if honorsQuote key task && submitsClaim ⟨op, (World.perform model pool.shared op answer).1⟩
        then 1 else 0 := by
  simp only [submitCount, Pool.advance, List.countP_append, List.countP_singleton, openSystem,
    engineSystem]

theorem unrecorded_of_advance (engine : HonorEngine G) (model : TxnModel) (answer : op.Reply)
    (waiting : pool.threads[index]? = some ⟨task, past, .call op resume⟩)
    (unread : readsClaims (rowKey key) op = false) {other : Nat}
    {thread : Thread (Op G) Op.Reply Thrown EngineResult (EngineTask G)}
    (found : (pool.advance (openSystem engine model) index task past op resume
      answer).threads[other]? = some thread)
    (after : unrecorded (rowKey key) thread = true) :
    ∃ before, pool.threads[other]? = some before ∧ unrecorded (rowKey key) before = true ∧
      (index = other → recordsClaim (rowKey key)
        ⟨op, (World.perform model pool.shared op answer).1⟩ = false) := by
  rw [Pool.getElem?_advance _ waiting] at found
  split at found
  next same =>
    cases found
    have unseen : foundEmpty (rowKey key)
        ⟨op, (World.perform model pool.shared op answer).1⟩ = false := by
      cases op with
      | claimsGet rk =>
        cases hfound : (World.perform model pool.shared (.claimsGet rk) answer).1 with
        | none => exact unread
        | some record => rfl
      | _ => rfl
    obtain ⟨before, notSet⟩ := unrecorded_before unseen after
    exact ⟨_, same ▸ waiting, before, fun _ => notSet⟩
  next other => exact ⟨thread, found, after, fun same => absurd same other⟩

/-- A look while no call is unrecorded: only the call that looks can be so afterwards, and then
there is nothing in the map. -/
theorem OneClaimInvariant.advance_look (inv : OneClaimInvariant key pool)
    {resume : Option ClaimRecord → Async G EngineResult}
    (waiting : pool.threads[index]? = some ⟨task, past, .call (.claimsGet (rowKey key)) resume⟩)
    (nobody : ∀ thread ∈ pool.threads, unrecorded (rowKey key) thread = false)
    (answer : Option ClaimRecord) :
    OneClaimInvariant key
      (pool.advance (openSystem engine model) index task past (.claimsGet (rowKey key)) resume
        answer) := by
  have looked {other : Nat} {thread}
      (found : (pool.advance (openSystem engine model) index task past
      (.claimsGet (rowKey key)) resume
        answer).threads[other]? = some thread)
      (after : unrecorded (rowKey key) thread = true) :
      index = other ∧ pool.shared.claims (rowKey key) = none := by
    rw [Pool.getElem?_advance _ waiting] at found
    split at found
    next same =>
      cases found
      refine ⟨same, ?_⟩
      by_contra present
      have unseen : foundEmpty (rowKey key) ⟨.claimsGet (rowKey key),
          (World.perform model pool.shared (.claimsGet (rowKey key)) answer).1⟩ = false := by
        obtain ⟨record, hrecord⟩ := Option.ne_none_iff_exists'.1 present
        rw [show (World.perform model pool.shared (.claimsGet (rowKey key)) answer).1 =
          some record from hrecord]
        rfl
      have before : unrecorded (rowKey key)
          ⟨task, past, .call (.claimsGet (rowKey key)) resume⟩ = true :=
        (unrecorded_before unseen after).1
      rw [nobody _ (List.mem_of_getElem? waiting)] at before
      contradiction
    next =>
      rw [nobody _ (List.mem_of_getElem? found)] at after
      contradiction
  have hcount : submitCount key (pool.advance (openSystem engine model) index task past
      (.claimsGet (rowKey key)) resume
      answer) = submitCount key pool := by
    simp [submitCount_advance, submitsClaim]
  constructor
  · intro i j thread thread' hi hj after after'
    exact (looked hi after).1.symm.trans (looked hj after').1
  · intro thread hthread after
    obtain ⟨i, hi⟩ := List.getElem?_of_mem hthread
    exact (looked hi after).2
  · exact hcount ▸ inv.once
  · intro hpos
    rcases inv.recorded (hcount ▸ hpos) with present | ⟨thread, hthread, before, -⟩
    · exact .inl present
    · rw [nobody thread hthread] at before
      contradiction

theorem OneClaimInvariant.advance_record
    (forms : engine.deps.forms = createFormRegistry (builtinForms reserver))
    (reached : Reachable (openSystem engine model) initial pool) (inv : OneClaimInvariant key pool)
    {record : ClaimRecord} {resume : Unit → Async G EngineResult}
    (waiting : pool.threads[index]? =
      some ⟨task, past, .call (.claimsSet (rowKey key) record) resume⟩) (answer : Unit) :
    OneClaimInvariant key (pool.advance (openSystem engine model) index task past
      (.claimsSet (rowKey key) record) resume answer) := by
  obtain ⟨found, unset⟩ := record_waits forms reached waiting
  have nobody {other : Nat} {thread}
      (hother : (pool.advance (openSystem engine model) index task past
        (.claimsSet (rowKey key) record) resume answer).threads[other]? = some thread) :
      unrecorded (rowKey key) thread = false := by
    by_contra after
    rw [Bool.not_eq_false] at after
    obtain ⟨before, hbefore, open_, notSet⟩ :=
      unrecorded_of_advance engine model answer waiting rfl hother after
    have own : unrecorded (rowKey key) ⟨task, past, .call (.claimsSet (rowKey key) record) resume⟩ =
        true := by
      simp [unrecorded, found, unset, waits]
    have hset := notSet (inv.alone _ _ _ _ waiting hbefore own open_)
    simp [recordsClaim] at hset
  have hcount : submitCount key (pool.advance (openSystem engine model) index task past
      (.claimsSet (rowKey key) record) resume answer) = submitCount key pool := by
    simp [submitCount_advance, submitsClaim]
  constructor
  · intro i j thread thread' hi hj after
    rw [nobody hi] at after
    contradiction
  · intro thread hthread after
    obtain ⟨i, hi⟩ := List.getElem?_of_mem hthread
    rw [nobody hi] at after
    contradiction
  · exact hcount ▸ inv.once
  · refine fun _ => .inl ?_
    simp [Pool.advance, openSystem, engineSystem, World.perform]

theorem OneClaimInvariant.advance_kept (inv : OneClaimInvariant key pool)
    (waiting : pool.threads[index]? = some ⟨task, past, .call op resume⟩) (answer : op.Reply)
    (unread : readsClaims (rowKey key) op = false)
    (notSet : ∀ record, op ≠ .claimsSet (rowKey key) record)
    (once : submitCount key
      (pool.advance (openSystem engine model) index task past op resume answer) ≤ 1)
    (submitted : 0 < submitCount key
        (pool.advance (openSystem engine model) index task past op resume answer) →
      0 < submitCount key pool ∨ unrecorded (rowKey key) ⟨task, past, .call op resume⟩ = true ∧
        submitsClaim ⟨op, (World.perform model pool.shared op answer).1⟩ = true) :
    OneClaimInvariant key
      (pool.advance (openSystem engine model) index task past op resume answer) := by
  have hclaims : (pool.advance (openSystem engine model) index task past op resume
      answer).shared.claims (rowKey key) = pool.shared.claims (rowKey key) :=
    World.perform_claims_other model pool.shared op answer notSet
  have unset : recordsClaim (rowKey key) ⟨op, (World.perform model pool.shared op answer).1⟩ =
      false := by
    cases op with
    | claimsSet rk record =>
      apply decide_eq_false
      rintro rfl
      exact notSet record rfl
    | _ => rfl
  constructor
  · intro i j thread thread' hi hj after after'
    obtain ⟨before, hbefore, open_, -⟩ :=
      unrecorded_of_advance engine model answer waiting unread hi after
    obtain ⟨before', hbefore', open', -⟩ :=
      unrecorded_of_advance engine model answer waiting unread hj after'
    exact inv.alone _ _ _ _ hbefore hbefore' open_ open'
  · intro thread hthread after
    obtain ⟨i, hi⟩ := List.getElem?_of_mem hthread
    obtain ⟨before, hbefore, open_, -⟩ :=
      unrecorded_of_advance engine model answer waiting unread hi after
    rw [hclaims]
    exact inv.empty before (List.mem_of_getElem? hbefore) open_
  · exact once
  · intro hpos
    have hadvance := Pool.getElem?_advance (openSystem engine model) waiting answer
    rcases submitted hpos with hbefore | ⟨open_, submits⟩
    · rcases inv.recorded hbefore with present | ⟨thread, hthread, open_, hsubmitted⟩
      · exact .inl (hclaims ▸ present)
      · obtain ⟨i, hi⟩ := List.getElem?_of_mem hthread
        by_cases same : index = i
        · subst same
          rw [waiting] at hi
          cases hi
          have hsubmitted' : (past ++ [Call.mk op
              (World.perform model pool.shared op answer).1]).any submitsClaim = true := by
            rw [List.any_append, hsubmitted, Bool.true_or]
          refine .inr ⟨_, List.mem_of_getElem? ((hadvance index).trans (if_pos rfl)),
            unrecorded_after open_ unset hsubmitted', hsubmitted'⟩
        · exact .inr ⟨thread, List.mem_of_getElem? ((hadvance i).trans ((if_neg same).trans hi)),
            open_, hsubmitted⟩
    · have hsubmitted : (past ++ [Call.mk op
          (World.perform model pool.shared op answer).1]).any submitsClaim = true := by
        rw [List.any_append, List.any_cons, submits, Bool.true_or, Bool.or_true]
      exact .inr ⟨_, List.mem_of_getElem? ((hadvance index).trans (if_pos rfl)),
        unrecorded_after open_ unset hsubmitted, hsubmitted⟩

theorem OneClaimInvariant.none_submitted (inv : OneClaimInvariant key pool)
    (waiting : pool.threads[index]? = some ⟨task, past, .call op resume⟩)
    (open_ : unrecorded (rowKey key) ⟨task, past, .call op resume⟩ = true)
    (nothing : past.any submitsClaim = false) : submitCount key pool = 0 := by
  by_contra hpos
  rcases inv.recorded (Nat.pos_of_ne_zero hpos) with present | ⟨thread, hthread, other, submitted⟩
  · exact present (inv.empty _ (List.mem_of_getElem? waiting) open_)
  · obtain ⟨i, hi⟩ := List.getElem?_of_mem hthread
    obtain rfl := inv.alone _ _ _ _ waiting hi open_ other
    rw [waiting] at hi
    cases hi
    rw [nothing] at submitted
    contradiction

theorem OneClaimInvariant.advance
    (forms : engine.deps.forms = createFormRegistry (builtinForms reserver))
    (reached : Reachable (openSystem engine model) initial pool) (inv : OneClaimInvariant key pool)
    (waiting : pool.threads[index]? = some ⟨task, past, .call op resume⟩) (answer : op.Reply)
    (readsAlone : readsClaims (rowKey key) op = true →
      ∀ thread ∈ pool.threads, unrecorded (rowKey key) thread = false) :
    OneClaimInvariant key
      (pool.advance (openSystem engine model) index task past op resume answer) := by
  cases hreads : readsClaims (rowKey key) op with
  | true =>
    cases op with
    | claimsGet rk =>
      obtain rfl : rk = rowKey key := of_decide_eq_true hreads
      exact inv.advance_look waiting (readsAlone hreads) answer
    | _ => exact absurd hreads Bool.false_ne_true
  | false =>
    by_cases hset : ∃ record, op = .claimsSet (rowKey key) record
    · obtain ⟨record, rfl⟩ := hset
      exact inv.advance_record forms reached waiting answer
    · have notSet := not_exists.1 hset
      have hcount : submitCount key (pool.advance (openSystem engine model) index task past op
          resume answer) = _ := submitCount_advance answer
      cases hsubmits : honorsQuote key task &&
          submitsClaim ⟨op, (World.perform model pool.shared op answer).1⟩ with
      | false =>
        rw [hsubmits, if_neg Bool.false_ne_true, Nat.add_zero] at hcount
        exact inv.advance_kept waiting answer hreads notSet (hcount ▸ inv.once)
          fun hpos => .inl (hcount ▸ hpos)
      | true =>
        rw [hsubmits, if_pos rfl] at hcount
        rw [Bool.and_eq_true] at hsubmits
        cases task with
        | honor other deliver opts =>
          obtain rfl : other = key := of_decide_eq_true hsubmits.1
          cases op with
          | submitClaim htlc preimage =>
            obtain ⟨found, unset, nothing⟩ := submit_waits forms reached waiting
            have open_ : unrecorded (rowKey other) ⟨.honor other deliver opts, past,
                .call (.submitClaim htlc preimage) resume⟩ = true := by
              simp [unrecorded, found, unset, waits]
            rw [inv.none_submitted waiting open_ nothing] at hcount
            exact inv.advance_kept waiting answer hreads notSet (le_of_eq hcount)
              fun _ => .inr ⟨open_, hsubmits.2⟩
          | _ => exact absurd hsubmits.2 Bool.false_ne_true
        | _ => exact absurd hsubmits.1 Bool.false_ne_true

end

/-- Provided no call looks for a claim of the quote while another one that found none has
submitted a claim, or may still submit one, without having recorded it. -/
theorem submits_at_most_once (engine : HonorEngine G) (reserver : Bool)
    (forms : engine.deps.forms = createFormRegistry (builtinForms reserver)) (model : TxnModel)
    (initial : World G) (key : HonorKey) (pool : EnginePool G)
    (reached : ReachableBy (openSystem engine model) (ReadsAlone (rowKey key)) initial pool) :
    submitCount key pool ≤ 1 := by
  suffices inv : OneClaimInvariant key pool from inv.once
  refine reached.invariant (OneClaimInvariant key) ?_ fun before after run inv step alone => ?_
  · constructor
    · intro i j thread thread' hi
      cases hi
    · intro thread hthread
      exact absurd hthread List.not_mem_nil
    · exact Nat.zero_le 1
    · exact fun hpos => absurd hpos (Nat.lt_irrefl 0)
  · cases step with
    | start task may =>
      have kept {i : Nat} {thread} (found : (before.threads ++
          [⟨task, [], engine.program task⟩])[i]? = some thread)
          (open_ : unrecorded (rowKey key) thread = true) : before.threads[i]? = some thread := by
        rw [List.getElem?_append] at found
        split at found
        · exact found
        · rw [List.mem_singleton.1 (List.mem_of_getElem? found)] at open_
          contradiction
      constructor
      · exact fun i j thread thread' hi hj open_ open' =>
          inv.alone i j thread thread' (kept hi open_) (kept hj open') open_ open'
      · intro thread hthread open_
        obtain ⟨i, hi⟩ := List.getElem?_of_mem hthread
        exact inv.empty thread (List.mem_of_getElem? (kept hi open_)) open_
      · exact inv.once
      · intro hpos
        rcases inv.recorded hpos with present | ⟨thread, hthread, rest⟩
        · exact .inl present
        · exact .inr ⟨thread, List.mem_append_left _ hthread, rest⟩
    | shift next may =>
      have hclaims : next.claims = before.shared.claims := may
      constructor
      · exact inv.alone
      · exact fun thread hthread open_ => hclaims ▸ inv.empty thread hthread open_
      · exact inv.once
      · exact fun hpos => hclaims.symm ▸ inv.recorded hpos
    | advance answer waiting =>
      apply inv.advance forms run waiting answer
      intro hreads
      refine alone ?_ ?_
      · simp [Pool.advance]
      · simpa [Pool.advance] using hreads

/-! Two honors of `htlcQuote`, over a chain and a keystore whose calls all succeed. -/

/-- Each looks for a claim before the other has recorded one. -/
def racingMoves : List (Move (World Unit) (Op Unit) Op.Reply (EngineTask Unit)) :=
  .start honorHtlc :: .start honorHtlc ::
  .replicate 10 (.advance 0 (lockPorts [lockAt "01"]).answer) ++
  .replicate 10 (.advance 1 (lockPorts [lockAt "01"]).answer)

def successiveMoves : List (Move (World Unit) (Op Unit) Op.Reply (EngineTask Unit)) :=
  .start honorHtlc :: .replicate 13 (.advance 0 (lockPorts [lockAt "01"]).answer) ++
  .start honorHtlc :: .replicate 8 (.advance 1 (lockPorts [lockAt "01"]).answer)

def htlcPool (moves : List (Move (World Unit) (Op Unit) Op.Reply (EngineTask Unit))) :
    EnginePool Unit :=
  (Pool.fresh (.booted htlcDb 20)).play (openSystem sampleEngine .sync) moves

theorem submits_twice :
    Reachable (openSystem sampleEngine .sync) (.booted htlcDb 20) (htlcPool racingMoves) ∧
    submitCount htlcQuote.key (htlcPool racingMoves) = 2 := by
  refine ⟨Pool.play_reachable ?_, by decide +kernel⟩
  exact ⟨trivial, trivial, Pool.allowed_advances 10 (List.append_nil (List.replicate 10 _) ▸
    Pool.allowed_advances 10 trivial)⟩

theorem submits_at_most_once_successive :
    submitCount htlcQuote.key (htlcPool successiveMoves) = 1 ∧
    submitCount htlcQuote.key (htlcPool successiveMoves) ≤ 1 := by
  refine ⟨by decide +kernel, submits_at_most_once sampleEngine true rfl .sync
    (.booted htlcDb 20) htlcQuote.key _ (Pool.play_reachableBy ?_ (by decide +kernel))⟩
  exact ⟨trivial, Pool.allowed_advances 13 ⟨trivial, List.append_nil (List.replicate 8 _) ▸
    Pool.allowed_advances 8 trivial⟩⟩

end HonorEngine
end ExferHonor
