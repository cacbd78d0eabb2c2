import ExferHonor.Core.HtlcRuns

/-! HTLC goods move only behind a claim that another honor of the same quote has submitted and
that this honor has read as buried, while chain, database and clock move freely. -/
namespace ExferHonor
namespace HonorEngine
open Effects Program

variable {G : Type}

/-- Everything may change between two calls but the claims this process has on record. -/
def KeepsClaims (before after : World G) : Prop := after.claims = before.claims

/-- Any façade calls, in any order, amid anything that goes on around the process. -/
def openSystem (engine : HonorEngine G) (model : TxnModel) :
    System (World G) (Op G) Op.Reply Thrown EngineResult (EngineTask G) :=
  engineSystem engine model (fun _ _ => True) KeepsClaims

def EndsPending (pool : EnginePool G) (index : Nat) : Prop :=
  ∃ thread, pool.threads[index]? = some thread ∧ ∀ calls result,
    thread.rest.Returns calls result →
      result = .ok (.outcome (.notReady (.wait .htlcClaimPending none)))

theorem rowKey_injective {key other : HonorKey} (same : rowKey key = rowKey other)
    (hlength : key.quoteId.length = other.quoteId.length) : key = other := by
  have hlist := congrArg String.toList same
  simp only [rowKey, String.toList_append] at hlist
  rw [← String.length_toList, ← String.length_toList] at hlength
  obtain ⟨hfront, hquote⟩ := List.append_inj' hlist hlength
  have hsigner := (List.append_inj' hfront rfl).1
  cases key
  cases other
  rw [HonorKey.mk.injEq]
  exact ⟨String.toList_inj.1 hsigner, String.toList_inj.1 hquote⟩

section
variable {engine : HonorEngine G} {reserver : Bool} {model : TxnModel} {initial : World G}
  {pool : EnginePool G}

theorem seen_row_key (reached : Reachable (openSystem engine model) initial pool) :
    ∀ thread ∈ pool.threads, ∀ key row, ⟨.getSeen key, .ok (some row)⟩ ∈ thread.past →
      row.key = key := by
  have answers : ∀ thread ∈ pool.threads, ∀ call ∈ thread.past, ∀ key row,
      call = ⟨.getSeen key, .ok (some row)⟩ → row.key = key := by
    refine reached.answered fun shared op answer key row h => ?_
    obtain rfl : op = .getSeen key := congrArg Call.op h
    exact World.perform_getSeen_key (eq_of_heq (Call.mk.inj h).2)
  exact fun thread hthread key row hcall => answers thread hthread _ hcall key row rfl

theorem claims_recorded (clean : initial.claims = fun _ => none)
    (reached : Reachable (openSystem engine model) initial pool) :
    (∀ rk record, pool.shared.claims rk = some record →
      ∃ event ∈ pool.log, event.call.op = .claimsSet rk record) ∧
    ∀ thread ∈ pool.threads, ∀ rk record, ⟨.claimsGet rk, some record⟩ ∈ thread.past →
      ∃ event ∈ pool.log, event.call.op = .claimsSet rk record := by
  refine reached.invariant (fun pool =>
    (∀ rk record, pool.shared.claims rk = some record →
      ∃ event ∈ pool.log, event.call.op = .claimsSet rk record) ∧
    ∀ thread ∈ pool.threads, ∀ rk record, ⟨.claimsGet rk, some record⟩ ∈ thread.past →
      ∃ event ∈ pool.log, event.call.op = .claimsSet rk record) ?_ ?_
  · refine ⟨fun rk record h => ?_, fun thread h => absurd h List.not_mem_nil⟩
    rw [Pool.fresh, clean] at h
    cases h
  · rintro before after _ ⟨onRecord, read⟩ step
    cases step with
    | start task may =>
      refine ⟨onRecord, fun thread hthread => ?_⟩
      rcases List.mem_append.1 hthread with h | h
      · exact read thread h
      · rw [List.mem_singleton.1 h]
        exact fun rk record hcall => absurd hcall List.not_mem_nil
    | shift next may =>
      refine ⟨fun rk record h => onRecord rk record ?_, read⟩
      rw [← show next.claims = before.shared.claims from may]
      exact h
    | @advance index task past op resume answer waiting =>
      have kept {rk record} (h : ∃ event ∈ before.log, event.call.op = .claimsSet rk record) :
          ∃ event ∈ (before.advance (openSystem engine model) index task past op resume
            answer).log, event.call.op = .claimsSet rk record := by
        obtain ⟨event, hevent, hop⟩ := h
        exact ⟨event, List.mem_append_left _ hevent, hop⟩
      refine ⟨fun rk record h => ?_, fun thread hthread rk record hcall => ?_⟩
      · rcases World.perform_claims model before.shared op answer h with hbefore | hset
        · exact kept (onRecord rk record hbefore)
        · exact ⟨_, List.mem_append_right _ (List.mem_singleton_self _), hset⟩
      · rcases List.mem_or_eq_of_mem_set hthread with h | rfl
        · exact kept (read thread h rk record hcall)
        · rcases List.mem_append.1 hcall with h | h
          · exact kept (read _ (List.mem_of_getElem? waiting) rk record h)
          · have hcall := List.mem_singleton.1 h
            obtain rfl : op = .claimsGet rk := (congrArg Call.op hcall).symm
            exact kept (onRecord rk record (eq_of_heq (Call.mk.inj hcall).2).symm)

theorem claim_event (forms : engine.deps.forms = createFormRegistry (builtinForms reserver))
    (reached : Reachable (openSystem engine model) initial pool) {event : EngineEvent G}
    (logged : event ∈ pool.log) {rk : String} {record : ClaimRecord}
    (recorded : event.call.op = .claimsSet rk record) :
    ∃ key deliver opts seen reads listed preparing, event.task = .honor key deliver opts ∧
      seen.key = key ∧ event.past = reads ++ preparing ∧ LockRead key seen listed reads ∧
      rk = rowKey key ∧ record.lock = listed.outpoint ∧
      (∃ htlc preimage, ⟨.submitClaim htlc preimage, .ok record.claimTxId⟩ ∈ event.past) ∧
      EndsPending pool event.thread := by
  obtain ⟨thread, hthread, htask, later, hpast⟩ := reached.thread_of_event event logged
  have hmem := List.mem_of_getElem? hthread
  have run := reached.runs thread hmem
  generalize event.call = call at recorded hpast
  obtain ⟨op, reply⟩ := call
  cases recorded
  rw [hpast] at run
  obtain ⟨resume, point, tail⟩ := run.split
  obtain ⟨key, deliver, opts, seen, reads, listed, preparing, hhonor, hreads, locked, rfl, hlock,
    hsubmit, rfl⟩ := program_runs_claim forms point
  have hkey : seen.key = key := by
    apply seen_row_key reached thread hmem key seen
    rw [hpast, hreads]
    cases locked
    simp
  refine ⟨key, deliver, opts, seen, reads, listed, preparing, htask ▸ hhonor, hkey, hreads,
    locked, by rw [hkey], hlock, hsubmit, thread, hthread, fun calls result returns => ?_⟩
  obtain ⟨_, _, _, hend⟩ := (returns_call_iff _ _).1 (tail.trans returns)
  exact ((returns_pure_iff _).1 hend).2

/-- A thread that waits at the gate for an HTLC quote has read a claim as buried, and some other
thread has recorded that claim for the same quote. -/
theorem gate_claim (forms : engine.deps.forms = createFormRegistry (builtinForms reserver))
    (clean : initial.claims = fun _ => none)
    (reached : Reachable (openSystem engine model) initial pool) {index : Nat}
    {task : EngineTask G} {past : List (PortCall G)} {input : HonorTxnInput G}
    {resume : TxnReply → Async G EngineResult}
    (waiting : pool.threads[index]? = some ⟨task, past, .call (.runHonorTxn input) resume⟩)
    {seen : SeenRow} (read : ⟨.getSeen input.key, .ok (some seen)⟩ ∈ past)
    (htlcForm : seen.form = .htlc) :
    ∃ reads listed tip prior height, past = reads ++ [⟨.tipHeight, .ok tip⟩,
        ⟨.claimsGet (rowKey input.key), some prior⟩,
        ⟨.getTransaction prior.claimTxId, .ok (some ⟨some height⟩)⟩] ∧
      LockRead input.key seen listed reads ∧
      engine.deps.config.claimMargin ≤ tip - height + 1 ∧ input.outpoint = listed.outpoint ∧
      ∃ claim ∈ pool.log, claim.thread ≠ index ∧
        claim.call.op = .claimsSet (rowKey input.key) prior ∧
        (∃ deliver opts, claim.task = .honor input.key deliver opts) ∧
        (∃ own claimReads claimed preparing, claim.past = claimReads ++ preparing ∧
          LockRead input.key own claimed claimReads ∧ prior.lock = claimed.outpoint) ∧
        (∃ htlc preimage, ⟨.submitClaim htlc preimage, .ok prior.claimTxId⟩ ∈ claim.past) ∧
        EndsPending pool claim.thread := by
  have hmem := List.mem_of_getElem? waiting
  obtain ⟨deliver, opts, rfl, gate, rfl⟩ := program_runs_gate (reached.runs _ hmem)
  have hkey : seen.key = input.key := seen_row_key reached _ hmem _ _ read
  obtain ⟨reads, listed, tip, prior, height, hreads, locked, buried, houtpoint⟩ :=
    htlc_gate_reads forms gate read htlcForm
  rw [hkey] at hreads
  subst hreads
  refine ⟨reads, listed, tip, prior, height, rfl, locked, buried, houtpoint, ?_⟩
  obtain ⟨claim, hclaim, recorded⟩ := (claims_recorded clean reached).2 _ hmem
    (rowKey input.key) prior (by simp)
  obtain ⟨key, claimDeliver, claimOpts, own, claimReads, claimed, preparing, htask, hown, hpast,
    claimLocked, hrk, hlock, hsubmit, pending⟩ := claim_event forms reached hclaim recorded
  obtain rfl : input.key = key := by
    apply rowKey_injective hrk
    rw [← hkey, ← hown, locked.length_eq, claimLocked.length_eq]
  refine ⟨claim, hclaim, ?_, recorded, ⟨_, _, htask⟩, ⟨own, claimReads, claimed, preparing, hpast,
    claimLocked, hlock⟩, hsubmit, pending⟩
  rintro rfl
  obtain ⟨thread, hthread, ends⟩ := pending
  rw [waiting] at hthread
  cases hthread
  cases ends [⟨.runHonorTxn input, ⟨none, .ok ()⟩⟩] (.ok (.outcome (.honored input.outpoint)))
    (.call _ .nil)

end

section
variable (engine : HonorEngine G) (reserver : Bool)
  (forms : engine.deps.forms = createFormRegistry (builtinForms reserver)) (model : TxnModel)
  (db : Db G) (clock : Int) (pool : EnginePool G)
  (reached : Reachable (openSystem engine model) (.booted db clock) pool) (index : Nat)
  (task : EngineTask G) (past : List (PortCall G)) (input : HonorTxnInput G)
  (resume : TxnReply → Async G EngineResult)
  (waiting : pool.threads[index]? = some ⟨task, past, .call (.runHonorTxn input) resume⟩)
  (seen : SeenRow) (read : ⟨.getSeen input.key, .ok (some seen)⟩ ∈ past)
  (htlcForm : seen.form = .htlc)

include forms reached waiting read htlcForm

/-- When an HTLC honor is about to run its transaction, another honor of the same quote has
submitted a claim and ends with `htlc_claim_pending`, and this one has just read that claim as
buried past the deepest reorg tolerated. -/
theorem htlc_gate_behind_own_claim :
    ∃ reads tip prior height, past = reads ++ [⟨.tipHeight, .ok tip⟩,
        ⟨.claimsGet (rowKey input.key), some prior⟩,
        ⟨.getTransaction prior.claimTxId, .ok (some ⟨some height⟩)⟩] ∧
      engine.deps.config.maxReorgDepth + engine.deps.config.confirmationDepth + 1 ≤
        tip - height + 1 ∧
      ∃ submit ∈ pool.log, submit.thread ≠ index ∧
        (∃ deliver opts, submit.task = .honor input.key deliver opts) ∧
        (∃ htlc preimage, submit.call = ⟨.submitClaim htlc preimage, .ok prior.claimTxId⟩) ∧
        EndsPending pool submit.thread := by
  obtain ⟨reads, listed, tip, prior, height, hpast, -, buried, -, claim, hclaim, hother, -,
    ⟨deliver, opts, htask⟩, -, ⟨htlc, preimage, hsubmit⟩, pending⟩ :=
    gate_claim forms rfl reached waiting read htlcForm
  obtain ⟨submit, hlogged, hthread, hsame, hcall⟩ :=
    reached.event_of_event_past claim hclaim _ hsubmit
  rw [engine.margin] at buried
  exact ⟨reads, tip, prior, height, hpast, buried, submit, hlogged, hthread ▸ hother,
    ⟨deliver, opts, hsame.trans htask⟩, ⟨htlc, preimage, hcall⟩, hthread ▸ pending⟩

/-- The outpoint passed to the transaction is the recorded lock just when this call listed the
same lock first as the call that recorded the claim. -/
theorem htlc_consumes_claimed_lock_iff :
    ∃ reads listed tip prior height, past = reads ++ [⟨.tipHeight, .ok tip⟩,
        ⟨.claimsGet (rowKey input.key), some prior⟩,
        ⟨.getTransaction prior.claimTxId, .ok (some ⟨some height⟩)⟩] ∧
      LockRead input.key seen listed reads ∧
      ∃ claim ∈ pool.log, claim.call.op = .claimsSet (rowKey input.key) prior ∧
        ∃ own claimReads claimed preparing, claim.past = claimReads ++ preparing ∧
          LockRead input.key own claimed claimReads ∧
          (input.outpoint = prior.lock ↔ listed.outpoint = claimed.outpoint) := by
  obtain ⟨reads, listed, tip, prior, height, hpast, locked, -, houtpoint, claim, hclaim, -,
    recorded, -, ⟨own, claimReads, claimed, preparing, hclaimed, claimLocked, hlock⟩, -, -⟩ :=
    gate_claim forms rfl reached waiting read htlcForm
  exact ⟨reads, listed, tip, prior, height, hpast, locked, claim, hclaim, recorded, own,
    claimReads, claimed, preparing, hclaimed, claimLocked, by rw [houtpoint, hlock]⟩

end

/-! One HTLC quote, claimed by a first honor and taken to the gate by a second one. -/

def htlcQuote : AcceptedQuote := { sampleQuote with form := .htlc }

def lockAt (txId : Hex) : RawSettlementCandidate := ⟨⟨txId, 0⟩, 500, "ee", some 60⟩

def lockPorts (listed : List RawSettlementCandidate) : TotalPorts :=
  samplePorts 100 listed
    (some ⟨⟨"01", 0⟩, "bb", "cc", "dd", 1000, 500, some 60, .locked⟩) (some 70)

def honorHtlc : EngineTask Unit := .honor htlcQuote.key (fun _ => .pure .value) {}

def claimMoves (first second : List RawSettlementCandidate) :
    List (Move (World Unit) (Op Unit) Op.Reply (EngineTask Unit)) :=
  .start (.register htlcQuote {}) :: .replicate 3 (.advance 0 (lockPorts []).answer) ++
  .start honorHtlc :: .replicate 13 (.advance 1 (lockPorts first).answer) ++
  .start honorHtlc :: .replicate 8 (.advance 2 (lockPorts second).answer)

def claimPool (first second : List RawSettlementCandidate) : EnginePool Unit :=
  (Pool.fresh (.booted (.empty ()) 20)).play (openSystem sampleEngine .sync)
    (claimMoves first second)

theorem claimPool_reachable (first second : List RawSettlementCandidate) :
    Reachable (openSystem sampleEngine .sync) (.booted (.empty ()) 20)
      (claimPool first second) := by
  apply Pool.play_reachable
  simp only [claimMoves, List.append_assoc, List.cons_append]
  exact ⟨trivial, Pool.allowed_advances 3 ⟨trivial, Pool.allowed_advances 13 ⟨trivial,
    List.append_nil (List.replicate 8 _) ▸ Pool.allowed_advances 8 trivial⟩⟩⟩

theorem htlc_gate_behind_own_claim_sample :
    ∃ submit ∈ (claimPool [lockAt "01"] [lockAt "01"]).log, submit.thread ≠ 2 ∧
      EndsPending (claimPool [lockAt "01"] [lockAt "01"]) submit.thread := by
  obtain ⟨_, _, _, _, _, _, submit, hlogged, hother, _, _, pending⟩ :=
    htlc_gate_behind_own_claim sampleEngine true rfl .sync (.empty ()) 20 _
      (claimPool_reachable [lockAt "01"] [lockAt "01"]) 2 _ _ _ _ rfl _
      (List.mem_of_getElem? (i := 1) rfl) rfl
  exact ⟨submit, hlogged, hother, pending⟩

theorem htlc_consumes_other_lock :
    Reachable (openSystem sampleEngine .sync) (.booted (.empty ()) 20)
      (claimPool [lockAt "01"] [lockAt "02", lockAt "01"]) ∧
    ∃ task past input resume prior,
      (claimPool [lockAt "01"] [lockAt "02", lockAt "01"]).threads[2]? =
        some ⟨task, past, .call (.runHonorTxn input) resume⟩ ∧
      ⟨.claimsGet (rowKey htlcQuote.key), some prior⟩ ∈ past ∧
      ⟨.getTransaction prior.claimTxId, .ok (some ⟨some 70⟩)⟩ ∈ past ∧
      input.outpoint ≠ prior.lock := by
  refine ⟨claimPool_reachable _ _, _, _, _, _, ⟨"c0", ⟨"01", 0⟩⟩, rfl, ?_, ?_, by decide⟩
  · exact List.mem_of_getElem? (i := 6) rfl
  · exact List.mem_of_getElem? (i := 7) rfl

theorem htlc_consumes_claimed_lock_iff_sample :
    ∃ (prior : ClaimRecord) (listed claimed : RawSettlementCandidate),
      (∃ claim ∈ (claimPool [lockAt "01"] [lockAt "01"]).log,
        claim.call.op = .claimsSet (rowKey htlcQuote.key) prior) ∧
      (⟨"01", 0⟩ = prior.lock ↔ listed.outpoint = claimed.outpoint) := by
  obtain ⟨_, listed, _, prior, _, _, _, claim, hclaim, recorded, _, _, claimed, _, _, _, same⟩ :=
    htlc_consumes_claimed_lock_iff sampleEngine true rfl .sync (.empty ()) 20 _
      (claimPool_reachable [lockAt "01"] [lockAt "01"]) 2 _ _ _ _ rfl _
      (List.mem_of_getElem? (i := 1) rfl) rfl
  exact ⟨prior, listed, claimed, ⟨claim, hclaim, recorded⟩, same⟩

end HonorEngine
end ExferHonor
