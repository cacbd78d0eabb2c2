import ExferHonor.Core.World

/-! The reservation of a lock stands before the record of its claim, not before the claim: Phase A
at every point of its run, over a database that others use too. A crash leaves the database as it
is at that point. -/
namespace ExferHonor
namespace HtlcForm
open Effects Program Statements

variable {G : Type}

def Taken (db : Db G) (outpoint : Outpoint) : Prop := db.consumed.find? outpoint ≠ none

/-- What others do in between: anything that frees no outpoint, so no sweep of one. -/
def KeepsTaken (before after : World G) : Prop :=
  ∀ outpoint, Taken before.db outpoint → Taken after.db outpoint

def phaseASystem (model : TxnModel) : System (World G) (Op G) Op.Reply Thrown PrepareResult
    (ScoringCtx × SettlementCandidate) where
  program task := phaseA true task.1 task.2
  perform := World.perform model
  mayStart _ _ := True
  mayShift := KeepsTaken

theorem perform_keepsTaken (model : TxnModel) (world : World G) {op : Op G}
    (byForm : op.byForm = true) (answer : op.Reply) :
    KeepsTaken world (World.perform model world op answer).2 := by
  intro outpoint taken
  have change := World.perform_change model world op answer
  generalize (World.perform model world op answer).2.db = after at change ⊢
  cases change with
  | same => exact taken
  | reserved =>
    unfold Taken
    dsimp only
    rw [find?_reserveClaim]
    split
    · simp
    · exact taken
  | accepted => contradiction
  | observed => contradiction
  | honored => contradiction
  | swept => contradiction

theorem perform_reserves {model : TxnModel} {world : World G} {key : HonorKey}
    {outpoint : Outpoint} {claimTxId : Hex} {now : Int} {answer : Except Thrown Unit}
    (reserved : (World.perform model world (.reserveClaimOutpoint key outpoint claimTxId now)
      answer).1 = .ok ()) :
    Taken (World.perform model world (.reserveClaimOutpoint key outpoint claimTxId now)
      answer).2.db outpoint := by
  cases answer with
  | error e => cases reserved
  | ok _ =>
    show (reserveClaim world.db.consumed key outpoint claimTxId).find? outpoint ≠ none
    rw [find?_reserveClaim, if_pos rfl]
    simp

section
variable {model : TxnModel} {initial : World G}
  {pool : Pool (World G) (Op G) Op.Reply Thrown PrepareResult (ScoringCtx × SettlementCandidate)}

theorem reserved_taken (reached : Reachable (phaseASystem model) initial pool) :
    ∀ thread ∈ pool.threads, ∀ key outpoint claimTxId now,
      ⟨.reserveClaimOutpoint key outpoint claimTxId now, .ok ()⟩ ∈ thread.past →
      Taken pool.shared.db outpoint := by
  refine reached.invariant (fun pool => ∀ thread ∈ pool.threads, ∀ key outpoint claimTxId now,
    ⟨.reserveClaimOutpoint key outpoint claimTxId now, .ok ()⟩ ∈ thread.past →
    Taken pool.shared.db outpoint) (by simp [Pool.fresh]) fun before after run ih step => ?_
  cases step with
  | start task may =>
    intro thread hthread key outpoint claimTxId now hcall
    rcases List.mem_append.1 hthread with h | h
    · exact ih thread h key outpoint claimTxId now hcall
    · rw [List.mem_singleton.1 h] at hcall
      exact absurd hcall List.not_mem_nil
  | shift next may =>
    exact fun thread hthread key outpoint claimTxId now hcall =>
      may outpoint (ih thread hthread key outpoint claimTxId now hcall)
  | @advance index task past op resume answer waiting =>
    have hmem := List.mem_of_getElem? waiting
    have byForm : op.byForm = true := (phaseA_uses true task.1 task.2).of_call (run.runs _ hmem)
    have kept := perform_keepsTaken model before.shared byForm answer
    intro thread hthread key outpoint claimTxId now hcall
    rcases List.mem_or_eq_of_mem_set hthread with h | rfl
    · exact kept outpoint (ih thread h key outpoint claimTxId now hcall)
    · rcases List.mem_append.1 hcall with h | h
      · exact kept outpoint (ih _ hmem key outpoint claimTxId now h)
      · have hcall := List.mem_singleton.1 h
        obtain rfl : op = .reserveClaimOutpoint key outpoint claimTxId now :=
          (congrArg Call.op hcall).symm
        exact perform_reserves (eq_of_heq (Call.mk.inj hcall).2).symm

end

theorem phaseA_submitted {ctx : ScoringCtx} {candidate : SettlementCandidate}
    {past : List (PortCall G)} {rest : Async G PrepareResult}
    (run : (phaseA true ctx candidate).Runs past rest) {htlc : OnChainHtlc} {preimage : Hex}
    {reply : Except Thrown Hex} (submitted : ⟨.submitClaim htlc preimage, reply⟩ ∈ past) :
    (∃ claimTxId resume, rest = .call (.reserveClaimOutpoint ctx.quote.key candidate.outpoint
        claimTxId ctx.now) resume) ∨
      (∃ e, rest = .throw e) ∨
      ∃ claimTxId, ⟨.reserveClaimOutpoint ctx.quote.key candidate.outpoint claimTxId ctx.now,
        .ok ()⟩ ∈ past := by
  obtain ⟨before, later, rfl⟩ := List.mem_iff_append.1 submitted
  obtain ⟨resume, submitting, tail⟩ := run.split
  obtain ⟨-, -, -, -, hclaim⟩ := phaseA_runs_submit submitting
  cases hclaim
  cases reply with
  | error e => exact .inr (.inl ⟨e, ((runs_throw_iff e).1 tail).2⟩)
  | ok claimTxId =>
    rcases (runs_call_iff _ _).1 tail with ⟨_, hrest⟩ | ⟨reserved, last, rfl, recording⟩
    · exact .inl ⟨claimTxId, _, hrest⟩
    · cases reserved with
      | error e => exact .inr (.inl ⟨e, ((runs_throw_iff e).1 recording).2⟩)
      | ok _ => exact .inr (.inr ⟨claimTxId, by simp⟩)

/-- Phase A at every point of its run, also one where it crashes: a claim that has been submitted
finds its lock taken, unless the run stands between `submitClaim` and the end of
`reserveClaimOutpoint`, or one of the two has thrown. -/
theorem claim_reserved_before_recorded (model : TxnModel) (initial : World G)
    (pool : Pool (World G) (Op G) Op.Reply Thrown PrepareResult (ScoringCtx × SettlementCandidate))
    (reached : Reachable (phaseASystem model) initial pool)
    (thread : Thread (Op G) Op.Reply Thrown PrepareResult (ScoringCtx × SettlementCandidate))
    (running : thread ∈ pool.threads) (htlc : OnChainHtlc) (preimage : Hex)
    (reply : Except Thrown Hex) (submitted : ⟨.submitClaim htlc preimage, reply⟩ ∈ thread.past) :
    Taken pool.shared.db thread.task.2.outpoint ∨
      (∃ claimTxId resume, thread.rest = .call (.reserveClaimOutpoint thread.task.1.quote.key
        thread.task.2.outpoint claimTxId thread.task.1.now) resume) ∨
      ∃ e, thread.rest = .throw e := by
  rcases phaseA_submitted (reached.runs thread running) submitted with
    waits | thrown | ⟨_, reserved⟩
  · exact .inr (.inl waits)
  · exact .inr (.inr thrown)
  · exact .inl (reserved_taken reached thread running _ _ _ _ reserved)

/-! One Phase A over empty tables; the reservation throws. -/

def phaseATask : ScoringCtx × SettlementCandidate :=
  ⟨⟨{ sampleQuote with form := .htlc }, 100, 20, sampleConfig, ⟨true, true⟩⟩,
    ⟨.htlc, sampleQuote.quoteId, "01", 0, 500, "ee", some 60, true⟩⟩

def lockedPorts : TotalPorts :=
  samplePorts 100 [] (some ⟨⟨"01", 0⟩, "bb", "cc", "dd", 1000, 500, some 60, .locked⟩) none

def reserveAnswer (reserved : Except Thrown Unit) : (op : Op Unit) → op.Reply
  | .reserveClaimOutpoint _ _ _ _ => reserved
  | op => lockedPorts.answer op

def reservePool (reserved : Except Thrown Unit) : Pool (World Unit) (Op Unit) Op.Reply Thrown
    PrepareResult (ScoringCtx × SettlementCandidate) :=
  (Pool.fresh (.booted (.empty ()) 20)).play (phaseASystem .sync)
    (.start phaseATask :: .replicate 4 (.advance 0 (reserveAnswer reserved)))

theorem reservePool_reachable (reserved : Except Thrown Unit) :
    Reachable (phaseASystem .sync) (.booted (.empty ()) 20) (reservePool reserved) :=
  Pool.play_reachable ⟨trivial, List.append_nil (List.replicate 4 _) ▸
    Pool.allowed_advances 4 trivial⟩

theorem claim_unreserved :
    Reachable (phaseASystem .sync) (.booted (.empty ()) 20)
      (reservePool (.error (.text "database is locked"))) ∧
    ∃ thread ∈ (reservePool (.error (.text "database is locked"))).threads,
      (∃ htlc preimage reply, ⟨.submitClaim htlc preimage, reply⟩ ∈ thread.past) ∧
      ¬ Taken (reservePool (.error (.text "database is locked"))).shared.db
        thread.task.2.outpoint := by
  refine ⟨reservePool_reachable _, _, List.mem_of_getElem? (i := 0) rfl, ?_, ?_⟩
  · exact ⟨_, _, _, List.mem_of_getElem? (i := 2) rfl⟩
  · exact fun taken => taken rfl

theorem claim_reserved_before_recorded_sample :
    Taken (reservePool (.ok ())).shared.db phaseATask.2.outpoint := by
  rcases claim_reserved_before_recorded .sync (.booted (.empty ()) 20) _
    (reservePool_reachable (.ok ())) _ (List.mem_of_getElem? (i := 0) rfl) _ _ _
    (List.mem_of_getElem? (i := 2) rfl) with taken | ⟨_, _, waits⟩ | ⟨_, thrown⟩
  · exact taken
  · cases waits
  · cases thrown

end HtlcForm
end ExferHonor
