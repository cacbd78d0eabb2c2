import ExferHonor.Forms.Plain
import Mathlib.Data.List.Induction

/-! What the plain form decides on a list of candidates, when every port answers. -/
namespace ExferHonor
namespace PlainOutputForm
open Effects

variable {G : Type}

section
variable (ports : TotalPorts) (ctx : ScoringCtx) (raw : RawSettlementCandidate)

def DeepEnough : Prop :=
  ∃ blockHeight, raw.blockHeight = some blockHeight ∧
    ctx.tip - blockHeight + 1 ≥ ctx.config.confirmationDepth

def Payable : Prop := Binds ports ctx raw ∧ DeepEnough ctx raw

end

variable {ports : TotalPorts} {ctx : ScoringCtx}

theorem depthGate_deep {raw : RawSettlementCandidate} (deep : DeepEnough ctx raw) :
    depthGate ctx (settlementCandidate ctx raw .plain) =
      .honor (settlementCandidate ctx raw .plain) .plain := by
  obtain ⟨blockHeight, hheight, hdepth⟩ := deep
  simp [depthGate, settlementCandidate, hheight, Int.not_lt.2 hdepth]

theorem depthGate_shallow {raw : RawSettlementCandidate} (shallow : ¬ DeepEnough ctx raw) :
    ∃ detail, depthGate ctx (settlementCandidate ctx raw .plain) =
      .wait .insufficientDepth (some detail) := by
  unfold depthGate settlementCandidate
  cases hheight : raw.blockHeight with
  | none => exact ⟨_, rfl⟩
  | some blockHeight =>
    have hdepth : ctx.tip - blockHeight + 1 < ctx.config.confirmationDepth :=
      Int.not_le.1 fun hdepth => shallow ⟨blockHeight, hheight, hdepth⟩
    exact ⟨_, if_pos hdepth⟩

theorem scoreLoop_cons (ports : TotalPorts) (ctx : ScoringCtx) (raw : RawSettlementCandidate)
    (rest : List RawSettlementCandidate) (lastDecline : Option HonorVerdict)
    (sawSkippedOnly : Bool) :
    (Payable ports ctx raw ∧
      (scoreLoop (G := G) ctx (raw :: rest) lastDecline sawSkippedOnly).eval ports.answer =
        .ok (.honor (settlementCandidate ctx raw .plain) .plain)) ∨
    (Foreign ports ctx raw ∧
      (scoreLoop (G := G) ctx (raw :: rest) lastDecline sawSkippedOnly).eval ports.answer =
        (scoreLoop (G := G) ctx rest lastDecline sawSkippedOnly).eval ports.answer) ∨
    ∃ verdict : HonorVerdict,
      ((Binds ports ctx raw ∧ verdict.decision = .wait) ∨
        (¬ Binds ports ctx raw ∧ ¬ Foreign ports ctx raw ∧ verdict.decision = .decline)) ∧
      ¬ Payable ports ctx raw ∧
      (scoreLoop (G := G) ctx (raw :: rest) lastDecline sawSkippedOnly).eval ports.answer =
        (scoreLoop (G := G) ctx rest (some verdict) false).eval ports.answer := by
  obtain ⟨result, heval, hresult⟩ := runBindingSpine_eval (G := G) ports ctx raw .plain
  rcases hresult with ⟨binds, rfl⟩ | ⟨foreign, rfl⟩ | ⟨hunbound, hours, reason, detail, rfl⟩
  · by_cases deep : DeepEnough ctx raw
    · refine .inl ⟨⟨binds, deep⟩, ?_⟩
      simp [scoreLoop, heval, Except.bind, depthGate_deep deep]
    · obtain ⟨detail, hgate⟩ := depthGate_shallow deep
      refine .inr (.inr ⟨.wait .insufficientDepth (some detail), .inl ⟨binds, rfl⟩,
        fun payable => deep payable.2, ?_⟩)
      simp [scoreLoop, heval, Except.bind, hgate]
  · refine .inr (.inl ⟨foreign, ?_⟩)
    simp [scoreLoop, heval, Except.bind]
  · refine .inr (.inr ⟨.decline reason (some detail), .inr ⟨hunbound, hours, rfl⟩,
      fun payable => hunbound payable.1, ?_⟩)
    simp [scoreLoop, heval, Except.bind]

def FirstPayable (ports : TotalPorts) (ctx : ScoringCtx) (raw : List RawSettlementCandidate)
    (c : RawSettlementCandidate) : Prop :=
  ∃ before after, raw = before ++ c :: after ∧ (∀ d ∈ before, ¬ Payable ports ctx d) ∧
    Payable ports ctx c

namespace FirstPayable

theorem mem {raw : List RawSettlementCandidate} {c : RawSettlementCandidate}
    (first : FirstPayable ports ctx raw c) : c ∈ raw := by
  obtain ⟨before, after, rfl, _, _⟩ := first
  simp

theorem payable {raw : List RawSettlementCandidate} {c : RawSettlementCandidate}
    (first : FirstPayable ports ctx raw c) : Payable ports ctx c := by
  obtain ⟨_, _, _, _, payable⟩ := first
  exact payable

theorem cons_of_payable {c : RawSettlementCandidate} {rest : List RawSettlementCandidate}
    (payable : Payable ports ctx c) : FirstPayable ports ctx (c :: rest) c :=
  ⟨[], rest, rfl, by simp, payable⟩

theorem cons_of_not {c d : RawSettlementCandidate} {rest : List RawSettlementCandidate}
    (unpaid : ¬ Payable ports ctx d) (first : FirstPayable ports ctx rest c) :
    FirstPayable ports ctx (d :: rest) c := by
  obtain ⟨before, after, rfl, hbefore, payable⟩ := first
  exact ⟨d :: before, after, rfl, List.forall_mem_cons.2 ⟨unpaid, hbefore⟩, payable⟩

end FirstPayable

section
variable (G)

def bindingValid (ports : TotalPorts) (ctx : ScoringCtx) (c : RawSettlementCandidate) : Bool :=
  match (runBindingSpine ctx c .plain : Async G SpineResult).eval ports.answer with
  | .ok (.ok _) => true
  | _ => false

def skipped (ports : TotalPorts) (ctx : ScoringCtx) (c : RawSettlementCandidate) : Bool :=
  match (runBindingSpine ctx c .plain : Async G SpineResult).eval ports.answer with
  | .ok .skip => true
  | _ => false

def lastDecision (ports : TotalPorts) (ctx : ScoringCtx) (before : Decision)
    (raw : List RawSettlementCandidate) : Decision :=
  raw.foldl (fun decision c =>
    if skipped G ports ctx c then decision
    else if bindingValid G ports ctx c then .wait else .decline) before

end

theorem bindingValid_iff (c : RawSettlementCandidate) :
    bindingValid G ports ctx c = true ↔ Binds ports ctx c := by
  obtain ⟨result, heval, hresult⟩ := runBindingSpine_eval (G := G) ports ctx c .plain
  unfold bindingValid
  rw [heval]
  rcases hresult with ⟨binds, rfl⟩ | ⟨foreign, rfl⟩ | ⟨hunbound, _, reason, detail, rfl⟩
  · simp [binds]
  · simpa using fun binds => Binds.not_foreign binds foreign
  · simpa using hunbound

theorem skipped_iff (c : RawSettlementCandidate) :
    skipped G ports ctx c = true ↔ Foreign ports ctx c := by
  obtain ⟨result, heval, hresult⟩ := runBindingSpine_eval (G := G) ports ctx c .plain
  unfold skipped
  rw [heval]
  rcases hresult with ⟨binds, rfl⟩ | ⟨foreign, rfl⟩ | ⟨_, hours, reason, detail, rfl⟩
  · simpa using binds.not_foreign
  · simp [foreign]
  · simpa using hours

theorem exists_firstPayable {raw : List RawSettlementCandidate} {c : RawSettlementCandidate}
    (hmem : c ∈ raw) (payable : Payable ports ctx c) :
    ∃ first, FirstPayable ports ctx raw first := by
  induction raw with
  | nil => contradiction
  | cons d rest ih =>
    by_cases hd : Payable ports ctx d
    · exact ⟨d, .cons_of_payable hd⟩
    · have hrest : c ∈ rest := (List.mem_cons.1 hmem).resolve_left fun h => hd (h ▸ payable)
      obtain ⟨first, hfirst⟩ := ih hrest
      exact ⟨first, hfirst.cons_of_not hd⟩

theorem scoreLoop_firstPayable {raw : List RawSettlementCandidate} {c : RawSettlementCandidate}
    (first : FirstPayable ports ctx raw c) (lastDecline : Option HonorVerdict)
    (sawSkippedOnly : Bool) :
    (scoreLoop (G := G) ctx raw lastDecline sawSkippedOnly).eval ports.answer =
      .ok (.honor (settlementCandidate ctx c .plain) .plain) := by
  obtain ⟨before, after, rfl, hbefore, payable⟩ := first
  induction before generalizing lastDecline sawSkippedOnly with
  | nil =>
    rcases scoreLoop_cons (G := G) ports ctx c after lastDecline
        sawSkippedOnly with ⟨_, heval⟩ | ⟨foreign, _⟩ | ⟨_, _, unpaid, _⟩
    · exact heval
    · exact absurd foreign payable.1.not_foreign
    · exact absurd payable unpaid
  | cons d before ih =>
    obtain ⟨hd, hrest⟩ := List.forall_mem_cons.1 hbefore
    rcases scoreLoop_cons (G := G) ports ctx d (before ++ c :: after)
        lastDecline sawSkippedOnly with ⟨hpaid, _⟩ | ⟨_, heval⟩ | ⟨verdict, _, _, heval⟩
    · exact absurd hpaid hd
    · exact heval.trans (ih _ _ hrest)
    · exact heval.trans (ih _ _ hrest)

theorem scoreLoop_unpaid {raw : List RawSettlementCandidate}
    (unpaid : ∀ c ∈ raw, ¬ Payable ports ctx c) (lastDecline : Option HonorVerdict)
    (sawSkippedOnly : Bool) :
    ∃ verdict,
      (scoreLoop (G := G) ctx raw lastDecline sawSkippedOnly).eval ports.answer = .ok verdict ∧
      verdict.decision =
        lastDecision G ports ctx ((lastDecline.map HonorVerdict.decision).getD .wait) raw := by
  induction raw generalizing lastDecline sawSkippedOnly with
  | nil =>
    cases lastDecline with
    | none => exact ⟨_, rfl, rfl⟩
    | some verdict => exact ⟨verdict, rfl, rfl⟩
  | cons c rest ih =>
    obtain ⟨hc, hrest⟩ := List.forall_mem_cons.1 unpaid
    rcases scoreLoop_cons (G := G) ports ctx c rest lastDecline
        sawSkippedOnly with ⟨hpaid, _⟩ | ⟨foreign, heval⟩ | ⟨verdict, hverdict, _, heval⟩
    · exact absurd hpaid hc
    · obtain ⟨last, hlast, hdecision⟩ := ih hrest lastDecline sawSkippedOnly
      refine ⟨last, heval.trans hlast, hdecision.trans ?_⟩
      simp [lastDecision, (skipped_iff c).2 foreign]
    · obtain ⟨last, hlast, hdecision⟩ := ih hrest (some verdict) false
      refine ⟨last, heval.trans hlast, hdecision.trans ?_⟩
      rcases hverdict with ⟨binds, hwait⟩ | ⟨hunbound, hours, hdecline⟩
      · have hskip : skipped G ports ctx c = false :=
          Bool.eq_false_iff.2 fun h => binds.not_foreign ((skipped_iff c).1 h)
        simp [lastDecision, hskip, (bindingValid_iff c).2 binds, hwait]
      · have hskip : skipped G ports ctx c = false :=
          Bool.eq_false_iff.2 fun h => hours ((skipped_iff c).1 h)
        have hvalid : bindingValid G ports ctx c = false :=
          Bool.eq_false_iff.2 fun h => hunbound ((bindingValid_iff c).1 h)
        simp [lastDecision, hskip, hvalid, hdecline]

theorem lastDecision_eq (before : Decision) (raw : List RawSettlementCandidate) :
    lastDecision G ports ctx before raw =
      ((raw.filter fun c => !skipped G ports ctx c).getLast?).elim before fun c =>
        if bindingValid G ports ctx c then .wait else .decline := by
  induction raw using List.reverseRecOn with
  | nil => rfl
  | append_singleton raw c ih =>
    rw [lastDecision, List.foldl_append, List.filter_append]
    cases hskip : skipped G ports ctx c
    · simp [hskip]
    · simpa [hskip, lastDecision] using ih

theorem score_firstPayable {raw : List RawSettlementCandidate} {c : RawSettlementCandidate}
    (first : FirstPayable ports ctx raw c) :
    (score (G := G) ctx raw).eval ports.answer =
      .ok (.honor (settlementCandidate ctx c .plain) .plain) := by
  have hne : raw.isEmpty = false := List.isEmpty_eq_false_iff.2 (List.ne_nil_of_mem first.mem)
  rw [score, hne]
  exact scoreLoop_firstPayable first none true

theorem score_unpaid {raw : List RawSettlementCandidate}
    (unpaid : ∀ c ∈ raw, ¬ Payable ports ctx c) :
    ∃ verdict, (score (G := G) ctx raw).eval ports.answer = .ok verdict ∧
      verdict.decision = lastDecision G ports ctx .wait raw := by
  cases raw with
  | nil => exact ⟨_, rfl, rfl⟩
  | cons c rest => exact scoreLoop_unpaid unpaid none true

theorem lastDecision_ne_honor (raw : List RawSettlementCandidate) :
    lastDecision G ports ctx .wait raw ≠ .honor := by
  rw [lastDecision_eq]
  cases (raw.filter fun c => !skipped G ports ctx c).getLast? with
  | none => simp
  | some c => cases h : bindingValid G ports ctx c <;> simp [h]

theorem score_eq_honor_iff (raw : List RawSettlementCandidate) (candidate : SettlementCandidate)
    (form : SettlementFormId) :
    (score (G := G) ctx raw).eval ports.answer = .ok (.honor candidate form) ↔
      form = .plain ∧ ∃ c, FirstPayable ports ctx raw c ∧
        candidate = settlementCandidate ctx c .plain := by
  by_cases hpaid : ∃ c ∈ raw, Payable ports ctx c
  · obtain ⟨c, hmem, payable⟩ := hpaid
    obtain ⟨first, hfirst⟩ := exists_firstPayable hmem payable
    rw [score_firstPayable hfirst]
    constructor
    · intro h
      cases h
      exact ⟨rfl, first, hfirst, rfl⟩
    · rintro ⟨rfl, other, hother, rfl⟩
      rw [← score_firstPayable (G := G) hfirst, score_firstPayable hother]
  · have unpaid : ∀ c ∈ raw, ¬ Payable ports ctx c := fun c hc payable => hpaid ⟨c, hc, payable⟩
    obtain ⟨verdict, heval, hdecision⟩ := score_unpaid (G := G) unpaid
    constructor
    · intro h
      rw [heval] at h
      cases h
      exact absurd hdecision.symm (lastDecision_ne_honor raw)
    · rintro ⟨_, c, hfirst, _⟩
      exact absurd hfirst.payable (unpaid c hfirst.mem)

/-- Soundness, completeness and the choice of the candidate; the datum of an honored output
names the one quote it can be honored for. -/
theorem score_honors_exactly_payable (ports : TotalPorts) (ctx : ScoringCtx)
    (raw : List RawSettlementCandidate) :
    ((∃ candidate form, (score (G := G) ctx raw).eval ports.answer =
        .ok (.honor candidate form)) ↔ ∃ c ∈ raw, Payable ports ctx c) ∧
    (∀ candidate form,
      (score (G := G) ctx raw).eval ports.answer = .ok (.honor candidate form) →
        ∃ c, FirstPayable ports ctx raw c ∧ candidate.outpoint = c.outpoint ∧
          candidate.value = c.value ∧ candidate.scriptHex = c.scriptHex) ∧
    ∀ ctx' raw' candidate candidate' form form',
      (score (G := G) ctx raw).eval ports.answer = .ok (.honor candidate form) →
      (score (G := G) ctx' raw').eval ports.answer = .ok (.honor candidate' form') →
      candidate.outpoint = candidate'.outpoint → ctx.quote.quoteId = ctx'.quote.quoteId := by
  refine ⟨⟨?_, ?_⟩, ?_, ?_⟩
  · rintro ⟨candidate, form, heval⟩
    obtain ⟨_, c, first, _⟩ := (score_eq_honor_iff raw candidate form).1 heval
    exact ⟨c, first.mem, first.payable⟩
  · rintro ⟨c, hmem, payable⟩
    obtain ⟨first, hfirst⟩ := exists_firstPayable hmem payable
    exact ⟨_, _, score_firstPayable hfirst⟩
  · intro candidate form heval
    obtain ⟨_, c, first, rfl⟩ := (score_eq_honor_iff raw candidate form).1 heval
    exact ⟨c, first, rfl, rfl, rfl⟩
  · intro ctx' raw' candidate candidate' form form' heval heval' houtpoint
    obtain ⟨_, c, first, rfl⟩ := (score_eq_honor_iff raw candidate form).1 heval
    obtain ⟨_, c', first', rfl⟩ := (score_eq_honor_iff raw' candidate' form').1 heval'
    have hsame : c.outpoint = c'.outpoint := houtpoint
    exact (first.payable.1.carries.congr hsame).unique first'.payable.1.carries

def scoreDecision (G : Type) (ports : TotalPorts) (ctx : ScoringCtx)
    (raw : List RawSettlementCandidate) : Except Thrown Decision :=
  ((score ctx raw : Async G HonorVerdict).eval ports.answer).map HonorVerdict.decision

theorem scoreDecision_payable {raw : List RawSettlementCandidate}
    (paid : ∃ c ∈ raw, Payable ports ctx c) : scoreDecision G ports ctx raw = .ok .honor := by
  obtain ⟨c, hmem, payable⟩ := paid
  obtain ⟨first, hfirst⟩ := exists_firstPayable hmem payable
  rw [scoreDecision, score_firstPayable hfirst]
  rfl

theorem scoreDecision_unpaid {raw : List RawSettlementCandidate}
    (unpaid : ¬ ∃ c ∈ raw, Payable ports ctx c) :
    scoreDecision G ports ctx raw = .ok (lastDecision G ports ctx .wait raw) := by
  have hunpaid : ∀ c ∈ raw, ¬ Payable ports ctx c := fun c hc payable => unpaid ⟨c, hc, payable⟩
  obtain ⟨verdict, heval, hdecision⟩ := score_unpaid (G := G) hunpaid
  rw [scoreDecision, heval, ← hdecision]
  rfl

theorem skipped_of_valid {c : RawSettlementCandidate} (valid : bindingValid G ports ctx c = true) :
    skipped G ports ctx c = false :=
  Bool.eq_false_iff.2 fun h => ((bindingValid_iff c).1 valid).not_foreign ((skipped_iff c).1 h)

private theorem lastDecision_valid (raw : List RawSettlementCandidate) :
    lastDecision G ports ctx .wait (raw.filter (bindingValid G ports ctx)) = .wait := by
  have hall : ∀ c ∈ raw.filter (bindingValid G ports ctx), bindingValid G ports ctx c = true :=
    fun c hc => (List.mem_filter.1 hc).2
  rw [lastDecision_eq, List.filter_eq_self.2 fun c hc => by simp [skipped_of_valid (hall c hc)]]
  cases hlast : (raw.filter (bindingValid G ports ctx)).getLast? with
  | none => rfl
  | some c => simp [hall c (List.mem_of_getLast? hlast)]

private theorem exists_last_not_skipped {raw : List RawSettlementCandidate}
    (valid : ∃ c ∈ raw, bindingValid G ports ctx c = true) :
    ∃ last, (raw.filter fun c => !skipped G ports ctx c).getLast? = some last := by
  obtain ⟨c, hmem, hvalid⟩ := valid
  have hown : c ∈ raw.filter fun c => !skipped G ports ctx c :=
    List.mem_filter.2 ⟨hmem, by simp [skipped_of_valid hvalid]⟩
  exact ⟨_, List.getLast?_eq_some_getLast (List.ne_nil_of_mem hown)⟩

/-- Outputs that do not bind change the decision exactly when no payment is deep enough yet
and one of them comes after the last payment that binds. -/
theorem scoreDecision_filter_iff (ports : TotalPorts) (ctx : ScoringCtx)
    (raw : List RawSettlementCandidate) (valid : ∃ c ∈ raw, bindingValid G ports ctx c = true) :
    scoreDecision G ports ctx raw =
        scoreDecision G ports ctx (raw.filter (bindingValid G ports ctx)) ↔
      (∃ c ∈ raw, bindingValid G ports ctx c = true ∧ DeepEnough ctx c) ∨
      ∃ c, (raw.filter fun c => !skipped G ports ctx c).getLast? = some c ∧
        bindingValid G ports ctx c = true := by
  have hpayable : (∃ c ∈ raw, bindingValid G ports ctx c = true ∧ DeepEnough ctx c) ↔
      ∃ c ∈ raw, Payable ports ctx c := by
    simp only [bindingValid_iff, Payable]
  rw [hpayable]
  by_cases paid : ∃ c ∈ raw, Payable ports ctx c
  · have hfiltered : ∃ c ∈ raw.filter (bindingValid G ports ctx), Payable ports ctx c := by
      obtain ⟨c, hmem, payable⟩ := paid
      exact ⟨c, List.mem_filter.2 ⟨hmem, (bindingValid_iff c).2 payable.1⟩, payable⟩
    rw [scoreDecision_payable paid, scoreDecision_payable hfiltered]
    exact iff_of_true rfl (.inl paid)
  · have hfiltered : ¬ ∃ c ∈ raw.filter (bindingValid G ports ctx), Payable ports ctx c := by
      rintro ⟨c, hmem, payable⟩
      exact paid ⟨c, (List.mem_filter.1 hmem).1, payable⟩
    rw [scoreDecision_unpaid paid, scoreDecision_unpaid hfiltered, lastDecision_valid,
      lastDecision_eq]
    obtain ⟨last, hlast⟩ := exists_last_not_skipped valid
    simp only [paid, false_or, hlast, Option.elim_some, Option.some.injEq, exists_eq_left']
    cases hvalid : bindingValid G ports ctx last <;> simp

/-! A payment one block deep, followed by someone else's output with the same datum. -/

def paymentCtx : ScoringCtx where
  quote := sampleQuote
  tip := 100
  now := 10
  config := sampleConfig
  optional := ⟨true, true⟩

def shallowPayment : RawSettlementCandidate := ⟨⟨"01", 0⟩, 500, "ee", some 100⟩
def dustOutput : RawSettlementCandidate := ⟨⟨"02", 0⟩, 1, "ee", some 100⟩

theorem scoreDecision_filter_dust :
    bindingValid Unit (samplePorts 100 [] none none) paymentCtx shallowPayment = true ∧
    scoreDecision Unit (samplePorts 100 [] none none) paymentCtx [shallowPayment, dustOutput] =
      .ok .decline ∧
    scoreDecision Unit (samplePorts 100 [] none none) paymentCtx
      ([shallowPayment, dustOutput].filter
        (bindingValid Unit (samplePorts 100 [] none none) paymentCtx)) = .ok .wait := by
  refine ⟨rfl, rfl, rfl⟩

theorem scoreDecision_filter_iff_dust :
    ¬ ((∃ c ∈ [shallowPayment, dustOutput],
        bindingValid Unit (samplePorts 100 [] none none) paymentCtx c = true ∧
        DeepEnough paymentCtx c) ∨
      ∃ c, ([shallowPayment, dustOutput].filter fun c =>
          !skipped Unit (samplePorts 100 [] none none) paymentCtx c).getLast? = some c ∧
        bindingValid Unit (samplePorts 100 [] none none) paymentCtx c = true) := by
  rw [← scoreDecision_filter_iff (samplePorts 100 [] none none) paymentCtx
    [shallowPayment, dustOutput] ⟨shallowPayment, by simp, rfl⟩]
  intro h
  cases h

end PlainOutputForm
end ExferHonor
