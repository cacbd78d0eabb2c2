import ExferHonor.Core.HtlcRuns
import ExferHonor.Core.World

/-! An honor that contends with others for one plain quote, whatever the store: what it is told,
what it calls and how it ends. -/
namespace ExferHonor
namespace HonorEngine
open Effects Program Statements

variable {G : Type}

def Settled (key : HonorKey) (db : Db G) : Prop :=
  ∃ row, db.seen.find? key = some row ∧ row.honoredAt ≠ none

/-- What a contender is told: a time in the window, the row as it was or a honored one, by the
chain what is in `answers`, of its transaction what is in `ends`. -/
inductive Told (key : HonorKey) (row : SeenRowSql) (answers : PortCall G → Prop)
    (ends : HonorTxnInput G → TxnReply → Prop) (settled : Prop) : PortCall G → Prop
  | clock {now} (inside : Lockable now row) : Told key row answers ends settled ⟨.clockNow, .ok now⟩
  | unhonored :
      Told key row answers ends settled ⟨.getSeen key, .ok (some (SqliteStore.rowFromSql row))⟩
  | honored {seen : SeenRow} (honored : seen.honoredAt ≠ none) (since : settled) :
      Told key row answers ends settled ⟨.getSeen key, .ok (some seen)⟩
  | query {op : Op G} {reply : op.Reply} (query : op.isQuery = true)
      (answered : answers ⟨op, reply⟩) : Told key row answers ends settled ⟨op, reply⟩
  | txn {input reply} (ended : ends input reply) :
      Told key row answers ends settled ⟨.runHonorTxn input, reply⟩

def Scored (engine : HonorEngine G) (key : HonorKey) (opts : RegisterOpts) (free : Outpoint → Prop)
    (calls : List (PortCall G)) : Prop :=
  ∀ sampling now seen scoring later verdict,
    calls = sampling ++ ⟨.getSeen key, .ok (some seen)⟩ :: (scoring ++ later) →
    (HonorEngine.now opts.now).Returns sampling (.ok now) → seen.honoredAt = none →
    (scoreQuote engine.deps (quoteFromSeen seen) now).Returns scoring verdict →
    ∃ candidate formId, verdict = .ok (.honor candidate formId) ∧ free candidate.outpoint

theorem Scored.of_append {engine : HonorEngine G} {key : HonorKey} {opts : RegisterOpts}
    {free : Outpoint → Prop} {calls more : List (PortCall G)}
    (scored : Scored engine key opts free (calls ++ more)) : Scored engine key opts free calls := by
  rintro sampling now seen scoring later verdict rfl
  exact scored sampling now seen scoring (later ++ more) verdict (by simp)

section
variable {engine : HonorEngine G} {reserver : Bool} {key : HonorKey} {row : SeenRowSql}
  {answers : PortCall G → Prop} {ends : HonorTxnInput G → TxnReply → Prop} {settled : Prop}
  {free : Outpoint → Prop} {deliver : Deliver G} {opts : RegisterOpts}

theorem scored_of_alike
    (forms : engine.deps.forms = createFormRegistry (builtinForms reserver))
    {answer : (op : Op G) → op.Reply} {calls : List (PortCall G)}
    (alike : ∀ call ∈ calls, call.op.isQuery = true → call.reply = answer call.op)
    (scores : ∀ sampling now seen later,
      calls = sampling ++ ⟨.getSeen key, .ok (some seen)⟩ :: later →
      (HonorEngine.now opts.now).Returns sampling (.ok now) → seen.honoredAt = none →
      ∃ candidate formId, (scoreQuote engine.deps (quoteFromSeen seen) now).eval answer =
        .ok (.honor candidate formId) ∧ free candidate.outpoint) :
    Scored engine key opts free calls := by
  rintro sampling now seen scoring later verdict rfl sampled unhonored scored
  obtain ⟨candidate, formId, hscores, hfree⟩ := scores sampling now seen _ rfl sampled unhonored
  have hverdict : (scoreQuote engine.deps (quoteFromSeen seen) now).eval answer = verdict :=
    scored.eval_eq fun call hcall =>
      alike call (by simp [hcall]) (((scoreQuote_queries forms _ _).runs scored).1 call hcall)
  exact ⟨candidate, formId, hverdict.symm.trans hscores, hfree⟩

theorem Told.mono {ends' : HonorTxnInput G → TxnReply → Prop} {later : Prop}
    (wider : ∀ input reply, ends input reply → ends' input reply) (imp : settled → later)
    {call : PortCall G} (told : Told key row answers ends settled call) :
    Told key row answers ends' later call := by
  cases told with
  | clock inside => exact .clock inside
  | unhonored => exact .unhonored
  | honored honored since => exact .honored honored (imp since)
  | query query answered => exact .query query answered
  | txn ended => exact .txn (wider _ _ ended)

theorem Told.answered {op : Op G} {reply : op.Reply}
    (told : Told key row answers ends settled ⟨op, reply⟩) (query : op.isQuery = true) :
    answers ⟨op, reply⟩ := by
  cases told <;> first | assumption | contradiction

theorem Told.ended {input : HonorTxnInput G} {reply : TxnReply}
    (told : Told key row answers ends settled ⟨.runHonorTxn input, reply⟩) : ends input reply := by
  cases told with
  | query query answered => contradiction
  | txn ended => exact ended

theorem Told.inside {now : Int}
    (told : Told key row answers ends settled ⟨.clockNow, .ok now⟩) : Lockable now row := by
  generalize hreply : (.ok now : Except Thrown Int) = reply at told
  cases told with
  | clock inside =>
    cases hreply
    exact inside
  | query query answered => contradiction

theorem Told.row_eq {seen : SeenRow}
    (told : Told key row answers ends settled ⟨.getSeen key, .ok (some seen)⟩)
    (unhonored : seen.honoredAt = none) : seen = SqliteStore.rowFromSql row := by
  generalize hreply : (.ok (some seen) : Except Thrown (Option SeenRow)) = reply at told
  cases told with
  | unhonored => exact Option.some.inj (Except.ok.inj hreply)
  | honored honored since =>
    cases hreply
    exact absurd unhonored honored
  | query query answered => contradiction

theorem Told.reads {reply : Except Thrown (Option SeenRow)}
    (told : Told key row answers ends settled ⟨.getSeen key, reply⟩) :
    ∃ seen, reply = .ok (some seen) ∧
      (seen = SqliteStore.rowFromSql row ∨ seen.honoredAt ≠ none ∧ settled) := by
  cases told with
  | unhonored => exact ⟨_, rfl, .inl rfl⟩
  | honored honored since => exact ⟨_, rfl, .inr ⟨honored, since⟩⟩
  | query query answered => contradiction

theorem now_told {calls : List (PortCall G)} {e : Thrown}
    (told : ∀ call ∈ calls, Told key row answers ends settled call) :
    ¬ (HonorEngine.now opts.now).Returns calls (.error e) := by
  intro sampled
  cases hopts : opts.now with
  | some injectedNow =>
    rw [hopts] at sampled
    cases ((returns_pure_iff _).1 sampled).2
  | none =>
    rw [hopts] at sampled
    obtain ⟨reply, rfl, hreply⟩ := returns_ask_iff.1 sampled
    have answered := told _ (List.mem_singleton_self _)
    cases answered with
    | clock inside => cases hreply
    | query query answered => contradiction

theorem sampled_inside {sampling : List (PortCall G)} {now : Int}
    (injected : ∀ now, opts.now = some now → Lockable now row)
    (sampled : (HonorEngine.now opts.now).Returns sampling (.ok now))
    (told : ∀ call ∈ sampling, Told key row answers ends settled call) : Lockable now row := by
  cases hopts : opts.now with
  | some injectedNow =>
    rw [hopts] at sampled
    obtain ⟨_, hnow⟩ := (returns_pure_iff _).1 sampled
    cases hnow
    exact injected now hopts
  | none =>
    rw [hopts] at sampled
    obtain ⟨reply, rfl, hreply⟩ := returns_ask_iff.1 sampled
    cases hreply
    exact Told.inside (told _ (List.mem_singleton_self _))

theorem plain_registered (forms : engine.deps.forms = createFormRegistry (builtinForms reserver))
    {seen : SeenRow} (plain : seen.form = .plain) :
    engine.deps.forms.get (quoteFromSeen seen).form = .ok PlainOutputForm.form := by
  rw [forms, show (quoteFromSeen seen).form = .plain from plain]
  rfl

theorem honorCandidate_plain_uses
    (forms : engine.deps.forms = createFormRegistry (builtinForms reserver)) {rethrow : Bool}
    {seen : SeenRow} {now : Int} {candidate : SettlementCandidate} (plain : seen.form = .plain) :
    Uses (fun op => op = .tipHeight ∨ ∃ input, op = .runHonorTxn input)
      (engine.honorCandidate key deliver rethrow seen now candidate) := by
  unfold honorCandidate
  dsimp only
  rw [plain_registered forms plain]
  exact ⟨.inl rfl, fun tip => by
    cases tip with
    | error e => trivial
    | ok tip => exact ⟨.inr ⟨_, rfl⟩, fun _ => Uses.ofExcept _⟩⟩

theorem contender_calls
    (forms : engine.deps.forms = createFormRegistry (builtinForms reserver))
    (plain : row.form = .plain) {past : List (PortCall G)}
    (told : ∀ call ∈ past, Told key row answers ends settled call) {op : Op G}
    {resume : op.Reply → Async G HonorOutcome}
    (run : (engine.honor key deliver opts).Runs past (.call op resume)) :
    op.isQuery = true ∨ op = .clockNow ∨ op = .getSeen key ∨ ∃ input, op = .runHonorTxn input := by
  by_cases query : op.isQuery = true
  · exact .inl query
  by_cases clock : op = .clockNow
  · exact .inr (.inl clock)
  by_cases hseen : .getSeen key = op
  · exact .inr (.inr (.inl hseen.symm))
  obtain ⟨now, sampling, seen, scoring, candidate, formId, later, rfl, -, unhonored, -, decided⟩ :=
    honor_runs_candidate run (scoreQuote_queries forms) query clock hseen
  obtain rfl := (told _ (by simp)).row_eq unhonored
  rcases (honorCandidate_plain_uses forms plain).of_call decided with rfl | gate
  · exact absurd rfl query
  · exact .inr (.inr (.inr gate))

theorem contender_gate
    (forms : engine.deps.forms = createFormRegistry (builtinForms reserver))
    (plain : row.form = .plain) (injected : ∀ now, opts.now = some now → Lockable now row)
    {past : List (PortCall G)} (scored : Scored engine key opts free past)
    (told : ∀ call ∈ past, Told key row answers ends settled call) {input : HonorTxnInput G}
    (reached : GateReached engine key deliver opts past input) :
    input.key = key ∧ input.deliver = deliver ∧ input.mode = .single ∧ Lockable input.now row ∧
      free input.outpoint := by
  cases reached with
  | @mk now sampling seen scoring candidate formId form preparing sampled unhonored scores
      registered prepared =>
    obtain rfl := (told _ (by simp)).row_eq unhonored
    have inside := sampled_inside injected sampled fun call hcall => told call (by simp [hcall])
    rw [forms, show (SqliteStore.rowFromSql row).form = .plain from plain] at registered
    cases registered
    obtain ⟨found, foundForm, hverdict, hfree⟩ := scored _ _ _ _ _ _ rfl sampled unhonored scores
    cases hverdict
    exact ⟨rfl, rfl, rfl, inside, hfree⟩

theorem honorCandidate_plain_gate
    (forms : engine.deps.forms = createFormRegistry (builtinForms reserver)) {rethrow : Bool}
    {seen : SeenRow} {now : Int} {candidate : SettlementCandidate} (plain : seen.form = .plain)
    (tipped : ∀ e, ¬ answers ⟨.tipHeight, .error e⟩) {calls : List (PortCall G)}
    {result : Except Thrown HonorOutcome}
    (returns : (engine.honorCandidate key deliver rethrow seen now candidate).Returns calls result)
    (told : ∀ call ∈ calls, Told key row answers ends settled call) :
    ∃ input reply, ⟨.runHonorTxn input, reply⟩ ∈ calls := by
  unfold honorCandidate at returns
  dsimp only at returns
  rw [plain_registered forms plain] at returns
  obtain ⟨reply, later, rfl, prepared⟩ := (returns_call_iff _ _).1 returns
  cases reply with
  | error e =>
    exact absurd ((told ⟨.tipHeight, .error e⟩ (List.mem_cons_self ..)).answered rfl) (tipped e)
  | ok tip =>
    obtain ⟨reply, last, rfl, -⟩ := (returns_call_iff _ _).1 prepared
    exact ⟨_, reply, List.mem_cons_of_mem _ (List.mem_cons_self ..)⟩

/-- How a contender ends: with what it makes of its transaction, or without one after the quote has
been honored. -/
theorem contender_ends
    (forms : engine.deps.forms = createFormRegistry (builtinForms reserver))
    (plain : row.form = .plain) (unhonored : row.honoredAt = none)
    (injected : ∀ now, opts.now = some now → Lockable now row)
    (tipped : ∀ e, ¬ answers ⟨.tipHeight, .error e⟩) {calls : List (PortCall G)}
    (scored : Scored engine key opts free calls)
    (told : ∀ call ∈ calls, Told key row answers ends settled call)
    {result : Except Thrown HonorOutcome}
    (returns : (engine.honor key deliver opts).Returns calls result) :
    (∃ input reply, ⟨.runHonorTxn input, reply⟩ ∈ calls ∧ ends input reply ∧
        input.deliver = deliver ∧
        result = settleTxn opts.rethrowDeliveryErrors input.outpoint reply) ∨
      settled ∧ result = .ok (.notReady (.decline .alreadyHonored none)) := by
  by_cases hgate : ∃ input reply, ⟨.runHonorTxn input, reply⟩ ∈ calls
  · obtain ⟨input, reply, called⟩ := hgate
    have ended := (told _ called).ended
    obtain ⟨past, later, rfl⟩ := List.mem_iff_append.1 called
    obtain ⟨reached, rfl, rfl⟩ := honor_returns_of_gate returns
    obtain ⟨-, hdeliver, -⟩ := contender_gate forms plain injected scored.of_append
      (fun call hcall => told call (List.mem_append_left _ hcall)) reached
    exact .inl ⟨input, reply, called, ended, hdeliver, rfl⟩
  · rcases returns.of_bind with ⟨e, sampled, rfl⟩ | ⟨sampling, now, later, rfl, sampled, reading⟩
    · exact absurd sampled (now_told told)
    rcases Returns.of_bind reading with ⟨e, asked, rfl⟩ | ⟨asking, found, rest, rfl, asked, read⟩
    · obtain ⟨reply, rfl, hreply⟩ := returns_ask_iff.1 asked
      obtain ⟨seen, rfl, -⟩ := Told.reads (told ⟨.getSeen key, reply⟩ (by simp))
      cases hreply
    obtain ⟨reply, rfl, hreply⟩ := returns_ask_iff.1 asked
    obtain ⟨seen, rfl, hseen⟩ := Told.reads (told ⟨.getSeen key, reply⟩ (by simp))
    cases hreply
    rcases hseen with rfl | ⟨honored, since⟩
    · rw [show gateStep0 (some (SqliteStore.rowFromSql row)) = .ok (SqliteStore.rowFromSql row) from
        if_neg (not_not.2 unhonored)] at read
      have honors {scoring last : List (PortCall G)} {verdict : Except Thrown HonorVerdict}
          (split : rest = scoring ++ last) (scores : (scoreQuote engine.deps
            (quoteFromSeen (SqliteStore.rowFromSql row)) now).Returns scoring verdict) :
          ∃ candidate formId, verdict = .ok (.honor candidate formId) := by
        subst split
        obtain ⟨candidate, formId, hverdict, -⟩ :=
          scored sampling now _ scoring last verdict rfl sampled unhonored scores
        exact ⟨candidate, formId, hverdict⟩
      rcases Returns.of_bind read with
        ⟨e, throws, rfl⟩ | ⟨scoring, found, last, rfl, scores, decided⟩
      · obtain ⟨_, _, h⟩ := honors (List.append_nil _).symm throws
        cases h
      · obtain ⟨candidate, formId, h⟩ := honors rfl scores
        cases h
        obtain ⟨input, reply, called⟩ := honorCandidate_plain_gate forms plain tipped decided
          fun call hcall => told call (by simp [hcall])
        exact absurd ⟨input, reply, by simp [called]⟩ hgate
    · rw [gateStep0, if_pos honored] at read
      exact .inr ⟨since, ((returns_pure_iff _).1 read).2⟩

end

end HonorEngine
end ExferHonor
