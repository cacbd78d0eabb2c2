import ExferHonor.Effects.Carried
import ExferHonor.Service.WireRefinement

/-! What the engine hears of services that answer truthfully: a call whose transient faults do not
use up its attempts has the service's own answer, and the calls of the ports follow. -/
namespace ExferHonor
open Effects

variable {G : Type}

namespace HttpRpc
variable {P R : Type}

def fetched (calls : List (Call (HttpOp P R) HttpOp.Reply)) : List (FetchResult R) :=
  calls.filterMap fun
    | ⟨.fetch _, reply⟩ => some reply
    | ⟨.sleep _, _⟩ => none

theorem run_of_returns {α : Type} {program : HttpAsync P R α}
    {calls : List (Call (HttpOp P R) HttpOp.Reply)} {result : Except RpcThrown α}
    (returns : program.Returns calls result) {script : Nat → FetchResult R} {start : Nat}
    (scripts : ∀ i reply, (fetched calls)[i]? = some reply → script (start + i) = reply) :
    program.run (scripted script) start = (calls, result, start + (fetched calls).length) := by
  induction program generalizing calls start with
  | pure value =>
    obtain ⟨rfl, rfl⟩ := (Program.returns_pure_iff _).1 returns
    rfl
  | throw error =>
    obtain ⟨rfl, rfl⟩ := (Program.returns_throw_iff _).1 returns
    rfl
  | call op resume ih =>
    obtain ⟨reply, later, rfl, tail⟩ := (Program.returns_call_iff _ _).1 returns
    cases op with
    | fetch request =>
      have first : script start = reply := scripts 0 reply rfl
      have rest : ∀ i other, (fetched later)[i]? = some other → script (start + 1 + i) = other :=
        fun i other found => by
          rw [Nat.add_assoc, Nat.add_comm 1]
          exact scripts (i + 1) other found
      have ran := ih reply tail rest
      simp only [Program.run, scripted, first, ran, fetched, List.filterMap_cons,
        List.length_cons]
      rw [Nat.add_assoc, Nat.add_comm 1]
    | sleep ms =>
      have ran := ih () tail scripts
      simp only [Program.run, scripted, ran, fetched, List.filterMap_cons]

theorem call_returns {url method : String} {token : Option String} {id : Nat} {params : P}
    {calls : List (Call (HttpOp P R) HttpOp.Reply)} {result : Except RpcThrown (Option R)}
    (returns : (call url token id method params).Returns calls result) :
    ∃ before last, fetched calls = before ++ [last] ∧
      (∀ reply ∈ before, reply.isEnvelope = false) ∧
      (last.isEnvelope = true ∨ before.length + 1 = maxAttempts) ∧
      result = last.answer url method := by
  let script (i : Nat) : FetchResult R := ((fetched calls)[i]?).getD (.responds 0 .null)
  have ran := @run_of_returns _ _ _ _ _ _ returns script 0 fun i reply found => by
    rw [Nat.zero_add]
    simp only [script, found, Option.getD_some]
  obtain ⟨last, few, others, ends, ended⟩ := runCall_ends url token id method params script
  rw [runCall, ran] at ended
  obtain ⟨rfl, count⟩ := Prod.mk.inj ended
  rw [Nat.zero_add] at count
  have present : last < (fetched calls).length := by omega
  have at_ (i : Nat) (h : i < (fetched calls).length) : script i = (fetched calls)[i] := by
    simp only [script, List.getElem?_eq_getElem h, Option.getD_some]
  refine ⟨(fetched calls).take last, (fetched calls)[last], ?_, ?_, ?_, ?_⟩
  · rw [List.take_append_getElem, List.take_of_length_le (by omega)]
  · intro reply among
    obtain ⟨i, hi, rfl⟩ := List.mem_take_iff_getElem.1 among
    have earlier : i < last := by omega
    rw [← at_ i (by omega)]
    exact others i earlier
  · rw [← at_ last present, List.length_take, Nat.min_eq_left (by omega)]
    exact ends
  · rw [← at_ last present]

/-- A network or parse failure or a busy node, or the envelope that is the truth. -/
def Honest (truth : JsonRpcEnvelope R) (reply : FetchResult R) : Prop :=
  reply.isTransient = true ∨
    ∃ status, isOk status = true ∧ reply = .responds status (.envelope truth)

theorem not_isEnvelope_of_isTransient {reply : FetchResult R}
    (transient : reply.isTransient = true) : reply.isEnvelope = false := by
  simp only [FetchResult.isTransient_eq, Bool.and_eq_true, Bool.not_eq_true'] at transient
  exact transient.1

theorem Honest.isTransient {truth : JsonRpcEnvelope R} {reply : FetchResult R}
    (honest : Honest truth reply) (other : reply.isEnvelope = false) :
    reply.isTransient = true := by
  rcases honest with transient | ⟨status, ok, rfl⟩
  · exact transient
  · rw [FetchResult.isEnvelope, ok] at other
    cases other

/-- An honest call that does not use up its attempts has the true answer. -/
theorem call_settles {url method : String} {token : Option String} {id : Nat} {params : P}
    {calls : List (Call (HttpOp P R) HttpOp.Reply)} {result : Except RpcThrown (Option R)}
    {truth : JsonRpcEnvelope R} (returns : (call url token id method params).Returns calls result)
    (honest : ∀ reply ∈ fetched calls, Honest truth reply) :
    result = truth.unwrap method ∨
      (fetched calls).map FetchResult.isTransient = List.replicate maxAttempts true := by
  obtain ⟨before, last, split, others, ends, rfl⟩ := call_returns returns
  rw [split] at honest ⊢
  obtain ⟨early, late⟩ := List.forall_mem_append.1 honest
  cases envelope : last.isEnvelope with
  | true =>
    rcases late last (List.mem_singleton_self _) with transient | ⟨status, ok, rfl⟩
    · rw [not_isEnvelope_of_isTransient transient] at envelope
      cases envelope
    · exact .inl (by rw [FetchResult.answer, if_pos ok]; rfl)
  | false =>
    rw [envelope] at ends
    refine .inr (List.eq_replicate_iff.2 ⟨?_, fun flag among => ?_⟩)
    · simpa using ends
    · obtain ⟨reply, present, rfl⟩ := List.mem_map.1 among
      rcases List.mem_append.1 present with earlier | this
      · exact (early reply earlier).isTransient (others reply earlier)
      · rw [List.mem_singleton.1 this]
        exact (late last (List.mem_singleton_self _)).isTransient envelope

end HttpRpc

abbrev Truth := (method : RpcMethod) → HttpRpc.JsonRpcEnvelope method.Result

def Truth.settled (truth : Truth) (method : RpcMethod) : Except Thrown (Option method.Result) :=
  ((truth method).unwrap method.name).mapError HttpRpc.RpcThrown.thrown

/-- The network drops or delays answers and makes none up; a transport of the consumer's own
hands them on. -/
def Faithful (truth : Truth) (call : WireCall G) : Prop :=
  match call with
  | ⟨.http _ method (.fetch _), reply⟩ => HttpRpc.Honest (truth method) reply
  | ⟨.transport _ method, reply⟩ => reply = truth.settled method
  | _ => True

def faults (past : List (WireCall G)) : List Bool :=
  past.filterMap fun
    | ⟨.http _ _ (.fetch _), reply⟩ => some reply.isTransient
    | _ => none

def GetsThrough (past : List (WireCall G)) : Prop :=
  ¬ List.replicate HttpRpc.maxAttempts true <:+: faults past

theorem GetsThrough.of_infix {past own : List (WireCall G)} (through : GetsThrough past)
    (among : own <:+: past) : GetsThrough own :=
  fun exhausted => through (exhausted.trans (among.filterMap _))

def onHttp (endpoint : Endpoint) (method : RpcMethod)
    (call : Call (HttpRpc.HttpOp RpcMethod method.Result) HttpRpc.HttpOp.Reply) : WireCall G :=
  ⟨.http endpoint method call.op, call.reply⟩

theorem faults_onHttp (endpoint : Endpoint) (method : RpcMethod)
    (own : List (Call (HttpRpc.HttpOp RpcMethod method.Result) HttpRpc.HttpOp.Reply)) :
    faults (own.map (onHttp (G := G) endpoint method)) =
      (HttpRpc.fetched own).map HttpRpc.FetchResult.isTransient := by
  rw [faults, HttpRpc.fetched, List.filterMap_map, List.map_filterMap]
  refine List.filterMap_congr fun call _ => ?_
  obtain ⟨op, reply⟩ := call
  cases op <;> rfl

theorem honest_of_faithful {truth : Truth} {endpoint : Endpoint} {method : RpcMethod}
    {own : List (Call (HttpRpc.HttpOp RpcMethod method.Result) HttpRpc.HttpOp.Reply)}
    (faithful : ∀ call ∈ own.map (onHttp (G := G) endpoint method), Faithful truth call) :
    ∀ reply ∈ HttpRpc.fetched own, HttpRpc.Honest (truth method) reply := by
  intro reply present
  obtain ⟨⟨op, answer⟩, among, fetch⟩ := List.mem_filterMap.1 present
  cases op with
  | fetch request =>
    cases fetch
    exact faithful _ (List.mem_map_of_mem among)
  | sleep ms => cases fetch

namespace HonorServiceConfig
variable {config : HonorServiceConfig} {truth : Truth} {past : List (WireCall G)}

theorem rpc_settles {method : RpcMethod} {result : Except Thrown (Option method.Result)}
    (returns : (config.rpc method).Returns past result)
    (faithful : ∀ call ∈ past, Faithful truth call) (through : GetsThrough past) :
    result = truth.settled method := by
  unfold rpc at returns
  split at returns
  · obtain ⟨reply, rfl, rfl⟩ := Program.returns_ask_iff.1 returns
    exact faithful _ (List.mem_singleton_self _)
  · obtain ⟨id, later, rfl, tail⟩ := (Program.returns_call_iff _ _).1 returns
    obtain ⟨own, ended, rfl, rfl, inner⟩ :=
      Program.Returns.of_within (fun _ => .refl _) tail
    obtain ⟨-, rest⟩ := List.forall_mem_cons.1 faithful
    rcases HttpRpc.call_settles inner (honest_of_faithful rest) with rfl | exhausted
    · rfl
    · refine absurd ?_ through
      change _ <:+: faults (own.map (onHttp method.endpoint method))
      rw [faults_onHttp, exhausted]

theorem chainCall_settles {txProperty : String} {op : RpcOp} {result : Except Thrown op.Reply}
    (returns : (config.chainCall txProperty op).Returns past result)
    (faithful : ∀ call ∈ past, Faithful truth call) (through : GetsThrough past) :
    result = .ok (op.read txProperty (truth.settled (.chain op))) := by
  obtain ⟨inner, attempted, rfl⟩ := Program.Returns.of_map returns
  obtain ⟨answer, rfl, answered⟩ := attempted.of_attempt
  rw [rpc_settles answered faithful through]
  rfl

theorem signCall_settles {op : SignOp} {result : Except Thrown op.Reply}
    (returns : (config.signCall op).Returns past result)
    (faithful : ∀ call ∈ past, Faithful truth call) (through : GetsThrough past) :
    result = .ok (op.read (truth.settled (.sign op))) := by
  obtain ⟨inner, attempted, rfl⟩ := Program.Returns.of_map returns
  obtain ⟨answer, rfl, answered⟩ := attempted.of_attempt
  rw [rpc_settles answered faithful through]
  rfl

theorem adapter_settles {α : Type} {txProperty : String} {program : RpcAsync α}
    {result : Except Thrown (Except Thrown α)}
    (returns : (program.interpret (config.chainCall txProperty)).attempt.Returns past result)
    (faithful : ∀ call ∈ past, Faithful truth call) (through : GetsThrough past) :
    result = .ok (program.eval fun op => op.read txProperty (truth.settled (.chain op))) := by
  obtain ⟨ended, rfl, inner⟩ := returns.of_attempt
  rw [inner.interpret_eval fun op own ended among carried =>
    chainCall_settles carried (fun call made => faithful call (among.subset made))
      (through.of_infix among)]

theorem keystore_settles {α : Type} {program : Program SignOp SignOp.Reply Thrown α}
    {result : Except Thrown (Except Thrown α)}
    (returns : (program.interpret config.signCall).attempt.Returns past result)
    (faithful : ∀ call ∈ past, Faithful truth call) (through : GetsThrough past) :
    result = .ok (program.eval fun op => op.read (truth.settled (.sign op))) := by
  obtain ⟨ended, rfl, inner⟩ := returns.of_attempt
  rw [inner.interpret_eval fun op own ended among carried =>
    signCall_settles carried (fun call made => faithful call (among.subset made))
      (through.of_infix among)]

end HonorServiceConfig

def Op.isWired : Op G → Bool
  | .tipHeight => true
  | .getOutputDatum _ => true
  | .findSettlementsByQuoteId _ => true
  | .getTransaction _ => true
  | .getTxInputs _ => true
  | .getOutputScript _ => true
  | .getHtlc _ => true
  | .controlsPayee _ => true
  | _ => false

def Truth.answer (truth : Truth) (toLowerCase : String → String)
    (addressDeriver : Option (PubKey → Hex)) (otherwise : (op : Op G) → op.Reply) :
    (op : Op G) → op.Reply :=
  let hears (txProperty : String) (op : RpcOp) : op.Reply :=
    op.read txProperty (truth.settled (.chain op))
  fun
  | .tipHeight => IndexerChainSource.tipHeight.eval (hears "tx_hex")
  | .getOutputDatum outpoint => (IndexerChainSource.getOutputDatum outpoint).eval (hears "tx_hex")
  | .findSettlementsByQuoteId quoteId =>
      (IndexerChainSource.findSettlementsByQuoteId quoteId).eval (hears "tx_hex")
  | .getTransaction txId => (IndexerChainSource.getTransaction txId).eval (hears "block_height")
  | .getTxInputs txId => (IndexerChainSource.getTxInputs txId).eval (hears "tx_hex")
  | .getOutputScript outpoint =>
      (IndexerChainSource.getOutputScript outpoint).eval (hears "tx_hex")
  | .getHtlc lock => (IndexerChainSource.getHtlc lock).eval (hears "tx_hex")
  | .controlsPayee payeePubkey =>
      (KeystoreKeyCustody.controlsPayee toLowerCase ⟨addressDeriver, none⟩ payeePubkey).eval
        fun op => op.read (truth.settled (.sign op))
  | op => otherwise op

namespace HonorServiceConfig
variable {config : HonorServiceConfig} {truth : Truth} {past : List (WireCall G)}

structure Reference (config : HonorServiceConfig) : Prop where
  chain : config.chainSource = none
  keys : config.keyCustody = none

theorem onChain_eq (reference : config.Reference) (op : Op G) (program : WireAsync G op.Reply) :
    config.onChain op program = program := by
  rw [onChain, reference.chain]
  rfl

theorem onKeys_eq (reference : config.Reference) (op : Op G) (program : WireAsync G op.Reply) :
    config.onKeys op program = program := by
  rw [onKeys, reference.keys]
  rfl

theorem carry_settles (reference : config.Reference) {toLowerCase : String → String} {op : Op G}
    {result : Except Thrown op.Reply} (wired : op.isWired = true)
    (returns : (config.carry toLowerCase op).Returns past result)
    (faithful : ∀ call ∈ past, Faithful truth call) (through : GetsThrough past)
    (otherwise : (op : Op G) → op.Reply) :
    result = .ok (truth.answer toLowerCase config.addressDeriver otherwise op) := by
  cases op with
  | tipHeight =>
    rw [carry, onChain_eq reference] at returns
    exact adapter_settles returns faithful through
  | getOutputDatum outpoint =>
    rw [carry, onChain_eq reference] at returns
    exact adapter_settles returns faithful through
  | findSettlementsByQuoteId quoteId =>
    rw [carry, onChain_eq reference] at returns
    exact adapter_settles returns faithful through
  | getTransaction txId =>
    rw [carry, onChain_eq reference] at returns
    exact adapter_settles returns faithful through
  | getTxInputs txId =>
    rw [carry, onChain_eq reference] at returns
    exact adapter_settles returns faithful through
  | getOutputScript outpoint =>
    rw [carry, onChain_eq reference] at returns
    exact adapter_settles returns faithful through
  | getHtlc lock =>
    rw [carry, onChain_eq reference] at returns
    exact adapter_settles returns faithful through
  | controlsPayee payeePubkey =>
    rw [carry, onKeys_eq reference] at returns
    exact keystore_settles returns faithful through
  | _ => cases wired

theorem settles (reference : config.Reference) {toLowerCase : String → String} {α : Type}
    {program : Async G α} {result : Except Thrown α}
    (returns : (program.interpret (config.carry toLowerCase)).Returns past result)
    (faithful : ∀ call ∈ past, Faithful truth call) (through : GetsThrough past)
    (otherwise : (op : Op G) → op.Reply) :
    ∃ calls, program.Returns calls result ∧ Carried (config.carry toLowerCase) calls past ∧
      ∀ call ∈ calls, call.op.isWired = true →
        call.reply = truth.answer toLowerCase config.addressDeriver otherwise call.op := by
  rcases Program.Returns.of_interpret returns with ⟨calls, carried, inner⟩ |
    ⟨calls, before, own, op, resume, error, -, -, -, throws, -⟩
  · refine ⟨calls, inner, carried, carried.answered fun op own reply among ended wired => ?_⟩
    exact Except.ok.inj (carry_settles reference wired ended
      (fun call made => faithful call (among.subset made)) (through.of_infix among) otherwise)
  · exact absurd throws (config.carry_carrier toLowerCase op).not_throws

theorem evals (reference : config.Reference) {toLowerCase : String → String} {α : Type}
    {program : Async G α} {result : Except Thrown α} (uses : Uses (·.isWired) program)
    (returns : (program.interpret (config.carry toLowerCase)).Returns past result)
    (faithful : ∀ call ∈ past, Faithful truth call) (through : GetsThrough past)
    (otherwise : (op : Op G) → op.Reply) :
    program.eval (truth.answer toLowerCase config.addressDeriver otherwise) = result := by
  obtain ⟨calls, inner, -, answered⟩ := settles reference returns faithful through otherwise
  exact inner.eval_eq fun call made => answered call made ((uses.runs inner).1 call made)

end HonorServiceConfig
end ExferHonor
