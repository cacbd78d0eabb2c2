import ExferHonor.Core.PaidRuns
import ExferHonor.Service.HonestServices

/-! Goods against payments. Of the services only what they tell has to be true: the node's
transactions, the indexer's data and walletd's signatures. They may fail as they like. -/
namespace ExferHonor
open Effects

variable {G : Type}

def TxOutput.quoteId? (output : TxOutput) : Option QuoteId :=
  (output.datum.filter fun datum => datum.val.length = quoteIdBytes).map fun datum =>
    hexText datum.val

/-- What has been so outside at some time: what the transactions hold, the heights they were mined
at, the tips of the chain and the addresses that walletd signs for. -/
structure ChainRecord where
  transactions : Hex → Option TxBody
  minedAt : Hex → Int → Prop
  tips : Int → Prop
  signs : Hex → Prop

namespace ChainRecord
variable (chain : ChainRecord)

def output (o : Outpoint) : Option TxOutput :=
  (chain.transactions o.txId).bind (IndexerChainSource.outputAt · o.outputIndex)

def Carries (o : Outpoint) (quoteId : QuoteId) : Prop :=
  ∃ output, chain.output o = some output ∧ output.quoteId? = some quoteId

def PaysTo (o : Outpoint) (scriptHex : Hex) : Prop :=
  ∃ output, chain.output o = some output ∧ hexText output.script.val = scriptHex

def Spends (txId : Hex) (prevout : Outpoint) : Prop :=
  ∃ body, chain.transactions txId = some body ∧ ∃ input ∈ body.inputs.val,
    prevout = ⟨hexText input.prevTxId.toList, input.outputIndex.toNat⟩

/-- The payment of a quote: an output with its id, the exact amount and the payee's address, deep
enough under a tip, to a key that is the payee's and, where the tuning asks for it, from the
payer. -/
structure Pays (config : HonorConfig) (quote : AcceptedQuote) (o : Outpoint) : Prop where
  output : ∃ output, chain.output o = some output ∧ output.quoteId? = some quote.quoteId ∧
    output.value.toNat = quote.exferAmount ∧
    hexText output.script.val = domainHashAddr quote.payeePubkey config.addressDeriver
  deep : ∃ height tip, chain.minedAt o.txId height ∧ chain.tips tip ∧
    tip - height + 1 ≥ config.confirmationDepth
  payee : chain.signs (domainHashAddr quote.payeePubkey config.addressDeriver)
  payer : ∀ payerPubkey, quote.payerPubkey = some payerPubkey →
    config.payerBinding = .source ∨ config.requirePayerFunded = true →
    ∃ prevout, chain.Spends o.txId prevout ∧
      chain.PaysTo prevout (domainHashAddr payerPubkey config.addressDeriver)

def Backs : (method : RpcMethod) → method.Shape → Prop
  | .chain .getBlockHeight, height => chain.tips height
  | .chain (.getTransaction hash), status =>
      (∃ body, chain.transactions hash = some body ∧
        IndexerChainSource.ValidStatus body status) ∧
      ∀ height, status.blockHeight = some height → chain.minedAt hash height
  | .chain (.getOutputDatum txId outputIndex), datum =>
      datum.unhonorable = false → ∀ quoteId, datum.quoteId = some quoteId →
        chain.Carries ⟨txId, outputIndex⟩ quoteId
  | .sign (.signMessage address _), signature =>
      (signature.any fun signature => !signature.isEmpty) = true → chain.signs address
  | .chain (.findSettlementsByQuoteId _), _ => True
  | .chain (.htlcStatus _ _), _ => True

def Tells (call : WireCall G) : Prop :=
  match call with
  | ⟨.http _ method (.fetch _), reply⟩ => ∀ status result, HttpRpc.isOk status = true →
      reply = .responds status (.envelope ⟨none, some (some result)⟩) → chain.Backs method result
  | ⟨.transport _ method, reply⟩ => ∀ result, reply = .ok (some (some result)) →
      chain.Backs method result
  | _ => True

def Heard : RpcCall → Prop
  | ⟨.getBlockHeight, .ok height⟩ => chain.Backs (.chain .getBlockHeight) height
  | ⟨.getTransaction hash, .ok (some status)⟩ => chain.Backs (.chain (.getTransaction hash)) status
  | ⟨.getOutputDatum txId outputIndex, .ok datum⟩ =>
      chain.Backs (.chain (.getOutputDatum txId outputIndex)) datum
  | _ => True

structure Lists (c : RawSettlementCandidate) : Prop where
  output : ∃ output, chain.output c.outpoint = some output ∧ c.value = output.value.toNat ∧
    c.scriptHex = hexText output.script.val
  mined : ∀ height, c.blockHeight = some height → chain.minedAt c.outpoint.txId height

def Holds (addressDeriver : Option (PubKey → Hex)) : PortCall G → Prop
  | ⟨.tipHeight, .ok tip⟩ => chain.tips tip
  | ⟨.getOutputDatum o, .ok datum⟩ => datum.honorable = true →
      ∀ quoteId, datum.quoteIdHex = some quoteId → chain.Carries o quoteId
  | ⟨.findSettlementsByQuoteId _, .ok listed⟩ => ∀ c ∈ listed, chain.Lists c
  | ⟨.getTxInputs txId, .ok inputs⟩ => ∀ prevout ∈ inputs, chain.Spends txId prevout
  | ⟨.getOutputScript o, .ok scriptHex⟩ => chain.PaysTo o scriptHex
  | ⟨.controlsPayee payeePubkey, .ok true⟩ =>
      chain.signs (domainHashAddr payeePubkey addressDeriver)
  | _ => True

end ChainRecord

/-! From the network up to the adapters. -/

namespace HttpRpc

theorem FetchResult.of_answer {R : Type} {url method : String} {reply : FetchResult R}
    {result : Option R} (answered : reply.answer url method = .ok result) :
    ∃ status, isOk status = true ∧ reply = .responds status (.envelope ⟨none, result⟩) := by
  cases reply with
  | fails e => cases answered
  | responds status body =>
    unfold FetchResult.answer at answered
    dsimp only at answered
    split at answered
    next ok =>
      cases body with
      | unparsable e => cases answered
      | null => cases answered
      | envelope env =>
        obtain ⟨error, told⟩ := env
        cases error with
        | some error => cases answered
        | none =>
          cases answered
          exact ⟨status, ok, rfl⟩
    next => cases answered

end HttpRpc

namespace HonorServiceConfig
variable {config : HonorServiceConfig} {chain : ChainRecord} {past : List (WireCall G)}

theorem rpc_backed {method : RpcMethod} {result : method.Shape}
    (returns : (config.rpc method).Returns past (.ok (some (some result))))
    (tells : ∀ call ∈ past, chain.Tells call) : chain.Backs method result := by
  unfold rpc at returns
  split at returns
  · obtain ⟨reply, rfl, same⟩ := Program.returns_ask_iff.1 returns
    exact tells _ (List.mem_singleton_self _) result same.symm
  · obtain ⟨id, later, rfl, tail⟩ := (Program.returns_call_iff _ _).1 returns
    obtain ⟨own, ended, rfl, same, inner⟩ := Program.Returns.of_within (fun _ => .refl _) tail
    obtain ⟨-, rest⟩ := List.forall_mem_cons.1 tells
    obtain ⟨before, last, split, -, -, rfl⟩ := HttpRpc.call_returns inner
    cases answered : last.answer _ _ with
    | error e =>
      rw [answered] at same
      cases same
    | ok told =>
      rw [answered] at same
      cases same
      obtain ⟨status, ok, rfl⟩ := HttpRpc.FetchResult.of_answer answered
      have present : HttpRpc.FetchResult.responds status (.envelope ⟨none, some (some result)⟩) ∈
          HttpRpc.fetched own := split ▸ List.mem_append_right _ (List.mem_singleton_self _)
      obtain ⟨⟨op, reply⟩, among, fetch⟩ := List.mem_filterMap.1 present
      cases op with
      | fetch request =>
        cases fetch
        exact rest _ (List.mem_map_of_mem among) status result ok rfl
      | sleep ms => cases fetch

theorem chainCall_heard {txProperty : String} {op : RpcOp} {reply : op.Reply}
    (returns : (config.chainCall txProperty op).Returns past (.ok reply))
    (tells : ∀ call ∈ past, chain.Tells call) : chain.Heard ⟨op, reply⟩ := by
  obtain ⟨inner, attempted, same⟩ := Program.Returns.of_map returns
  obtain ⟨answer, rfl, answered⟩ := attempted.of_attempt
  obtain rfl := Except.ok.inj same
  rcases answer with e | (_ | _ | result)
  · cases op <;> trivial
  · cases op <;> trivial
  · cases op <;> trivial
  · have backed := rpc_backed answered tells
    cases op <;> exact backed

theorem adapter_heard {α : Type} {txProperty : String} {program : RpcAsync α}
    {ended : Except Thrown α}
    (returns : (program.interpret (config.chainCall txProperty)).attempt.Returns past (.ok ended))
    (tells : ∀ call ∈ past, chain.Tells call) :
    ∃ calls, program.Returns calls ended ∧ ∀ call ∈ calls, chain.Heard call := by
  obtain ⟨_, same, inner⟩ := returns.of_attempt
  obtain rfl := Except.ok.inj same
  rcases inner.of_interpret with ⟨calls, carried, program⟩ |
    ⟨_, _, _, op, _, _, -, -, -, throws, -⟩
  · exact ⟨calls, program, carried.answered fun op own reply among carries =>
      chainCall_heard carries fun call made => tells call (among.subset made)⟩
  · obtain ⟨_, attempted, same⟩ := Program.Returns.of_map throws
    obtain ⟨_, rfl, -⟩ := attempted.of_attempt
    cases same

end HonorServiceConfig

/-! What the adapters make of it. -/

namespace IndexerChainSource
variable {chain : ChainRecord} {calls : List RpcCall}

theorem getOutputDatum_carries {o : Outpoint} {datum : OutputDatum}
    (returns : (getOutputDatum o).Returns calls (.ok datum))
    (heard : ∀ call ∈ calls, chain.Heard call) (honorable : datum.honorable = true)
    {quoteId : QuoteId} (named : datum.quoteIdHex = some quoteId) : chain.Carries o quoteId := by
  obtain ⟨_, r, later, rfl, rfl, rest⟩ := Program.Returns.of_ask_bind returns
  obtain ⟨rfl, same⟩ := (Program.returns_pure_iff _).1 rest
  cases same
  rw [Bool.and_eq_true, beq_iff_eq] at honorable
  exact heard _ List.mem_cons_self honorable.1 quoteId named

theorem node_bind_told {α : Type} {txId : Hex} {next : Option RawTxStatus → RpcAsync α} {value : α}
    (returns : ((node txId).bind next).Returns calls (.ok value))
    (heard : ∀ call ∈ calls, chain.Heard call) :
    ∃ reply later, later ⊆ calls ∧ (next reply).Returns later (.ok value) ∧
      ∀ status, reply = some status →
        (∃ body, chain.transactions txId = some body ∧
          decodeTxHex status.txHex = .ok body.decoded) ∧
        ∀ height, status.blockHeight = some height → chain.minedAt txId height := by
  obtain ⟨_, reply, later, rfl, rfl, rest⟩ := Program.Returns.of_ask_bind returns
  refine ⟨reply, later, List.subset_cons_self _ _, rest, ?_⟩
  rintro status rfl
  obtain ⟨⟨body, told, valid⟩, mined⟩ := heard _ List.mem_cons_self
  exact ⟨⟨body, told, decodeTxHex_valid valid⟩, mined⟩

theorem outputAt_of_decoded {body : TxBody} {i : Int} {decoded : DecodedOutput}
    (found : nth body.decoded.outputs i = some decoded) :
    ∃ output, outputAt body i = some output ∧ output.decoded = decoded := by
  rw [TxBody.decoded, nth_map] at found
  exact Option.map_eq_some_iff.1 found

theorem joinSettlement_lists {s : Outpoint} {candidate : RawSettlementCandidate}
    (returns : (joinSettlement s).Returns calls (.ok candidate))
    (heard : ∀ call ∈ calls, chain.Heard call) : chain.Lists candidate := by
  obtain ⟨reply, later, -, rest, told⟩ := node_bind_told returns heard
  cases reply with
  | none => cases ((Program.returns_throw_iff _).1 rest).2
  | some tx =>
    obtain ⟨⟨body, held, decodes⟩, mined⟩ := told tx rfl
    simp only [decodes, Program.ofExcept_ok, Program.bind_eq, Program.pure_bind] at rest
    split at rest
    · cases ((Program.returns_throw_iff _).1 rest).2
    next decoded found =>
      obtain ⟨output, present, rfl⟩ := outputAt_of_decoded found
      cases ((Program.returns_pure_iff _).1 rest).2
      refine ⟨⟨output, ?_, rfl, rfl⟩, mined⟩
      rw [ChainRecord.output, held]
      exact present

theorem joinSettlements_lists {settlements : List Outpoint} {out : List RawSettlementCandidate}
    (returns : (joinSettlements settlements).Returns calls (.ok out))
    (heard : ∀ call ∈ calls, chain.Heard call) : ∀ c ∈ out, chain.Lists c := by
  induction settlements generalizing calls out with
  | nil =>
    cases ((Program.returns_pure_iff _).1 returns).2
    exact List.forall_mem_nil _
  | cons s settlements ih =>
    obtain ⟨own, candidate, later, rfl, joined, rest⟩ := Program.Returns.ok_of_bind returns
    obtain ⟨before, tail, last, rfl, others, ended⟩ := Program.Returns.ok_of_bind rest
    cases ((Program.returns_pure_iff _).1 ended).2
    obtain ⟨first, second⟩ := List.forall_mem_append.1 heard
    exact List.forall_mem_cons.2 ⟨joinSettlement_lists joined first,
      ih others (List.forall_mem_append.1 second).1⟩

theorem findSettlementsByQuoteId_lists {quoteId : QuoteId} {out : List RawSettlementCandidate}
    (returns : (findSettlementsByQuoteId quoteId).Returns calls (.ok out))
    (heard : ∀ call ∈ calls, chain.Heard call) : ∀ c ∈ out, chain.Lists c := by
  obtain ⟨_, settlements, later, rfl, rfl, rest⟩ := Program.Returns.of_ask_bind returns
  exact joinSettlements_lists rest (List.forall_mem_cons.1 heard).2

theorem getTxInputs_spends {txId : Hex} {inputs : List Outpoint}
    (returns : (getTxInputs txId).Returns calls (.ok inputs))
    (heard : ∀ call ∈ calls, chain.Heard call) : ∀ prevout ∈ inputs, chain.Spends txId prevout := by
  obtain ⟨reply, later, -, rest, told⟩ := node_bind_told returns heard
  cases reply with
  | none =>
    cases ((Program.returns_pure_iff _).1 rest).2
    exact List.forall_mem_nil _
  | some tx =>
    obtain ⟨⟨body, held, decodes⟩, -⟩ := told tx rfl
    simp only [decodes, Program.ofExcept_ok, Program.bind_eq, Program.pure_bind,
      Program.pure_eq] at rest
    cases ((Program.returns_pure_iff _).1 rest).2
    rw [TxBody.decoded, List.map_map]
    intro prevout present
    obtain ⟨input, among, rfl⟩ := List.mem_map.1 present
    exact ⟨body, held, input, among, rfl⟩

theorem getOutputScript_paysTo {o : Outpoint} {scriptHex : Hex}
    (returns : (getOutputScript o).Returns calls (.ok scriptHex))
    (heard : ∀ call ∈ calls, chain.Heard call) : chain.PaysTo o scriptHex := by
  obtain ⟨reply, later, -, rest, told⟩ := node_bind_told returns heard
  cases reply with
  | none => cases ((Program.returns_throw_iff _).1 rest).2
  | some tx =>
    obtain ⟨⟨body, held, decodes⟩, -⟩ := told tx rfl
    simp only [decodes, Program.ofExcept_ok, Program.bind_eq, Program.pure_bind] at rest
    split at rest
    · cases ((Program.returns_throw_iff _).1 rest).2
    next decoded found =>
      obtain ⟨output, present, rfl⟩ := outputAt_of_decoded found
      cases ((Program.returns_pure_iff _).1 rest).2
      refine ⟨output, ?_, rfl⟩
      rw [ChainRecord.output, held]
      exact present

end IndexerChainSource

namespace KeystoreKeyCustody

theorem controlsPayee_signed {toLowerCase : String → String} {opts : KeystoreKeyCustodyOpts}
    {payeePubkey : PubKey} {calls : List (Call SignOp SignOp.Reply)}
    (returns : (controlsPayee toLowerCase opts payeePubkey).Returns calls (.ok true)) :
    ∃ message signature,
      ⟨.signMessage (domainHashAddr payeePubkey opts.addressDeriver) message,
        .ok (.result signature)⟩ ∈ calls ∧
      (signature.any fun signature => !signature.isEmpty) = true := by
  obtain ⟨reply, later, rfl, rest⟩ := (Program.returns_call_iff _ _).1 returns
  have denied (e : Thrown) : ¬ ((Program.ofExcept (isNoSuchKey toLowerCase e)).bind fun noKey =>
      if noKey = true then (.pure false : Program SignOp SignOp.Reply Thrown Bool)
      else .throw (testSignFault e)).Returns later (.ok true) := by
    intro decided
    cases hkey : isNoSuchKey toLowerCase e with
    | error other =>
      rw [hkey] at decided
      cases ((Program.returns_throw_iff _).1 decided).2
    | ok noKey =>
      rw [hkey] at decided
      cases noKey with
      | true => cases ((Program.returns_pure_iff _).1 decided).2
      | false => cases ((Program.returns_throw_iff _).1 decided).2
  rcases reply with e | (_ | _ | signature)
  · exact absurd rest (denied e)
  · exact absurd rest (denied _)
  · exact absurd rest (denied _)
  · obtain ⟨-, same⟩ := (Program.returns_pure_iff _).1 rest
    exact ⟨_, signature, List.mem_cons_self, (Except.ok.inj same).symm⟩

end KeystoreKeyCustody

namespace HonorServiceConfig
variable {config : HonorServiceConfig} {chain : ChainRecord} {past : List (WireCall G)}

theorem keystore_holds {toLowerCase : String → String} {opts : KeystoreKeyCustodyOpts}
    {payeePubkey : PubKey}
    (returns : ((KeystoreKeyCustody.controlsPayee toLowerCase opts payeePubkey).interpret
      config.signCall).attempt.Returns past (.ok (.ok true)))
    (tells : ∀ call ∈ past, chain.Tells call) :
    chain.signs (domainHashAddr payeePubkey opts.addressDeriver) := by
  obtain ⟨_, same, inner⟩ := returns.of_attempt
  obtain rfl := Except.ok.inj same
  rcases inner.of_interpret with ⟨calls, carried, program⟩ | ⟨_, _, _, _, _, _, -, -, -, -, same⟩
  · obtain ⟨message, signature, made, signed⟩ :=
      KeystoreKeyCustody.controlsPayee_signed program
    have backed : ∀ call ∈ calls, ∀ address message signature,
        call = ⟨.signMessage address message, .ok (.result signature)⟩ →
        (signature.any fun signature => !signature.isEmpty) = true → chain.signs address := by
      refine carried.answered fun op own reply among carries address message signature made
        signed => ?_
      cases made
      obtain ⟨_, attempted, same⟩ := Program.Returns.of_map carries
      obtain ⟨answer, rfl, answered⟩ := attempted.of_attempt
      rcases answer with e | (_ | _ | result)
      · cases same
      · cases same
      · cases same
      · cases same
        exact rpc_backed answered (fun call made => tells call (among.subset made)) signed
    exact backed _ made _ _ _ rfl signed
  · cases same

theorem carry_holds (reference : config.Reference) {toLowerCase : String → String} {op : Op G}
    {reply : op.Reply} (returns : (config.carry toLowerCase op).Returns past (.ok reply))
    (tells : ∀ call ∈ past, chain.Tells call) :
    chain.Holds config.addressDeriver ⟨op, reply⟩ := by
  cases op with
  | tipHeight =>
    rw [carry, onChain_eq reference] at returns
    cases reply with
    | error e => trivial
    | ok tip =>
      obtain ⟨calls, program, heard⟩ := adapter_heard returns tells
      obtain ⟨_, rfl, same⟩ := Program.returns_ask_iff.1 program
      cases same
      exact heard _ (List.mem_singleton_self _)
  | getOutputDatum outpoint =>
    rw [carry, onChain_eq reference] at returns
    cases reply with
    | error e => trivial
    | ok datum =>
      obtain ⟨calls, program, heard⟩ := adapter_heard returns tells
      exact fun honorable quoteId =>
        IndexerChainSource.getOutputDatum_carries program heard honorable
  | findSettlementsByQuoteId quoteId =>
    rw [carry, onChain_eq reference] at returns
    cases reply with
    | error e => trivial
    | ok listed =>
      obtain ⟨calls, program, heard⟩ := adapter_heard returns tells
      exact IndexerChainSource.findSettlementsByQuoteId_lists program heard
  | getTxInputs txId =>
    rw [carry, onChain_eq reference] at returns
    cases reply with
    | error e => trivial
    | ok inputs =>
      obtain ⟨calls, program, heard⟩ := adapter_heard returns tells
      exact IndexerChainSource.getTxInputs_spends program heard
  | getOutputScript outpoint =>
    rw [carry, onChain_eq reference] at returns
    cases reply with
    | error e => trivial
    | ok scriptHex =>
      obtain ⟨calls, program, heard⟩ := adapter_heard returns tells
      exact IndexerChainSource.getOutputScript_paysTo program heard
  | controlsPayee payeePubkey =>
    rw [carry, onKeys_eq reference] at returns
    rcases reply with e | _ | _
    · trivial
    · trivial
    · exact keystore_holds returns tells
  | _ => trivial

end HonorServiceConfig

/-! From the ports up to the goods. -/

namespace ChainRecord
variable {chain : ChainRecord} {calls : List (PortCall G)}

theorem Carries.of_names {deriver : Option (PubKey → Hex)} {o : Outpoint} {datum : OutputDatum}
    {quoteId : QuoteId} (holds : chain.Holds (G := G) deriver ⟨.getOutputDatum o, .ok datum⟩)
    (names : datum.Names quoteId) : chain.Carries o quoteId := by
  obtain ⟨honorable, quoteIdHex, carried, decoded⟩ := names
  obtain ⟨-, rfl⟩ := (decodeSettlementDatum_ok_iff _ _).1 decoded
  exact holds honorable _ carried

theorem Pays.of_told {config : HonorConfig} {quote : AcceptedQuote} {o : Outpoint}
    (told : PaymentTold config quote calls o)
    (holds : ∀ call ∈ calls, chain.Holds config.addressDeriver call) :
    chain.Pays config quote o := by
  cases told with
  | @mk now tip optional listed c tipTold listing among binding deep same =>
    subst same
    obtain ⟨datum, read, names⟩ := binding.datum
    obtain ⟨output, present, carried⟩ := Carries.of_names (holds _ read) names
    obtain ⟨⟨paid, found, value, script⟩, mined⟩ := holds _ listing c among
    obtain rfl : output = paid := Option.some.inj (present.symm.trans found)
    obtain ⟨height, confirmed, buried⟩ := deep
    refine ⟨⟨output, present, carried, ?_, ?_⟩, ⟨height, tip, mined height confirmed,
      holds _ tipTold, buried⟩, holds _ binding.custody, fun payerPubkey flagged source => ?_⟩
    · exact value.symm.trans binding.amount
    · exact script.symm.trans binding.address
    · obtain ⟨inputs, listed, prevout, present, paid⟩ := binding.payer payerPubkey flagged source
      exact ⟨prevout, holds _ listed prevout present, holds _ paid⟩

end ChainRecord

namespace HonorService
variable {service : HonorService G} {toLowerCase : String → String} {model : TxnModel}
  {initial : WireWorld G}
  {pool : Pool (WireWorld G) (WireOp G) WireOp.Reply Thrown EngineResult (EngineTask G)}

def openWire (service : HonorService G) (toLowerCase : String → String) (model : TxnModel) :
    System (WireWorld G) (WireOp G) WireOp.Reply Thrown EngineResult (EngineTask G) :=
  service.wireSystem toLowerCase model (fun _ _ => True) HonorEngine.KeepsClaims

theorem port_event
    (reached : Reachable (service.openWire toLowerCase model) initial pool) :
    ∃ seen, Reachable (HonorEngine.openSystem service.engine model) initial.world seen ∧
      ∀ event ∈ pool.log, ∀ op, event.call.op = .port op →
        ∃ next ∈ seen.log, next.call.op = op ∧ next.task = event.task ∧
          ∃ past, past <+: event.past ∧
            Carried (service.config.carry toLowerCase) next.past past := by
  obtain ⟨seen, reachable, shown⟩ :=
    (service.refinement toLowerCase model (fun _ _ => True) HonorEngine.KeepsClaims).exists_shown
      reached
  refine ⟨seen, reachable, fun event logged op called => ?_⟩
  rcases shown.log.of_mem logged with inside | ⟨next, present, shows⟩
  · obtain ⟨op', own, resume, run, waits⟩ := inside.waits
    have wire := (service.config.carry_carrier toLowerCase op').wire_of_waits run waits
    rw [called] at wire
    cases wire
  · obtain ⟨past, own, split, carried, returns⟩ := shows.carried
    rcases (service.config.carry_carrier toLowerCase next.call.op).last returns with
      same | ⟨-, wire⟩
    · rw [same] at called
      cases called
      exact ⟨next, present, rfl, shows.task, past, split ▸ List.prefix_append _ _, carried⟩
    · rw [called] at wire
      cases wire

theorem seen_in_past {config : HonorServiceConfig} {calls : List (PortCall G)}
    {past : List (WireCall G)} (carried : Carried (config.carry toLowerCase) calls past)
    {key : HonorKey} {reply : (Op.getSeen (G := G) key).Reply}
    (read : ⟨.getSeen key, reply⟩ ∈ calls) : ⟨.port (.getSeen key), reply⟩ ∈ past := by
  have answered : ∀ call ∈ calls, ∀ key reply, call = ⟨.getSeen key, reply⟩ →
      (⟨.port (.getSeen key), reply⟩ : WireCall G) ∈ past := by
    refine carried.answered fun op own reply among returns key reply' same => ?_
    cases same
    obtain ⟨_, later, rfl, tail⟩ := (Program.returns_call_iff _ _).1 returns
    cases ((Program.returns_pure_iff _).1 tail).2
    exact among.subset List.mem_cons_self
  exact answered _ read _ _ rfl

/-- Over results of the documented shapes, whatever fails and however the calls are interleaved, the
service runs a transaction only for a plain quote whose payment is on the chain, and it claims no
HTLC. -/
theorem goods_paid_for (service : HonorService G) (reference : service.config.Reference)
    (toLowerCase : String → String) (model : TxnModel) (chain : ChainRecord)
    (initial : WireWorld G) (clean : initial.world.claims = fun _ => none)
    (pool : Pool (WireWorld G) (WireOp G) WireOp.Reply Thrown EngineResult (EngineTask G))
    (reached : Reachable (service.openWire toLowerCase model) initial pool)
    (tells : ∀ event ∈ pool.log, chain.Tells event.call) :
    (∀ event ∈ pool.log, ∀ input, event.call.op = .port (.runHonorTxn input) →
      ∃ row, ⟨.port (.getSeen input.key), .ok (some row)⟩ ∈ event.past ∧ row.key = input.key ∧
        row.form = .plain ∧
        chain.Pays service.config.honorConfig (quoteFromSeen row) input.outpoint) ∧
    ∀ event ∈ pool.log, ∀ htlc preimage, event.call.op ≠ .port (.submitClaim htlc preimage) := by
  obtain ⟨seen, reachable, shown⟩ := port_event reached
  have forms : service.engine.deps.forms = createFormRegistry (builtinForms true) := by
    rw [service.wired]
    rfl
  have unknowing : service.engine.deps.optional.htlcPreimageFor = false := by
    rw [service.wired]
    change service.config.keyCustody.getD false = false
    rw [reference.keys]
    rfl
  constructor
  · intro event logged input called
    obtain ⟨next, present, txn, -, past, before, carried⟩ := shown event logged _ called
    obtain ⟨deliver, opts, row, -, read, key, plain, told⟩ :=
      HonorEngine.txn_told forms unknowing clean reachable present txn
    rw [service.wired] at told
    have holds : ∀ call ∈ next.past, chain.Holds service.config.addressDeriver call := by
      refine carried.answered fun op own reply among returns => ?_
      refine HonorServiceConfig.carry_holds reference returns fun call made => ?_
      obtain ⟨earlier, hearlier, -, -, rfl⟩ := reached.event_of_event_past event logged call
        (before.subset (among.subset made))
      exact tells earlier hearlier
    exact ⟨row, before.subset (seen_in_past carried read), key, plain, .of_told told holds⟩
  · intro event logged htlc preimage called
    obtain ⟨next, present, submits, -, -⟩ := shown event logged _ called
    rw [HonorEngine.submit_knowing forms reachable present submits] at unknowing
    cases unknowing

/-! One payment of `sampleQuote`, told by services that are down at first. -/

def paymentBody : TxBody where
  inputs := ⟨[], by decide⟩
  outputs := ⟨[⟨500, ⟨[0xee], by decide⟩,
    some ⟨[0, 1, 2, 3, 4, 5, 6, 7, 8, 9, 10, 11, 12, 13, 14, 15], by decide⟩, none⟩], by decide⟩

def paymentStatus : RawTxStatus := ⟨codeUnits (hexText paymentBody.encode), some 90⟩

def paidChain : ChainRecord where
  transactions hash := if hash = "01" then some paymentBody else none
  minedAt hash height := hash = "01" ∧ height = 90
  tips tip := tip = 100
  signs address := address = "ee"

def paidTruth : Truth
  | .chain .getBlockHeight => ⟨none, some (some 100)⟩
  | .chain (.getTransaction hash) => ⟨none, some (if hash = "01" then some paymentStatus else none)⟩
  | .chain (.getOutputDatum txId outputIndex) =>
      ⟨none, some (some (if txId = "01" ∧ outputIndex = 0 then ⟨some sampleQuote.quoteId, false⟩
        else ⟨none, false⟩))⟩
  | .chain (.findSettlementsByQuoteId quoteId) =>
      ⟨none, some (some (if quoteId = sampleQuote.quoteId then [⟨"01", 0⟩] else []))⟩
  | .chain (.htlcStatus _ _) => ⟨some ⟨some (-32602), some "no indexed HTLC", none⟩, none⟩
  | .sign (.signMessage address _) =>
      if address = "ee" then ⟨none, some (some (some "5160"))⟩
      else ⟨some ⟨none, some "unknown address", none⟩, none⟩

def truthful : (op : WireOp Unit) → op.Reply
  | .port op => paidPorts.answer op
  | .nextId _ => 0
  | .http _ method (.fetch _) => .responds 200 (.envelope (paidTruth method))
  | .http _ _ (.sleep _) => ()
  | .transport _ method => paidTruth.settled method

def payMoves : List WireMove :=
  .start (.register sampleQuote {}) :: (.replicate 3 (.advance 0 busy) ++
    .start (.honor sampleQuote.key Store.sampleTxn.deliver {}) ::
      (.replicate 4 (.advance 1 busy) ++ .replicate 13 (.advance 1 truthful)))

def payPool :
    Pool (WireWorld Unit) (WireOp Unit) WireOp.Reply Thrown EngineResult (EngineTask Unit) :=
  (Pool.fresh ⟨.booted (.empty ()) 20, fun _ => 1⟩).play
    (sampleHonorService.openWire asciiLower .sync) payMoves

theorem paidTruth_backed : ∀ method result, (paidTruth method).error = none →
    (paidTruth method).result = some (some result) → paidChain.Backs method result
  | .chain .getBlockHeight, _, _, told => Option.some.inj (Option.some.inj told).symm
  | .chain (.getTransaction hash), status, _, told => by
    have found := Option.some.inj told
    split at found
    next same =>
      subst same
      cases found
      refine ⟨⟨paymentBody, rfl, [], by rw [List.append_nil]; rfl⟩, fun height mined => ?_⟩
      exact ⟨rfl, (Option.some.inj mined).symm⟩
    next => cases found
  | .chain (.getOutputDatum txId outputIndex), datum, _, told => by
    intro honorable quoteId named
    have found := Option.some.inj (Option.some.inj told)
    split at found
    next same =>
      obtain ⟨rfl, rfl⟩ := same
      subst found
      cases named
      exact ⟨_, rfl, by decide +kernel⟩
    next =>
      subst found
      cases named
  | .chain (.findSettlementsByQuoteId _), _, _, _ => trivial
  | .chain (.htlcStatus _ _), _, _, _ => trivial
  | .sign (.signMessage address message), signature, honest, told => by
    intro signed
    unfold paidTruth at honest
    dsimp only at honest
    split at honest
    next same => exact same
    next => cases honest

theorem payPool_tells : ∀ event ∈ payPool.log, paidChain.Tells event.call := by
  refine Pool.play_answered (List.forall_mem_nil _) fun index answer among shared op => ?_
  have given : answer = busy ∨ answer = truthful := by
    simp only [payMoves, List.mem_cons, List.mem_append, List.mem_replicate] at among
    rcases among with h | h | h | h | h <;> simp_all
  rcases given with rfl | rfl
  · cases op with
    | http endpoint method op =>
      cases op with
      | fetch request =>
        intro status result ok same
        cases same
      | sleep ms => trivial
    | transport endpoint method =>
      intro result same
      cases same
    | _ => trivial
  · cases op with
    | http endpoint method op =>
      cases op with
      | fetch request =>
        intro status result ok same
        obtain ⟨-, same⟩ := HttpRpc.FetchResult.responds.inj same
        have told := HttpRpc.Body.envelope.inj same
        exact paidTruth_backed method result (by rw [told]) (by rw [told])
      | sleep ms => trivial
    | transport endpoint method =>
      intro result same
      have told : paidTruth.settled method = .ok (some (some result)) := same
      unfold Truth.settled HttpRpc.JsonRpcEnvelope.unwrap at told
      cases honest : (paidTruth method).error with
      | some error =>
        rw [honest] at told
        cases told
      | none =>
        rw [honest] at told
        exact paidTruth_backed method result honest (Except.ok.inj told)
    | _ => trivial

def txnOf : WireCall Unit → Option (HonorKey × Outpoint)
  | ⟨.port (.runHonorTxn input), _⟩ => some (input.key, input.outpoint)
  | _ => none

theorem txnOf_eq_some {call : WireCall Unit} {key : HonorKey} {o : Outpoint}
    (found : txnOf call = some (key, o)) :
    ∃ input, call.op = .port (.runHonorTxn input) ∧ input.key = key ∧ input.outpoint = o := by
  unfold txnOf at found
  split at found
  next input reply =>
    cases found
    exact ⟨input, rfl, rfl, rfl⟩
  next => cases found

theorem goods_paid_for_once : ∃ event ∈ payPool.log, ∃ row : SeenRow,
    txnOf event.call = some (sampleQuote.key, ⟨"01", 0⟩) ∧
    ⟨.port (.getSeen sampleQuote.key), .ok (some row)⟩ ∈ event.past ∧
    paidChain.Pays sampleServiceConfig.honorConfig (quoteFromSeen row) ⟨"01", 0⟩ := by
  have allowed : (Pool.fresh ⟨.booted (.empty ()) 20, fun _ => 1⟩).Allowed
      (sampleHonorService.openWire asciiLower .sync) payMoves :=
    ⟨trivial, Pool.allowed_advances 3 ⟨trivial, Pool.allowed_advances 4
      (Pool.allowed_advances 13 trivial)⟩⟩
  have runs : ∃ event ∈ payPool.log, txnOf event.call = some (sampleQuote.key, ⟨"01", 0⟩) := by
    decide +kernel
  obtain ⟨event, logged, found⟩ := runs
  obtain ⟨input, called, key, outpoint⟩ := txnOf_eq_some found
  obtain ⟨paid, -⟩ := goods_paid_for sampleHonorService ⟨rfl, rfl⟩ asciiLower .sync paidChain _ rfl
    _ (Pool.play_reachable allowed) payPool_tells
  obtain ⟨row, read, -, -, pays⟩ := paid event logged input called
  exact ⟨event, logged, row, found, key ▸ read, outpoint ▸ pays⟩

end HonorService
end ExferHonor
