import ExferHonor.Adapters.TxHex
import ExferHonor.Ports.Interface

/-! The reference `ChainSource`: the indexer's reverse index and HTLC records, joined with what the
node's raw transactions hold. -/
namespace ExferHonor
open Effects

/-- A `TxStatus`; `blockHeight` is `none` while the transaction is in the mempool. -/
structure RawTxStatus where
  txHex : JsString
  blockHeight : Option Int
  deriving DecidableEq, Repr

structure RawOutputDatum where
  quoteId : Option QuoteId
  unhonorable : Bool
  deriving DecidableEq, Repr

/-- `number | string`; the numbers are integral. -/
inductive RawAmount where
  | number (value : Int)
  | text (digits : String)
  deriving DecidableEq, Repr

structure RawHtlcParams where
  sender : PubKey
  receiver : PubKey
  hashLock : Hex
  timeoutHeight : Int
  deriving DecidableEq, Repr

structure RawHtlcRecord where
  lockTxId : Hex
  outputIndex : Int
  params : RawHtlcParams
  amount : RawAmount
  lockBlockHeight : Option Int
  state : String
  deriving DecidableEq, Repr

inductive RpcOp where
  | getBlockHeight
  | getTransaction (hash : Hex)
  | getOutputDatum (txId : Hex) (outputIndex : Int)
  | findSettlementsByQuoteId (quoteId : QuoteId)
  | htlcStatus (lockTxId : Hex) (outputIndex : Int)

abbrev RpcOp.Reply : RpcOp → Type
  | .getBlockHeight => Except Thrown Int
  | .getTransaction _ => Except Thrown (Option RawTxStatus)
  | .getOutputDatum _ _ => Except Thrown RawOutputDatum
  | .findSettlementsByQuoteId _ => Except Thrown (List Outpoint)
  | .htlcStatus _ _ => Except Thrown (Option RawHtlcRecord)

abbrev RpcCall := Call RpcOp RpcOp.Reply
abbrev RpcAsync (α : Type) := Program RpcOp RpcOp.Reply Thrown α

/-- `xs[i]`, or `undefined` -/
def nth {α : Type} (xs : List α) (i : Int) : Option α :=
  if 0 ≤ i then xs[i.toNat]? else none

/-- `text.trim()`, as the conversion to a number does it -/
def trimWhiteSpace (text : List Char) : List Char :=
  let isSpace (c : Char) : Bool := decide (c.val < 0x10000) && isWhiteSpace c.val.toUInt16
  ((text.dropWhile isSpace).reverse.dropWhile isSpace).reverse

def digitValue? (base : Nat) (c : Char) : Option Nat :=
  if c.val < 0x80 then (hexDigit? c.val.toUInt16).filter (decide <| · < base) else none

def digitsValue (base : Nat) (digits : List Char) : Option Int :=
  if digits.isEmpty then none
  else (digits.mapM (digitValue? base)).map fun values =>
    (values.foldl (fun value digit => base * value + digit) 0 : Nat)

/-- `BigInt(text)`; `none` is the `SyntaxError`. -/
def stringToBigInt (text : String) : Option Int :=
  match trimWhiteSpace text.toList with
  | [] => some 0
  | '0' :: 'x' :: digits => digitsValue 16 digits
  | '0' :: 'X' :: digits => digitsValue 16 digits
  | '0' :: 'o' :: digits => digitsValue 8 digits
  | '0' :: 'O' :: digits => digitsValue 8 digits
  | '0' :: 'b' :: digits => digitsValue 2 digits
  | '0' :: 'B' :: digits => digitsValue 2 digits
  | '-' :: digits => (digitsValue 10 digits).map (- ·)
  | '+' :: digits => digitsValue 10 digits
  | digits => digitsValue 10 digits

namespace IndexerChainSource

def noSettlementTx (txId : Hex) : Thrown :=
  .error 10 none s!"get_transaction returned null for settlement tx {txId}"

def noSettlementOutput (s : Outpoint) : Thrown :=
  .error 11 none s!"settlement tx {s.txId} has no output at index {s.outputIndex}"

def noPrevoutTx (txId : Hex) : Thrown :=
  .error 12 none s!"get_transaction returned null for prevout tx {txId}"

def noPrevoutOutput (o : Outpoint) : Thrown :=
  .error 13 none s!"prevout tx {o.txId} has no output at index {o.outputIndex}"

def notABigInt (text : String) : Thrown :=
  .error 14 none s!"Cannot convert {text} to a BigInt"

def node (hash : Hex) : RpcAsync (Option RawTxStatus) := .call (.getTransaction hash) .ofExcept

def tipHeight : RpcAsync Int := .call .getBlockHeight .ofExcept

/-- M2: `honorable` is the negation of the indexer's flag, and only with an inline quote id. -/
def getOutputDatum (o : Outpoint) : RpcAsync OutputDatum := do
  let r ← (.call (.getOutputDatum o.txId o.outputIndex) .ofExcept : RpcAsync RawOutputDatum)
  pure ⟨r.quoteId, r.unhonorable == false && r.quoteId.isSome⟩

def joinSettlement (s : Outpoint) : RpcAsync RawSettlementCandidate := do
  match ← node s.txId with
  | none => throw (noSettlementTx s.txId)
  | some tx => do
      let decoded ← Program.ofExcept (decodeTxHex tx.txHex)
      match nth decoded.outputs s.outputIndex with
      | none => throw (noSettlementOutput s)
      | some op => pure ⟨s, op.value, op.scriptHex, tx.blockHeight⟩

def joinSettlements : List Outpoint → RpcAsync (List RawSettlementCandidate)
  | [] => pure []
  | s :: settlements => do
      let candidate ← joinSettlement s
      let out ← joinSettlements settlements
      pure (candidate :: out)

def findSettlementsByQuoteId (q : QuoteId) : RpcAsync (List RawSettlementCandidate) := do
  let r ← (.call (.findSettlementsByQuoteId q) .ofExcept : RpcAsync (List Outpoint))
  joinSettlements r

def getTransaction (txId : Hex) : RpcAsync (Option TxInfo) := do
  let r ← node txId
  pure (r.map fun tx => ⟨tx.blockHeight⟩)

def getTxInputs (txId : Hex) : RpcAsync (List Outpoint) := do
  match ← node txId with
  | none => pure []
  | some tx => do
      let decoded ← Program.ofExcept (decodeTxHex tx.txHex)
      pure (decoded.inputs.map fun i => ⟨i.prevTxId, i.prevOutputIndex⟩)

def getOutputScript (o : Outpoint) : RpcAsync Hex := do
  match ← node o.txId with
  | none => throw (noPrevoutTx o.txId)
  | some tx => do
      let decoded ← Program.ofExcept (decodeTxHex tx.txHex)
      match nth decoded.outputs o.outputIndex with
      | none => throw (noPrevoutOutput o)
      | some op => pure op.scriptHex

def toBigInt : RawAmount → Except Thrown Int
  | .number value => .ok value
  | .text digits =>
      match stringToBigInt digits with
      | some value => .ok value
      | none => .error (notABigInt digits)

/-- No letter beyond ASCII has one of these letters for its lower case. -/
def normaliseHtlcState (s : String) : HtlcState :=
  if s.toLower = "claimed" then .claimed
  else if s.toLower = "reclaimed" then .reclaimed
  else .locked

/-- `htlc_status` throws for a lock that is not indexed. -/
def isNoSuchHtlc (e : Thrown) : Except Thrown Bool :=
  e.message.map fun message => message.any (includes · "no indexed HTLC")

def bindHtlc (r : RawHtlcRecord) : Except Thrown OnChainHtlc :=
  (toBigInt r.amount).map fun value =>
    { lock := ⟨r.lockTxId, r.outputIndex⟩
      receiverPubkey := r.params.receiver
      senderPubkey := r.params.sender
      hashLock := r.params.hashLock
      timeoutHeight := r.params.timeoutHeight
      value := value
      lockBlockHeight := r.lockBlockHeight
      state := normaliseHtlcState r.state }

def getHtlc (lock : Outpoint) : RpcAsync (Option OnChainHtlc) := do
  let r ← (.call (.htlcStatus lock.txId lock.outputIndex) .ofExcept :
      RpcAsync (Option RawHtlcRecord)).handle fun e => do
    if ← Program.ofExcept (isNoSuchHtlc e) then pure none else throw e
  match r with
  | none => pure none
  | some record => (Program.ofExcept (bindHtlc record)).bind fun htlc => pure (some htlc)

/-! What comes of valid answers: the node tells the transaction that has the id, with witnesses of
any kind behind its body. -/

def outputAt (body : TxBody) (i : Int) : Option TxOutput := nth body.outputs.val i

def ValidStatus (body : TxBody) (status : RawTxStatus) : Prop :=
  ∃ witnesses, status.txHex = codeUnits (hexText (body.encode ++ witnesses))

/-- `transactions` is the body of every transaction; the index names outputs that exist. -/
def ValidAnswer (transactions : Hex → TxBody) : RpcCall → Prop
  | ⟨.getTransaction hash, reply⟩ =>
      ∃ status, reply = .ok (some status) ∧ ValidStatus (transactions hash) status
  | ⟨.findSettlementsByQuoteId _, reply⟩ => ∃ settlements, reply = .ok settlements ∧
      ∀ s ∈ settlements, (outputAt (transactions s.txId) s.outputIndex).isSome = true
  | _ => True

def Describes (transactions : Hex → TxBody) (calls : List RpcCall) (s : Outpoint)
    (candidate : RawSettlementCandidate) : Prop :=
  candidate.outpoint = s ∧
  (∃ output, outputAt (transactions s.txId) s.outputIndex = some output ∧
    candidate.value = output.value.toNat ∧ candidate.scriptHex = hexText output.script.val) ∧
  ∃ status, ⟨.getTransaction s.txId, .ok (some status)⟩ ∈ calls ∧
    candidate.blockHeight = status.blockHeight

theorem nth_map {α β : Type} (f : α → β) (xs : List α) (i : Int) :
    nth (xs.map f) i = (nth xs i).map f := by
  unfold nth
  split
  · exact List.getElem?_map
  · rfl

theorem decodeTxHex_valid {body : TxBody} {status : RawTxStatus} (valid : ValidStatus body status) :
    decodeTxHex status.txHex = .ok body.decoded := by
  obtain ⟨witnesses, htext⟩ := valid
  rw [htext]
  exact (decodeTxHex_hexText _ _).2 ⟨body, rfl, List.prefix_append _ _⟩

variable {transactions : Hex → TxBody} {calls : List RpcCall}

theorem node_bind_returns {α : Type} {txId : Hex} {next : Option RawTxStatus → RpcAsync α}
    {result : Except Thrown α} (returns : ((node txId).bind next).Returns calls result)
    (valid : ∀ call ∈ calls, ValidAnswer transactions call) :
    ∃ status later, calls = ⟨.getTransaction txId, .ok (some status)⟩ :: later ∧
      decodeTxHex status.txHex = .ok (transactions txId).decoded ∧
      (next (some status)).Returns later result := by
  obtain ⟨reply, later, rfl, tail⟩ := (Program.returns_call_iff _ _).1 returns
  obtain ⟨status, rfl, hstatus⟩ := valid _ List.mem_cons_self
  exact ⟨status, later, rfl, decodeTxHex_valid hstatus, tail⟩

theorem joinSettlement_returns {s : Outpoint} {result : Except Thrown RawSettlementCandidate}
    (returns : (joinSettlement s).Returns calls result)
    (valid : ∀ call ∈ calls, ValidAnswer transactions call)
    (named : (outputAt (transactions s.txId) s.outputIndex).isSome = true) :
    ∃ candidate, result = .ok candidate ∧ Describes transactions calls s candidate := by
  obtain ⟨status, later, rfl, decoded, tail⟩ := node_bind_returns returns valid
  obtain ⟨output, houtput⟩ := Option.isSome_iff_exists.1 named
  have hnth : nth (transactions s.txId).decoded.outputs s.outputIndex = some output.decoded := by
    rw [TxBody.decoded, nth_map, ← outputAt, houtput]
    rfl
  simp only [decoded, Program.ofExcept_ok, Program.bind_eq, Program.pure_bind, hnth,
    Program.pure_eq, Program.returns_pure_iff] at tail
  obtain ⟨rfl, rfl⟩ := tail
  exact ⟨_, rfl, rfl, ⟨output, houtput, rfl, rfl⟩, status, List.mem_cons_self, rfl⟩

theorem Describes.mono {more : List RpcCall} {s : Outpoint} {candidate : RawSettlementCandidate}
    (describes : Describes transactions calls s candidate) (among : calls ⊆ more) :
    Describes transactions more s candidate := by
  obtain ⟨houtpoint, houtput, status, told, hheight⟩ := describes
  exact ⟨houtpoint, houtput, status, among told, hheight⟩

theorem joinSettlements_returns {settlements : List Outpoint}
    {result : Except Thrown (List RawSettlementCandidate)}
    (returns : (joinSettlements settlements).Returns calls result)
    (valid : ∀ call ∈ calls, ValidAnswer transactions call)
    (named : ∀ s ∈ settlements, (outputAt (transactions s.txId) s.outputIndex).isSome = true) :
    ∃ out, result = .ok out ∧ List.Forall₂ (Describes transactions calls) settlements out := by
  induction settlements generalizing calls result with
  | nil =>
    obtain ⟨-, rfl⟩ := (Program.returns_pure_iff _).1 returns
    exact ⟨[], rfl, .nil⟩
  | cons s settlements ih =>
    rcases Program.Returns.of_bind returns with
      ⟨e, threw, -⟩ | ⟨own, candidate, later, rfl, joined, rest⟩
    · obtain ⟨_, impossible, -⟩ := joinSettlement_returns threw valid (named s List.mem_cons_self)
      contradiction
    · obtain ⟨_, hcandidate, describes⟩ := joinSettlement_returns joined
        (fun call made => valid call (List.mem_append_left _ made)) (named s List.mem_cons_self)
      cases hcandidate
      obtain ⟨inner, hinner, rfl⟩ := Program.Returns.of_map rest
      obtain ⟨out, rfl, all⟩ := ih hinner
        (fun call made => valid call (List.mem_append_right _ made))
        fun other hother => named other (List.mem_cons_of_mem _ hother)
      refine ⟨candidate :: out, rfl, .cons (describes.mono (List.subset_append_left _ _)) ?_⟩
      exact all.imp fun _ _ other => other.mono (List.subset_append_right _ _)

theorem decodes_wire_layout :
    (∀ bytes tx, decodeTxHex (codeUnits (hexText bytes)) = .ok tx ↔
      ∃ (body : TxBody) (rest : List UInt8), bytes = body.encode ++ rest ∧ body.decoded = tx) ∧
    (∀ (body : TxBody) bytes, bytes <+: body.encode → bytes ≠ body.encode →
      ∃ e, decodeTxHex (codeUnits (hexText bytes)) = .error e) ∧
    ∀ (transactions : Hex → TxBody) (calls : List RpcCall),
      (∀ call ∈ calls, ValidAnswer transactions call) →
      (∀ q result, (findSettlementsByQuoteId q).Returns calls result →
        ∃ settlements out, ⟨.findSettlementsByQuoteId q, .ok settlements⟩ ∈ calls ∧
          result = .ok out ∧ List.Forall₂ (Describes transactions calls) settlements out) ∧
      (∀ txId result, (getTxInputs txId).Returns calls result →
        result = .ok ((transactions txId).inputs.val.map fun input =>
          ⟨hexText input.prevTxId.toList, input.outputIndex.toNat⟩)) ∧
      ∀ o output result, outputAt (transactions o.txId) o.outputIndex = some output →
        (getOutputScript o).Returns calls result → result = .ok (hexText output.script.val) := by
  refine ⟨fun bytes tx => ?_, decodeTxHex_truncated, fun transactions calls valid => ⟨?_, ?_, ?_⟩⟩
  · rw [decodeTxHex_hexText]
    constructor
    · rintro ⟨body, hdecoded, rest, rfl⟩
      exact ⟨body, rest, rfl, hdecoded⟩
    · rintro ⟨body, rest, rfl, hdecoded⟩
      exact ⟨body, hdecoded, List.prefix_append _ _⟩
  · intro q result returns
    obtain ⟨reply, later, rfl, tail⟩ := (Program.returns_call_iff _ _).1 returns
    obtain ⟨settlements, rfl, named⟩ := valid _ List.mem_cons_self
    obtain ⟨out, rfl, all⟩ := joinSettlements_returns tail
      (fun call made => valid call (List.mem_cons_of_mem _ made)) named
    exact ⟨settlements, out, List.mem_cons_self, rfl,
      all.imp fun _ _ other => other.mono (List.subset_cons_self _ _)⟩
  · intro txId result returns
    obtain ⟨status, later, -, decoded, tail⟩ := node_bind_returns returns valid
    simp only [decoded, Program.ofExcept_ok, Program.bind_eq, Program.pure_bind, Program.pure_eq,
      Program.returns_pure_iff] at tail
    rw [tail.2, TxBody.decoded, List.map_map]
    rfl
  · intro o output result houtput returns
    obtain ⟨status, later, -, decoded, tail⟩ := node_bind_returns returns valid
    have hnth : nth (transactions o.txId).decoded.outputs o.outputIndex = some output.decoded := by
      rw [TxBody.decoded, nth_map, ← outputAt, houtput]
      rfl
    simp only [decoded, Program.ofExcept_ok, Program.bind_eq, Program.pure_bind, hnth,
      Program.pure_eq, Program.returns_pure_iff] at tail
    exact tail.2

/-! Two inputs and two outputs, one with a datum and a datum hash; the index lists both outputs. -/

def spendBody : TxBody where
  inputs := ⟨[⟨.replicate 32 0xaa, 3⟩, ⟨.replicate 32 0xbb, 70000⟩], by decide⟩
  outputs := ⟨[⟨16, ⟨[0xca, 0xfe], by decide⟩, some ⟨[1, 2, 3], by decide⟩,
      some (.replicate 32 0xcc)⟩,
    ⟨1099511627781, ⟨[0xbe, 0xef, 0x01], by decide⟩, none, none⟩], by decide⟩

def spendInputs : List Outpoint :=
  [⟨"aaaaaaaaaaaaaaaaaaaaaaaaaaaaaaaaaaaaaaaaaaaaaaaaaaaaaaaaaaaaaaaa", 3⟩,
    ⟨"bbbbbbbbbbbbbbbbbbbbbbbbbbbbbbbbbbbbbbbbbbbbbbbbbbbbbbbbbbbbbbbb", 70000⟩]

def spendOutputs : List DecodedOutput := [⟨16, "cafe"⟩, ⟨1099511627781, "beef01"⟩]

def nodeTells (txHex : JsString) : RpcCall :=
  ⟨.getTransaction "spend", .ok (some ⟨txHex, some 7⟩)⟩

def spendCall : RpcCall := nodeTells (codeUnits (hexText (spendBody.encode ++ [7])))

def spendListing : RpcCall :=
  ⟨.findSettlementsByQuoteId "q1", .ok [⟨"spend", 1⟩, ⟨"spend", 0⟩]⟩

def spendCandidates : List RawSettlementCandidate :=
  [⟨⟨"spend", 1⟩, 1099511627781, "beef01", some 7⟩, ⟨⟨"spend", 0⟩, 16, "cafe", some 7⟩]

theorem spend_found {txHex : JsString} {inputs : List DecodedInput}
    (decoded : decodeTxHex txHex = .ok ⟨inputs, spendOutputs⟩) :
    (findSettlementsByQuoteId "q1").Returns [spendListing, nodeTells txHex, nodeTells txHex]
      (.ok spendCandidates) := by
  refine .call _ (.call _ ?_)
  simp only [Program.ofExcept_ok, Program.pure_bind, decoded]
  refine .call _ ?_
  simp only [Program.ofExcept_ok, Program.pure_bind, decoded]
  exact .nil

theorem decodes_wire_layout_spend :
    decodeTxHex (codeUnits (hexText (spendBody.encode ++ [7]))) =
      .ok ⟨spendInputs.map fun input => ⟨input.txId, input.outputIndex⟩, spendOutputs⟩ ∧
    (∃ e, decodeTxHex (codeUnits (hexText spendBody.encode.dropLast)) = .error e) ∧
    (findSettlementsByQuoteId "q1").Returns [spendListing, spendCall, spendCall]
      (.ok spendCandidates) ∧
    List.Forall₂ (Describes (fun _ => spendBody) [spendListing, spendCall, spendCall])
      [⟨"spend", 1⟩, ⟨"spend", 0⟩] spendCandidates ∧
    (∀ result, (getTxInputs "spend").Returns [spendCall] result → result = .ok spendInputs) ∧
    ∀ result, (getOutputScript ⟨"spend", 0⟩).Returns [spendCall] result → result = .ok "cafe" := by
  have status : ValidStatus spendBody ⟨codeUnits (hexText (spendBody.encode ++ [7])), some 7⟩ := by
    refine ⟨[7], ?_⟩
    dsimp only
  have validCall : ValidAnswer (fun _ => spendBody) spendCall := ⟨_, rfl, status⟩
  have validListing : ValidAnswer (fun _ => spendBody) spendListing := by
    refine ⟨_, rfl, ?_⟩
    simp only [List.forall_mem_cons]
    exact ⟨rfl, rfl, List.forall_mem_nil _⟩
  have inputs : (spendBody.inputs.val.map fun input =>
      (⟨hexText input.prevTxId.toList, input.outputIndex.toNat⟩ : Outpoint)) = spendInputs := by
    decide +kernel
  have script : hexText [0xca, 0xfe] = "cafe" := by decide +kernel
  have decoded := (decodes_wire_layout.1 (spendBody.encode ++ [7])
    ⟨spendInputs.map fun input => ⟨input.txId, input.outputIndex⟩, spendOutputs⟩).2
    ⟨spendBody, [7], rfl, by decide +kernel⟩
  have found := spend_found decoded
  obtain ⟨listing, -, -⟩ := decodes_wire_layout.2.2 (fun _ => spendBody)
    [spendListing, spendCall, spendCall]
    (List.forall_mem_cons.2 ⟨validListing, List.forall_mem_cons.2 ⟨validCall,
      List.forall_mem_singleton.2 validCall⟩⟩)
  obtain ⟨-, prevouts, scripts⟩ := decodes_wire_layout.2.2 (fun _ => spendBody) [spendCall]
    (List.forall_mem_singleton.2 validCall)
  refine ⟨decoded, decodes_wire_layout.2.1 spendBody _ (List.dropLast_prefix _) (by decide +kernel),
    found, ?_, fun result returns => ?_, fun result returns => ?_⟩
  · obtain ⟨settlements, out, named, same, described⟩ := listing _ _ found
    cases same
    obtain told | told | told := by
      simpa only [List.mem_cons, List.not_mem_nil, or_false] using named
    · cases told
      exact described
    · cases told
    · cases told
  · rw [← inputs]
    exact prevouts _ _ returns
  · rw [← script]
    exact scripts _ _ _ rfl returns

end IndexerChainSource
end ExferHonor
