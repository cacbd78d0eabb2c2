import ExferHonor.Effects.Runs
import ExferHonor.Forms.Spine
import Mathlib.Tactic.ByContra

/-! The payee test-sign over walletd's `sign_message`: a signature is a yes, some errors are a
definitive no, and every other error is to be a retryable `keystore_fault`. -/
namespace ExferHonor
open Effects

/-- `signature` is the string at that property of the result, if there is one. -/
inductive SignMessageReply where
  | undefined
  | null
  | result (signature : Option String)
  deriving DecidableEq, Repr

inductive SignOp where
  | signMessage (address : Hex) (message : String)
  deriving DecidableEq, Repr

abbrev SignOp.Reply : SignOp → Type
  | .signMessage _ _ => Except Thrown SignMessageReply

def SignMessageReply.signature : SignMessageReply → Except Thrown (Option String)
  | .undefined => .error (Thrown.unreadable "undefined" "signature")
  | .null => .error (Thrown.unreadable "null" "signature")
  | .result signature => .ok signature

structure KeystoreKeyCustodyOpts where
  addressDeriver : Option (PubKey → Hex)
  probeMessage : Option String

namespace KeystoreKeyCustody

def defaultProbe : String := "exfer-honor:payee-custody-probe"

def noSuchKeyMarkers : List String := ["no such", "not found", "unknown address", "no wallet"]

variable (toLowerCase : String → String)

def isNoSuchKey (e : Thrown) : Except Thrown Bool := e.mentionsAny toLowerCase noSuchKeyMarkers

def testSignFault (e : Thrown) : Thrown :=
  .honorError .keystoreFault "payee custody test-sign unavailable (R2/M3 transient)" e

/-- The `try` block. -/
def testSign (address : Hex) (probe : String) : Program SignOp SignOp.Reply Thrown Bool := do
  let res ← .call (.signMessage address probe) .ofExcept
  let signature ← .ofExcept res.signature
  pure (signature.any fun signature => !signature.isEmpty)

def controlsPayee (opts : KeystoreKeyCustodyOpts) (payeePubkey : PubKey) :
    Program SignOp SignOp.Reply Thrown Bool := do
  let address := domainHashAddr payeePubkey opts.addressDeriver
  (testSign address (opts.probeMessage.getD defaultProbe)).handle fun e => do
    if ← Program.ofExcept (isNoSuchKey toLowerCase e) then pure false
    else throw (testSignFault e)

def controlsPayeeThrows (opts : KeystoreKeyCustodyOpts) (payeePubkey : PubKey) (e : Thrown) :
    Except Thrown Bool :=
  (controlsPayee toLowerCase opts payeePubkey).eval fun (.signMessage _ _) => .error e

def isKeystoreFault : Except Thrown Bool → Bool
  | .error (.honorError .keystoreFault _ _) => true
  | _ => false

/-- The message, in lower case, names what is missing: a key, a wallet or an address. -/
def NamesKey (e : Thrown) : Prop :=
  ∃ name ∈ ["key", "wallet", "address"], name.toList <:+: e.lowered toLowerCase

/-- An error that names no key stays a fault, here and in the spine that asks. -/
structure StaysFault (opts : KeystoreKeyCustodyOpts) (payeePubkey : PubKey) (e : Thrown) :
    Prop where
  denies : controlsPayeeThrows toLowerCase opts payeePubkey e = .ok false → NamesKey toLowerCase e
  throws : ¬ NamesKey toLowerCase e →
    isKeystoreFault (controlsPayeeThrows toLowerCase opts payeePubkey e) = true
  spine : ¬ NamesKey toLowerCase e → ∀ (G : Type) (ctx : ScoringCtx)
    (raw : RawSettlementCandidate) (formId : SettlementFormId) (calls : List (PortCall G))
    (result : Except Thrown SpineResult), (runBindingSpine ctx raw formId).Returns calls result →
    (∀ payee reply, ⟨.controlsPayee payee, reply⟩ ∈ calls →
      reply = controlsPayeeThrows toLowerCase opts payee e) →
    ∀ detail, result ≠ .ok (.verdict (.decline .payeeNotControlled detail))

variable {toLowerCase}

theorem controlsPayeeThrows_eq (opts : KeystoreKeyCustodyOpts) (payeePubkey : PubKey)
    (e : Thrown) :
    controlsPayeeThrows toLowerCase opts payeePubkey e =
      (isNoSuchKey toLowerCase e).bind fun noKey =>
        if noKey then .ok false else .error (testSignFault e) := by
  unfold controlsPayeeThrows controlsPayee testSign
  cases hkey : isNoSuchKey toLowerCase e with
  | error other => simp [Program.handle, Program.eval, hkey, Except.bind]
  | ok noKey =>
    cases noKey
    all_goals
      simp only [Program.handle, Program.bind_eq, Program.call_bind, Program.eval,
        Program.ofExcept_error, Program.ofExcept_ok, Program.throw_bind, Program.pure_bind, hkey,
        Except.bind]
      rfl

section
variable (opts : KeystoreKeyCustodyOpts) (payeePubkey : PubKey) {e : Thrown}

theorem controlsPayeeThrows_of_isReadable (readable : e.isReadable = true) :
    controlsPayeeThrows toLowerCase opts payeePubkey e =
      if ∃ marker ∈ noSuchKeyMarkers, marker.toList <:+: e.lowered toLowerCase then .ok false
      else .error (testSignFault e) := by
  rw [controlsPayeeThrows_eq, isNoSuchKey,
    Thrown.mentionsAny_of_isReadable toLowerCase readable (by decide)]
  simp only [Except.bind, decide_eq_true_eq]

theorem controlsPayeeThrows_unreadable (unreadable : e.isReadable = false) :
    ∃ value, controlsPayeeThrows toLowerCase opts payeePubkey e =
      .error (Thrown.unreadable value "message") := by
  rw [controlsPayeeThrows_eq]
  cases e
  case undefined => exact ⟨"undefined", rfl⟩
  case null => exact ⟨"null", rfl⟩
  all_goals cases unreadable

theorem controlsPayeeThrows_false_iff (e : Thrown) :
    controlsPayeeThrows toLowerCase opts payeePubkey e = .ok false ↔
      e.isReadable = true ∧
        ∃ marker ∈ noSuchKeyMarkers, marker.toList <:+: e.lowered toLowerCase := by
  cases hreadable : e.isReadable with
  | false =>
    obtain ⟨value, hthrows⟩ :=
      @controlsPayeeThrows_unreadable toLowerCase opts payeePubkey e hreadable
    simp [hthrows]
  | true =>
    rw [controlsPayeeThrows_of_isReadable opts payeePubkey hreadable]
    split <;> simp [*]

theorem isKeystoreFault_iff (e : Thrown) :
    isKeystoreFault (controlsPayeeThrows toLowerCase opts payeePubkey e) = true ↔
      e.isReadable = true ∧
        ¬ ∃ marker ∈ noSuchKeyMarkers, marker.toList <:+: e.lowered toLowerCase := by
  cases hreadable : e.isReadable with
  | false =>
    obtain ⟨value, hthrows⟩ :=
      @controlsPayeeThrows_unreadable toLowerCase opts payeePubkey e hreadable
    simp [hthrows, isKeystoreFault, Thrown.unreadable]
  | true =>
    rw [controlsPayeeThrows_of_isReadable opts payeePubkey hreadable]
    split
    next found => simp [found, isKeystoreFault]
    next clean => simp [clean, isKeystoreFault, testSignFault]

end

theorem mentions_noSuchKey_iff {e : Thrown} (unnamed : ¬ NamesKey toLowerCase e) :
    (∃ marker ∈ noSuchKeyMarkers, marker.toList <:+: e.lowered toLowerCase) ↔
      "no such".toList <:+: e.lowered toLowerCase ∨
        "not found".toList <:+: e.lowered toLowerCase := by
  have address : ¬ "unknown address".toList <:+: e.lowered toLowerCase := fun found =>
    unnamed ⟨"address", by simp, List.IsInfix.trans (by decide +kernel) found⟩
  have wallet : ¬ "no wallet".toList <:+: e.lowered toLowerCase := fun found =>
    unnamed ⟨"wallet", by simp, List.IsInfix.trans (by decide +kernel) found⟩
  simp only [noSuchKeyMarkers, List.mem_cons, List.not_mem_nil, or_false, exists_eq_or_imp,
    exists_eq_left, address, wallet]

end KeystoreKeyCustody

/-! What the spine declines for. -/

section
variable {G : Type} {ctx : ScoringCtx} {raw : RawSettlementCandidate} {formId : SettlementFormId}
  {calls : List (PortCall G)} {detail : Option String}

theorem runCustodySpine_denied
    (returns : (runCustodySpine ctx raw formId).Returns calls
      (.ok (.verdict (.decline .payeeNotControlled detail)))) :
    ⟨.controlsPayee ctx.quote.payeePubkey, .ok false⟩ ∈ calls := by
  obtain ⟨reply, later, rfl, rest⟩ := (Program.returns_call_iff _ _).1 returns
  cases reply with
  | error e => cases ((Program.returns_throw_iff _).1 rest).2
  | ok controls =>
    cases controls with
    | false => exact List.mem_cons_self
    | true =>
      -- a candidate that passes custody can only fail its payer binding
      simp only [Program.ofExcept_ok, Program.handle, Program.pure_bind, Bool.not_true,
        Bool.false_eq_true, if_false, Program.bind_eq] at rest
      obtain ⟨_, payerFail, _, -, -, ended⟩ := rest.ok_of_bind
      cases payerFail <;> cases ((Program.returns_pure_iff _).1 ended).2

theorem runBindingSpine_denied
    (returns : (runBindingSpine ctx raw formId).Returns calls
      (.ok (.verdict (.decline .payeeNotControlled detail)))) :
    ⟨.controlsPayee ctx.quote.payeePubkey, .ok false⟩ ∈ calls := by
  obtain ⟨_, datum, later, rfl, -, rest⟩ := Program.Returns.of_ask_bind returns
  refine List.mem_cons_of_mem _ ?_
  dsimp only at rest
  split at rest
  · split at rest
    · cases ((Program.returns_pure_iff _).1 rest).2
    · split at rest
      · cases ((Program.returns_pure_iff _).1 rest).2
      · split at rest
        · cases ((Program.returns_pure_iff _).1 rest).2
        · split at rest
          · cases ((Program.returns_pure_iff _).1 rest).2
          · exact runCustodySpine_denied rest
  · cases ((Program.returns_pure_iff _).1 rest).2

end

namespace KeystoreKeyCustody
variable {toLowerCase : String → String}

/-- An error stays a fault exactly when it names a key, or can be read and says neither "no such"
nor "not found". -/
theorem stays_fault_iff (opts : KeystoreKeyCustodyOpts) (payeePubkey : PubKey) (e : Thrown) :
    StaysFault toLowerCase opts payeePubkey e ↔
      NamesKey toLowerCase e ∨ e.isReadable = true ∧
        ¬ "no such".toList <:+: e.lowered toLowerCase ∧
        ¬ "not found".toList <:+: e.lowered toLowerCase := by
  constructor
  · intro stays
    by_cases named : NamesKey toLowerCase e
    · exact .inl named
    · obtain ⟨readable, clean⟩ := (isKeystoreFault_iff opts payeePubkey e).1 (stays.throws named)
      rw [mentions_noSuchKey_iff named] at clean
      exact .inr ⟨readable, not_or.1 clean⟩
  · intro holds
    have clean (unnamed : ¬ NamesKey toLowerCase e) : e.isReadable = true ∧
        ¬ ∃ marker ∈ noSuchKeyMarkers, marker.toList <:+: e.lowered toLowerCase := by
      obtain ⟨readable, suchless, found⟩ := holds.resolve_left unnamed
      rw [mentions_noSuchKey_iff unnamed]
      exact ⟨readable, not_or.2 ⟨suchless, found⟩⟩
    constructor
    · intro denied
      by_contra unnamed
      exact (clean unnamed).2 ((controlsPayeeThrows_false_iff opts payeePubkey e).1 denied).2
    · intro unnamed
      exact (isKeystoreFault_iff opts payeePubkey e).2 (clean unnamed)
    · rintro unnamed G ctx raw formId calls result returns adapter detail rfl
      have denied := adapter _ _ (runBindingSpine_denied returns)
      exact (clean unnamed).2 ((controlsPayeeThrows_false_iff opts _ e).1 denied.symm).2

def sampleOpts : KeystoreKeyCustodyOpts := ⟨none, none⟩

def methodNotFound : Thrown := .error 20 (some (.number (-32601))) "Method not found"

def unsignedPorts : TotalPorts := { paidPorts with controlsPayee := fun _ => false }

def sampleCtx : ScoringCtx := ⟨sampleQuote, 100, 0, sampleConfig, ⟨false, false⟩⟩

theorem method_declined :
    (∀ payee, unsignedPorts.answer (.controlsPayee payee : Op Unit) =
      controlsPayeeThrows asciiLower sampleOpts payee methodNotFound) ∧
    (runBindingSpine sampleCtx ⟨⟨"01", 0⟩, 500, "ee", some 90⟩ .plain : Async Unit _).eval
        unsignedPorts.answer =
      .ok (.decline .payeeNotControlled "acceptor does not control payee key (R2/M3)") ∧
    ¬ StaysFault asciiLower sampleOpts sampleQuote.payeePubkey methodNotFound := by
  have denied (payee : PubKey) :
      controlsPayeeThrows asciiLower sampleOpts payee methodNotFound = .ok false := by
    rw [controlsPayeeThrows_false_iff]
    exact ⟨rfl, by decide +kernel⟩
  have unnamed : ¬ NamesKey asciiLower methodNotFound := by
    unfold NamesKey
    decide +kernel
  exact ⟨fun payee => (denied payee).symm, rfl, fun stays => unnamed (stays.denies (denied _))⟩

end KeystoreKeyCustody
end ExferHonor
