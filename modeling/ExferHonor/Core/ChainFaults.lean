import ExferHonor.Core.PortFaults

/-! What a chain that throws does to a call of the engine: nothing between the port and the façade
catches or wraps its error. -/
namespace ExferHonor
open Effects

variable {G : Type}

def chainFault : PortCall G → Option Thrown
  | ⟨.tipHeight, reply⟩ => thrown? reply
  | ⟨.getOutputDatum _, reply⟩ => thrown? reply
  | ⟨.findSettlementsByQuoteId _, reply⟩ => thrown? reply
  | ⟨.getTransaction _, reply⟩ => thrown? reply
  | ⟨.getTxInputs _, reply⟩ => thrown? reply
  | ⟨.getOutputScript _, reply⟩ => thrown? reply
  | ⟨.getHtlc _, reply⟩ => thrown? reply
  | ⟨.submitClaim _ _, reply⟩ => thrown? reply
  | _ => none

theorem chainFault_eq_none {op : Op G} (reply : op.Reply) (other : op.isChain = false) :
    chainFault ⟨op, reply⟩ = none := by
  cases op <;> first | rfl | contradiction

theorem raised_of_chainFault (rethrow : Bool) (call : PortCall G) (e : Thrown)
    (faulty : chainFault call = some e) : raised rethrow call = some e := by
  obtain ⟨op, reply⟩ := call
  cases op <;> first | exact faulty | cases faulty

abbrev PassesFaults {α : Type} (program : Async G α) : Prop := Escapes chainFault program

theorem passes_ask {α : Type} {op : Op G} {reads : op.Reply → Except Thrown α}
    (other : op.isChain = false) :
    PassesFaults (.call op fun reply => .ofExcept (reads reply)) :=
  Escapes.of_uses (Uses.ask rfl : Uses (· = op) _) fun _ reply h =>
    chainFault_eq_none reply (h ▸ other)

theorem HonorEngine.honor_passes {engine : HonorEngine G} {reserver : Bool}
    (forms : engine.deps.forms = createFormRegistry (builtinForms reserver)) (key : HonorKey)
    (deliver : Deliver G) (opts : RegisterOpts) :
    PassesFaults (engine.honor key deliver opts) :=
  (honor_raises forms key deliver opts).escapes (raised_of_chainFault _)

end ExferHonor
