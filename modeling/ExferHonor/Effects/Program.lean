import Mathlib.Logic.Basic

/-! Programs over an interface of operations. A program is the sequence of calls it makes,
each continued by whatever reply it receives; nothing here fixes who replies. -/
namespace Effects

/-- A program calls one operation at a time and goes on with the reply, until it ends with
a value or throws. -/
inductive Program (Op : Type) (Reply : Op → Type) (ε α : Type) where
  | pure (value : α)
  | throw (error : ε)
  | call (op : Op) (resume : Reply op → Program Op Reply ε α)

structure Call (Op : Type) (Reply : Op → Type) where
  op : Op
  reply : Reply op

variable {Op Own : Type} {Reply : Op → Type} {OwnReply : Own → Type} {ε α β γ : Type}

abbrev Call.alongside (call : Call Op Reply) : Call (Op ⊕ Own) (Sum.elim Reply OwnReply) :=
  ⟨.inl call.op, call.reply⟩

namespace Program

def bind (program : Program Op Reply ε α) (next : α → Program Op Reply ε β) :
    Program Op Reply ε β :=
  match program with
  | .pure value => next value
  | .throw error => .throw error
  | .call op resume => .call op fun reply => (resume reply).bind next

/-- `try { program } catch (e) { handler(e) }` -/
def handle (program : Program Op Reply ε α) (handler : ε → Program Op Reply ε α) :
    Program Op Reply ε α :=
  match program with
  | .pure value => .pure value
  | .throw error => handler error
  | .call op resume => .call op fun reply => (resume reply).handle handler

instance : Monad (Program Op Reply ε) where
  pure := .pure
  bind := bind

instance : MonadExceptOf ε (Program Op Reply ε) where
  throw := .throw
  tryCatch := handle

def ofExcept : Except ε α → Program Op Reply ε α
  | .ok value => .pure value
  | .error error => .throw error

def waits : Program Op Reply ε α → Bool
  | .call _ _ => true
  | _ => false

def alongside : Program Op Reply ε α → Program (Op ⊕ Own) (Sum.elim Reply OwnReply) ε α
  | .pure value => .pure value
  | .throw error => .throw error
  | .call op resume => .call (.inl op) fun reply => (resume reply).alongside

@[simp] theorem pure_eq (value : α) :
    (Pure.pure value : Program Op Reply ε α) = .pure value := rfl

@[simp] theorem bind_eq (program : Program Op Reply ε α)
    (next : α → Program Op Reply ε β) : program >>= next = program.bind next := rfl

@[simp] theorem pure_bind (value : α) (next : α → Program Op Reply ε β) :
    (Program.pure value : Program Op Reply ε α).bind next = next value := rfl

@[simp] theorem throw_bind (error : ε) (next : α → Program Op Reply ε β) :
    (Program.throw error : Program Op Reply ε α).bind next = .throw error := rfl

@[simp] theorem call_bind (op : Op) (resume : Reply op → Program Op Reply ε α)
    (next : α → Program Op Reply ε β) :
    (Program.call op resume).bind next = .call op fun reply => (resume reply).bind next := rfl

@[simp] theorem ofExcept_ok (value : α) :
    (ofExcept (.ok value) : Program Op Reply ε α) = .pure value := rfl

@[simp] theorem ofExcept_error (error : ε) :
    (ofExcept (.error error) : Program Op Reply ε α) = .throw error := rfl

theorem call_ne_ofExcept (op : Op) (resume : Reply op → Program Op Reply ε α)
    (result : Except ε α) : Program.call op resume ≠ ofExcept result := by
  cases result <;> nofun

theorem exists_ofExcept {program : Program Op Reply ε α} (ended : program.waits = false) :
    ∃ result, program = ofExcept result := by
  cases program with
  | pure value => exact ⟨.ok value, rfl⟩
  | throw error => exact ⟨.error error, rfl⟩
  | call op resume => cases ended

@[simp] theorem bind_pure (program : Program Op Reply ε α) :
    program.bind .pure = program := by
  induction program with
  | pure value => rfl
  | throw error => rfl
  | call op resume ih => exact congrArg (Program.call op) (funext ih)

theorem bind_assoc (program : Program Op Reply ε α) (next : α → Program Op Reply ε β)
    (last : β → Program Op Reply ε γ) :
    (program.bind next).bind last = program.bind fun value => (next value).bind last := by
  induction program with
  | pure value => rfl
  | throw error => rfl
  | call op resume ih => exact congrArg (Program.call op) (funext ih)

instance : LawfulMonad (Program Op Reply ε) :=
  LawfulMonad.mk' _ bind_pure (fun _ _ => rfl) bind_assoc

def eval (answer : (op : Op) → Reply op) : Program Op Reply ε α → Except ε α
  | .pure value => .ok value
  | .throw error => .error error
  | .call op resume => (resume (answer op)).eval answer

@[simp] theorem tryCatch_ok (value : α) (handler : ε → Except ε α) :
    (Except.ok value).tryCatch handler = .ok value := rfl

@[simp] theorem eval_pure (answer : (op : Op) → Reply op) (value : α) :
    (Program.pure value : Program Op Reply ε α).eval answer = .ok value := rfl

@[simp] theorem eval_bind (answer : (op : Op) → Reply op) (program : Program Op Reply ε α)
    (next : α → Program Op Reply ε β) :
    (program.bind next).eval answer =
      (program.eval answer).bind fun value => (next value).eval answer := by
  induction program with
  | pure value => rfl
  | throw error => rfl
  | call op resume ih => exact ih (answer op)

@[simp] theorem eval_handle (answer : (op : Op) → Reply op) (program : Program Op Reply ε α)
    (handler : ε → Program Op Reply ε α) :
    (program.handle handler).eval answer =
      (program.eval answer).tryCatch fun error => (handler error).eval answer := by
  induction program with
  | pure value => rfl
  | throw error => rfl
  | call op resume ih => exact ih (answer op)

/-- Run against an environment with a state; also the calls made, in order. -/
def run {σ : Type} (handler : σ → (op : Op) → Reply op × σ) :
    σ → Program Op Reply ε α → List (Call Op Reply) × Except ε α × σ
  | state, .pure value => ([], .ok value, state)
  | state, .throw error => ([], .error error, state)
  | state, .call op resume =>
      let reply := handler state op
      let rest := (resume reply.1).run handler reply.2
      (⟨op, reply.1⟩ :: rest.1, rest.2)

end Program
end Effects
