/-! # Programs that call out

A program ends with a value or an error, or asks for an operation and goes on with its answer.
Others can come in between only at its calls.

`Leads` relates a program to what may be left of it after some answers, as a machine that runs such
programs has to know. -/

namespace CorePlatform.Theory

inductive Program (Op : Type) (Reply : Op → Type) (ε : Type) (α : Type) where
  | ok (value : α)
  | error (e : ε)
  | call (op : Op) (next : Except ε (Reply op) → Program Op Reply ε α)

namespace Program

variable {Op : Type} {Reply : Op → Type} {ε α β : Type}

def bind : Program Op Reply ε α → (α → Program Op Reply ε β) → Program Op Reply ε β
  | .ok value, f => f value
  | .error e, _ => .error e
  | .call op next, f => .call op fun answer => (next answer).bind f

def ofExcept : Except ε α → Program Op Reply ε α
  | .ok value => .ok value
  | .error e => .error e

/-- Ask for an operation and pass its error on. -/
def perform (op : Op) : Program Op Reply ε (Reply op) := .call op ofExcept

instance : Monad (Program Op Reply ε) where
  pure := .ok
  bind := bind

instance : MonadLift (Except ε) (Program Op Reply ε) := ⟨ofExcept⟩

@[simp] theorem ok_bind (value : α) (f : α → Program Op Reply ε β) : .ok value >>= f = f value := rfl

@[simp] theorem error_bind (e : ε) (f : α → Program Op Reply ε β) :
    (.error e : Program Op Reply ε α) >>= f = .error e := rfl

@[simp] theorem lift_ok (value : α) : (liftM (.ok value : Except ε α) : Program Op Reply ε α) = .ok value := rfl

@[simp] theorem lift_error (e : ε) : (liftM (.error e : Except ε α) : Program Op Reply ε α) = .error e := rfl

theorem bind_assoc {γ : Type} (prog : Program Op Reply ε α) (f : α → Program Op Reply ε β)
    (g : β → Program Op Reply ε γ) : prog >>= f >>= g = prog >>= fun value => f value >>= g := by
  induction prog with
  | ok | error => rfl
  | call op _ ih => exact congrArg (call op) (funext ih)

theorem ofExcept_injective : Function.Injective (ofExcept : Except ε α → Program Op Reply ε α) := by
  intro x y eq
  cases x <;> cases y <;> cases eq <;> rfl

theorem call_ne_ofExcept : .call op next ≠ (ofExcept res : Program Op Reply ε α) := by
  intro eq
  cases res <;> cases eq

/-- The program asks for nothing but allowed operations, and ends of itself only with errors that
may occur. -/
def Confined (allowed : Op → Prop) (may : ε → Prop) : Program Op Reply ε α → Prop
  | .ok _ => True
  | .error e => may e
  | .call op next => allowed op ∧ ∀ answer, (∀ e, answer = .error e → may e) → Confined allowed may (next answer)

theorem Confined.mono {prog : Program Op Reply ε α} (hc : prog.Confined allowed may)
    (hi : ∀ op, allowed op → wider op) : prog.Confined wider may := by
  induction prog with
  | ok => trivial
  | error => exact hc
  | call op _ ih => exact ⟨hi op hc.1, fun ans passes => ih ans (hc.2 ans passes)⟩

theorem Confined.bind {f : β → Program Op Reply ε α} (hc : first.Confined allowed may)
    (ho : ∀ value, (f value).Confined allowed may) : (first >>= f).Confined allowed may := by
  induction first with
  | ok value => exact ho value
  | error => exact hc
  | call _ _ ih => exact ⟨hc.1, fun ans passes => ih ans (hc.2 ans passes)⟩

theorem Confined.perform {f : Reply op → Program Op Reply ε α} (fits : allowed op)
    (ho : ∀ reply, (f reply).Confined allowed may) : (Program.perform op >>= f).Confined allowed may := by
  refine ⟨fits, fun ans passes => ?_⟩
  cases ans with
  | ok reply => exact ho reply
  | error e => exact passes e rfl

theorem Confined.lift {res : Except ε β} {f : β → Program Op Reply ε α}
    (hf : ∀ e, res = .error e → may e) (ho : ∀ value, res = .ok value → (f value).Confined allowed may) :
    ((liftM res : Program Op Reply ε β) >>= f).Confined allowed may := by
  cases res with
  | ok value => exact ho value rfl
  | error e => exact hf e rfl

/-- The program asks for nothing but allowed operations, and ends with the first error it gets. -/
def Passes (allowed : Op → Prop) : Program Op Reply ε α → Prop
  | .ok _ | .error _ => True
  | .call op next => allowed op ∧ (∀ e, next (.error e) = .error e) ∧ ∀ reply, Passes allowed (next (.ok reply))

theorem Passes.confined {prog : Program Op Reply ε α} (hp : prog.Passes allowed) :
    prog.Confined allowed fun _ => True := by
  induction prog with
  | ok | error => trivial
  | call _ _ ih =>
    refine ⟨hp.1, fun ans _ => ?_⟩
    cases ans with
    | ok reply => exact ih (.ok reply) (hp.2.2 reply)
    | error e =>
      rw [hp.2.1 e]
      trivial

theorem Passes.mono {prog : Program Op Reply ε α} (hp : prog.Passes allowed)
    (hi : ∀ op, allowed op → wider op) : prog.Passes wider := by
  induction prog with
  | ok | error => trivial
  | call op _ ih =>
    exact ⟨hi op hp.1, hp.2.1, fun reply => ih (.ok reply) (hp.2.2 reply)⟩

theorem Passes.bind {f : β → Program Op Reply ε α} (hp : first.Passes allowed)
    (ho : ∀ value, (f value).Passes allowed) : (first >>= f).Passes allowed := by
  induction first with
  | ok value => exact ho value
  | error => trivial
  | call _ next ih =>
    refine ⟨hp.1, fun e => ?_, fun reply => ih (.ok reply) (hp.2.2 reply)⟩
    show (next (.error e)).bind f = .error e
    rw [hp.2.1 e]
    rfl

theorem Passes.op {op : Op} (fits : allowed op) : (perform op : Program Op Reply ε (Reply op)).Passes allowed :=
  ⟨fits, fun _ => rfl, fun _ => trivial⟩

theorem Passes.perform {op : Op} {f : Reply op → Program Op Reply ε α} (fits : allowed op)
    (ho : ∀ reply, (f reply).Passes allowed) : (Program.perform op >>= f).Passes allowed :=
  (Passes.op fits).bind ho

theorem Passes.lift {res : Except ε β} {f : β → Program Op Reply ε α} (ho : ∀ value, (f value).Passes allowed) :
    ((liftM res : Program Op Reply ε β) >>= f).Passes allowed := by
  cases res with
  | ok value => exact ho value
  | error => trivial

end Program
end CorePlatform.Theory
