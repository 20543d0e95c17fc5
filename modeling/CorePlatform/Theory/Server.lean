import CorePlatform.Theory.Program

/-! # Remote calls and how they go

A server carries out operations on its own state. A call can be carried out and answered, not be
carried out, or be carried out with the answer lost; the caller sees the last two as the same error.

A program runs alone here; how each of its calls goes is read off a pattern that the environment
chooses. -/

namespace CorePlatform.Theory

inductive Service where
  | served
  | refused (reason : String)
  | replyLost (reason : String)
  deriving DecidableEq

/-- The call is carried out, whether or not the caller learns of it. -/
def Service.reaches : Service → Bool
  | .served | .replyLost _ => true
  | .refused _ => false

structure Server (σ Op : Type) (Reply : Op → Type) (ε : Type) where
  serve : σ → (op : Op) → σ × Except ε (Reply op)
  failure : Op → String → ε

namespace Server

variable {σ Op : Type} {Reply : Op → Type} {ε α : Type} (server : Server σ Op Reply ε)

def perform (s : σ) (op : Op) : Service → σ × Except ε (Reply op)
  | .served => server.serve s op
  | .refused reason => (s, .error (server.failure op reason))
  | .replyLost reason => ((server.serve s op).1, .error (server.failure op reason))

/-- Run a program alone; `pattern` says how its calls go, the first one first. -/
def execute : Program Op Reply ε α → σ → (Nat → Service) → σ × Except ε α
  | .ok value, s, _ => (s, .ok value)
  | .error e, s, _ => (s, .error e)
  | .call op next, s, pattern =>
    let (after, answer) := server.perform s op (pattern 0)
    execute (next answer) after fun n => pattern (n + 1)

def allServed : Nat → Service := fun _ => .served

/-- Attempts are made in turn, each on what the last one left, until one of them ends it. -/
def retry (ends : Except ε α → Bool) : List (Program Op Reply ε α × (Nat → Service)) → σ → Option σ
  | [], _ => none
  | (program, pattern) :: rest, s =>
    let (after, answer) := server.execute program s pattern
    if ends answer then some after else retry ends rest after

variable {β : Type}

@[simp] theorem execute_ok : server.execute (.ok value) s pattern = (s, .ok value) := rfl

@[simp] theorem execute_error (e : ε) (s : σ) (pat : Nat → Service) :
    server.execute (.error e : Program Op Reply ε α) s pat = (s, .error e) := rfl

@[simp] theorem execute_pure : server.execute (pure value) s pattern = (s, .ok value) := rfl

theorem execute_perform : server.execute (.perform op) s pat = server.perform s op (pat 0) := by
  show server.execute (.ofExcept (server.perform s op (pat 0)).2) (server.perform s op (pat 0)).1 _ = _
  cases ans : (server.perform s op (pat 0)).2 <;> simp [Program.ofExcept, ← ans]

theorem execute_perform_bind (op : Op) (rest : Reply op → Program Op Reply ε α) (s : σ) (pat : Nat → Service) :
    server.execute (.perform op >>= rest) s pat =
      match server.perform s op (pat 0) with
      | (after, .ok reply) => server.execute (rest reply) after fun n => pat (n + 1)
      | (after, .error e) => (after, .error e) := by
  show server.execute ((Program.ofExcept (server.perform s op (pat 0)).2).bind rest)
    (server.perform s op (pat 0)).1 _ = _
  obtain ⟨_, ans⟩ := server.perform s op (pat 0)
  cases ans <;> rfl

theorem execute_bind_served (first : Program Op Reply ε α) (rest : α → Program Op Reply ε β) (s : σ) :
    server.execute (first >>= rest) s allServed =
      match server.execute first s allServed with
      | (after, .ok value) => server.execute (rest value) after allServed
      | (after, .error e) => (after, .error e) := by
  induction first generalizing s with
  | ok | error => rfl
  | call op _ ih => exact ih (server.perform s op .served).2 (server.perform s op .served).1

section

variable {server}

theorem execute_served {op : Op} {reply : Reply op}
    {rest : Reply op → Program Op Reply ε α} (hv : pat 0 = .served)
    (ha : server.serve s op = (after, .ok reply)) :
    server.execute (.perform op >>= rest) s pat = server.execute (rest reply) after fun n => pat (n + 1) := by
  rw [execute_perform_bind, hv]
  simp only [perform, ha]

theorem execute_perform_holds {op : Op} {rest : Reply op → Program Op Reply ε α}
    (holds : σ → Prop) (hb : holds s) (after : holds (server.serve s op).1)
    (ho : ∀ reply, server.serve s op = ((server.serve s op).1, .ok reply) →
      holds (server.execute (rest reply) (server.serve s op).1 fun n => pat (n + 1)).1) :
    holds (server.execute (.perform op >>= rest) s pat).1 := by
  rw [execute_perform_bind]
  cases pat 0 with
  | served =>
    simp only [perform]
    generalize served : server.serve s op = res at *
    obtain ⟨_, ans⟩ := res
    cases ans with
    | ok reply => exact ho reply rfl
    | error => exact after
  | refused => exact hb
  | replyLost => exact after

theorem execute_read {holds : σ → Prop} {op : Op} {reply : Reply op}
    {rest : Reply op → Program Op Reply ε α} {s : σ} (reads : server.serve s op = (s, .ok reply)) (hf : ¬ holds s) :
    holds (server.execute (.perform op >>= rest) s pat).1 ↔
      pat 0 = .served ∧ holds (server.execute (rest reply) s fun n => pat (n + 1)).1 := by
  rw [execute_perform_bind]
  cases pat 0 with
  | served => simp [perform, reads]
  | refused | replyLost => simp [perform, reads, hf]

theorem execute_bind_ok {first : Program Op Reply ε α}
    {rest : α → Program Op Reply ε β} {s t : σ} {value : β}
    (done : server.execute (first >>= rest) s allServed = (t, .ok value)) :
    ∃ mid inner, server.execute first s allServed = (mid, .ok inner) ∧
      server.execute (rest inner) mid allServed = (t, .ok value) := by
  rw [execute_bind_served] at done
  generalize ran : server.execute first s allServed = res at done
  obtain ⟨mid, ans⟩ := res
  cases ans with
  | ok inner => exact ⟨mid, inner, rfl, done⟩
  | error => cases done

theorem execute_of_passes {allowed : Op → Prop} {prog : Program Op Reply ε α}
    (hp : prog.Passes allowed) {s t : σ} {value : α} (done : server.execute prog s pat = (t, .ok value)) :
    server.execute prog s allServed = (t, .ok value) := by
  induction prog generalizing s pat with
  | ok => exact done
  | error => cases done
  | call op next ih =>
    have failing : ∀ {after : σ} {e : ε} {pat : Nat → Service},
        server.execute (next (.error e)) after pat ≠ (t, .ok value) := by
      intro after e pat he
      rw [hp.2.1 e] at he
      cases he
    unfold execute at done ⊢
    generalize first : pat 0 = svc at done
    cases svc with
    | refused | replyLost => exact absurd done failing
    | served =>
      simp only [perform, allServed] at done ⊢
      generalize server.serve s op = res at done ⊢
      obtain ⟨_, ans⟩ := res
      cases ans with
      | error => exact absurd done failing
      | ok reply => exact ih (.ok reply) (hp.2.2 reply) done

theorem execute_lift_ok {res : Except ε α} {rest : α → Program Op Reply ε β}
    {s t : σ} {value : β} (done : server.execute (liftM res >>= rest) s pattern = (t, .ok value)) :
    ∃ inner, res = .ok inner ∧ server.execute (rest inner) s pattern = (t, .ok value) := by
  cases res with
  | ok inner => exact ⟨inner, rfl, done⟩
  | error => cases done

theorem perform_unchanged (view : σ → β)
    (hk : ∀ s op, view (server.serve s op).1 = view s) (s : σ) (op : Op) (svc : Service) :
    view (server.perform s op svc).1 = view s := by
  cases svc with
  | served | replyLost => exact hk s op
  | refused => rfl

theorem execute_unchanged (view : σ → β)
    (hk : ∀ s op, view (server.serve s op).1 = view s) (prog : Program Op Reply ε α) (s : σ)
    (pat : Nat → Service) : view (server.execute prog s pat).1 = view s := by
  induction prog generalizing s pat with
  | ok | error => rfl
  | call op _ ih => exact (ih _ _ _).trans (perform_unchanged view hk s op (pat 0))

theorem execute_keeps (holds : σ → Prop)
    (hk : ∀ s op, holds s → holds (server.serve s op).1) (initially : holds s) :
    holds (server.execute program s pat).1 := by
  induction program generalizing s pat with
  | ok | error => exact initially
  | call op _ ih =>
    apply ih
    cases pat 0 with
    | served | replyLost => exact hk s op initially
    | refused => exact initially

theorem execute_confined {holds : σ → Prop} (hc : program.Confined allowed may)
    (he : ∀ s op service e, allowed op → (server.perform s op service).2 = .error e → may e)
    (hk : ∀ s op, allowed op → holds s → holds (server.serve s op).1) (initially : holds s)
    (pat : Nat → Service) :
    holds (server.execute program s pat).1 ∧ ∀ e, (server.execute program s pat).2 = .error e → may e := by
  induction program generalizing s pat with
  | ok => exact ⟨initially, fun e hf => nomatch hf⟩
  | error =>
    refine ⟨initially, fun e' hf => ?_⟩
    cases hf
    exact hc
  | call op _ ih =>
    refine ih _ (hc.2 _ fun e hf => he s op (pat 0) e hc.1 hf) ?_ _
    cases pat 0 with
    | served | replyLost => exact hk s op hc.1 initially
    | refused => exact initially

end

/-! The calls that a program makes on its way. -/

/-- A call, the state it found and how it went. -/
structure Made (σ Op : Type) where
  before : σ
  op : Op
  service : Service

inductive Runs : Program Op Reply ε α → σ → List (Made σ Op) → σ → Except ε α → Prop where
  | ok (value : α) (s : σ) : Runs (.ok value) s [] s (.ok value)
  | error (e : ε) (s : σ) : Runs (.error e) s [] s (.error e)
  | call {op : Op} {next : Except ε (Reply op) → Program Op Reply ε α} {s s' : σ} {made : List (Made σ Op)}
      {result : Except ε α} (service : Service)
      (rest : Runs (next (server.perform s op service).2) (server.perform s op service).1 made s' result) :
      Runs (.call op next) s (⟨s, op, service⟩ :: made) s' result

variable {server} {op : Op} {s : σ}

theorem Runs.of_perform (ran : server.Runs (.perform op >>= rest) s made s' result) :
    (∃ svc reply made', server.perform s op svc = ((server.perform s op svc).1, .ok reply) ∧
      made = ⟨s, op, svc⟩ :: made' ∧
      server.Runs (rest reply) (server.perform s op svc).1 made' s' result) ∨
    ∃ svc e, server.perform s op svc = (s', .error e) ∧ made = [⟨s, op, svc⟩] ∧ result = .error e := by
  generalize eq : (Program.perform op >>= rest) = prog at ran
  cases ran with
  | ok | error => cases eq
  | @call _ _ _ _ made' _ svc ran =>
    cases eq
    cases ans : (server.perform s op svc).2 with
    | ok reply =>
      rw [ans] at ran
      exact .inl ⟨svc, reply, made', Prod.ext rfl ans, rfl, ran⟩
    | error e =>
      rw [ans] at ran
      cases ran with
      | error => exact .inr ⟨svc, e, Prod.ext rfl ans, rfl, rfl⟩

/-- The calls of a run whose calls go by a pattern. -/
def calls (server : Server σ Op Reply ε) : Program Op Reply ε α → σ → (Nat → Service) → List (Made σ Op)
  | .ok _, _, _ | .error _, _, _ => []
  | .call op next, s, pattern =>
    ⟨s, op, pattern 0⟩ :: calls server (next (server.perform s op (pattern 0)).2)
      (server.perform s op (pattern 0)).1 fun n => pattern (n + 1)

theorem runs_execute (server : Server σ Op Reply ε) (prog : Program Op Reply ε α) (s : σ)
    (pat : Nat → Service) :
    server.Runs prog s (server.calls prog s pat) (server.execute prog s pat).1 (server.execute prog s pat).2 := by
  induction prog generalizing s pat with
  | ok value => exact .ok value s
  | error e => exact .error e s
  | call _ _ ih => exact .call (pat 0) (ih _ _ _)

end Server
end CorePlatform.Theory
