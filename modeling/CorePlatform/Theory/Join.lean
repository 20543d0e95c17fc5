import CorePlatform.Theory.Server

/-! # Programs side by side

Two programs of one caller can be under way at once: whose operation comes next is chosen turn by
turn, and the caller goes on when both are done. An operation that one of them is bound to ask for
is asked for whatever the turns are. Where no operation can tell whether one of the other program
came before it, the outcome is that of running them one after the other. -/

namespace CorePlatform.Theory

namespace Program

variable {Op : Type} {Reply : Op → Type} {ε α β γ : Type}

/-- An error becomes a value of the program. -/
def attempt : Program Op Reply ε α → Program Op Reply ε (Except ε α)
  | .ok value => .ok (.ok value)
  | .error e => .ok (.error e)
  | .call op next => .call op fun answer => (next answer).attempt

/-- Steps of the second program for as long as it is its turn, then one step of the first. -/
def joinStep (op : Op) (next : Except ε (Reply op) → Program Op Reply ε β → List Bool → Program Op Reply ε γ) :
    Program Op Reply ε β → List Bool → Program Op Reply ε γ
  | .call op' next', false :: turns => .call op' fun answer => joinStep op next (next' answer) turns
  | second, turns => .call op fun answer => next answer second turns.tail

/-- Both programs; `true` is a turn of the first. -/
def join : Program Op Reply ε α → Program Op Reply ε β → List Bool → Program Op Reply ε (α × β)
  | .ok value, second, _ => second.bind fun other => .ok (value, other)
  | .error e, second, _ => second.bind fun _ => .error e
  | .call op next, second, turns =>
    joinStep op (fun answer second turns => join (next answer) second turns) second turns

theorem Confined.attempt {prog : Program Op Reply ε α} (hc : prog.Confined allowed may) :
    prog.attempt.Confined allowed may := by
  induction prog with
  | ok | error => trivial
  | call _ _ ih => exact ⟨hc.1, fun ans passes => ih ans (hc.2 ans passes)⟩

theorem Confined.join {first : Program Op Reply ε α} {second : Program Op Reply ε β}
    (hc : first.Confined allowed may) (confined' : second.Confined allowed may) (turns : List Bool) :
    (first.join second turns).Confined allowed may := by
  induction first generalizing second turns with
  | ok => exact confined'.bind fun _ => trivial
  | error => exact confined'.bind fun _ => hc
  | call op next ih =>
    unfold Program.join
    fun_induction joinStep op (fun ans second turns => (next ans).join second turns) second turns with
    | case1 _ _ _ ih' =>
      exact ⟨confined'.1, fun ans passes => ih' ans (confined'.2 ans passes)⟩
    | case2 _ turns =>
      exact ⟨hc.1, fun ans passes => ih ans (hc.2 ans passes) confined' turns.tail⟩

/-- As long as the reliable operations are answered, the program comes to ask for the operation. -/
def BoundFor (reliable : Op → Prop) (wanted : Op) : Program Op Reply ε α → Prop
  | .ok _ | .error _ => False
  | .call op next =>
    op = wanted ∨ ∀ answer, (reliable op → ∃ reply, answer = .ok reply) → BoundFor reliable wanted (next answer)

theorem BoundFor.bind (hb : first.BoundFor reliable wanted) (f : α → Program Op Reply ε β) :
    (first >>= f).BoundFor reliable wanted := by
  induction first with
  | ok | error => cases hb
  | call _ _ ih =>
    cases hb with
    | inl here => exact .inl here
    | inr hl => exact .inr fun ans ha => ih ans (hl ans ha)

theorem BoundFor.attempt {prog : Program Op Reply ε α} (hb : prog.BoundFor reliable wanted) :
    prog.attempt.BoundFor reliable wanted := by
  induction prog with
  | ok | error => cases hb
  | call _ _ ih =>
    cases hb with
    | inl here => exact .inl here
    | inr hl => exact .inr fun ans ha => ih ans (hl ans ha)

theorem boundFor_joinStep {next : Except ε (Reply op) → Program Op Reply ε β → List Bool → Program Op Reply ε γ}
    (ho : op = wanted ∨ ∀ ans, (reliable op → ∃ reply, ans = .ok reply) →
      ∀ second turns, (next ans second turns).BoundFor reliable wanted) :
    (joinStep op next second turns).BoundFor reliable wanted := by
  fun_induction joinStep op next second turns with
  | case1 _ _ _ ih => exact .inr fun ans _ => ih ans
  | case2 second turns =>
    cases ho with
    | inl here => exact .inl here
    | inr hl => exact .inr fun ans ha => hl ans ha second turns.tail

theorem BoundFor.join_left {first : Program Op Reply ε α} (hb : first.BoundFor reliable wanted)
    (second : Program Op Reply ε β) (turns : List Bool) : (first.join second turns).BoundFor reliable wanted := by
  induction first generalizing second turns with
  | ok | error => cases hb
  | call _ _ ih =>
    apply boundFor_joinStep
    cases hb with
    | inl here => exact .inl here
    | inr hl => exact .inr fun ans ha second turns => ih ans (hl ans ha) second turns

theorem BoundFor.join_right (hb : second.BoundFor reliable wanted) (first : Program Op Reply ε α)
    (turns : List Bool) : (first.join second turns).BoundFor reliable wanted := by
  induction first generalizing second turns with
  | ok | error => exact hb.bind _
  | call op next ih =>
    unfold join
    -- The second program moves for a while; then the first takes a step and the rest is joined again.
    fun_induction joinStep op (fun ans second turns => (next ans).join second turns) second turns with
    | case1 _ _ _ ih' =>
      cases hb with
      | inl here => exact .inl here
      | inr hl => exact .inr fun ans ha => ih' ans (hl ans ha)
    | case2 _ turns => exact .inr fun ans _ => ih ans hb turns.tail

def both : Except ε α → Except ε β → Except ε (α × β)
  | .ok value, .ok other => .ok (value, other)
  | .error e, .ok _ => .error e
  | _, .error e => .error e

end Program

namespace Server

open Program

variable {σ Op : Type} {Reply : Op → Type} {ε α β : Type} (server : Server σ Op Reply ε)

/-- Neither operation can tell whether the other came first. -/
structure Commute (op op' : Op) : Prop where
  state : ∀ s, (server.serve (server.serve s op).1 op').1 = (server.serve (server.serve s op').1 op).1
  answer : ∀ s, (server.serve (server.serve s op').1 op).2 = (server.serve s op).2
  answer' : ∀ s, (server.serve (server.serve s op).1 op').2 = (server.serve s op').2

variable {server}

theorem commute_of_reads (hr : ∀ s, (server.serve s op).1 = s) (reads' : ∀ s, (server.serve s op').1 = s) :
    server.Commute op op' := by
  constructor
  · intro s
    rw [hr, reads', hr]
  · intro s
    rw [reads']
  · intro s
    rw [hr]

theorem execute_call (op : Op) (next : Except ε (Reply op) → Program Op Reply ε α) :
    server.execute (.call op next) s allServed =
      server.execute (next (server.serve s op).2) (server.serve s op).1 allServed := rfl

theorem execute_slide (hc : program.Confined allowed fun _ => True)
    (hco : ∀ op, allowed op → server.Commute op op') (s : σ) :
    server.execute program (server.serve s op').1 allServed =
        ((server.serve (server.execute program s allServed).1 op').1, (server.execute program s allServed).2) ∧
      (server.serve (server.execute program s allServed).1 op').2 = (server.serve s op').2 := by
  induction program generalizing s with
  | ok | error => exact ⟨rfl, rfl⟩
  | call op _ ih =>
    have commutes := hco op hc.1
    have hl := ih (server.serve s op).2 (hc.2 _ fun _ _ => trivial) (server.serve s op).1
    rw [execute_call, execute_call, commutes.answer s, ← commutes.state s]
    exact ⟨hl.1, hl.2.trans (commutes.answer' s)⟩

theorem execute_join (hc : first.Confined allowed fun _ => True)
    (confined' : second.Confined allowed' fun _ => True)
    (hco : ∀ op op', allowed op → allowed' op' → server.Commute op op') (turns : List Bool) (s : σ) :
    server.execute (first.join second turns) s allServed =
      ((server.execute second (server.execute first s allServed).1 allServed).1,
        both (server.execute first s allServed).2
          (server.execute second (server.execute first s allServed).1 allServed).2) := by
  induction first generalizing second turns s with
  | ok value =>
    show server.execute (second >>= fun other => .ok (value, other)) s allServed = _
    rw [execute_bind_served, execute_ok]
    generalize server.execute second s allServed = res
    obtain ⟨after, _ | _⟩ := res <;> rfl
  | error e =>
    show server.execute (second >>= fun _ => .error e) s allServed = _
    rw [execute_bind_served, execute_error]
    generalize server.execute second s allServed = res
    obtain ⟨_, _ | _⟩ := res <;> rfl
  | call op next ih =>
    unfold join
    fun_induction joinStep op (fun ans second turns => (next ans).join second turns) second turns
      generalizing s with
    | case1 op' next' _ ih' =>
      -- The step of the second program slides behind the whole of the first.
      obtain ⟨slid, ha⟩ := execute_slide hc (fun op fits => hco op op' fits confined'.1) s
      rw [execute_call, ih' _ (confined'.2 _ fun _ _ => trivial), slid, execute_call op' next', ha]
    | case2 _ turns =>
      exact ih _ (hc.2 _ fun _ _ => trivial) confined' turns.tail (server.serve s op).1

end Server
end CorePlatform.Theory
