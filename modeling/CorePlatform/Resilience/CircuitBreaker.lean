import CorePlatform.Theory.Machine

/-! # The circuit breaker and the calls that share it

The state machine keeps its state behind one lock. A call takes the lock several times: to read the
state, to reserve a probe slot, to record its outcome and to give the slot back. In between the
other calls run, and wherever a call waits its future can be dropped, by the timeout layer or by its
caller.

Three things are written down that the breaker does not read: when it opened, when a call started
the inner service, and how often the slot count was set back to zero. -/

namespace CorePlatform.Resilience

open Theory

inductive CircuitState where
  | closed
  | opened
  | halfOpen
  deriving DecidableEq

structure CircuitBreakerConfig where
  failureThreshold : UInt32
  successThreshold : UInt32
  openDuration : Nat
  halfOpenMaxCalls : UInt32

structure Inner where
  state : CircuitState
  openSince : Option Nat
  consecutiveFailures : UInt32
  consecutiveSuccesses : UInt32
  halfOpenInflight : UInt32

def Inner.trip (inner : Inner) (now : Nat) : Inner :=
  { inner with state := .opened, openSince := some now, halfOpenInflight := 0 }

namespace StateMachine

def new : Inner where
  state := .closed
  openSince := none
  consecutiveFailures := 0
  consecutiveSuccesses := 0
  halfOpenInflight := 0

variable (config : CircuitBreakerConfig) (inner : Inner)

/-- The circuit has been open for as long as it should. -/
def cooledDown (now : Nat) : Bool :=
  match inner.openSince with
  | some since => decide (config.openDuration ≤ now - since)
  | none => false

def state (now : Nat) : Inner × CircuitState :=
  if inner.state = .opened ∧ cooledDown config inner now then
    ({ inner with state := .halfOpen, consecutiveFailures := 0, consecutiveSuccesses := 0 }, .halfOpen)
  else (inner, inner.state)

def onSuccess : Inner :=
  let inner := { inner with
    consecutiveFailures := 0
    consecutiveSuccesses := inner.consecutiveSuccesses + 1 }
  if inner.state = .halfOpen ∧ config.successThreshold ≤ inner.consecutiveSuccesses then
    { inner with state := .closed, halfOpenInflight := 0 }
  else inner

def onFailure (now : Nat) : Inner :=
  let inner := { inner with
    consecutiveSuccesses := 0
    consecutiveFailures := inner.consecutiveFailures + 1 }
  match inner.state with
  | .closed => if config.failureThreshold ≤ inner.consecutiveFailures then inner.trip now else inner
  | .halfOpen => inner.trip now
  | .opened => inner

def tryAcquireHalfOpenSlot : Inner × Bool :=
  if inner.halfOpenInflight < config.halfOpenMaxCalls then
    ({ inner with halfOpenInflight := inner.halfOpenInflight + 1 }, true)
  else (inner, false)

/-- `saturating_sub(1)`. -/
def releaseHalfOpenSlot : Inner :=
  { inner with halfOpenInflight := if inner.halfOpenInflight = 0 then 0 else inner.halfOpenInflight - 1 }

theorem state_cases (now : Nat) :
    state config inner now = (inner, inner.state) ∨
      inner.state = .opened ∧ (∃ since, inner.openSince = some since ∧ config.openDuration ≤ now - since) ∧
        state config inner now =
          ({ inner with state := .halfOpen, consecutiveFailures := 0, consecutiveSuccesses := 0 }, .halfOpen) := by
  unfold state
  split
  · rename_i cooled
    refine .inr ⟨cooled.1, ?_, rfl⟩
    have long := cooled.2
    unfold cooledDown at long
    split at long
    · rename_i since ho
      exact ⟨since, ho, of_decide_eq_true long⟩
    · cases long
  · exact .inl rfl

theorem state_inflight : (state config inner now).1.halfOpenInflight = inner.halfOpenInflight := by
  rcases state_cases config inner now with eq | ⟨_, _, turned⟩
  · rw [eq]
  · rw [turned]

end StateMachine

inductive ResilienceError (ε : Type) where
  | circuitOpen
  | maxRetriesExhausted (attempts : UInt32)
  | inner (e : ε)

/-- Where a call stands in `CircuitBreakerService::call`. -/
inductive Phase (α ε : Type) where
  | gating
  /-- It has read a half-open circuit. -/
  | acquiring
  | starting (wasHalfOpen : Bool)
  | running (wasHalfOpen : Bool)
  | recording (wasHalfOpen : Bool) (result : Except ε α)
  | releasing (result : Except ε α)
  | returned (result : Except (ResilienceError ε) α)
  | dropped

structure Call (α ε : Type) where
  phase : Phase α ε
  /-- How often the slot count had been set back when the call took its slot. -/
  took : Nat

structure Breaker (α ε : Type) where
  now : Nat
  inner : Inner
  calls : List (Call α ε)
  openings : List Nat
  starts : List Nat
  resets : Nat

inductive Label (α ε : Type) where
  | arrive
  | advance (i : Nat)
  | finish (i : Nat) (result : Except ε α)
  | drop (i : Nat)
  | elapse (duration : Nat)

namespace Phase

variable {α ε : Type}

/-- From the reserved slot to its release. -/
def holdsSlot : Phase α ε → Bool
  | .starting p | .running p | .recording p _ => p
  | .releasing _ => true
  | .gating | .acquiring | .returned _ | .dropped => false

def runsProbe : Phase α ε → Bool
  | .running p => p
  | _ => false

/-- It has read a half-open circuit and is about to ask for a slot. -/
def asks : Phase α ε → Bool
  | .acquiring => true
  | _ => false

/-- It has passed the gate, or is about to, and has not started the inner service yet. -/
def bound : Phase α ε → Bool
  | .acquiring | .starting _ => true
  | _ => false

/-- The future waits for something, so that it can be dropped. -/
def waits : Phase α ε → Bool
  | .gating | .acquiring | .running _ | .recording _ _ | .releasing _ => true
  | .starting _ | .returned _ | .dropped => false

def gate : CircuitState → Phase α ε
  | .opened => .returned (.error .circuitOpen)
  | .halfOpen => .acquiring
  | .closed => .starting false

def finished (result : Except ε α) : Phase α ε := .returned (result.mapError .inner)

end Phase

namespace Breaker

variable {α ε : Type} (config : CircuitBreakerConfig)

def start (now : Nat) : Breaker α ε := ⟨now, StateMachine.new, [], [], [], 0⟩

def outcome (b : Breaker α ε) : Except ε α → Inner
  | .ok _ => StateMachine.onSuccess config b.inner
  | .error _ => StateMachine.onFailure config b.inner b.now

def put (b : Breaker α ε) (i : Nat) (call : Call α ε) : Breaker α ε := { b with calls := b.calls.set i call }

def record (b : Breaker α ε) (i : Nat) (call : Call α ε) (wasHalfOpen : Bool) (result : Except ε α) : Breaker α ε :=
  let inner := b.outcome config result
  { (b.put i { call with phase := if wasHalfOpen then .releasing result else .finished result }) with
    inner
    openings := if inner.state = .opened ∧ b.inner.state ≠ .opened then b.now :: b.openings else b.openings
    -- Each change of state at this point sets the slot count back.
    resets := if inner.state = b.inner.state then b.resets else b.resets + 1 }

def advance (b : Breaker α ε) (i : Nat) (call : Call α ε) : Option (Breaker α ε) :=
  match call.phase with
  | .gating =>
    let (inner, state) := StateMachine.state config b.inner b.now
    some { (b.put i { call with phase := .gate state }) with inner }
  | .acquiring =>
    match StateMachine.tryAcquireHalfOpenSlot config b.inner with
    | (inner, true) => some { (b.put i ⟨.starting true, b.resets⟩) with inner }
    | (inner, false) => some { (b.put i { call with phase := .returned (.error .circuitOpen) }) with inner }
  | .starting wasHalfOpen =>
    some { (b.put i { call with phase := .running wasHalfOpen }) with starts := b.now :: b.starts }
  | .recording wasHalfOpen result => some (b.record config i call wasHalfOpen result)
  | .releasing result =>
    some { (b.put i { call with phase := .finished result }) with inner := StateMachine.releaseHalfOpenSlot b.inner }
  | .running _ | .returned _ | .dropped => none

def step (b : Breaker α ε) : Label α ε → Option (Breaker α ε)
  | .arrive => some { b with calls := b.calls ++ [⟨.gating, 0⟩] }
  | .advance i => b.calls[i]?.bind (b.advance config i)
  | .finish i result =>
    match b.calls[i]? with
    | some ⟨.running wasHalfOpen, took⟩ => some (b.put i ⟨.recording wasHalfOpen result, took⟩)
    | _ => none
  | .drop i =>
    match b.calls[i]? with
    | some call => if call.phase.waits then some (b.put i { call with phase := .dropped }) else none
    | none => none
  | .elapse duration => some { b with now := b.now + duration }

def machine : Machine (Breaker α ε) (Label α ε) where
  init b := ∃ now, b = .start now
  step b := b.step config

inductive Steps (b : Breaker α ε) : Label α ε → Breaker α ε → Prop where
  | arrived : Steps b .arrive { b with calls := b.calls ++ [⟨.gating, 0⟩] }
  | gated (held : b.calls[i]? = some ⟨.gating, took⟩) :
      Steps b (.advance i)
        { (b.put i ⟨.gate (StateMachine.state config b.inner b.now).2, took⟩) with
          inner := (StateMachine.state config b.inner b.now).1 }
  | acquired (held : b.calls[i]? = some ⟨.acquiring, took⟩)
      (free : b.inner.halfOpenInflight < config.halfOpenMaxCalls) :
      Steps b (.advance i)
        { (b.put i ⟨.starting true, b.resets⟩) with
          inner := { b.inner with halfOpenInflight := b.inner.halfOpenInflight + 1 } }
  | shed (held : b.calls[i]? = some ⟨.acquiring, took⟩) :
      Steps b (.advance i) (b.put i ⟨.returned (.error .circuitOpen), took⟩)
  | started (held : b.calls[i]? = some ⟨.starting wasHalfOpen, took⟩) :
      Steps b (.advance i) { (b.put i ⟨.running wasHalfOpen, took⟩) with starts := b.now :: b.starts }
  | finished (result : Except ε α) (held : b.calls[i]? = some ⟨.running wasHalfOpen, took⟩) :
      Steps b (.finish i result) (b.put i ⟨.recording wasHalfOpen result, took⟩)
  | recorded (held : b.calls[i]? = some ⟨.recording wasHalfOpen result, took⟩) :
      Steps b (.advance i) (b.record config i ⟨.recording wasHalfOpen result, took⟩ wasHalfOpen result)
  | released (held : b.calls[i]? = some ⟨.releasing result, took⟩) :
      Steps b (.advance i) { (b.put i ⟨.finished result, took⟩) with inner := StateMachine.releaseHalfOpenSlot b.inner }
  | dropped (held : b.calls[i]? = some call) (waits : call.phase.waits = true) :
      Steps b (.drop i) (b.put i { call with phase := .dropped })
  | elapsed (duration : Nat) : Steps b (.elapse duration) { b with now := b.now + duration }

variable {config} {b next : Breaker α ε}

theorem advance_steps (h : b.calls[i]? = some call) (hs : b.advance config i call = some next) :
    Steps config b (.advance i) next := by
  obtain ⟨phase, _⟩ := call
  cases phase with
  | gating =>
    cases hs
    exact .gated h
  | acquiring =>
    simp only [advance, StateMachine.tryAcquireHalfOpenSlot] at hs
    by_cases free : b.inner.halfOpenInflight < config.halfOpenMaxCalls
    · simp only [if_pos free] at hs
      cases hs
      exact .acquired h free
    · simp only [if_neg free] at hs
      cases hs
      exact .shed h
  | starting =>
    cases hs
    exact .started h
  | recording =>
    cases hs
    exact .recorded h
  | releasing =>
    cases hs
    exact .released h
  | running | returned | dropped => cases hs

theorem step_steps (hs : (machine config).step b label = some next) : Steps config b label next := by
  cases label with
  | arrive =>
    cases hs
    exact .arrived
  | advance =>
    obtain ⟨call, h, hs⟩ := Option.bind_eq_some_iff.mp hs
    exact advance_steps h hs
  | finish _ result =>
    simp only [machine, step] at hs
    split at hs
    · rename_i wasHalfOpen took h
      cases hs
      exact .finished result h
    · cases hs
  | drop _ =>
    simp only [machine, step] at hs
    split at hs
    · rename_i call h
      obtain ⟨waits, ⟨⟩⟩ := Option.ite_none_right_eq_some.mp hs
      exact .dropped h waits
    · cases hs
  | elapse duration =>
    cases hs
    exact .elapsed duration

/-- The call has a failure to record that opens the circuit. -/
def trips (config : CircuitBreakerConfig) (inner : Inner) (call : Call α ε) : Bool :=
  match call.phase, inner.state with
  | .recording _ (.error _), .closed => decide (config.failureThreshold ≤ inner.consecutiveFailures + 1)
  | .recording _ (.error _), .halfOpen => true
  | _, _ => false

/-- What a recorded outcome can do to the state. -/
inductive Turns (config : CircuitBreakerConfig) (b : Breaker α ε) (call : Call α ε) : Inner → Prop where
  | stays {next : Inner} (state : next.state = b.inner.state) (since : next.openSince = b.inner.openSince)
      (slots : next.halfOpenInflight = b.inner.halfOpenInflight) : Turns config b call next
  | closes {next : Inner} (was : b.inner.state = .halfOpen) (state : next.state = .closed)
      (slots : next.halfOpenInflight = 0) : Turns config b call next
  | opens {next : Inner} (was : b.inner.state ≠ .opened) (state : next.state = .opened)
      (since : next.openSince = some b.now) (slots : next.halfOpenInflight = 0)
      (tripped : trips config b.inner call = true) : Turns config b call next

theorem outcome_turns (config : CircuitBreakerConfig) (b : Breaker α ε) (wasHalfOpen : Bool)
    (res : Except ε α) (took : Nat) :
    Turns config b ⟨.recording wasHalfOpen res, took⟩ (b.outcome config res) := by
  cases res with
  | ok _ =>
    simp only [outcome, StateMachine.onSuccess]
    split
    · rename_i closing
      exact .closes closing.1 rfl rfl
    · exact .stays rfl rfl rfl
  | error =>
    simp only [outcome, StateMachine.onFailure]
    cases was : b.inner.state with
    | closed =>
      by_cases enough : config.failureThreshold ≤ b.inner.consecutiveFailures + 1
      · simp only [if_pos enough]
        exact .opens (by simp [was]) rfl rfl rfl (by simp [trips, was, enough])
      · simp only [if_neg enough]
        exact .stays was.symm rfl rfl
    | halfOpen => exact .opens (by simp [was]) rfl rfl rfl (by simp [trips, was])
    | opened => exact .stays was.symm rfl rfl

theorem mem_put (mem : other ∈ (b.put i call).calls) : other ∈ b.calls ∨ other = call :=
  List.mem_or_eq_of_mem_set mem

end Breaker

namespace Sample

/-- One failure opens the circuit, one success closes it, one probe at a time. -/
def config : CircuitBreakerConfig := ⟨1, 1, 10, 1⟩

abbrev Run := List (Label Unit Unit)

def failing (i : Nat) : Run := [.arrive, .advance i, .advance i, .finish i (.error ()), .advance i]

/-- A call is turned away while the circuit is open; the next one comes after the open duration. -/
def recovering : Run :=
  failing 0 ++ [.arrive, .advance 1, .elapse 10, .arrive, .advance 2, .advance 2, .advance 2, .finish 2 (.ok ()),
    .advance 2, .advance 2]

end Sample
end CorePlatform.Resilience
