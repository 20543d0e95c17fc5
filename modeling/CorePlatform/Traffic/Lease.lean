import Mathlib.Algebra.Group.Nat.Defs
import CorePlatform.Theory.Machine

/-! # Leased request budgets

Replicas serve requests from chunks of a fleet-wide budget, one per key and window. A chunk is
claimed from the shared store by an atomic script; what is left of it sits in a cell behind a lock,
which hangs in the replica's map under its key.

A check reads the clock, looks its cell up and then waits for the lock. Until it has the lock the
cell can be pruned from the map, so two cells of one key can be in use at once; a late check with an
old reading turns the cell back to the window of that reading. Wherever a check waits its future can
be dropped: a claim it has sent is then carried out all the same. -/

namespace CorePlatform.Traffic

open Theory Function

structure Quota where
  rps : Nat
  burst : Nat
  leaseMs : Nat

inductive TrafficDecision where
  | allow
  | throttle (retryAfterMs : Nat)

structure QuotaError where
  reason : String

structure Lease where
  window : Nat
  remaining : Nat
  exhausted : Bool

/-- `ceil(rps * lease_ms / 1000)`, at least 1; the product is taken in 64 bits. -/
def windowBudget (rps leaseMs : Nat) : Nat := max ((rps * leaseMs % 2 ^ 64 + 999) / 1000) 1

def chunk (burst budget : Nat) : Nat := min (max burst 1) budget

def untilNextWindow (nowMs leaseMs : Nat) : Nat := leaseMs - nowMs % leaseMs

namespace Quota

variable (quota : Quota)

/-- The length of a window as `check` uses it. -/
def lease : Nat := max quota.leaseMs 1

def window (nowMs : Nat) : Nat := nowMs / quota.lease

def budget : Nat := windowBudget quota.rps quota.lease

def want : Nat := chunk quota.burst quota.budget

def ttlMs : Nat := max (min (quota.lease * 2) (2 ^ 64 - 1)) ((quota.lease + 1000) % 2 ^ 64)

end Quota

structure Counter where
  count : Nat
  ttlMs : Nat

def windowKey (key : String) (window : Nat) : String :=
  "traffic:lease:\x7b" ++ key ++ "\x7d:" ++ toString window

/-- `GET`, with nothing read as zero. -/
def Counter.current (counter : Option Counter) : Nat := (counter.map Counter.count).getD 0

@[simp] theorem Counter.current_some (counter : Counter) : Counter.current (some counter) = counter.count := rfl

/-- `CLAIM_SCRIPT`. -/
def claimScript (counter : Option Counter) (budget want ttlMs : Nat) : Option Counter × Nat :=
  let current := Counter.current counter
  if budget ≤ current then (counter, 0)
  else
    let grant := if want < budget - current then want else budget - current
    (some ⟨current + grant, ttlMs⟩, grant)

theorem claimScript_spec (counter : Option Counter) (budget want ttlMs : Nat)
    (hw : Counter.current counter ≤ budget) :
    Counter.current (claimScript counter budget want ttlMs).1 =
        Counter.current counter + (claimScript counter budget want ttlMs).2 ∧
      Counter.current (claimScript counter budget want ttlMs).1 ≤ budget := by
  by_cases used : budget ≤ Counter.current counter
  · simp only [claimScript, if_pos used]
    exact ⟨rfl, hw⟩
  · simp only [claimScript, if_neg used, Counter.current_some, true_and]
    split <;> omega

namespace Lease

/-- Another window than the cell's: its budget is another, so the local view starts afresh. -/
def roll (lease : Lease) (window : Nat) : Lease :=
  if lease.window ≠ window then ⟨window, 0, false⟩ else lease

/-- What a check does once it holds the lock; without a decision it has to claim. -/
def serve (quota : Quota) (lease : Lease) (nowMs : Nat) : Lease × Option TrafficDecision :=
  let lease := lease.roll (quota.window nowMs)
  if 0 < lease.remaining then ({ lease with remaining := lease.remaining - 1 }, some .allow)
  else if lease.exhausted then (lease, some (.throttle (untilNextWindow nowMs quota.lease)))
  else (lease, none)

def receive (quota : Quota) (lease : Lease) (nowMs : Nat) : Nat → Lease × TrafficDecision
  | 0 => ({ lease with exhausted := true }, .throttle (untilNextWindow nowMs quota.lease))
  | granted + 1 => ({ lease with remaining := granted }, .allow)

def tokens (lease : Lease) (window : Nat) : Nat := if lease.window = window then lease.remaining else 0

@[simp] theorem roll_window (lease : Lease) (window : Nat) : (lease.roll window).window = window := by
  unfold roll
  split
  · rfl
  · rename_i eq
    exact not_not.mp eq

theorem tokens_roll_le (lease : Lease) (window other : Nat) :
    (lease.roll window).tokens other ≤ lease.tokens other := by
  unfold roll
  split
  · unfold tokens
    split
    · exact Nat.zero_le _
    · exact Nat.zero_le _
  · exact Nat.le_refl _

def spent : Option TrafficDecision → Nat
  | some .allow => 1
  | _ => 0

theorem serve_tokens (quota : Quota) (lease : Lease) (nowMs : Nat) :
    (lease.serve quota nowMs).1.tokens (quota.window nowMs) + spent (lease.serve quota nowMs).2 ≤
      lease.tokens (quota.window nowMs) := by
  have rolled := lease.tokens_roll_le (quota.window nowMs) (quota.window nowMs)
  unfold serve
  simp only
  split
  · rename_i left
    simp only [tokens, roll_window, if_true, spent] at rolled ⊢
    omega
  · split
    · exact rolled
    · exact rolled

theorem serve_tokens_le (quota : Quota) (lease : Lease) (nowMs other : Nat) :
    (lease.serve quota nowMs).1.tokens other ≤ lease.tokens other := by
  have rolled := lease.tokens_roll_le (quota.window nowMs) other
  unfold serve
  simp only
  split
  · simp only [tokens] at rolled ⊢
    split at rolled
    · rename_i here
      simp only [here, if_true]
      omega
    · rename_i elsewhere
      simp only [elsewhere, if_false]
      exact Nat.zero_le _
  · split
    · exact rolled
    · exact rolled

theorem serve_window (quota : Quota) (lease : Lease) (nowMs : Nat) :
    (lease.serve quota nowMs).1.window = quota.window nowMs := by
  unfold serve
  simp only
  split
  · exact roll_window ..
  · split
    · exact roll_window ..
    · exact roll_window ..

end Lease

/-- Where a check stands in `LeaseBook::check`. -/
inductive Phase where
  /-- It has its cell and waits for the lock. -/
  | queued
  | claiming
  /-- The store has answered and the answer is on its way. -/
  | granted (tokens : Nat)
  | returned (result : Except QuotaError TrafficDecision)
  | dropped

structure Check where
  key : String
  nowMs : Nat
  cell : Nat
  phase : Phase
  /-- The claim was sent and the store has not run it yet. -/
  inFlight : Bool

structure Cell where
  /-- The key it was made for, which the code does not keep. -/
  key : String
  lease : Lease
  holder : Option Nat

structure Fleet (ρ : Type) where
  leases : ρ → String → Option Nat
  cells : List Cell
  checks : List Check
  store : String → Option Counter

inductive Label (ρ : Type) where
  | enter (replica : ρ) (key : String) (nowMs : Nat)
  | lock (i : Nat)
  | execute (i : Nat)
  | reply (i : Nat)
  | fail (i : Nat) (error : QuotaError)
  | drop (i : Nat)
  | prune (replica : ρ) (key : String) (nowMs leaseMs : Nat)

def Phase.holds : Phase → Bool
  | .claiming | .granted _ => true
  | .queued | .returned _ | .dropped => false

/-- The store's answer reaches a check that still waits for it. -/
def Phase.answered (granted : Nat) : Phase → Phase
  | .claiming => .granted granted
  | phase => phase

theorem Phase.answered_holds (granted : Nat) (phase : Phase) : (phase.answered granted).holds = phase.holds := by
  cases phase <;> rfl

namespace Fleet

variable {ρ : Type} [DecidableEq ρ] (quota : Quota)

def start : Fleet ρ := ⟨fun _ _ => none, [], [], fun _ => none⟩

/-- One entry of one replica's map. -/
def hang (f : Fleet ρ) (replica : ρ) (key : String) (cell : Option Nat) : Fleet ρ :=
  { f with leases := update f.leases replica (update (f.leases replica) key cell) }

def enter (f : Fleet ρ) (replica : ρ) (key : String) (nowMs : Nat) : Fleet ρ :=
  match f.leases replica key with
  | some cell => { f with checks := f.checks ++ [⟨key, nowMs, cell, .queued, false⟩] }
  | none => { (f.hang replica key (some f.cells.length)) with
      cells := f.cells ++ [⟨key, ⟨quota.window nowMs, 0, false⟩, none⟩]
      checks := f.checks ++ [⟨key, nowMs, f.cells.length, .queued, false⟩] }

def putCheck (f : Fleet ρ) (i : Nat) (check : Check) : Fleet ρ := { f with checks := f.checks.set i check }

def putCell (f : Fleet ρ) (c : Nat) (cell : Cell) : Fleet ρ := { f with cells := f.cells.set c cell }

/-- The check takes the lock. Unless it must claim, it returns before anyone else can. -/
def lock (f : Fleet ρ) (i : Nat) (check : Check) (cell : Cell) : Fleet ρ :=
  match cell.lease.serve quota check.nowMs with
  | (lease, some decision) =>
    (f.putCell check.cell { cell with lease }).putCheck i { check with phase := .returned (.ok decision) }
  | (lease, none) =>
    (f.putCell check.cell { cell with lease, holder := some i }).putCheck i
      { check with phase := .claiming, inFlight := true }

/-- The store holds a new count, and the check, if it still waits, what it was granted. -/
def settle (f : Fleet ρ) (i : Nat) (check : Check) (name : String) (claimed : Option Counter × Nat) : Fleet ρ :=
  { (f.putCheck i { check with phase := check.phase.answered claimed.2, inFlight := false }) with
    store := update f.store name claimed.1 }

/-- The store runs the claim; one that nobody waits for any more is carried out too. -/
def execute (f : Fleet ρ) (i : Nat) (check : Check) : Fleet ρ :=
  let name := windowKey check.key (quota.window check.nowMs)
  f.settle i check name (claimScript (f.store name) quota.budget quota.want quota.ttlMs)

def reply (f : Fleet ρ) (i : Nat) (check : Check) (cell : Cell) (tokens : Nat) : Fleet ρ :=
  let (lease, decision) := cell.lease.receive quota check.nowMs tokens
  (f.putCell check.cell { cell with lease, holder := none }).putCheck i
    { check with phase := .returned (.ok decision) }

/-- The check ends while it holds the lock, which is released. -/
def release (f : Fleet ρ) (i : Nat) (check : Check) (cell : Cell) (phase : Phase) : Fleet ρ :=
  (f.putCell check.cell { cell with holder := none }).putCheck i { check with phase }

/-- What `retain` does to one entry, under the lock of the entry's shard. -/
def prune (f : Fleet ρ) (replica : ρ) (key : String) (nowMs leaseMs : Nat) : Fleet ρ :=
  match (f.leases replica key).bind fun c => f.cells[c]? with
  | some cell =>
    match cell.holder with
    | some _ => f
    | none => if nowMs / max leaseMs 1 ≤ cell.lease.window then f else f.hang replica key none
  | none => f

def step (f : Fleet ρ) : Label ρ → Option (Fleet ρ)
  | .enter replica key nowMs => some (f.enter quota replica key nowMs)
  | .lock i => do
      let check ← f.checks[i]?
      let cell ← f.cells[check.cell]?
      match check.phase, cell.holder with
      | .queued, none => some (f.lock quota i check cell)
      | _, _ => none
  | .execute i => do
      let check ← f.checks[i]?
      if check.inFlight then some (f.execute quota i check) else none
  | .reply i => do
      let check ← f.checks[i]?
      let cell ← f.cells[check.cell]?
      match check.phase with
      | .granted tokens => some (f.reply quota i check cell tokens)
      | _ => none
  | .fail i error => do
      let check ← f.checks[i]?
      let cell ← f.cells[check.cell]?
      if check.phase.holds then some (f.release i check cell (.returned (.error error))) else none
  | .drop i => do
      let check ← f.checks[i]?
      let cell ← f.cells[check.cell]?
      match check.phase with
      | .queued => some (f.putCheck i { check with phase := .dropped })
      | .claiming | .granted _ => some (f.release i check cell .dropped)
      | .returned _ | .dropped => none
  | .prune replica key nowMs leaseMs => some (f.prune replica key nowMs leaseMs)

def machine : Machine (Fleet ρ) (Label ρ) where
  init f := f = start
  step f := f.step quota

/-- How often a check of the key was let through in the window. -/
def allows (f : Fleet ρ) (key : String) (window : Nat) : Nat :=
  f.checks.countP fun check =>
    check.key == key && quota.window check.nowMs == window &&
      match check.phase with
      | .returned (.ok .allow) => true
      | _ => false

theorem hang_cases {f : Fleet ρ} (hf : (f.hang replica key cell).leases other name = some c) :
    (name = key ∧ cell = some c) ∨ f.leases other name = some c := by
  simp only [hang] at hf
  by_cases here : other = replica
  · subst here
    rw [update_self] at hf
    rcases update_cases hf with ⟨eq, new⟩ | ⟨-, old⟩
    · exact .inl ⟨eq, new⟩
    · exact .inr old
  · rw [update_of_ne here] at hf
    exact .inr hf

end Fleet
end CorePlatform.Traffic
