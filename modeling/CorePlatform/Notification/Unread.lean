import CorePlatform.Theory.Machine
import Mathlib.Data.Int.Init

/-! # The unread badge and the durable count

The badge is a Redis key that may be evicted at any time; only a read brings it back from the
durable count. A script that finds no key starts from zero, and a badge at the cap no longer knows
by how much the durable count is above it. -/

namespace CorePlatform.Notification

open Theory Option

/-- One profile's keys in Redis, with its row of `notification_unread_counters`. -/
structure Unread where
  /-- `notification:unread`. -/
  key : Option Int
  /-- The business keys with a live `notification:dedupe` claim. -/
  claims : List String
  /-- `unread_count`, which is decremented only while it is positive. -/
  durable : Nat

/-- A cap that Lua's `tostring` writes in full. From fourteen zeros on it writes an exponent. -/
abbrev Cap := { cap : Int // cap.natAbs < 100000000000000 }

/-- `INCR_CAPPED_SCRIPT`, and what `INCR_CAPPED_CLAIMED_SCRIPT` does behind its claim. -/
def incrCapped (cap : Int) (key : Option Int) : Int :=
  let v := key.getD 0 + 1
  if v > cap then cap else v

/-- `DECR_FLOORED_SCRIPT`. -/
def decrFloored (key : Option Int) : Int :=
  let v := key.getD 0
  if v ≤ 0 then 0 else if v - 1 < 0 then 0 else v - 1

namespace Unread

def increment (cap : Int) (s : Unread) : Unread :=
  { s with key := some (incrCapped cap s.key), durable := s.durable + 1 }

def incrementOnce (cap : Int) (businessKey : String) (s : Unread) : Unread :=
  if s.claims.contains businessKey then s else { s.increment cap with claims := businessKey :: s.claims }

def decrement (s : Unread) : Unread := { s with key := some (decrFloored s.key), durable := s.durable - 1 }

/-- `reset_counter` beside `UnreadCounter::reset`. -/
def markAllRead (s : Unread) : Unread := { s with key := some 0, durable := 0 }

/-- What `UnreadCounter::get` returns, and leaves in the key. -/
def get (cap : Int) (s : Unread) : Int := s.key.getD (min (s.durable : Int) cap)

def Refines (cap : Int) (s : Unread) : Prop := s.get cap = min cap s.durable
  deriving Decidable

inductive Move where
  | increment
  | incrementOnce (businessKey : String)
  | decrement
  | markAllRead
  | get
  | evict
  | lapse (businessKey : String)

/-- The operations on one profile, and what Redis does in between; a decrement only while something is unread. -/
def step (cap : Int) (s : Unread) : Move → Option Unread
  | .increment => some (s.increment cap)
  | .incrementOnce businessKey => some (s.incrementOnce cap businessKey)
  | .decrement => if 0 < s.durable then some s.decrement else none
  | .markAllRead => some s.markAllRead
  | .get => some { s with key := some (s.get cap) }
  | .evict => some { s with key := none }
  | .lapse businessKey => some { s with claims := s.claims.erase businessKey }

def badge (cap : Cap) : Machine Unread Move where
  init s := s = ⟨none, [], 0⟩
  step := step cap

/-- A new notification finds the badge in Redis, or is the only one unread. -/
def Counts (cap : Int) (s : Unread) : Prop := s.key = none → s.durable = 0 ∨ cap ≤ 1

/-- What a move needs to find so that the badge goes on showing the durable count. -/
def Safe (cap : Int) (s : Unread) : Move → Prop
  | .increment => s.Counts cap
  | .incrementOnce businessKey => s.claims.contains businessKey = false → s.Counts cap
  | .decrement => 0 < s.durable → cap = 0 ∨ (s.durable : Int) ≤ cap ∧ (s.key = none → s.durable = 1)
  | .markAllRead => 0 ≤ cap
  | .get | .evict | .lapse _ => True

section

variable {cap : Int} {s : Unread} (refines : s.Refines cap)

include refines

theorem increment_refines_iff : (s.increment cap).Refines cap ↔ s.Counts cap := by
  obtain ⟨key, claims, durable⟩ := s
  simp only [Refines, get, increment, Counts, incrCapped] at *
  cases key with
  | none =>
    simp only [getD_none, getD_some, forall_const] at *
    split
    · omega
    · omega
  | some count =>
    simp only [getD_some, reduceCtorEq, false_implies, iff_true] at *
    split
    · omega
    · omega

theorem decrement_refines_iff (hu : 0 < s.durable) :
    s.decrement.Refines cap ↔ cap = 0 ∨ (s.durable : Int) ≤ cap ∧ (s.key = none → s.durable = 1) := by
  obtain ⟨key, claims, durable⟩ := s
  simp only [Refines, get, decrement, decrFloored] at *
  cases key with
  | none =>
    simp only [getD_none, getD_some, forall_const] at *
    omega
  | some count =>
    simp only [getD_some, reduceCtorEq, false_implies, and_true] at *
    split
    · omega
    · omega

theorem step_refines_iff (hs : step cap s move = some next) : next.Refines cap ↔ s.Safe cap move := by
  cases move with
  | increment =>
    cases hs
    exact increment_refines_iff refines
  | incrementOnce businessKey =>
    cases hs
    cases claimed : s.claims.contains businessKey with
    | false =>
      simp only [incrementOnce, Safe, claimed, reduceIte, Bool.false_eq_true, forall_const]
      exact increment_refines_iff refines
    | true =>
      simp only [incrementOnce, Safe, claimed, reduceIte, reduceCtorEq, false_implies]
      exact iff_true_intro refines
  | decrement =>
    simp only [step] at hs
    split at hs
    · rename_i unread
      cases hs
      simp [decrement_refines_iff refines unread, Safe, unread]
    · cases hs
  | markAllRead =>
    cases hs
    simp only [Refines, get, markAllRead, Safe, getD]
    omega
  | get | lapse =>
    cases hs
    exact iff_of_true refines trivial
  | evict =>
    cases hs
    exact iff_of_true (Int.min_comm ..) trivial

end

/-- The badge shows the durable count throughout exactly when no notification is counted into a
missing badge, or read from one or from a badge at its cap. -/
theorem badge_refines_iff {cap : Cap} :
    (badge cap).Always (Refines cap) ⟨none, [], 0⟩ trace ↔ (badge cap).Meets (Safe cap) ⟨none, [], 0⟩ trace := by
  apply Machine.always_iff_meets (fun _ => True) (Refines cap)
  · intro _ _ _ _ _
    trivial
  · intro s move next _ refines safe hs
    exact (step_refines_iff refines hs).mpr safe
  · intro s _ refines
    exact refines
  · intro s move _ refines broken
    cases hs : step cap s move with
    | none =>
      -- only a decrement of nothing is not taken
      cases move <;> simp_all [step, Safe]
    | some next => exact ⟨next, hs, mt (step_refines_iff refines hs).mp broken⟩
  · trivial
  · exact Int.min_comm ..

/-- A second notification that finds the key evicted leaves the badge at one. -/
theorem evicted_badge_restarts :
    ¬ (badge ⟨99, by decide⟩).Always (Refines 99) ⟨none, [], 0⟩ [.increment, .evict, .increment] := by
  intro always
  exact absurd (((always.2 _ rfl).2 _ rfl).2 _ rfl) (by decide : ¬ Refines 99 ⟨some 1, [], 2⟩)

end Unread
end CorePlatform.Notification
