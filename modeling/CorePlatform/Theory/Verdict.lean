import Mathlib.Data.List.Forall2
import Mathlib.Tactic.Common

/-! # Verdicts of fallible computations

Two computations that may fail give the same verdict when both succeed with one value or
both fail, for whatever reasons. It is enough to compare what they accept.
-/

namespace CorePlatform.Theory

universe u v w

variable {ε : Type u} {ε' : Type v} {α β : Type w}

theorem bind_ok_iff {f : α → Except ε β} : x >>= f = .ok b ↔ ∃ a, x = .ok a ∧ f a = .ok b := by
  cases x with
  | error =>
    constructor
    · intro impossible
      cases impossible
    · rintro ⟨a, impossible, -⟩
      cases impossible
  | ok a =>
    constructor
    · intro bound
      exact ⟨a, rfl, bound⟩
    · rintro ⟨_, eq, bound⟩
      cases eq
      exact bound

theorem mapM_ok_iff {f : α → Except ε β} : ∀ {ys : List β},
    xs.mapM f = .ok ys ↔ List.Forall₂ (fun x y => f x = .ok y) xs ys := by
  induction xs with
  | nil => intro ys; cases ys <;> simp [pure, Except.pure]
  | cons _ _ ih =>
    intro ys
    rw [List.mapM_cons, bind_ok_iff]
    constructor
    · rintro ⟨y, first, mapped⟩
      obtain ⟨rest, mappedRest, done⟩ := bind_ok_iff.mp mapped
      cases done
      exact .cons first (ih.mp mappedRest)
    · intro each
      cases each with
      | cons first rest => exact ⟨_, first, bind_ok_iff.mpr ⟨_, ih.mpr rest, rfl⟩⟩

def SameVerdict (x : Except ε α) (y : Except ε' α) : Prop :=
  (∃ value, x = .ok value ∧ y = .ok value) ∨ ((∃ e, x = .error e) ∧ ∃ e, y = .error e)

theorem sameVerdict_iff : SameVerdict x y ↔ ∀ value, x = .ok value ↔ y = .ok value := by
  unfold SameVerdict
  cases x with
  | ok =>
    cases y with
    | ok => simpa using eq_comm
    | error => simp
  | error _ =>
    cases y with
    | ok | error => simp

end CorePlatform.Theory
