import Mathlib.Data.Set.Function
import Mathlib.Data.List.Induction

/-! # Hash chains commit to everything they absorbed

A chain starts at a fixed digest and absorbs one payload after another. No hash function is
injective, so the rules ask only that `absorb` has no collision among the pairs really absorbed, and
that none of those reaches the starting digest. Then the last digest determines the whole list. -/

namespace CorePlatform.Theory.HashChain

open List

universe u v

variable {δ : Type u} {π : Type v} (absorb : δ → π → δ)

/-- The digest after absorbing the payloads in order. -/
def tip (start : δ) (payloads : List π) : δ := payloads.foldl absorb start

def uses : δ → List π → Set (δ × π)
  | _, [] => ∅
  | digest, p :: rest => insert (digest, p) (uses (absorb digest p) rest)

@[simp] theorem tip_nil : tip absorb start [] = start := rfl

@[simp] theorem tip_append : tip absorb start (ps ++ [p]) = absorb (tip absorb start ps) p := by
  simp [tip]

theorem uses_append : uses absorb start (ps ++ [p]) = insert (tip absorb start ps, p) (uses absorb start ps) := by
  induction ps generalizing start with
  | nil => rfl
  | cons _ _ ih =>
    simp only [cons_append, uses, ih, tip, foldl_cons]
    exact Set.insert_comm _ _ _

variable {absorb}

theorem tip_commits : ∀ {qs : List π},
    Set.InjOn (Function.uncurry absorb) (uses absorb start ps ∪ uses absorb start qs) →
    (∀ used ∈ uses absorb start ps ∪ uses absorb start qs, Function.uncurry absorb used ≠ start) →
    tip absorb start ps = tip absorb start qs → ps = qs := by
  induction ps using List.reverseRecOn with
  | nil =>
    intro qs free hf eq
    rcases eq_nil_or_concat qs with rfl | ⟨qs, q, rfl⟩
    · rfl
    · rw [concat_eq_append] at hf eq
      simp only [tip_nil, tip_append] at eq
      exact absurd eq.symm (hf (tip absorb start qs, q) (by simp [uses_append]))
  | append_singleton ps p ih =>
    intro qs free hf eq
    rcases eq_nil_or_concat qs with rfl | ⟨qs, q, rfl⟩
    · simp only [tip_nil, tip_append] at eq
      exact absurd eq (hf (tip absorb start ps, p) (by simp [uses_append]))
    rw [concat_eq_append] at free hf eq ⊢
    simp only [tip_append] at eq
    have last : (tip absorb start ps, p) = (tip absorb start qs, q) :=
      free (by simp [uses_append]) (by simp [uses_append]) eq
    obtain ⟨hb, rfl⟩ := Prod.mk.inj last
    have fewer : uses absorb start ps ∪ uses absorb start qs ⊆
        uses absorb start (ps ++ [p]) ∪ uses absorb start (qs ++ [p]) := by
      rw [uses_append, uses_append]
      exact Set.union_subset_union (Set.subset_insert _ _) (Set.subset_insert _ _)
    rw [ih (free.mono fewer) (fun used h => hf used (fewer h)) hb]

end CorePlatform.Theory.HashChain
