import Mathlib.Data.List.MinMax

/-! # Registers that the last writer wins

A register holds a value with the version it was written under, and turns away a write that is not
strictly newer. Where no two writes share a version, what is held in the end is the newest of them,
in whatever order and however often they came. -/

namespace CorePlatform.Theory

open Option

open List

universe u

structure Stamped (α : Type u) where
  version : Nat
  value : α
  deriving DecidableEq

namespace Stamped

variable {α : Type u} {held : Option (Stamped α)}

def offer (held : Option (Stamped α)) (write : Stamped α) : Option (Stamped α) :=
  match held with
  | none => some write
  | some stored => if write.version ≤ stored.version then some stored else some write

/-- Writes that share a version are the same write. -/
def Distinct (writes : List (Stamped α)) : Prop :=
  ∀ a ∈ writes, ∀ b ∈ writes, a.version = b.version → a = b

theorem foldl_offer_newest (writes : List (Stamped α)) : ∀ {held : Option (Stamped α)} {kept : Stamped α},
    writes.foldl offer held = some kept →
      (held = some kept ∨ kept ∈ writes) ∧ (∀ write ∈ writes, write.version ≤ kept.version) ∧
        ∀ stored, held = some stored → stored.version ≤ kept.version := by
  induction writes with
  | nil =>
    intro held kept settled
    cases settled
    exact ⟨.inl rfl, fun _ none_ => absurd none_ not_mem_nil, fun _ eq => by cases eq; exact Nat.le_refl _⟩
  | cons write _ ih =>
    intro held kept settled
    obtain ⟨origin, newest, bound⟩ := ih settled
    cases held with
    | none =>
      have first := bound write rfl
      refine ⟨.inr ?_, ?_, nofun⟩
      · cases origin with
        | inl eq => cases eq; exact .head _
        | inr later => exact .tail _ later
      · exact forall_mem_cons.mpr ⟨first, newest⟩
    | some stored =>
      by_cases stale : write.version ≤ stored.version
      · have held : offer (some stored) write = some stored := if_pos stale
        rw [held] at origin bound
        have kept_bound := bound stored rfl
        refine ⟨origin.imp_right (.tail _), ?_, bound⟩
        exact forall_mem_cons.mpr ⟨Nat.le_trans stale kept_bound, newest⟩
      have ht : offer (some stored) write = some write := if_neg stale
      rw [ht] at origin bound
      have kept_bound := bound write rfl
      refine ⟨.inr ?_, forall_mem_cons.mpr ⟨kept_bound, newest⟩, ?_⟩
      · cases origin with
        | inl eq => cases eq; exact .head _
        | inr later => exact .tail _ later
      · intro other eq
        cases eq
        omega

theorem offer_newest (hs : offer held write = some kept) :
    (held = some kept ∨ kept = write) ∧ write.version ≤ kept.version ∧
      ∀ stored, held = some stored → stored.version ≤ kept.version := by
  obtain ⟨origin, newest, bound⟩ := foldl_offer_newest [write] hs
  exact ⟨origin.imp_right mem_singleton.mp, newest write mem_cons_self, bound⟩

theorem offer_isSome (held : Option (Stamped α)) (hw : Stamped α) : (offer held hw).isSome := by
  cases held with
  | none => rfl
  | some stored =>
    show (if hw.version ≤ stored.version then some stored else some hw).isSome = true
    split <;> rfl

theorem foldl_offer_isSome (writes : List (Stamped α)) (some_ : held.isSome) : (writes.foldl offer held).isSome := by
  induction writes generalizing held with
  | nil => exact some_
  | cons write _ ih => exact ih (offer_isSome held write)

theorem foldl_offer_eq (hd : Distinct writes) (mem : newest ∈ writes)
    (hb : ∀ write ∈ writes, write.version ≤ newest.version)
    (ho : ∀ stored, held = some stored → stored.version < newest.version) :
    writes.foldl offer held = some newest := by
  have present : (writes.foldl offer held).isSome := by
    cases writes with
    | nil => cases mem
    | cons first rest => exact foldl_offer_isSome rest (offer_isSome held first)
  obtain ⟨kept, settled⟩ := isSome_iff_exists.mp present
  obtain ⟨origin, top, -⟩ := foldl_offer_newest writes settled
  have above := top newest mem
  cases origin with
  | inl same => exact absurd (ho kept same) (by omega)
  | inr hi =>
    have below := hb kept hi
    rw [settled, hd kept hi newest mem (by omega)]

theorem foldl_offer_eq_argmax {applied : List (Stamped α)} (hd : Distinct writes)
    (eq : ∀ write, write ∈ applied ↔ write ∈ writes)
    (hn : ∀ stored, held = some stored → ∀ write ∈ writes, stored.version < write.version) :
    applied.foldl offer held = (writes.argmax version).or held := by
  cases chosen : writes.argmax version with
  | none =>
    have empty : writes = [] := argmax_eq_none.mp chosen
    have none_ : applied = [] := by
      apply eq_nil_iff_forall_not_mem.mpr
      intro write
      rw [eq, empty]
      exact not_mem_nil
    rw [none_]
    rfl
  | some newest =>
    have mem := argmax_mem (mem_def.mpr chosen)
    apply foldl_offer_eq
    · intro a inA b inB
      exact hd a ((eq a).mp inA) b ((eq b).mp inB)
    · exact (eq newest).mpr mem
    · intro write hi
      exact le_of_mem_argmax ((eq write).mp hi) (mem_def.mpr chosen)
    · intro stored held
      exact hn stored held newest mem

end Stamped
end CorePlatform.Theory
