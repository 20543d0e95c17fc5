import Mathlib.Algebra.BigOperators.Group.List.Basic
import Mathlib.Algebra.Ring.Int.Defs

/-! # Lists of entries under distinct keys, and what they weigh

A hash map whose order does not matter is a list of entries. What it holds in total is the sum of a
weight over them; the lemmas say how an update and a split change it. -/

namespace CorePlatform.Theory.KeyedList

open List

universe u v

variable {κ : Type u} {ν : Type v} {entries : List (κ × ν)}

def weigh (weight : κ → ν → Int) (entries : List (κ × ν)) : Int :=
  (entries.map fun entry => weight entry.1 entry.2).sum

variable (weight : κ → ν → Int)

@[simp] theorem weigh_nil : weigh weight [] = 0 := rfl

@[simp] theorem weigh_cons : weigh weight (entry :: rest) = weight entry.1 entry.2 + weigh weight rest := by
  simp [weigh]

theorem weigh_congr {weight : κ → ν → Int}
    (eq : ∀ entry ∈ entries, weight entry.1 entry.2 = weight' entry.1 entry.2) :
    weigh weight entries = weigh weight' entries := by
  unfold weigh
  rw [map_congr_left eq]

theorem weigh_split (test : κ × ν → Bool) (entries : List (κ × ν)) :
    weigh weight entries = weigh weight (entries.filter test) + weigh weight (entries.filter (! test ·)) := by
  induction entries with
  | nil => rfl
  | cons entry _ ih =>
    cases hp : test entry <;> simp [hp, ih] <;> omega

variable [DecidableEq κ]

def find (k : κ) : List (κ × ν) → Option ν
  | [] => none
  | (k', v) :: rest => if k' = k then some v else find k rest

/-- Change the value under a key, or put a first one there. -/
def upsert (k : κ) (change : Option ν → ν) : List (κ × ν) → List (κ × ν)
  | [] => [(k, change none)]
  | (k', v) :: rest => if k' = k then (k', change (some v)) :: rest else (k', v) :: upsert k change rest

theorem keys_upsert :
    (upsert k change entries).map Prod.fst =
      if k ∈ entries.map Prod.fst then entries.map Prod.fst else entries.map Prod.fst ++ [k] := by
  induction entries with
  | nil => rfl
  | cons entry _ ih =>
    by_cases eq : entry.1 = k
    · simp [upsert, eq]
    · have other : k ≠ entry.1 := Ne.symm eq
      simp only [upsert, if_neg eq, map_cons, ih, mem_cons, other, false_or]
      split <;> simp

theorem nodup_upsert (distinct : (entries.map Prod.fst).Nodup) : ((upsert k change entries).map Prod.fst).Nodup := by
  rw [keys_upsert]
  split
  · exact distinct
  rename_i ha
  refine nodup_append.mpr ⟨distinct, pairwise_singleton _ k, ?_⟩
  intro a h b single eq
  rw [mem_singleton] at single
  subst single eq
  exact ha h

theorem find_upsert_of_ne (other : k ≠ k') (change : Option ν → ν) :
    find k (upsert k' change entries) = find k entries := by
  induction entries with
  | nil => simp [upsert, find, Ne.symm other]
  | cons entry _ ih =>
    by_cases same : entry.1 = k'
    · subst same
      simp [upsert, find, Ne.symm other]
    · simp only [upsert, if_neg same, find, ih]

@[simp] theorem find_upsert : find k (upsert k change entries) = some (change (find k entries)) := by
  induction entries with
  | nil => simp [upsert, find]
  | cons entry rest ih => by_cases eq : entry.1 = k <;> simp [upsert, find, eq, ih]

theorem upsert_unchanged (eq : ∀ v, change (some v) = v) (h : k ∈ entries.map Prod.fst) :
    upsert k change entries = entries := by
  induction entries with
  | nil => cases h
  | cons entry rest ih =>
    simp only [upsert]
    split
    · rw [eq]
    · rename_i other
      rw [ih ((mem_cons.mp h).resolve_left (Ne.symm other))]

theorem find_of_mem (distinct : (entries.map Prod.fst).Nodup) (mem : entry ∈ entries) :
    find entry.1 entries = some entry.2 := by
  induction entries with
  | nil => cases mem
  | cons first rest ih =>
    obtain ⟨ha, distinct⟩ := nodup_cons.mp distinct
    rcases mem_cons.mp mem with rfl | hl
    · simp [find]
    · have other : first.1 ≠ entry.1 := fun eq => ha (eq ▸ mem_map_of_mem hl)
      simp [find, other, ih distinct hl]

theorem mem_upsert : (k, change (find k entries)) ∈ upsert k change entries := by
  induction entries with
  | nil => simp [upsert, find]
  | cons entry _ ih =>
    by_cases same : entry.1 = k
    · subst same
      simp [upsert, find]
    · simp only [upsert, find, if_neg same]
      exact .tail _ ih

theorem mem_upsert_of_ne (other : entry.1 ≠ k) (mem : entry ∈ entries) : entry ∈ upsert k change entries := by
  induction entries with
  | nil => cases mem
  | cons _ _ ih =>
    simp only [upsert]
    rcases mem_cons.mp mem with rfl | hl
    · rw [if_neg other]
      exact .head _
    · split
      · exact .tail _ hl
      · exact .tail _ (ih hl)

theorem weigh_upsert :
    weigh weight (upsert k change entries) =
      weigh weight entries + (weight k (change (find k entries)) - (find k entries).elim 0 (weight k)) := by
  induction entries with
  | nil => simp [upsert, find]
  | cons entry _ ih =>
    by_cases same : entry.1 = k
    · subst same
      simp [upsert, find]
      omega
    · simp only [upsert, find, if_neg same, weigh_cons, ih]
      omega

end CorePlatform.Theory.KeyedList
