import Mathlib.Algebra.Ring.Nat
import Mathlib.Data.List.Nodup

/-! # Rows of a table

A table is a list of rows; a unique column is one whose values in the rows are distinct.
An update changes the rows that a test picks out and leaves the rest, and their order, alone.
A total adds up what the rows weigh.
-/

namespace CorePlatform.Theory.Rows

open List

universe u v

variable {ρ : Type u} {κ : Type v}

/-- `UPDATE … WHERE test`. -/
def update (test : ρ → Bool) (change : ρ → ρ) (rows : List ρ) : List ρ :=
  rows.map fun row => if test row then change row else row

variable {rows : List ρ} {key : ρ → κ} {i : Nat}

theorem mem_update : row' ∈ update test change rows ↔ ∃ row ∈ rows, row' = if test row then change row else row := by
  simp only [update, mem_map, eq_comm]

theorem update_cases (mem : row' ∈ update test change rows) :
    (row' ∈ rows ∧ test row' = false) ∨ ∃ row ∈ rows, test row = true ∧ row' = change row := by
  obtain ⟨row, h, eq⟩ := mem_update.mp mem
  split at eq
  · rename_i hit
    exact .inr ⟨row, h, hit, eq⟩
  · rename_i miss
    subst eq
    exact .inl ⟨h, Bool.eq_false_iff.mpr miss⟩

theorem mem_update_of_hit (mem : row ∈ rows) (hit : test row = true) : change row ∈ update test change rows :=
  mem_update.mpr ⟨row, mem, (if_pos hit).symm⟩

theorem mem_update_of_miss (mem : row ∈ rows) (miss : test row = false) : row ∈ update test change rows :=
  mem_update.mpr ⟨row, mem, by rw [miss]; rfl⟩

theorem map_update (hk : ∀ row, key (change row) = key row) : (update test change rows).map key = rows.map key := by
  unfold update
  rw [map_map]
  apply map_congr_left
  intro row _
  simp only [Function.comp]
  split
  · exact hk row
  · rfl

theorem nodup_update (hk : ∀ row, key (change row) = key row) (distinct : (rows.map key).Nodup) :
    ((update test change rows).map key).Nodup := by
  rw [map_update hk]
  exact distinct

theorem map_set (h : rows[i]? = some old) (eq : key new = key old) : (rows.set i new).map key = rows.map key := by
  apply List.ext_getElem?
  intro j
  simp only [List.map_set, List.getElem?_set, List.getElem?_map, List.length_map]
  split
  · rename_i here
    subst here
    obtain ⟨within, rfl⟩ := List.getElem?_eq_some_iff.mp h
    simp [within, eq]
  · rfl

theorem set_cases (hf : (rows.set i new)[j]? = some row) : (j = i ∧ row = new) ∨ (j ≠ i ∧ rows[j]? = some row) := by
  rw [getElem?_set] at hf
  by_cases here : i = j
  · rw [if_pos here] at hf
    split at hf
    · exact .inl ⟨here.symm, (Option.some.inj hf).symm⟩
    · cases hf
  · rw [if_neg here] at hf
    exact .inr ⟨Ne.symm here, hf⟩

theorem append_of_found (hf : rows[i]? = some row) : (rows ++ [added])[i]? = some row :=
  (List.getElem?_append_left (List.getElem?_eq_some_iff.mp hf).1).trans hf

theorem append_cases (hf : (rows ++ [added])[i]? = some row) :
    (i = rows.length ∧ row = added) ∨ rows[i]? = some row := by
  rcases Nat.lt_trichotomy i rows.length with hb | here | after
  · rw [getElem?_append_left hb] at hf
    exact .inr hf
  · subst here
    rw [getElem?_concat_length] at hf
    exact .inl ⟨rfl, (Option.some.inj hf).symm⟩
  · rw [getElem?_eq_none (by simp; omega)] at hf
    cases hf

theorem ne_of_mem_eraseIdx (distinct : (rows.map key).Nodup) (h : rows[i]? = some gone)
    (mem : row ∈ rows.eraseIdx i) : key row ≠ key gone := by
  obtain ⟨j, ne, hf⟩ := List.mem_eraseIdx_iff_getElem?.mp mem
  intro eq
  have within : j < (rows.map key).length := by
    simpa using (List.getElem?_eq_some_iff.mp hf).1
  apply ne
  apply (List.getElem?_inj within distinct).mp
  simp [hf, h, eq]

theorem find?_eq_some_iff [DecidableEq κ] (distinct : (rows.map key).Nodup) :
    rows.find? (fun row => decide (key row = k)) = some row ↔ row ∈ rows ∧ key row = k := by
  constructor
  · intro hf
    exact ⟨mem_of_find?_eq_some hf, by simpa using find?_some hf⟩
  rintro ⟨mem, eq⟩
  cases hf : rows.find? (fun row => decide (key row = k)) with
  | none => exact absurd eq (by simpa using find?_eq_none.mp hf row mem)
  | some other =>
    have equal : key other = k := by simpa using find?_some hf
    rw [inj_on_of_nodup_map distinct (mem_of_find?_eq_some hf) mem (equal.trans eq.symm)]

def total (weight : ρ → Nat) (rows : List ρ) : Nat := (rows.map weight).sum

theorem total_append : total weight (rows ++ [added]) = total weight rows + weight added := by
  simp [total]

theorem total_set (weight : ρ → Nat) (new : ρ) : ∀ {rows : List ρ} {i : Nat}, rows[i]? = some old →
    total weight (rows.set i new) + weight old = total weight rows + weight new := by
  intro rows
  induction rows with
  | nil => intro i h; cases h
  | cons _ _ ih =>
    intro i h
    cases i with
    | zero =>
      cases h
      simp only [total, set_cons_zero, map_cons, sum_cons]
      omega
    | succ =>
      have below := ih h
      simp only [total, set_cons_succ, map_cons, sum_cons] at below ⊢
      omega

theorem countP_le_total (hw : ∀ row, test row = true → 1 ≤ weight row) (rows : List ρ) :
    rows.countP test ≤ total weight rows := by
  induction rows with
  | nil => exact Nat.le_refl _
  | cons row rows =>
    have split : total weight (row :: rows) = weight row + total weight rows := rfl
    rw [countP_cons, split]
    by_cases picked : test row = true
    · have heavy := hw row picked
      rw [if_pos picked]
      omega
    · rw [if_neg picked]
      omega

end CorePlatform.Theory.Rows
