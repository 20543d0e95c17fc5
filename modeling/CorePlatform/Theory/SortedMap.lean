import Mathlib.Data.List.Sort
import Mathlib.Order.Basic

/-! # Finite maps kept in key order

The entries are strictly ascending by key, so a map has one representation only
and iterating it is deterministic.
-/

namespace CorePlatform.Theory

open List

universe u v

structure SortedMap (κ : Type u) (ν : Type v) [LT κ] where
  entries : List (κ × ν)
  ascending : entries.Pairwise fun a b => a.1 < b.1

namespace SortedMap

variable {κ : Type u} {ν : Type v}

theorem ext [LT κ] {m n : SortedMap κ ν} (eq : m.entries = n.entries) : m = n := by
  cases n
  subst eq
  rfl

theorem entries_injective [LT κ] : Function.Injective (entries : SortedMap κ ν → List (κ × ν)) :=
  fun _ _ eq => ext eq

instance [LT κ] [DecidableEq κ] [DecidableEq ν] : DecidableEq (SortedMap κ ν) := fun m n =>
  decidable_of_iff (m.entries = n.entries) ⟨ext, fun same => same ▸ rfl⟩

def empty [LT κ] : SortedMap κ ν := ⟨[], .nil⟩

variable [LinearOrder κ]

/-- Put an entry in its place, replacing the one under the same key. -/
def place (k : κ) (v : ν) : List (κ × ν) → List (κ × ν)
  | [] => [(k, v)]
  | (k', v') :: rest =>
    if k < k' then (k, v) :: (k', v') :: rest
    else if k' < k then (k', v') :: place k v rest
    else (k, v) :: rest

theorem mem_place : ∀ {entries : List (κ × ν)}, entry ∈ place k v entries → entry = (k, v) ∨ entry ∈ entries
  | [], h => by simpa [place] using h
  | (k', v') :: rest, h => by
      simp only [place] at h
      split at h
      · simpa using h
      split at h
      · rcases mem_cons.mp h with rfl | h
        · exact .inr (by simp)
        · exact (mem_place h).imp id (.tail _)
      · exact (mem_cons.mp h).imp id (.tail _)

theorem keys_place (entries : List (κ × ν)) :
    k' ∈ (place k v entries).map Prod.fst ↔ k' = k ∨ k' ∈ entries.map Prod.fst := by
  induction entries with
  | nil => simp [place]
  | cons entry rest ih =>
    obtain less | eq | greater := lt_trichotomy k entry.1
    · simp [place, less]
    · simp [place, eq]
    · simp only [place, greater, not_lt_of_gt greater, if_true, if_false, map_cons, mem_cons, ih]
      tauto

theorem ext_keys {m n : SortedMap κ Unit} (eq : ∀ k, k ∈ m.entries.map Prod.fst ↔ k ∈ n.entries.map Prod.fst) :
    m = n := by
  have ordered (m : SortedMap κ Unit) : (m.entries.map Prod.fst).Pairwise (· < ·) := pairwise_map.mpr m.ascending
  have keys : m.entries.map Prod.fst = n.entries.map Prod.fst := by
    refine List.Perm.eq_of_pairwise (fun a b _ _ less greater => absurd greater (lt_asymm less)) (ordered m) (ordered n) ?_
    exact (perm_ext_iff_of_nodup ((ordered m).imp ne_of_lt) ((ordered n).imp ne_of_lt)).mpr eq
  exact ext (map_injective_iff.mpr Prod.fst_injective keys)

theorem place_ascending : ∀ {entries : List (κ × ν)},
    entries.Pairwise (fun a b => a.1 < b.1) → (place k v entries).Pairwise fun a b => a.1 < b.1
  | [], _ => pairwise_singleton _ _
  | (k', v') :: rest, h => by
      obtain ⟨below, sorted⟩ := pairwise_cons.mp h
      simp only [place]
      split
      · rename_i less
        refine pairwise_cons.mpr ⟨fun entry mem => ?_, h⟩
        rcases mem_cons.mp mem with rfl | mem
        · exact less
        · exact less.trans (below entry mem)
      · split
        · rename_i greater
          refine pairwise_cons.mpr ⟨fun entry mem => ?_, place_ascending sorted⟩
          rcases mem_place mem with rfl | mem
          · exact greater
          · exact below entry mem
        · rename_i notLess notGreater
          obtain rfl : k = k' := le_antisymm (not_lt.mp notGreater) (not_lt.mp notLess)
          exact pairwise_cons.mpr ⟨below, sorted⟩

def insert (m : SortedMap κ ν) (k : κ) (v : ν) : SortedMap κ ν :=
  ⟨place k v m.entries, place_ascending m.ascending⟩

/-- Collect entries in the order given; a later entry replaces an earlier one. -/
def ofPairs (pairs : List (κ × ν)) : SortedMap κ ν :=
  pairs.foldl (fun m entry => m.insert entry.1 entry.2) empty

theorem place_perm : ∀ {entries : List (κ × ν)},
    (∀ entry ∈ entries, entry.1 ≠ k) → (place k v entries).Perm ((k, v) :: entries)
  | [], _ => .refl _
  | (k', v') :: rest, absent => by
      simp only [place]
      split
      · exact .refl _
      split
      · have := place_perm (v := v) (fun entry mem => absent entry (.tail _ mem))
        exact (this.cons _).trans (.swap _ _ _)
      · rename_i notLess notGreater
        exact absurd (le_antisymm (not_lt.mp notLess) (not_lt.mp notGreater)) (absent (k', v') (by simp))

private theorem collect_perm : ∀ {m : SortedMap κ ν},
    ((m.entries ++ pairs).map Prod.fst).Nodup →
      (pairs.foldl (fun m entry => m.insert entry.1 entry.2) m).entries.Perm (m.entries ++ pairs) := by
  induction pairs with
  | nil => intro m _; simp
  | cons entry pairs ih =>
    intro m distinct
    have ha : ∀ other ∈ m.entries, other.1 ≠ entry.1 := by
      intro other mem eq
      rw [map_append, nodup_append] at distinct
      exact distinct.2.2 other.1 (mem_map_of_mem mem) entry.1 (by simp) eq
    have placed : (m.insert entry.1 entry.2).entries.Perm (entry :: m.entries) := place_perm ha
    have hm : ((m.insert entry.1 entry.2).entries ++ pairs).Perm (m.entries ++ entry :: pairs) :=
      (placed.append_right pairs).trans perm_middle.symm
    exact (ih ((hm.map Prod.fst).nodup_iff.mpr distinct)).trans hm

theorem ofPairs_of_perm {m : SortedMap κ ν} (eq : pairs.Perm m.entries) : ofPairs pairs = m := by
  have keys : (m.entries.map Prod.fst).Nodup :=
    (pairwise_map.mpr m.ascending).imp fun h => ne_of_lt h
  have distinct : (pairs.map Prod.fst).Nodup := (eq.map Prod.fst).nodup_iff.mpr keys
  have collected : (ofPairs pairs).entries.Perm m.entries :=
    (collect_perm (m := empty) (by simpa [empty] using distinct)).trans (by simpa [empty] using eq)
  apply ext
  exact collected.eq_of_pairwise (fun a b _ _ less greater => absurd greater (lt_asymm less))
    (ofPairs pairs).ascending m.ascending

end SortedMap
end CorePlatform.Theory
