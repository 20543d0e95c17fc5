import Mathlib.Logic.Function.Basic
import Mathlib.Data.Int.ModEq

/-! # Unambiguous byte encodings

An encoding is unambiguous when its output can be cut off the front of a longer byte string in one
way only. Fields one after another, an optional field behind a presence byte, a byte string behind
its length and a list behind its count stay unambiguous, so a record needs no outer framing.

Lengths travel as 64-bit numbers, so the notion speaks of values whose encoding is shorter than `2 ^
64` bytes. Every part of such a value is then short enough too, which lets the rules compose. -/

namespace CorePlatform.Theory

open List

universe u v

/-- Little-endian bytes of the low 64 bits of `n`. -/
def le64 (n : Nat) : List UInt8 :=
  (List.range 8).map fun i => UInt8.ofNat (n / 256 ^ i)

@[simp] theorem le64_length : (le64 n).length = 8 := by
  simp [le64]

def ofLittleEndian : List UInt8 → Nat
  | [] => 0
  | b :: rest => b.toNat + 256 * ofLittleEndian rest

theorem ofLittleEndian_le64 : ofLittleEndian (le64 n) = n % 2 ^ 64 := by
  have digits : le64 n = [UInt8.ofNat n, UInt8.ofNat (n / 256), UInt8.ofNat (n / 256 ^ 2),
      UInt8.ofNat (n / 256 ^ 3), UInt8.ofNat (n / 256 ^ 4), UInt8.ofNat (n / 256 ^ 5),
      UInt8.ofNat (n / 256 ^ 6), UInt8.ofNat (n / 256 ^ 7)] := by
    simp [le64, range_succ]
  rw [digits]
  simp only [ofLittleEndian, UInt8.toNat_ofNat']
  omega

theorem le64_mod_inj (eq : le64 m = le64 n) : m % 2 ^ 64 = n % 2 ^ 64 := by
  rw [← ofLittleEndian_le64, ← ofLittleEndian_le64, eq]

theorem le64_inj (hm : m < 2 ^ 64) (hn : n < 2 ^ 64) (eq : le64 m = le64 n) : m = n := by
  have := le64_mod_inj eq
  rwa [Nat.mod_eq_of_lt hm, Nat.mod_eq_of_lt hn] at this

/-- Two's complement bytes of a signed 64-bit number. -/
def le64Signed (z : Int) : List UInt8 := le64 (z % 2 ^ 64).toNat

theorem le64Signed_inj (hy : -2 ^ 63 ≤ y ∧ y < 2 ^ 63) (hz : -2 ^ 63 ≤ z ∧ z < 2 ^ 63)
    (eq : le64Signed y = le64Signed z) : y = z := by
  have := le64_inj (by omega) (by omega) eq
  omega

/-- The encoding of a short enough value can be split off in one way only. -/
def Unambiguous {α : Type u} (enc : α → List UInt8) : Prop :=
  ∀ a b s t, (enc a).length < 2 ^ 64 → (enc b).length < 2 ^ 64 → enc a ++ s = enc b ++ t → a = b ∧ s = t

namespace Unambiguous

variable {α : Type u} {β : Type v} {enc : α → List UInt8}

theorem eq (h : Unambiguous enc) (hs : (enc a).length < 2 ^ 64) (same : enc a = enc b) : a = b :=
  (h a b [] [] hs (same ▸ hs) (by simp only [same])).1

theorem comap (h : Unambiguous enc) (view : β → α) (hi : Function.Injective view) :
    Unambiguous (fun b => enc (view b)) := by
  intro a b s t ha hb eq
  obtain ⟨views, rest⟩ := h _ _ s t ha hb eq
  exact ⟨hi views, rest⟩

theorem fixedWidth (wide : ∀ a, (enc a).length = width) (hi : Function.Injective enc) : Unambiguous enc := by
  intro a b s t _ _ eq
  obtain ⟨heads, rest⟩ := append_inj eq (by rw [wide, wide])
  exact ⟨hi heads, rest⟩

theorem tag (hi : Function.Injective code) : Unambiguous (fun a => [code a]) :=
  fixedWidth (fun _ => rfl) (fun _ _ eq => hi (singleton_inj.mp eq))

theorem pair (ha : Unambiguous first) (hb : Unambiguous second) :
    Unambiguous (fun p : α × β => first p.1 ++ second p.2) := by
  rintro ⟨a, b⟩ ⟨a', b'⟩ s t short short' eq
  simp only [length_append] at short short'
  simp only [append_assoc] at eq
  obtain ⟨rfl, tails⟩ := ha a a' _ _ (by omega) (by omega) eq
  obtain ⟨rfl, rest⟩ := hb b b' _ _ (by omega) (by omega) tails
  exact ⟨rfl, rest⟩

/-- A presence byte, then the value if there is one. -/
def optionally (enc : α → List UInt8) : Option α → List UInt8
  | none => [0]
  | some a => 1 :: enc a

theorem option (h : Unambiguous enc) : Unambiguous (optionally enc) := by
  intro a b s t short short' eq
  cases a with
  | none =>
    cases b with
    | none => exact ⟨rfl, by simpa [optionally] using eq⟩
    | some => simp [optionally] at eq
  | some a =>
    cases b with
    | none => simp [optionally] at eq
    | some b =>
      simp only [optionally, length_cons] at short short'
      simp only [optionally, cons_append, List.cons.injEq, true_and] at eq
      obtain ⟨rfl, rest⟩ := h a b s t (by omega) (by omega) eq
      exact ⟨rfl, rest⟩

def framed (bytes : List UInt8) : List UInt8 := le64 bytes.length ++ bytes

theorem framing : Unambiguous framed := by
  intro a b s t short short' eq
  simp only [framed, length_append, le64_length] at short short'
  simp only [framed, append_assoc] at eq
  obtain ⟨lengths, eq⟩ := append_inj eq (by simp only [le64_length])
  have : a.length = b.length := le64_inj (by omega) (by omega) lengths
  exact append_inj eq this

private theorem items (h : Unambiguous enc) :
    ∀ (xs ys : List α) (s t : List UInt8), xs.length = ys.length → (xs.flatMap enc).length < 2 ^ 64 →
      (ys.flatMap enc).length < 2 ^ 64 → xs.flatMap enc ++ s = ys.flatMap enc ++ t → xs = ys ∧ s = t := by
  intro xs
  induction xs with
  | nil =>
    intro ys s t lengths _ _ eq
    obtain rfl := eq_nil_of_length_eq_zero lengths.symm
    exact ⟨rfl, by simpa using eq⟩
  | cons x _ ih =>
    intro ys s t lengths short short' eq
    cases ys with
    | nil => simp at lengths
    | cons y ys =>
      simp only [flatMap_cons, length_append] at short short'
      simp only [flatMap_cons, append_assoc] at eq
      obtain ⟨rfl, tails⟩ := h x y _ _ (by omega) (by omega) eq
      obtain ⟨rfl, rest⟩ := ih ys s t (by simpa using lengths) (by omega) (by omega) tails
      exact ⟨rfl, rest⟩

def counted (enc : α → List UInt8) (xs : List α) : List UInt8 := le64 xs.length ++ xs.flatMap enc

theorem list (h : Unambiguous enc) (hn : ∀ a, enc a ≠ []) : Unambiguous (counted enc) := by
  have bound : ∀ xs : List α, xs.length ≤ (xs.flatMap enc).length := by
    intro xs
    induction xs with
    | nil => simp
    | cons x =>
      have := length_pos_iff.mpr (hn x)
      simp only [length_cons, flatMap_cons, length_append]
      omega
  intro xs ys s t short short' eq
  simp only [counted, length_append, le64_length] at short short'
  simp only [counted, append_assoc] at eq
  obtain ⟨counts, eq⟩ := append_inj eq (by simp only [le64_length])
  have hx := bound xs
  have hy := bound ys
  exact items h xs ys s t (le64_inj (by omega) (by omega) counts) (by omega) (by omega) eq

end Unambiguous
end CorePlatform.Theory
