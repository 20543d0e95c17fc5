import CorePlatform.Theory.Encoding
import CorePlatform.Audit.Values

/-! # Canonical bytes and record hashes

The digest function stays a parameter. What a result needs of it, such as that it does
not collide on the inputs at hand, is a hypothesis of that result.
-/

namespace CorePlatform.Audit

open Theory

/-- `Sha256::digest`. -/
abbrev Sha256 := List UInt8 → Vector UInt8 32

/-- The digest by its values at the inputs of a concrete run. -/
def Sha256.ofTable (table : List (List UInt8 × Vector UInt8 32)) : Sha256 := fun bytes =>
  (table.lookup bytes).getD (Vector.replicate 32 0)

def toHex (bytes : List UInt8) : String :=
  String.ofList (bytes.flatMap fun b => [Nat.digitChar (b.toNat / 16), Nat.digitChar (b.toNat % 16)])

private theorem digitChar_inj : ∀ m < 16, ∀ n < 16, Nat.digitChar m = Nat.digitChar n → m = n := by
  decide

theorem toHex_injective : Function.Injective toHex := by
  intro xs ys same
  replace same := String.ofList_injective same
  induction xs generalizing ys with
  | nil =>
    cases ys with
    | nil => rfl
    | cons => simp at same
  | cons x _ ih =>
    cases ys with
    | nil => simp at same
    | cons y =>
      simp only [List.flatMap_cons, List.cons_append, List.nil_append, List.cons.injEq] at same
      obtain ⟨high, low, rest⟩ := same
      have hx := x.toNat_lt
      have hy := y.toNat_lt
      have high := digitChar_inj _ (by omega) _ (by omega) high
      have low := digitChar_inj _ (by omega) _ (by omega) low
      have : x = y := UInt8.toNat_inj.mp (by omega)
      rw [this, ih rest]

/-- A hex digest. Stored values are taken as they are, so any string can stand here. -/
abbrev RecordHash := String

namespace RecordHash

def genesis : RecordHash := String.ofList (List.replicate 64 '0')

def digest (sha256 : Sha256) (bytes : List UInt8) : RecordHash := toHex (sha256 bytes).toList

theorem digest_inj : digest sha256 xs = digest sha256 ys ↔ sha256 xs = sha256 ys := by
  refine ⟨fun eq => ?_, fun eq => by rw [digest, digest, eq]⟩
  exact Vector.toList_inj.mp (toHex_injective eq)

end RecordHash

def utf8 (s : String) : List UInt8 := s.toUTF8.data.toList

theorem utf8_injective : Function.Injective utf8 := by
  intro s t eq
  apply String.toByteArray_inj.mp
  exact ByteArray.ext (Array.toList_inj.mp eq)

/-- A vector holds at most `isize::MAX` bytes, so no buffer has a field whose length
its 64-bit prefix cannot carry. -/
def Fits (bytes : List UInt8) : Prop := bytes.length < 2 ^ 63

/-- The buffer a value is written into before it is hashed. -/
structure CanonicalWriter where
  buf : List UInt8 := []

namespace CanonicalWriter

def bytes (w : CanonicalWriter) (value : List UInt8) : CanonicalWriter :=
  ⟨w.buf ++ le64 value.length ++ value⟩

def str (w : CanonicalWriter) (value : String) : CanonicalWriter := w.bytes (utf8 value)

def u8 (w : CanonicalWriter) (value : UInt8) : CanonicalWriter := ⟨w.buf ++ [value]⟩

def u64 (w : CanonicalWriter) (value : Nat) : CanonicalWriter := ⟨w.buf ++ le64 value⟩

def i64 (w : CanonicalWriter) (value : Int) : CanonicalWriter := ⟨w.buf ++ le64Signed value⟩

/-- A count, then pairs of strings one after the other. -/
def pairs (w : CanonicalWriter) (entries : List (String × String)) : CanonicalWriter :=
  entries.foldl (fun w entry => (w.str entry.1).str entry.2) (w.u64 entries.length)

open Unambiguous (framed)

variable (w : CanonicalWriter)

@[simp] theorem bytes_buf (value : List UInt8) : (w.bytes value).buf = w.buf ++ framed value := by
  simp [bytes, framed]

@[simp] theorem u8_buf : (w.u8 value).buf = w.buf ++ [value] := rfl

@[simp] theorem u64_buf : (w.u64 value).buf = w.buf ++ le64 value := rfl

@[simp] theorem i64_buf : (w.i64 value).buf = w.buf ++ le64Signed value := rfl

end CanonicalWriter

section

open Unambiguous

/-- A string field, as `str` writes it. -/
def text (s : String) : List UInt8 := framed (utf8 s)

theorem text_unambiguous : Unambiguous text := framing.comap utf8 utf8_injective

/-- A list of pairs, as `pairs` writes it. -/
def textPairs : List (String × String) → List UInt8 := counted fun entry => text entry.1 ++ text entry.2

theorem textPairs_unambiguous : Unambiguous textPairs := by
  have nonempty : ∀ entry : String × String, text entry.1 ++ text entry.2 ≠ [] := by
    intro entry empty
    have := congrArg List.length empty
    simp [text, framed] at this
  exact list (pair text_unambiguous text_unambiguous) nonempty

@[simp] theorem CanonicalWriter.str_buf (w : CanonicalWriter) (value : String) :
    (w.str value).buf = w.buf ++ text value := w.bytes_buf _

@[simp] theorem CanonicalWriter.pairs_buf (w : CanonicalWriter) :
    (w.pairs entries).buf = w.buf ++ textPairs entries := by
  have each : ∀ (entries : List (String × String)) (w : CanonicalWriter),
      (entries.foldl (fun w entry => (w.str entry.1).str entry.2) w).buf =
        w.buf ++ entries.flatMap fun entry => text entry.1 ++ text entry.2 := by
    intro entries
    induction entries with
    | nil => intro w; simp
    | cons _ _ ih => intro w; simp [ih]
  simp [pairs, textPairs, counted, each]

end
end CorePlatform.Audit
