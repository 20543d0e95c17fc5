import Mathlib.Algebra.Group.Nat.Defs
import Mathlib.Data.List.Basic

/-! # Texts cut at a separator, and numbers in texts

A text is cut at the first separator. Two parts written with a separator between them are read back,
as long as the first has none of its own. The text of a number has only digits and perhaps a sign,
so it is read back too. -/

namespace CorePlatform.Theory

open List

variable {sep : Char}

/-- What stands before and after the first separator. -/
def cutAt (sep : Char) : List Char → Option (List Char × List Char)
  | [] => none
  | c :: rest =>
    if c = sep then some ([], rest) else (cutAt sep rest).map fun cut => (c :: cut.1, cut.2)

def splitOnce (sep : Char) (text : String) : Option (String × String) :=
  (cutAt sep text.toList).map fun cut => (String.ofList cut.1, String.ofList cut.2)

theorem cutAt_append (ha : sep ∉ first) : cutAt sep (first ++ sep :: rest) = some (first, rest) := by
  induction first with
  | nil => simp [cutAt]
  | cons _ _ ih =>
    obtain ⟨other, ha⟩ := not_or.mp (mem_cons.not.mp ha)
    rw [cons_append, cutAt, if_neg (Ne.symm other), ih ha]
    rfl

theorem splitOnce_eq (ha : sep ∉ first.toList) (hw : text.toList = first.toList ++ sep :: rest.toList) :
    splitOnce sep text = some (first, rest) := by
  rw [splitOnce, hw, cutAt_append ha]
  simp

theorem separated_inj {first' rest' : String} (ha : sep ∉ first.toList) (absent' : sep ∉ first'.toList)
    (eq : first.toList ++ sep :: rest.toList = first'.toList ++ sep :: rest'.toList) :
    first = first' ∧ rest = rest' := by
  have cut : some (first.toList, rest.toList) = some (first'.toList, rest'.toList) := by
    rw [← cutAt_append ha, eq, cutAt_append absent']
  obtain ⟨hb, after⟩ := Prod.mk.inj (Option.some.inj cut)
  exact ⟨String.toList_inj.mp hb, String.toList_inj.mp after⟩

theorem cut_cases (eq : first ++ sep :: rest = first' ++ sep :: rest') : (first = first' ∧ rest = rest') ∨
    (∃ part, first' = first ++ sep :: part ∧ rest = part ++ sep :: rest') ∨
      ∃ part, first = first' ++ sep :: part ∧ rest' = part ++ sep :: rest := by
  rcases append_eq_append_iff.mp eq with ⟨between, rfl, tail⟩ | ⟨between, rfl, tail⟩
  all_goals cases between <;> simp_all

theorem lastPart_inj (even : rest.count sep = rest'.count sep) (eq : first ++ sep :: rest = first' ++ sep :: rest') :
    first = first' ∧ rest = rest' := by
  rcases cut_cases eq with alike | ⟨part, -, cut⟩ | ⟨part, -, cut⟩
  · exact alike
  all_goals
    simp [cut] at even
    omega

def readNat (text : String) : Nat := Nat.ofDigitChars 10 text.toList 0

def readInt (text : String) : Int :=
  match text.toList with
  | '-' :: digits => -Nat.ofDigitChars 10 digits 0
  | digits => Nat.ofDigitChars 10 digits 0

theorem toList_toString : (toString n).toList = Nat.toDigits 10 n := by
  show (String.ofList (Nat.toDigits 10 n)).toList = Nat.toDigits 10 n
  rw [String.toList_ofList]

theorem readNat_toString : readNat (toString n) = n := by
  rw [readNat, toList_toString]
  exact Nat.ofDigitChars_toDigits (by decide) (by decide)

theorem isDigit_of_mem_toString {n : Nat} (mem : c ∈ (toString n).toList) : c.isDigit = true := by
  rw [toList_toString] at mem
  exact Nat.isDigit_of_mem_toDigits (by decide) (by decide) mem

theorem count_toString (n : Nat) (other : sep.isDigit = false) : (toString n).toList.count sep = 0 := by
  apply count_eq_zero.mpr
  intro mem
  rw [isDigit_of_mem_toString mem] at other
  cases other

theorem toString_negSucc : toString (Int.negSucc n) = "-" ++ toString (n + 1) := rfl

theorem mem_toString {n : Int} (mem : c ∈ (toString n).toList) : c = '-' ∨ c.isDigit = true := by
  cases n with
  | ofNat => exact .inr (isDigit_of_mem_toString mem)
  | negSucc =>
    rw [toString_negSucc, String.toList_append] at mem
    cases mem_append.mp mem with
    | inl sign => exact .inl (mem_singleton.mp sign)
    | inr digit => exact .inr (isDigit_of_mem_toString digit)

theorem readInt_toString : readInt (toString n) = n := by
  cases n with
  | ofNat n =>
    show readInt (toString n) = n
    unfold readInt
    split
    · rename_i digits hw
      have minus : '-' ∈ (toString n).toList := by
        rw [hw]
        exact .head _
      exact absurd (isDigit_of_mem_toString minus) (by decide)
    · exact congrArg Int.ofNat readNat_toString
  | negSucc n =>
    unfold readInt
    rw [toString_negSucc, String.toList_append]
    show -(Nat.ofDigitChars 10 (toString (n + 1)).toList 0 : Int) = Int.negSucc n
    rw [← readNat, readNat_toString]
    rfl

theorem ofDigitChars_cons_zero : Nat.ofDigitChars 10 (c :: rest) 0 =
    10 ^ rest.length * (c.toNat - 48) + Nat.ofDigitChars 10 rest 0 := by
  rw [Nat.ofDigitChars_cons, Nat.ofDigitChars_eq_ofDigitChars_zero, Nat.mul_zero, Nat.zero_add]
  rfl

theorem ofDigitChars_lt (hl : ∀ c ∈ l, c.isDigit = true) : Nat.ofDigitChars 10 l 0 < 10 ^ l.length := by
  induction l with
  | nil => decide
  | cons c rest ih =>
    obtain ⟨hc, hl⟩ := forall_mem_cons.mp hl
    have first : 10 ^ rest.length * (c.toNat - 48) ≤ 10 ^ rest.length * 9 :=
      Nat.mul_le_mul_left _ (Nat.sub_le_of_le_add (Char.isDigit_iff_toNat.mp hc).2)
    have later := ih hl
    rw [ofDigitChars_cons_zero, length_cons, Nat.pow_succ]
    omega

theorem mul_add_lt_iff {p x y a b : Nat} (ha : a < p) (hb : b < p) : p * x + a < p * y + b ↔ x < y ∨ x = y ∧ a < b := by
  rcases Nat.lt_trichotomy x y with lt | rfl | gt
  · have := Nat.mul_le_mul_left p lt
    rw [Nat.mul_succ] at this
    omega
  · omega
  · have := Nat.mul_le_mul_left p gt
    rw [Nat.mul_succ] at this
    omega

theorem digits_lt_iff (hl : ∀ c ∈ l, c.isDigit = true) (hm : ∀ c ∈ m, c.isDigit = true) (len : l.length = m.length) :
    l ++ rest < m ++ rest ↔ Nat.ofDigitChars 10 l 0 < Nat.ofDigitChars 10 m 0 := by
  induction l generalizing m with
  | nil => cases m <;> simp_all
  | cons c l ih =>
    cases m with
    | nil => cases len
    | cons d m =>
      obtain ⟨hc, hl⟩ := forall_mem_cons.mp hl
      obtain ⟨hd, hm⟩ := forall_mem_cons.mp hm
      have len : l.length = m.length := Nat.succ.inj len
      have low : 48 ≤ c.toNat := (Char.isDigit_iff_toNat.mp hc).1
      have low' : 48 ≤ d.toNat := (Char.isDigit_iff_toNat.mp hd).1
      have less : c < d ↔ c.toNat < d.toNat := Iff.rfl
      rw [cons_append, cons_append, cons_lt_cons_iff, ih hl hm len, ofDigitChars_cons_zero,
        ofDigitChars_cons_zero, len, mul_add_lt_iff (len ▸ ofDigitChars_lt hl) (ofDigitChars_lt hm), less,
        ← Char.toNat_inj]
      omega

theorem append_lt_iff {first l m : List Char} : first ++ l < first ++ m ↔ l < m := by
  induction first with
  | nil => rfl
  | cons _ _ ih => simp [ih]

theorem leftpad_lt_iff (hw : 0 < width) (hn : n < 10 ^ width) (hm : m < 10 ^ width) :
    (Nat.toDigits 10 n).leftpad width '0' ++ rest < (Nat.toDigits 10 m).leftpad width '0' ++ rest ↔ n < m := by
  have digits : ∀ n, ∀ c ∈ (Nat.toDigits 10 n).leftpad width '0', c.isDigit = true := by
    intro n c mem
    rcases mem_append.mp mem with zero | digit
    · rw [eq_of_mem_replicate zero]
      decide
    · exact Nat.isDigit_of_mem_toDigits (by decide) (by decide) digit
  have value : ∀ n, Nat.ofDigitChars 10 ((Nat.toDigits 10 n).leftpad width '0') 0 = n := by
    intro n
    rw [List.leftpad, Nat.ofDigitChars_append, Nat.ofDigitChars_replicate_zero, Nat.mul_zero]
    exact Nat.ofDigitChars_toDigits (by decide) (by decide)
  have len : ∀ n < 10 ^ width, ((Nat.toDigits 10 n).leftpad width '0').length = width := by
    intro n hn
    rw [length_leftpad, Nat.max_eq_left ((Nat.length_toDigits_le_iff (by decide) hw).mpr hn)]
  rw [digits_lt_iff (digits n) (digits m) ((len n hn).trans (len m hm).symm), value, value]

end CorePlatform.Theory
