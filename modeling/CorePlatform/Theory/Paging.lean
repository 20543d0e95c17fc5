import Mathlib.Data.List.Basic

/-! # Reading a list page by page

A client asks for a page with the token that came with the page before, until none comes. What it
has then is the whole list exactly if no page was shorter than it could have been, for a page that
is not full ends the reading.
-/

namespace CorePlatform.Theory

open Option

variable {α τ : Type} {l : List α}

/-- What is collected by asking on from a request with its token; the requests are numbered. -/
inductive Collects (page : Nat → Option τ → Option (List α × Option τ)) : Nat → Option τ → List α → Prop where
  | last (answered : page k token = some (items, none)) : Collects page k token items
  | more {next : τ} (answered : page k token = some (items, some next))
      (onward : Collects page (k + 1) (some next) rest) : Collects page k token (items ++ rest)

/-- The token of the last of the first `n` items. -/
def tokenAfter (all : List α) (token : α → τ) (n : Nat) : Option τ := (all.take n).getLast?.map token

/-- The pages show what comes next, `shown k` items on the page `k`, and a page goes on if it is full. -/
structure Paged (all : List α) (size : Nat) (token : α → τ) (page : Nat → Option τ → Option (List α × Option τ))
    (shown : Nat → Nat) : Prop where
  positive : 0 < size
  bounded : ∀ k, shown k ≤ min size (all.length - k * size)
  serves : ∀ k, k * size ≤ all.length → page k (tokenAfter all token (k * size)) =
    some ((all.drop (k * size)).take (shown k),
      if shown k = size then tokenAfter all token ((k + 1) * size) else none)

theorem tokenAfter_isSome (hp : 0 < n) (hw : n ≤ all.length) : ∃ next, tokenAfter all token n = some next := by
  cases last : (all.take n).getLast? with
  | none =>
    have length := congrArg List.length (List.getLast?_eq_none_iff.mp last)
    simp only [List.length_take, List.length_nil] at length
    omega
  | some item => exact ⟨token item, by rw [tokenAfter, last]; rfl⟩

theorem Paged.collects_full_iff (hp : Paged all size token page shown) (full : shown k = size) :
    Collects page k (tokenAfter all token (k * size)) (all.drop (k * size)) ↔
      Collects page (k + 1) (tokenAfter all token ((k + 1) * size)) (all.drop ((k + 1) * size)) := by
  have bounded := hp.bounded k
  have positive := hp.positive
  have next : (k + 1) * size = k * size + size := Nat.succ_mul k size
  obtain ⟨token', here⟩ : ∃ next, tokenAfter all token ((k + 1) * size) = some next :=
    tokenAfter_isSome (by omega) (by omega)
  have ha := hp.serves k (by omega)
  rw [if_pos full, here, full] at ha
  rw [here]
  constructor
  · intro collects
    generalize whole : all.drop (k * size) = items at collects ha
    cases collects with
    | last he =>
      rw [ha] at he
      cases (Prod.mk.inj (some.inj he)).2
    | @more _ _ first rest _ went ho =>
      rw [ha] at went
      have shownAll := (Prod.mk.inj (some.inj went)).1
      have sameToken := (Prod.mk.inj (some.inj went)).2
      have cut := List.take_append_drop size (first ++ rest)
      rw [shownAll] at cut
      rw [sameToken, next, ← List.drop_drop, whole, List.append_cancel_left cut]
      exact ho
  · intro ho
    rw [← List.take_append_drop size (all.drop (k * size)), List.drop_drop, ← next]
    exact .more ha ho

theorem Paged.collects_rest_iff (hp : Paged all size token page shown) (hw : k * size ≤ all.length) :
    Collects page k (tokenAfter all token (k * size)) (all.drop (k * size)) ↔
      ∀ j, k ≤ j → j * size < all.length → shown j = min size (all.length - j * size) := by
  have positive := hp.positive
  have bounded := hp.bounded k
  have ha := hp.serves k hw
  have next : (k + 1) * size = k * size + size := Nat.succ_mul k size
  by_cases full : shown k = size
  · rw [hp.collects_full_iff full, hp.collects_rest_iff (show (k + 1) * size ≤ all.length by omega)]
    constructor
    · intro met j from_ left
      by_cases eq : j = k
      · subst eq
        omega
      · exact met j (by omega) left
    · intro met j from_ left
      exact met j (by omega) left
  rw [if_neg full] at ha
  constructor
  · intro collects j from_ left
    generalize whole : all.drop (k * size) = items at collects
    cases collects with
    | last he =>
      rw [ha] at he
      have shownAll := (Prod.mk.inj (some.inj he)).1
      have length := congrArg List.length (shownAll.trans whole.symm)
      simp only [List.length_take, List.length_drop] at length
      have eq : j = k := by
        by_contra other
        have hl : (k + 1) * size ≤ j * size := Nat.mul_le_mul_right size (by omega)
        omega
      subst eq
      omega
    | more went =>
      rw [ha] at went
      cases went
  · intro met
    have short : shown k = all.length - k * size := by
      by_cases left : k * size < all.length
      · have most := met k (Nat.le_refl k) left
        omega
      · omega
    rw [short, List.take_of_length_le (by simp)] at ha
    exact .last ha
termination_by all.length - k * size
decreasing_by omega

theorem Paged.collects_iff (hp : Paged all size token page shown) :
    Collects page 0 none all ↔ ∀ k, k * size < all.length → shown k = min size (all.length - k * size) := by
  have rest := hp.collects_rest_iff (show 0 * size ≤ all.length by omega)
  simp only [Nat.zero_mul, List.drop_zero, tokenAfter, List.take_zero, List.getLast?_nil, map_none] at rest
  rw [rest]
  exact forall_congr' fun k => ⟨fun met => met (Nat.zero_le k), fun met _ => met⟩

theorem filter_or_eq_append (hi : l.Pairwise fun a b => q a = true → p b = false)
    (ne : ∀ a ∈ l, p a = true → q a = false) : l.filter (fun a => p a || q a) = l.filter p ++ l.filter q := by
  induction l with
  | nil => rfl
  | cons a l ih =>
    obtain ⟨first, rest⟩ := List.pairwise_cons.mp hi
    have ih := ih rest fun b mem => ne b (.tail a mem)
    cases fits : p a with
    | true => simp [fits, ih, ne a (.head _) fits]
    | false =>
      cases other : q a with
      | false => simp [fits, other, ih]
      | true =>
        have none_ : l.filter p = [] := List.filter_eq_nil_iff.mpr fun b mem => by simp [first b mem other]
        simp [fits, other, ih, none_]

theorem filter_eq_take (hi : l.Pairwise fun a b => p b = true → p a = true) : l.filter p = l.take (l.countP p) := by
  induction l with
  | nil => rfl
  | cons a l ih =>
    obtain ⟨first, rest⟩ := List.pairwise_cons.mp hi
    cases fits : p a with
    | true => simp [fits, ih rest]
    | false =>
      have none_ : ∀ b ∈ a :: l, ¬ p b = true := by
        intro b mem here
        cases List.mem_cons.mp mem with
        | inl same =>
          rw [← same, here] at fits
          cases fits
        | inr later =>
          rw [first b later here] at fits
          cases fits
      rw [List.filter_eq_nil_iff.mpr none_, List.countP_eq_zero.mpr none_, List.take_zero]

theorem min_countP_eq_iff (hi : l.Pairwise fun a b => p b = true → p a = true) :
    min size (l.countP p) = min size l.length ↔ ∀ a ∈ l.take size, p a = true := by
  constructor
  · intro most a mem
    have cut : l.take size = l.take (min size (l.countP p)) := by
      rw [most]
      exact List.take_eq_take_min
    rw [cut, ← List.take_take, ← filter_eq_take hi] at mem
    exact List.of_mem_filter (List.mem_of_mem_take mem)
  · intro all
    have first : (l.take size).countP p = (l.take size).length := List.countP_eq_length.mpr all
    have whole : (l.take size).countP p ≤ l.countP p := (List.take_sublist size l).countP_le
    have most : l.countP p ≤ l.length := List.countP_le_length
    rw [first, List.length_take] at whole
    omega

end CorePlatform.Theory
