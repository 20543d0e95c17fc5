import Mathlib.Logic.Function.Basic
import Mathlib.Tactic.ByContra

/-! # Labelled machines, their runs and what a run keeps

A machine takes one labelled step at a time. Everything the environment decides (who moves, which
answer is lost, what the clock says) sits in the label, so the step is a partial function and a run
is a list of labels.

The rules below are the only inductions over runs a development needs: what each step keeps, every
run keeps; and a failure that no step repairs forces every step before it to have met the condition
that rules it out. -/

namespace CorePlatform.Theory

open Function

universe u v

/-- What a partial function comes to can be evaluated. -/
instance decidableExistsSome {p : α → Prop} [DecidablePred p] :
    ∀ result : Option α, Decidable (∃ a, result = some a ∧ p a)
  | none => isFalse (by simp)
  | some a => decidable_of_iff (p a) (by simp)

instance decidableForallSome {p : α → Prop} [DecidablePred p] :
    ∀ result : Option α, Decidable (∀ a, result = some a → p a)
  | none => isTrue (by simp)
  | some a => decidable_of_iff (p a) (by simp)

structure Machine (σ : Type u) (α : Type v) where
  init : σ → Prop
  /-- `none` when the label is not enabled in the state. -/
  step : σ → α → Option σ

namespace Machine

variable {σ : Type u} {α : Type v} (m : Machine σ α) {s : σ}

/-- Perform the labels in order; `none` as soon as one is not enabled. -/
def run : σ → List α → Option σ
  | s, [] => some s
  | s, a :: rest => (m.step s a).bind fun next => run next rest

def Reachable (s : σ) : Prop :=
  ∃ start trace, m.init start ∧ m.run start trace = some s

/-- `p` holds in every state the run passes through, both ends included. -/
def Always (p : σ → Prop) : σ → List α → Prop
  | s, [] => p s
  | s, a :: rest => p s ∧ ∀ next, m.step s a = some next → Always p next rest

/-- Every step of the run is taken from a state that meets `cond` for its label. -/
def Meets (cond : σ → α → Prop) : σ → List α → Prop
  | _, [] => True
  | s, a :: rest => cond s a ∧ ∀ next, m.step s a = some next → Meets cond next rest

/-- The machine with a record beside it, to which `note` adds at each step what it saw. -/
def recorded (note : σ → α → γ → γ) : Machine (σ × γ) α where
  init s := m.init s.1
  step s a := (m.step s.1 a).map fun next => (next, note s.1 a s.2)

theorem run_cons_iff : m.run s (a :: rest) = some t ↔ ∃ next, m.step s a = some next ∧ m.run next rest = some t := by
  simp only [run, Option.bind_eq_some_iff]

theorem run_append : m.run s (first ++ rest) = (m.run s first).bind fun t => m.run t rest := by
  induction first generalizing s with
  | nil => rfl
  | cons _ _ ih =>
    simp only [List.cons_append, run, Option.bind_assoc]
    exact congrArg _ (funext fun _ => ih)

/-- Whether a run meets a decidable condition can be evaluated along the run. -/
instance decidableMeets {cond : σ → α → Prop} [∀ s a, Decidable (cond s a)] :
    ∀ (s : σ) (trace : List α), Decidable (m.Meets cond s trace)
  | _, [] => isTrue trivial
  | s, a :: rest =>
    match stepped : m.step s a with
    | none => decidable_of_iff (cond s a) (by simp [Meets, stepped])
    | some next =>
      have : Decidable (m.Meets cond next rest) := decidableMeets next rest
      decidable_of_iff (cond s a ∧ m.Meets cond next rest) (by simp [Meets, stepped])

variable {m} {cond : σ → α → Prop}

theorem Reachable.start (initial : m.init s) : m.Reachable s :=
  ⟨s, [], initial, rfl⟩

theorem Always.and {p q : σ → Prop} : ∀ {s : σ},
    m.Always p s trace → m.Always q s trace → m.Always (fun s => p s ∧ q s) s trace := by
  induction trace with
  | nil => intro s hp hq; exact ⟨hp, hq⟩
  | cons _ _ ih =>
    intro s hp hq
    exact ⟨⟨hp.1, hq.1⟩, fun next hs => ih (hp.2 next hs) (hq.2 next hs)⟩

theorem run_keeps {inv : σ → Prop} (hk : ∀ s a next, inv s → cond s a → m.step s a = some next → inv next) :
    ∀ {s t : σ}, inv s → m.Meets cond s trace → m.run s trace = some t → inv t := by
  induction trace with
  | nil =>
    intro s t hp _ ran
    cases ran
    exact hp
  | cons a _ ih =>
    intro s t hp meets ran
    obtain ⟨next, hs, ran⟩ := m.run_cons_iff.mp ran
    exact ih (hk s a next hp meets.1 hs) (meets.2 next hs) ran

theorem meets_true : ∀ s : σ, m.Meets (fun _ _ => True) s trace := by
  induction trace with
  | nil => intro s; trivial
  | cons _ _ ih => intro s; exact ⟨trivial, fun next _ => ih next⟩

theorem Meets.mono (hi : ∀ s a, p s a → q s a) : ∀ {s : σ}, m.Meets p s trace → m.Meets q s trace := by
  induction trace with
  | nil => intro s _; trivial
  | cons a _ ih =>
    intro s meets
    exact ⟨hi s a meets.1, fun next hs => ih (meets.2 next hs)⟩

theorem Meets.and : ∀ {s : σ}, m.Meets p s trace → m.Meets q s trace → m.Meets (fun s a => p s a ∧ q s a) s trace := by
  induction trace with
  | nil => intro s _ _; trivial
  | cons _ _ ih =>
    intro s hp hq
    exact ⟨⟨hp.1, hq.1⟩, fun next hs => ih (hp.2 next hs) (hq.2 next hs)⟩

variable (inv : σ → Prop)

theorem Reachable.invariant (hi : ∀ s, m.init s → inv s)
    (hk : ∀ s a next, inv s → m.step s a = some next → inv next) (hr : m.Reachable s) : inv s := by
  obtain ⟨start, trace, hb, ran⟩ := hr
  have free : m.Meets (fun _ _ => True) start trace := meets_true start
  exact run_keeps (fun s a next hp _ hs => hk s a next hp hs) (hi start hb) free ran

theorem always_of_keeps {p : σ → Prop} (hk : ∀ s a next, inv s → cond s a → m.step s a = some next → inv next)
    (hg : ∀ s, inv s → p s) : ∀ {s : σ}, inv s → m.Meets cond s trace → m.Always p s trace := by
  induction trace with
  | nil => intro s hp _; exact hg s hp
  | cons a _ ih =>
    intro s hp meets
    exact ⟨hg s hp, fun next hs =>
      ih (hk s a next hp meets.1 hs) (meets.2 next hs)⟩

theorem meets_of_keeps (hk : ∀ s a next, inv s → cond s a → m.step s a = some next → inv next)
    (hg : ∀ s a, inv s → cond s a → q s a) : ∀ {s : σ}, inv s → m.Meets cond s trace → m.Meets q s trace := by
  induction trace with
  | nil => intro s _ _; trivial
  | cons a _ ih =>
    intro s hp meets
    exact ⟨hg s a hp meets.1, fun next hs =>
      ih (hk s a next hp meets.1 hs) (meets.2 next hs)⟩

theorem Meets.only {p : α → Prop} : ∀ {s : σ},
    m.Meets cond s trace → (∀ a ∈ trace, p a) → m.Meets (fun s a => p a ∧ cond s a) s trace := by
  induction trace with
  | nil => intro s _ _; trivial
  | cons a _ ih =>
    intro s meets all
    refine ⟨⟨all a (.head _), meets.1⟩, fun next hs => ?_⟩
    exact ih (meets.2 next hs) fun b mem => all b (.tail a mem)

theorem Meets.first {first rest : List α} : ∀ {s : σ}, m.Meets cond s (first ++ rest) → m.Meets cond s first := by
  induction first with
  | nil => intro s _; trivial
  | cons _ _ ih =>
    intro s meets
    exact ⟨meets.1, fun next hs => ih (meets.2 next hs)⟩

theorem Meets.rest {first rest : List α} {t : σ} : ∀ {s : σ},
    m.Meets cond s (first ++ rest) → m.run s first = some t → m.Meets cond t rest := by
  induction first with
  | nil =>
    intro s meets ran
    cases ran
    exact meets
  | cons _ _ ih =>
    intro s meets ran
    obtain ⟨next, hs, ran⟩ := m.run_cons_iff.mp ran
    exact ih (meets.2 next hs) ran

theorem Always.here {p : σ → Prop} (ha : m.Always p s trace) : p s := by
  cases trace with
  | nil => exact ha
  | cons => exact ha.1

theorem meets_of_always {p : σ → Prop} (hk : ∀ s a next, inv s → m.step s a = some next → inv next)
    (hb : ∀ s a, inv s → p s → ¬ cond s a → ∃ next, m.step s a = some next ∧ ¬ p next) :
    ∀ {s : σ}, inv s → m.Always p s trace → m.Meets cond s trace := by
  induction trace with
  | nil => intro s _ _; trivial
  | cons a _ ih =>
    intro s hp always
    constructor
    · by_contra broken
      obtain ⟨next, hs, outside⟩ := hb s a hp always.1 broken
      exact outside (always.2 next hs).here
    · intro next hs
      exact ih (hk s a next hp hs) (always.2 next hs)

theorem always_iff_meets (inv more : σ → Prop) {p : σ → Prop}
    (hk : ∀ s a next, inv s → m.step s a = some next → inv next)
    (hke : ∀ s a next, inv s → more s → cond s a → m.step s a = some next → more next)
    (hg : ∀ s, inv s → more s → p s)
    (hb : ∀ s a, inv s → p s → ¬ cond s a → ∃ next, m.step s a = some next ∧ ¬ p next) (hp : inv s)
    (holdsMore : more s) : m.Always p s trace ↔ m.Meets cond s trace := by
  constructor
  · intro always
    exact meets_of_always inv hk hb hp always
  intro meets
  apply always_of_keeps (fun s => inv s ∧ more s) ?_ ?_ ⟨hp, holdsMore⟩ meets
  · intro s a next both met hs
    exact ⟨hk s a next both.1 hs, hke s a next both.1 both.2 met hs⟩
  · intro s both
    exact hg s both.1 both.2

theorem meets_congr (hk : ∀ s a next, inv s → m.step s a = some next → inv next)
    (eq : ∀ s a, inv s → (p s a ↔ q s a)) : ∀ {s : σ}, inv s → (m.Meets p s trace ↔ m.Meets q s trace) := by
  induction trace with
  | nil => intro s _; exact Iff.rfl
  | cons a _ ih =>
    intro s hp
    exact and_congr (eq s a hp) (forall₂_congr fun next hs => ih (hk s a next hp hs))

end Machine

variable {ι : Type u} {β : Type v} {f : ι → Option β}

theorem update_cases [DecidableEq ι] (h : update f i new j = some found) :
    (j = i ∧ new = some found) ∨ (j ≠ i ∧ f j = some found) := by
  by_cases eq : j = i
  · subst eq
    rw [update_self] at h
    exact .inl ⟨rfl, h⟩
  · rw [update_of_ne eq] at h
    exact .inr ⟨eq, h⟩

theorem of_update_none [DecidableEq ι] (h : update f i none j = some found) : f j = some found := by
  rcases update_cases h with ⟨-, new⟩ | ⟨-, old⟩
  · cases new
  · exact old

theorem forall_update [DecidableEq ι] {holds : ι → β → Prop} (hb : ∀ i found, f i = some found → holds i found)
    (entry : holds i new) (j : ι) (found : β) (h : update f i (some new) j = some found) :
    holds j found := by
  cases update_cases h with
  | inl here =>
    obtain ⟨rfl, eq⟩ := here
    cases eq
    exact entry
  | inr old => exact hb j found old.2

end CorePlatform.Theory
