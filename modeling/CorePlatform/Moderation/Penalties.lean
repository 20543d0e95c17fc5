import Mathlib.Data.List.Sort
import CorePlatform.Moderation.Aggregates

/-! # Graduated enforcement

A policy recommends the action of the last tier reached in the order of the thresholds. That is
the harshest one only where the ladder it was made from gets harsher as it climbs.
-/

namespace CorePlatform.Moderation

open List

def ActionType.severityRank : ActionType → Nat
  | noAction => 0
  | warn => 1
  | visibilityLimit => 2
  | ageGate => 3
  | removeContent => 4
  | restrictActor => 5
  | suspend => 6
  | ban => 7

abbrev Tier := Nat × ActionType

def byThreshold (a b : Tier) : Prop := a.1 ≤ b.1

instance : DecidableRel byThreshold := fun a b => Nat.decLe a.1 b.1

instance : Std.Total byThreshold := ⟨fun a b => Nat.le_total a.1 b.1⟩

instance : IsTrans Tier byThreshold := ⟨fun _ _ _ => Nat.le_trans⟩

namespace PenaltyPolicy

/-- The ladder is put into ascending order, tiers of one threshold staying as they are. -/
def new (decayWindow : Int) (defaultWeight : Nat) (weights : List (PolicyCategory × Nat)) (escalation : List Tier) :
    Except ModerationError PenaltyPolicy :=
  if decayWindow ≤ 0 then
    .error (.domainViolation "penalty_policy.decay_window" "decay window must be positive")
  else if escalation.isEmpty then
    .error (.domainViolation "penalty_policy.escalation" "escalation ladder must have at least one tier")
  else .ok { decayWindow, defaultWeight, weights, escalation := escalation.insertionSort byThreshold }

variable {policy : PenaltyPolicy} {ladder : List Tier} {points : Nat}

theorem new_escalation (ha : new window weight table ladder = .ok policy) :
    policy.escalation = ladder.insertionSort byThreshold := by
  unfold new at ha
  split_ifs at ha
  cases ha
  rfl

def reached (policy : PenaltyPolicy) (points : Nat) : List Tier :=
  policy.escalation.filter fun tier => decide (tier.1 ≤ points)

theorem mem_reached : tier ∈ reached policy points ↔ tier ∈ policy.escalation ∧ tier.1 ≤ points := by
  simp [reached]

/-- No tier reached is harsher than the recommended action, which is one of theirs. -/
structure Harshest (policy : PenaltyPolicy) (points : Nat) : Prop where
  above : ∀ tier ∈ reached policy points, tier.2.severityRank ≤ (policy.recommendedAction points).severityRank
  among : reached policy points = [] ∧ policy.recommendedAction points = .noAction ∨
    ∃ tier ∈ reached policy points, policy.recommendedAction points = tier.2

structure Graduated (policy : PenaltyPolicy) : Prop where
  monotone : ∀ p q, p ≤ q → (policy.recommendedAction p).severityRank ≤ (policy.recommendedAction q).severityRank
  harshest : ∀ points, policy.Harshest points
  strikes : ∀ (ledger : PenaltyLedger) (category : PolicyCategory) (recordedAt now : Int),
    (ledger.recommendedAction now policy).severityRank ≤
      ((ledger.recordStrike category recordedAt policy).recommendedAction now policy).severityRank

/-- The last tier given for a threshold is at least as harsh as all that are reached with it. -/
def Climbs (ladder : List Tier) : Prop :=
  ∀ top, (ladder.filter fun tier => decide (tier.1 = top.1)).getLast? = some top →
    ∀ tier ∈ ladder, tier.1 ≤ top.1 → tier.2.severityRank ≤ top.2.severityRank

theorem level_insertionSort (ladder : List Tier) :
    (ladder.insertionSort byThreshold).filter (fun tier => decide (tier.1 = threshold)) =
      ladder.filter fun tier => decide (tier.1 = threshold) := by
  symm
  -- Within one threshold the tiers are in order as they stand, so the sort keeps them.
  have level : (ladder.filter fun tier => decide (tier.1 = threshold)).Pairwise byThreshold := by
    refine pairwise_filter.mpr (pairwise_of_forall fun a b ha hb => ?_)
    exact ((of_decide_eq_true ha).trans (of_decide_eq_true hb).symm).le
  have kept := (sublist_insertionSort level filter_sublist).filter fun tier => decide (tier.1 = threshold)
  rw [filter_filter] at kept
  simp only [Bool.and_self] at kept
  exact kept.eq_of_length (((perm_insertionSort byThreshold ladder).filter _).length_eq).symm

theorem reached_last (hs : policy.escalation = ladder.insertionSort byThreshold)
    (last : (reached policy points).getLast? = some top) :
    (ladder.filter fun tier => decide (tier.1 = top.1)).getLast? = some top ∧
      ∀ tier ∈ reached policy points, tier.1 ≤ top.1 := by
  have ordered : (reached policy points).Pairwise byThreshold := by
    rw [reached, hs]
    exact (pairwise_insertionSort byThreshold ladder).filter _
  have met := (mem_reached.mp (mem_of_getLast? last)).2
  have level : (reached policy points).filter (fun tier => decide (tier.1 = top.1)) =
      ladder.filter fun tier => decide (tier.1 = top.1) := by
    rw [← level_insertionSort ladder, ← hs, reached, filter_filter]
    apply filter_congr
    intro tier _
    by_cases eq : tier.1 = top.1 <;> simp [eq, met]
  obtain ⟨before, split⟩ := getLast?_eq_some_iff.mp last
  rw [split, pairwise_append] at ordered
  constructor
  · rw [← level, split]
    simp
  intro tier mem
  rw [split] at mem
  rcases mem_append.mp mem with earlier | eq
  · exact ordered.2.2 tier earlier top (by simp)
  · rw [mem_singleton.mp eq]

theorem recommendedAction_eq (last : (reached policy points).getLast? = some top) :
    policy.recommendedAction points = top.2 := by
  unfold reached at last
  simp [recommendedAction, last]

theorem recommendedAction_none (low : reached policy points = []) : policy.recommendedAction points = .noAction := by
  unfold reached at low
  simp [recommendedAction, low]

theorem harshest_of_climbs (hs : policy.escalation = ladder.insertionSort byThreshold)
    (hc : Climbs ladder) (points : Nat) : policy.Harshest points := by
  cases last : (reached policy points).getLast? with
  | none =>
    have low := getLast?_eq_none_iff.mp last
    exact ⟨by simp [low], .inl ⟨low, recommendedAction_none low⟩⟩
  | some top =>
    have action := recommendedAction_eq last
    obtain ⟨level, lower⟩ := reached_last hs last
    refine ⟨fun tier met => ?_, .inr ⟨top, mem_of_getLast? last, action⟩⟩
    rw [action]
    have given := (mem_reached.mp met).1
    rw [hs, mem_insertionSort] at given
    exact hc top level tier given (lower tier met)

theorem recommendedAction_mono (hh : ∀ points, Harshest policy points) (order : p ≤ q) :
    (policy.recommendedAction p).severityRank ≤ (policy.recommendedAction q).severityRank := by
  rcases (hh p).among with ⟨-, action⟩ | ⟨tier, met, action⟩
  · rw [action]
    exact Nat.zero_le _
  · rw [action]
    obtain ⟨given, low⟩ := mem_reached.mp met
    exact (hh q).above tier (mem_reached.mpr ⟨given, low.trans order⟩)

theorem activePoints_recordStrike (ledger : PenaltyLedger) :
    ledger.activePoints now ≤ (ledger.recordStrike category recordedAt policy).activePoints now := by
  simp [PenaltyLedger.activePoints, PenaltyLedger.recordStrike]

/-- An accepted policy's recommendation never gets milder with points or strikes, and is the
harshest reached, if and only if its ladder climbs. -/
theorem graduated_iff_climbs (accepted : new window weight table ladder = .ok policy) :
    policy.Graduated ↔ Climbs ladder := by
  have sorted := new_escalation accepted
  constructor
  · intro graduated top level tier given low
    have met (tier : Tier) (given : tier ∈ ladder) (low : tier.1 ≤ top.1) : tier ∈ reached policy top.1 :=
      mem_reached.mpr ⟨by rwa [sorted, List.mem_insertionSort], low⟩
    have self := met top (List.mem_of_mem_filter (List.mem_of_getLast? level)) le_rfl
    cases last : (reached policy top.1).getLast? with
    | none => simp [List.getLast?_eq_none_iff.mp last] at self
    | some highest =>
      -- At its own threshold the policy recommends the top itself.
      obtain ⟨level', above⟩ := reached_last sorted last
      have same : highest.1 = top.1 :=
        (mem_reached.mp (List.mem_of_getLast? last)).2.antisymm (above top self)
      rw [same, level, Option.some.injEq] at level'
      rw [level', ← recommendedAction_eq last]
      exact (graduated.harshest top.1).above tier (met tier given low)
  · intro climbs
    have harshest := harshest_of_climbs sorted climbs
    refine ⟨fun p q => recommendedAction_mono harshest, harshest, ?_⟩
    intro ledger category recordedAt now
    exact recommendedAction_mono harshest (activePoints_recordStrike ..)

theorem standard_graduated : standard.Graduated := by
  have accepted : new standard.decayWindow standard.defaultWeight standard.weights standard.escalation =
      .ok standard := by decide
  apply (graduated_iff_climbs accepted).mpr
  intro top level tier given low
  have self := List.mem_of_mem_filter (List.mem_of_getLast? level)
  simp only [standard, List.mem_cons, List.not_mem_nil, or_false] at self given
  rcases self with rfl | rfl | rfl | rfl <;> rcases given with rfl | rfl | rfl | rfl <;>
    simp [ActionType.severityRank] at low ⊢

/-- A ladder is accepted on which a third point turns a ban into a warning. -/
theorem ban_turns_to_warning : ∃ policy, new 1 1 [] [(1, .ban), (3, .warn)] = .ok policy ∧
    policy.recommendedAction 1 = .ban ∧ policy.recommendedAction 3 = .warn :=
  ⟨_, rfl, by decide, by decide⟩

end PenaltyPolicy
end CorePlatform.Moderation
