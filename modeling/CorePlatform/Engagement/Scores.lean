import Mathlib.Algebra.BigOperators.Group.Finset.Piecewise
import Mathlib.Data.Fintype.Basic
import Mathlib.Data.Fintype.OfMap
import CorePlatform.Engagement.Handlers

/-! # Scores and the reactions they are made of

A script takes the stored weight out of a score and puts the new one in. What it stores is the text
that Lua makes of the number, and what it adds is the number itself. The scores are the sums of the
stored weights for exactly as long as the two say the same. -/

namespace CorePlatform.Engagement

open Theory Function Option

local instance fintypeProfileId : Fintype ProfileId :=
  .ofEquiv (Fin (2 ^ 128)) ⟨BitVec.ofFin, BitVec.toFin, fun _ => rfl, fun _ => rfl⟩

inductive Swap where
  | upsert (pair : Pair) (newKind : ReactionKind) (newWeight : Int)
  | remove (pair : Pair)

namespace Redis

variable (formats : Formats) (r : Redis)

/-- The old weight is taken out of its score, and the hash is written. -/
def swapped (pair : Pair) (entry : Option (String × String)) : Redis :=
  { r.forget pair (r.swappedOut formats pair) with reactions := update r.reactions pair entry }

/-- A script that one of its calls refuses stops there, and what it did before stays. -/
def swap : Swap → Redis
  | .upsert pair newKind newWeight =>
    let weight := formats.tonumber (toString newWeight)
    if (r.swappedOut formats pair).all fun old => formats.takes old.2 then
      if formats.takes weight then (r.upsertScript formats pair newKind.asRedisKey (toString newWeight)).1
      else r.swapped formats pair (some (newKind.asRedisKey, formats.tostring weight))
    else r
  | .remove pair =>
    if (r.swappedOut formats pair).all fun old => formats.takes old.2 then (r.removeScript formats pair).1 else r

/-- What a reaction's hash counts for in the score of a kind. -/
def weightIn (kind : String) : Option (String × String) → Int
  | some entry => if entry.1 = kind then formats.tonumber entry.2 else 0
  | none => 0

def liveSum (postId : PostId) (kind : String) : Int :=
  ∑ profileId : ProfileId, weightIn formats kind (r.reactions (postId, profileId))

/-- Every score is the sum of the weights of the profiles whose reaction has its kind. -/
def Summed : Prop := ∀ postId kind, (r.scores (postId, kind)).getD 0 = r.liveSum formats postId kind

def drift (postId : PostId) (kind : String) : Int := (r.scores (postId, kind)).getD 0 - r.liveSum formats postId kind

/-- Every stored weight is a number that `HINCRBY` takes. -/
def Taken : Prop := ∀ pair, (r.swappedOut formats pair).all (fun old => formats.takes old.2) = true

variable {formats r}

theorem upsertScript_swapped : (r.upsertScript formats pair newKind newWeight).1 =
    (r.swapped formats pair (some (newKind, formats.tostring (formats.tonumber newWeight)))).hincrby pair.1 newKind
      (formats.tonumber newWeight) := by
  cases h : r.reactions pair with
  | none | some => simp [upsertScript, swapped, swappedOut, forget, hincrby, h]

theorem removeScript_swapped : (r.removeScript formats pair).1 = r.swapped formats pair none := by
  cases h : r.reactions pair with
  | none =>
    have same : update r.reactions pair none = r.reactions := by rw [← h, update_eq_self]
    simp [removeScript, swapped, swappedOut, forget, h, same]
  | some => simp [removeScript, swapped, swappedOut, forget, hincrby, h]

theorem drift_update : drift formats { r with reactions := update r.reactions pair entry } postId kind =
    r.drift formats postId kind +
      if postId = pair.1 then weightIn formats kind (r.reactions pair) - weightIn formats kind entry else 0 := by
  obtain ⟨at_, own⟩ := pair
  unfold drift liveSum
  by_cases eq : postId = at_
  · subst eq
    have hm : (fun pid => weightIn formats kind (update r.reactions (postId, own) entry (postId, pid))) =
        update (fun pid => weightIn formats kind (r.reactions (postId, pid))) own (weightIn formats kind entry) := by
      funext pid
      by_cases isOwn : pid = own
      · subst isOwn
        simp
      · simp [isOwn]
    rw [hm, Finset.sum_update_of_mem (Finset.mem_univ _),
      Finset.sum_eq_add_sum_sdiff_singleton_of_mem (Finset.mem_univ own)
        fun pid => weightIn formats kind (r.reactions (postId, pid))]
    simp only [if_true]
    omega
  · simp [eq]

theorem drift_hincrby : (r.hincrby at_ field amount).drift formats postId kind =
    r.drift formats postId kind + if postId = at_ ∧ field = kind then amount else 0 := by
  by_cases eq : postId = at_ ∧ field = kind
  · obtain ⟨rfl, rfl⟩ := eq
    simp [drift, hincrby, liveSum]
    omega
  have other : (postId, kind) ≠ (at_, field) := by
    rintro ⟨rfl, rfl⟩
    exact eq ⟨rfl, rfl⟩
  simp [drift, hincrby, liveSum, eq, other]

theorem drift_swapped : (r.swapped formats pair entry).drift formats postId kind =
    r.drift formats postId kind - if postId = pair.1 then weightIn formats kind entry else 0 := by
  have replaced : drift formats { r with reactions := update r.reactions pair entry } postId kind = _ := drift_update
  cases old : r.reactions pair with
  | none =>
    simp only [swapped, forget, swappedOut, old, map_none, replaced, weightIn]
    split <;> omega
  | some found =>
    have out : r.swapped formats pair entry =
        hincrby { r with reactions := update r.reactions pair entry } pair.1 found.1 (-formats.tonumber found.2) := by
      simp [swapped, forget, swappedOut, old, hincrby]
    rw [out, drift_hincrby, replaced, old]
    by_cases here : postId = pair.1
    · by_cases eq : found.1 = kind
      · simp [here, eq, weightIn]
        omega
      · simp [here, eq, weightIn]
        omega
    · simp [here]

end Redis

/-- The number that an upsert adds to the score of its kind. -/
def added (formats : Formats) (weight : Int) : Int := if formats.takes weight then weight else 0

/-- The text that is stored for the weight reads as what is added for it. -/
def Swap.exact (formats : Formats) : Swap → Bool
  | .upsert _ _ newWeight =>
    let weight := formats.tonumber (toString newWeight)
    decide (formats.tonumber (formats.tostring weight) = added formats weight)
  | .remove _ => true

variable {formats : Formats} {r : Redis}

theorem Redis.Taken.swapped (ht : r.Taken formats)
    (fits : entry.all (fun new => formats.takes (formats.tonumber new.2)) = true) :
    (r.swapped formats pair entry).Taken formats := by
  intro place
  by_cases eq : place = pair
  · subst eq
    simpa [Redis.swappedOut, Redis.swapped, all_map] using fits
  · simpa [Redis.swappedOut, Redis.swapped, eq] using ht place

theorem drift_upsert (ht : r.Taken formats) :
    (r.swap formats (.upsert pair newKind newWeight)).drift formats postId kind = r.drift formats postId kind +
      let weight := formats.tonumber (toString newWeight)
      if postId = pair.1 ∧ newKind.asRedisKey = kind then
        added formats weight - formats.tonumber (formats.tostring weight)
      else 0 := by
  simp only [Redis.swap, ht pair, if_true, added, Redis.upsertScript_swapped]
  generalize formats.tonumber (toString newWeight) = weight
  by_cases hit : postId = pair.1 ∧ newKind.asRedisKey = kind
  · obtain ⟨rfl, rfl⟩ := hit
    split
    · simp [Redis.drift_hincrby, Redis.drift_swapped, Redis.weightIn]
      omega
    · simp [Redis.drift_swapped, Redis.weightIn]
      omega
  · have none_ : (if postId = pair.1 then Redis.weightIn formats kind (some (newKind.asRedisKey, formats.tostring weight))
        else 0) = 0 := by
      simp only [Redis.weightIn, ← ite_and, if_neg hit]
    split
    · rw [Redis.drift_hincrby, Redis.drift_swapped, none_, if_neg hit]
      omega
    · rw [Redis.drift_swapped, none_]
      omega

theorem summed_swap_iff (summed : r.Summed formats) (ht : r.Taken formats) (script : Swap) :
    (r.swap formats script).Summed formats ↔ script.exact formats = true := by
  have level : ∀ (r : Redis), r.Summed formats ↔ ∀ postId kind, r.drift formats postId kind = 0 := by
    simp [Redis.Summed, Redis.drift, Int.sub_eq_zero]
  rw [level] at summed ⊢
  cases script with
  | upsert pair newKind newWeight =>
    simp only [drift_upsert ht, summed, Swap.exact, decide_eq_true_eq]
    generalize formats.tonumber (toString newWeight) = weight
    constructor
    · intro all
      have here := all pair.1 newKind.asRedisKey
      simp at here
      omega
    · intro reads postId kind
      simp [reads]
  | remove =>
    simp only [Redis.swap, ht _, if_true, Swap.exact, iff_true, Redis.removeScript_swapped]
    intro postId kind
    simp [Redis.drift_swapped, Redis.weightIn, summed]

theorem taken_swap (ht : r.Taken formats) {script : Swap} (hr : script.exact formats = true) :
    (r.swap formats script).Taken formats := by
  cases script with
  | upsert pair newKind newWeight =>
    simp only [Swap.exact, decide_eq_true_eq] at hr
    have fits : formats.takes (added formats (formats.tonumber (toString newWeight))) = true := by
      unfold added
      split
      · assumption
      · exact formats.takes_small 0 (by decide)
    rw [← hr] at fits
    have swapped : (r.swapped formats pair (some (newKind.asRedisKey, _))).Taken formats := ht.swapped fits
    simp only [Redis.swap, ht pair, if_true, Redis.upsertScript_swapped]
    split
    · exact swapped
    · exact swapped
  | remove =>
    simp only [Redis.swap, ht _, if_true, Redis.removeScript_swapped]
    exact ht.swapped rfl

/-- Scripts are run one after the other on stores that begin with nothing in them. -/
def scripts (formats : Formats) : Machine Redis Swap where
  init r := (∀ pair, r.reactions pair = none) ∧ ∀ key, r.scores key = none
  step r script := some (r.swap formats script)

theorem always_summed_iff (hs : r.Summed formats) (ht : r.Taken formats) :
    (scripts formats).Always (Redis.Summed formats) r trace ↔ ∀ script ∈ trace, script.exact formats = true := by
  induction trace generalizing r with
  | nil => simp [Machine.Always, hs]
  | cons script trace ih =>
    have step := summed_swap_iff hs ht script
    simp only [Machine.Always, scripts, some.injEq, forall_eq', List.forall_mem_cons]
    constructor
    · rintro ⟨-, rest⟩
      have reads := step.mp rest.here
      exact ⟨reads, (ih rest.here (taken_swap ht reads)).mp rest⟩
    · rintro ⟨reads, rest⟩
      exact ⟨hs, (ih (step.mpr reads) (taken_swap ht reads)).mpr rest⟩

theorem kept_of_empty (hb : (scripts formats).init r) : r.Summed formats ∧ r.Taken formats := by
  constructor
  · simp [Redis.Summed, Redis.liveSum, Redis.weightIn, hb.1, hb.2]
  · simp [Redis.Taken, Redis.swappedOut, hb.1]

/-- The scores are the sums of the live reactions all along a run from empty stores if and only if
the text stored for each upserted weight reads as the number added for it. -/
theorem scores_summed_iff (formats : Formats) (r : Redis) (trace : List Swap) (begins : (scripts formats).init r) :
    (scripts formats).Always (Redis.Summed formats) r trace ↔ ∀ script ∈ trace, script.exact formats = true := by
  obtain ⟨summed, taken⟩ := kept_of_empty begins
  exact always_summed_iff summed taken

theorem scores_summed_light : (scripts Sample.plain).Always (Redis.Summed Sample.plain) Sample.empty.redis
    [.upsert (1, 2) .heart 1, .upsert (1, 3) .heart 4, .upsert (1, 2) .fire 2, .remove (1, 3)] :=
  (scores_summed_iff _ _ _ ⟨fun _ => rfl, fun _ => rfl⟩).mpr (by decide)

/-- Lua writes fourteen digits. -/
def rounding : Formats :=
  { Sample.plain with
    tonumber text := if text = "1e+14" then 10 ^ 14 else readNat text
    tostring n := if n = 10 ^ 14 + 1 then "1e+14" else toString n
    tonumber_toString n _ := by
      have digits : toString n ≠ "1e+14" := by
        intro same
        have value := congrArg readNat same
        rw [readNat_toString] at value
        subst value
        revert same
        decide
      rw [if_neg digits, readNat_toString]
    tostring_eq n small := if_neg (by omega) }

/-- The weight `100000000000001` is added in full and stored as `1e+14`. -/
theorem heavy_weight_drifts : rounding.tostring (rounding.tonumber "100000000000001") = "1e+14" ∧
    ¬ (scripts rounding).Always (Redis.Summed rounding) Sample.empty.redis
      [.upsert (1, 2) .heart 100000000000001] := by
  refine ⟨by decide, fun always => ?_⟩
  have begins : (scripts rounding).init Sample.empty.redis := ⟨fun _ => rfl, fun _ => rfl⟩
  obtain ⟨summed, taken⟩ := kept_of_empty begins
  have reads := (always_summed_iff summed taken).mp always _ (.head _)
  revert reads
  decide

end CorePlatform.Engagement
