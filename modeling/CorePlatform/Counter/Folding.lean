import Mathlib.Data.List.Induction
import CorePlatform.Counter.Windowing

/-! # The order of observations, and observations that are rejected

What a window holds depends on its own observations only. While no sum leaves the range of `i64`, it
is their sum and the set of their members, in whatever order they came; a drained batch is sorted by
the distinct keys of its windows.

A cardinality observation without a member is rejected, but only once its window is open. -/

namespace CorePlatform.Counter.Folding

open Theory Windowing List

variable {agg other : WindowAggregator}

def drains : WindowAggregator → List Step → List (List WindowDelta)
  | _, [] => []
  | agg, .fold obs :: rest => drains (agg.fold obs).1 rest
  | agg, .drainClosed watermark :: rest =>
    (agg.drainClosed watermark).2 :: drains (agg.drainClosed watermark).1 rest
  | agg, .drainAll :: rest => agg.drainAll.2 :: drains agg.drainAll.1 rest

/-- Nobody can tell the one aggregator from the other. -/
structure Alike (agg other : WindowAggregator) : Prop where
  windows : ∀ key, key ∈ agg.buckets.map Prod.fst ↔ key ∈ other.buckets.map Prod.fst
  pending : agg.pending = other.pending
  drains : ∀ steps, drains agg steps = drains other steps

theorem fold_rejected (hr : (agg.fold obs).2 = .error e) (ho : agg.keyOf obs ∈ agg.buckets.map Prod.fst) :
    (agg.fold obs).1 = agg := by
  have nothing : ∀ acc, gather obs acc = acc := by
    intro acc
    unfold WindowAggregator.fold at hr
    cases kind : obs.metric.aggregation with
    | sum => simp [kind] at hr
    | cardinality => cases brought : obs.uniqueMember <;> simp [kind, brought, gather] at hr ⊢
  rw [fold_gathers]
  obtain ⟨size, buckets, distinct⟩ := agg
  simp only [WindowAggregator.accumulate, WindowAggregator.mk.injEq, true_and]
  exact KeyedList.upsert_unchanged (fun _ => nothing _) ho

/-- A rejected observation goes unnoticed exactly if its window was open before. -/
theorem rejected_fold_unnoticed_iff (agg : WindowAggregator) (obs : Observation) (e : CounterError)
    (rejected : (agg.fold obs).2 = .error e) :
    Alike (agg.fold obs).1 agg ↔ agg.keyOf obs ∈ agg.buckets.map Prod.fst := by
  constructor
  · intro alike
    exact (alike.windows _).mp ((fold_keys ..).mpr (.inl rfl))
  · intro opened
    rw [fold_rejected rejected opened]
    exact ⟨fun _ => Iff.rfl, rfl, fun _ => rfl⟩

private def viewed (uniqueMember : Option MemberId) : Observation :=
  ⟨⟨.post, "p1"⟩, .uniqueViewer, 0, uniqueMember, .epoch⟩

private def seen : WindowAggregator := ((WindowAggregator.new oneMinute).fold (viewed (some "ana"))).1

theorem rejected_fold_unnoticed_seen : Alike (seen.fold (viewed none)).1 seen :=
  (rejected_fold_unnoticed_iff seen (viewed none) _ rfl).mpr (by decide)

/-- The first observation of a window is rejected, and a delta of nothing is drained. -/
theorem rejected_fold_opens : ∃ e, ((WindowAggregator.new oneMinute).fold (viewed none)).2 = .error e ∧
    (WindowAggregator.new oneMinute).pending = 0 ∧ ((WindowAggregator.new oneMinute).fold (viewed none)).1.pending = 1 ∧
    (WindowAggregator.new oneMinute).drainAll.2 = [] ∧
    ((WindowAggregator.new oneMinute).fold (viewed none)).1.drainAll.2 = [⟨⟨⟨.post, "p1"⟩, .uniqueViewer, 0⟩, 0, []⟩] :=
  ⟨_, rfl, rfl, rfl, rfl, by decide⟩

def foldAll (size : WindowSize) (observations : List Observation) : WindowAggregator :=
  observations.foldl (fun agg obs => (agg.fold obs).1) (.new size)

/-- What the observation adds to the sum of the window. -/
def amountIn (size : WindowSize) (key : WindowKey) (obs : Observation) : Int :=
  if windowOf size obs = key ∧ obs.metric.aggregation = .sum then obs.amount else 0

def sumIn (size : WindowSize) (key : WindowKey) (observations : List Observation) : Int :=
  (observations.map (amountIn size key)).sum

def Brings (size : WindowSize) (key : WindowKey) (member : MemberId) (obs : Observation) : Prop :=
  windowOf size obs = key ∧ obs.metric.aggregation = .cardinality ∧ obs.uniqueMember = some member

/-- In no order of the observations does the sum of a window leave the range on the way. -/
def InRange (size : WindowSize) (observations : List Observation) : Prop :=
  ∀ order part, order.Perm observations → part <+: order → ∀ key, fitsI64 (sumIn size key part) = true

/-- One delta for each window observed, with the sum and the members of its observations. -/
structure Gathered (size : WindowSize) (observations : List Observation) (deltas : List WindowDelta) : Prop where
  once : (deltas.map WindowDelta.key).Nodup
  windows : ∀ key, key ∈ deltas.map WindowDelta.key ↔ ∃ obs ∈ observations, windowOf size obs = key
  sums : ∀ delta ∈ deltas, delta.sum = sumIn size delta.key observations
  members : ∀ delta ∈ deltas, delta.uniqueMembers.Nodup ∧
    ∀ member, member ∈ delta.uniqueMembers ↔ ∃ obs ∈ observations, Brings size delta.key member obs

/-- What the window holds; one that is not open holds nothing. -/
def held (agg : WindowAggregator) (key : WindowKey) : WindowAccumulator :=
  (KeyedList.find key agg.buckets).getD .default

structure Folded (size : WindowSize) (observations : List Observation) (agg : WindowAggregator) : Prop where
  sized : agg.size = size
  windows : ∀ key, key ∈ agg.buckets.map Prod.fst ↔ ∃ obs ∈ observations, windowOf size obs = key
  sums : ∀ key, (held agg key).sum = sumIn size key observations
  members : ∀ key member, member ∈ (held agg key).members.entries.map Prod.fst ↔
    ∃ obs ∈ observations, Brings size key member obs

theorem held_fold :
    held (agg.fold obs).1 key = if windowOf agg.size obs = key then gather obs (held agg key) else held agg key := by
  rw [fold_gathers]
  have window : agg.keyOf obs = windowOf agg.size obs := rfl
  simp only [held, WindowAggregator.accumulate, window]
  split
  · rename_i eq
    rw [eq, KeyedList.find_upsert]
    rfl
  · rename_i ne
    rw [KeyedList.find_upsert_of_ne (Ne.symm ne)]

theorem gather_members :
    member ∈ (gather obs acc).members.entries.map Prod.fst ↔
      member ∈ acc.members.entries.map Prod.fst ∨ Brings size (windowOf size obs) member obs := by
  unfold gather Brings
  cases kind : obs.metric.aggregation with
  | sum => simp
  | cardinality =>
    cases obs.uniqueMember with
    | none => simp
    | some brought =>
      simp only [SortedMap.insert, SortedMap.keys_place, Option.some.injEq, true_and]
      rw [or_comm, eq_comm]

theorem Folded.fold (hf : Folded size observations agg)
    (hr : ∀ key, fitsI64 (sumIn size key (observations ++ [obs])) = true) :
    Folded size (observations ++ [obs]) (agg.fold obs).1 := by
  obtain ⟨rfl, windows, sums, members⟩ := hf
  refine ⟨fold_size .., fun key => ?_, fun key => ?_, fun key mem => ?_⟩
  · rw [fold_keys, windows]
    simp [or_and_right, exists_or, windowOf, WindowAggregator.keyOf, or_comm, eq_comm]
  · have fits := hr key
    have sum : sumIn agg.size key (observations ++ [obs]) = (held agg key).sum + amountIn agg.size key obs := by
      simp [sumIn, sums]
    rw [sum] at fits ⊢
    rw [held_fold]
    unfold amountIn at fits ⊢
    split
    · rename_i here
      cases kind : obs.metric.aggregation with
      | sum =>
        simp only [here, kind, and_self, if_true] at fits ⊢
        exact gather_sum kind fits
      | cardinality => cases brought : obs.uniqueMember <;> simp [gather, kind, brought]
    · rename_i elsewhere
      simp [elsewhere]
  · rw [held_fold]
    simp only [mem_append, or_and_right, exists_or, mem_singleton, exists_eq_left, ← members]
    split
    · rename_i here
      subst here
      exact gather_members
    · rename_i elsewhere
      simp [Brings, elsewhere]

theorem foldAll_folded (hr : ∀ part, part <+: observations → ∀ key, fitsI64 (sumIn size key part) = true) :
    Folded size observations (foldAll size observations) := by
  induction observations using List.reverseRec with
  | nil => exact ⟨rfl, by simp [foldAll, WindowAggregator.new], fun _ => rfl, by
      simp [foldAll, WindowAggregator.new, held, KeyedList.find, WindowAccumulator.default, SortedMap.empty]⟩
  | append_singleton rest obs ih =>
    have folded := ih fun part hb => hr part (hb.trans (List.prefix_append ..))
    simpa [foldAll] using folded.fold (hr _ List.prefix_rfl)

theorem buckets_eq (agg : WindowAggregator) :
    agg.buckets = (agg.buckets.map Prod.fst).map fun key => (key, held agg key) := by
  rw [map_map]
  conv_lhs => rw [← map_id agg.buckets]
  apply map_congr_left
  intro bucket mem
  simp [held, KeyedList.find_of_mem agg.distinct mem]

theorem asStr_injective : Function.Injective Metric.asStr ∧ Function.Injective EntityKind.asStr := by
  constructor
  · intro a b
    cases a <;> cases b <;> decide
  · intro a b
    cases a <;> cases b <;> decide

instance : Std.TransCmp WindowDelta.order :=
  inferInstanceAs (Std.TransCmp (compareLex (compareOn fun d : WindowDelta => d.key.entity.kind.asStr)
    (compareLex (compareOn fun d => d.key.entity.id)
      (compareLex (compareOn fun d => d.key.metric.asStr) (compareOn fun d => d.key.window)))))

theorem key_eq_of_order_eq {a : WindowDelta} (eq : a.order b = .eq) : a.key = b.key := by
  obtain ⟨⟨⟨kind, id⟩, metric, window⟩, _⟩ := a
  obtain ⟨⟨⟨kind', id'⟩, metric', window'⟩, _⟩ := b
  simp only [WindowDelta.order, Ordering.then_eq_eq, compare_eq_iff_eq] at eq
  obtain ⟨kinds, rfl, metrics, rfl⟩ := eq
  rw [asStr_injective.1 metrics, asStr_injective.2 kinds]

theorem drainAll_perm : agg.drainAll.2.Perm (agg.buckets.map WindowAggregator.deltaOf) := by
  simpa [WindowAggregator.drainAll] using removeAndCollect_perm agg fun _ => true

theorem drainAll_sorted : agg.drainAll.2.Pairwise fun a b => (a.order b).isLE = true := by
  have : Std.Total fun a b : WindowDelta => (a.order b).isLE = true := by
    refine ⟨fun a b => ?_⟩
    have swapped : b.order a = (a.order b).swap := Std.OrientedCmp.eq_swap
    rw [swapped]
    cases a.order b <;> simp
  have : IsTrans WindowDelta fun a b => (a.order b).isLE = true := ⟨fun _ _ _ => Std.TransCmp.isLE_trans⟩
  exact pairwise_insertionSort _ _

theorem drainAll_eq (eq : agg.drainAll.2.Perm other.drainAll.2) : agg.drainAll.2 = other.drainAll.2 := by
  refine eq.eq_of_pairwise (fun a b mine theirs below above => ?_) drainAll_sorted drainAll_sorted
  have keys : a.key = b.key := key_eq_of_order_eq (Std.OrientedCmp.isLE_antisymm below above)
  exact inj_on_of_nodup_map (removeAndCollect_distinct ..) mine (eq.mem_iff.mpr theirs) keys

theorem Folded.perm (hr : permuted.Perm observations) (hf : Folded size observations agg)
    (folded' : Folded size permuted other) : other.buckets.Perm agg.buckets := by
  have hp : held other = held agg := by
    funext key
    have sum : (held other key).sum = (held agg key).sum := by
      rw [hf.sums, folded'.sums]
      exact (hr.map _).sum_eq
    have members : (held other key).members = (held agg key).members := by
      apply SortedMap.ext_keys
      intro mem
      rw [hf.members, folded'.members]
      simp only [hr.mem_iff]
    cases here : held other key
    simp_all
  have keys : (other.buckets.map Prod.fst).Perm (agg.buckets.map Prod.fst) := by
    refine (perm_ext_iff_of_nodup other.distinct agg.distinct).mpr fun key => ?_
    rw [hf.windows, folded'.windows]
    simp only [hr.mem_iff]
  rw [buckets_eq agg, buckets_eq other, hp]
  exact keys.map _

theorem Folded.gathered (hf : Folded size observations agg) : Gathered size observations agg.drainAll.2 := by
  have drained : ∀ delta ∈ agg.drainAll.2, ∃ key, delta = WindowAggregator.deltaOf (key, held agg key) := by
    intro delta mem
    have collected := drainAll_perm.mem_iff.mp mem
    rw [buckets_eq, map_map] at collected
    obtain ⟨key, _, rfl⟩ := mem_map.mp collected
    exact ⟨key, rfl⟩
  refine ⟨removeAndCollect_distinct .., fun key => ?_, ?_, ?_⟩
  · rw [(drainAll_perm.map WindowDelta.key).mem_iff, map_map]
    exact hf.windows key
  · intro delta mem
    obtain ⟨key, rfl⟩ := drained delta mem
    exact hf.sums key
  · intro delta mem
    obtain ⟨key, rfl⟩ := drained delta mem
    exact ⟨(pairwise_map.mpr (held agg key).members.ascending).imp ne_of_lt, hf.members key⟩

/-- Any order of the observations is drained as the same batch. -/
theorem folding_in_any_order (size : WindowSize) (observations permuted : List Observation)
    (range : InRange size observations) (reordered : permuted.Perm observations) :
    (foldAll size permuted).drainAll.2 = (foldAll size observations).drainAll.2 ∧
      Gathered size observations (foldAll size observations).drainAll.2 := by
  have folded := foldAll_folded fun part begins => range observations part (.refl _) begins
  have folded' := foldAll_folded fun part begins => range permuted part reordered begins
  refine ⟨drainAll_eq ?_, folded.gathered⟩
  have buckets := (folded.perm reordered folded').map WindowAggregator.deltaOf
  exact (drainAll_perm.trans buckets).trans drainAll_perm.symm

private def bo : List Observation := [viewed (some "bo"), viewed (some "ana")]

theorem folding_in_any_order_bo :
    (foldAll oneMinute bo.reverse).drainAll.2 = (foldAll oneMinute bo).drainAll.2 ∧
      Gathered oneMinute bo (foldAll oneMinute bo).drainAll.2 := by
  refine folding_in_any_order oneMinute bo bo.reverse (fun order part same begins key => ?_) bo.reverse_perm
  have nothing : sumIn oneMinute key part = 0 := by
    have viewers : ∀ obs ∈ bo, obs.metric.aggregation ≠ .sum := by decide
    apply List.sum_eq_zero
    simp only [List.mem_map]
    rintro _ ⟨obs, member, rfl⟩
    exact if_neg fun summed => viewers obs (same.mem_iff.mp (begins.mem member)) summed.2
  rw [nothing]
  decide

end CorePlatform.Counter.Folding
