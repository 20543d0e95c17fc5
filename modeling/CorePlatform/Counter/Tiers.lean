import Mathlib.Data.List.Dedup
import Mathlib.Data.List.Forall2
import CorePlatform.Counter.Windowing

/-! # The hot counters beside the ledger

A read is served from the hot tier, or from the ledger when that fails. A window adds the number of
its members to the ledger's total, and the members themselves to the estimator: one who comes back
in another window is counted again by the first only.

Reconciliation compares the true count with the total. What the hot counter shows matters to it only
when the total is off. -/

namespace CorePlatform.Counter.Tiers

open Theory Function
open Windowing (flushFrom_cons hot)

/-- The hot counter is within the tolerance of the true count. -/
def Near (tolerance : Int) (pair : Pair) (s : Stores) : Prop :=
  ((s.graph pair).getD 0 - (s.counters pair).getD 0).natAbs ≤ tolerance

def reconciled (size : WindowSize) (tolerance : Int) (pair : Pair) (s : Stores) :
    Stores × Except CounterError ReconcileOutcome :=
  (server size).execute (reconcile tolerance pair.1 pair.2) s Server.allServed

def compared : Except CounterError ReconcileOutcome → Bool
  | .ok .inSync | .ok (.withinTolerance _) | .ok (.corrected _ _) => true
  | .ok .notApplicable | .error _ => false

/-- A reconciliation leaves the hot counter near the true count if and only if it was there before,
or the total was too far off as the code measures it. -/
theorem reconciled_near_iff (size : WindowSize) (tolerance : Int) (pair : Pair) (s : Stores)
    (applies : compared (reconciled size tolerance pair s).2 = true) :
    Near tolerance pair (reconciled size tolerance pair s).1 ↔
      Near tolerance pair s ∨
        0 ≤ tolerance ∧ tolerance < absI64 (wrapI64 ((s.graph pair).getD 0 - (s.totals pair).getD 0)) := by
  obtain ⟨entity, metric⟩ := pair
  unfold reconciled reconcile at *
  split at applies
  · cases applies
  rename_i hk
  have served : (server size).serve s (.authoritativeCount entity metric) = (s, .ok
      (if (metric = .follower ∨ metric = .following) ∧ entity.kind = .profile then s.graph (entity, metric)
        else none)) := by
    simp only [server]
    split <;> rfl
  rw [if_neg hk]
  rw [Server.execute_served rfl served] at *
  split at applies
  · cases applies
  rename_i authoritative known
  have hg : s.graph (entity, metric) = some authoritative := by grind
  simp only
  rw [Server.execute_served rfl rfl]
  simp only [Near, hg, Option.getD_some]
  split
  · rename_i level
    have none_ : absI64 0 = 0 := rfl
    simp only [Server.execute_pure, hg, Option.getD_some, level]
    omega
  split
  · simp only [Server.execute_pure, hg, Option.getD_some]
    omega
  · rw [Server.execute_served rfl rfl, Server.execute_served rfl rfl]
    simp only [Server.execute_pure, server, update_self, hg, Option.getD_some]
    omega

private def followers : Pair := (⟨.profile, "ana"⟩, .follower)

/-- Ten follow, and the tiers show what they were given. -/
private def showing (total counter : Int) : Stores :=
  { Stores.empty with totals := fun _ => some total, counters := fun _ => some counter, graph := fun _ => some 10 }

theorem reconciled_near_when_corrected : Near 5 followers (reconciled oneMinute 5 followers (showing 0 3)).1 :=
  (reconciled_near_iff oneMinute 5 followers (showing 0 3) rfl).mpr (.inr (by decide))

/-- The total is in sync, and the hot counter stays seven off. -/
theorem in_sync_beside_drifted_counter :
    (reconciled oneMinute 5 followers (showing 10 3)).2 = .ok .inSync ∧
      ¬ Near 5 followers (reconciled oneMinute 5 followers (showing 10 3)).1 := by
  refine ⟨rfl, ?_⟩
  unfold Near
  decide

structure CounterValue where
  metric : Metric
  value : Int

structure CountSnapshot where
  entity : EntityRef
  values : List CounterValue

def CountSnapshot.get (snapshot : CountSnapshot) (metric : Metric) : Option Int :=
  (snapshot.values.find? (·.metric = metric)).map CounterValue.value

/-- The values that are there, in the order of the metrics. -/
def present (metrics : List Metric) (cell : Metric → Option Int) : List CounterValue :=
  metrics.filterMap fun metric => (cell metric).map (CounterValue.mk metric)

/-- `PFCOUNT`, taken as exact; nothing is shown for an empty estimator. -/
def pfcount (s : Stores) (pair : Pair) : Option Int :=
  let count := (s.estimators pair).dedup.length
  if count > 0 then some count else none

/-- `RedisCounterStore::read`. -/
def read (s : Stores) (entities : List EntityRef) (metrics : List Metric) : List CountSnapshot :=
  let sumMetrics := metrics.filter (·.aggregation = .sum)
  let cardMetrics := metrics.filter (·.aggregation = .cardinality)
  entities.map fun entity =>
    ⟨entity, present sumMetrics (fun metric => s.counters (entity, metric)) ++
      present cardMetrics fun metric => pfcount s (entity, metric)⟩

/-- `BatchGetHandler::fallback`. -/
def fallback (s : Stores) (entities : List EntityRef) (metrics : List Metric) : List CountSnapshot :=
  entities.map fun entity => ⟨entity, present metrics fun metric => s.totals (entity, metric)⟩

/-- The two reads show the same, if what is absent counts as 0. -/
def Agree : List CountSnapshot → List CountSnapshot → Prop :=
  List.Forall₂ fun degraded hot =>
    degraded.entity = hot.entity ∧ ∀ metric, (degraded.get metric).getD 0 = (hot.get metric).getD 0

theorem find_present : ((present metrics cell).find? (·.metric = metric)).map CounterValue.value =
    if metric ∈ metrics then cell metric else none := by
  induction metrics with
  | nil => rfl
  | cons first rest ih =>
    unfold present at ih ⊢
    by_cases eq : first = metric
    · subst eq
      cases hc : cell first <;> simp_all
    · cases hc : cell first <;> simp_all [Ne.symm eq]

theorem pfcount_getD : (pfcount s pair).getD 0 = (s.estimators pair).dedup.length := by
  unfold pfcount
  simp only
  split <;> simp_all

/-- The members that the windows of a pair bring, each window once. -/
def arrivals (pair : Pair) : List WindowKey → List WindowDelta → List MemberId
  | _, [] => []
  | seen, delta :: rest =>
    if delta.key ∈ seen then arrivals pair seen rest
    else (if delta.key.pair = pair then delta.uniqueMembers else []) ++ arrivals pair (delta.key :: seen) rest

def shown (s : Stores) (pair : Pair) : Int :=
  match pair.2.aggregation with
  | .sum => (s.counters pair).getD 0
  | .cardinality => (s.estimators pair).length

theorem level_applied (level : (s.totals pair).getD 0 = shown s pair)
    (totals : s'.totals = update s.totals delta.key.pair (some (s.advanced delta)))
    (tier : (s'.counters, s'.estimators) = hot s delta) :
    (s'.totals pair).getD 0 = shown s' pair ∧ (pair.2.aggregation = .cardinality →
      s'.estimators pair = s.estimators pair ++ if delta.key.pair = pair then delta.uniqueMembers else []) := by
  have metric : delta.key.pair.2 = delta.key.metric := rfl
  cases kind : delta.key.metric.aggregation with
  | sum =>
    simp only [hot, kind, Prod.mk.injEq] at tier
    rw [shown, totals, tier.1, tier.2]
    grind [shown, update_apply, Stores.advanced, WindowDelta.scalar]
  | cardinality =>
    simp only [hot, kind, Prod.mk.injEq] at tier
    rw [shown, totals, tier.1, tier.2]
    grind [shown, update_apply, Stores.advanced, WindowDelta.scalar]

theorem level_flushed (ran : (server size).execute (flushFrom report deltas) s Server.allServed = (s', .ok r))
    (level : (s.totals pair).getD 0 = shown s pair) :
    (s'.totals pair).getD 0 = shown s' pair ∧ (pair.2.aggregation = .cardinality →
      s'.estimators pair = s.estimators pair ++ arrivals pair s.windows deltas) := by
  induction deltas generalizing s report with
  | nil =>
    cases ran
    simpa [arrivals] using level
  | cons delta rest ih =>
    rcases flushFrom_cons ran with ⟨known, _, ran⟩ | ⟨new, _, between, windows, totals, tier, ran⟩
    · simpa [arrivals, known] using ih ran level
    · obtain ⟨middle, first⟩ := level_applied level totals tier
      obtain ⟨last, later⟩ := ih ran middle
      refine ⟨last, fun hp => ?_⟩
      rw [later hp, first hp, windows, arrivals, if_neg new, List.append_assoc]

/-- The stores after the deltas, from nothing. -/
def afterFlush (size : WindowSize) (deltas : List WindowDelta) : Stores × Except CounterError FlushReport :=
  (server size).execute (flush deltas) .empty Server.allServed

/-- After any deltas were flushed, a degraded read shows what the hot tier shows if and only if no
member is in two windows of a pair asked for. -/
theorem degraded_reads_agree_iff (size : WindowSize) (deltas : List WindowDelta) (entities : List EntityRef)
    (metrics : List Metric) (flushed : (afterFlush size deltas).2.isOk = true) :
    Agree (fallback (afterFlush size deltas).1 entities metrics) (read (afterFlush size deltas).1 entities metrics) ↔
      ∀ entity ∈ entities, ∀ metric ∈ metrics, metric.aggregation = .cardinality →
        (arrivals (entity, metric) [] deltas).Nodup := by
  rcases ran : afterFlush size deltas with ⟨s, _ | report⟩
  · rw [ran] at flushed
    cases flushed
  unfold Agree fallback read
  rw [List.forall₂_map_left_iff, List.forall₂_map_right_iff, List.forall₂_same]
  refine forall₂_congr fun entity _ => ?_
  simp only [CountSnapshot.get, List.find?_append, Option.map_or, find_present, List.mem_filter, decide_eq_true_eq,
    true_and]
  refine forall_congr' fun metric => ?_
  by_cases asked : metric ∈ metrics
  · have empty : (Stores.empty.totals (entity, metric)).getD 0 = shown .empty (entity, metric) := by cases metric <;> rfl
    obtain ⟨level, members⟩ := level_flushed ran empty
    cases kind : metric.aggregation with
    | sum => simp_all [shown]
    | cardinality =>
      simp only [asked, if_true, and_true, reduceCtorEq, and_false, if_false, Option.none_or, pfcount_getD,
        level, shown, kind, forall_const, Int.natCast_inj]
      rw [members kind, eq_comm, (List.dedup_sublist _).length_eq, List.dedup_eq_self]
      rfl
  · simp [asked]

private def post : EntityRef := ⟨.post, "p1"⟩

private def viewed (first second : MemberId) : Stores × Except CounterError FlushReport :=
  afterFlush oneMinute [⟨⟨post, .uniqueViewer, 0⟩, 0, [first]⟩, ⟨⟨post, .uniqueViewer, 1⟩, 0, [second]⟩]

theorem degraded_reads_agree_on_two_viewers :
    Agree (fallback (viewed "ana" "bo").1 [post] [.uniqueViewer]) (read (viewed "ana" "bo").1 [post] [.uniqueViewer]) :=
  (degraded_reads_agree_iff oneMinute _ [post] [.uniqueViewer] (by decide +kernel)).mpr (by decide +kernel)

/-- One viewer comes back in the next window: the ledger has two views, the hot tier one. -/
theorem returning_viewer_counted_twice :
    (viewed "ana" "ana").2.isOk = true ∧
      (fallback (viewed "ana" "ana").1 [post] [.uniqueViewer]).map (·.get .uniqueViewer) = [some 2] ∧
      (read (viewed "ana" "ana").1 [post] [.uniqueViewer]).map (·.get .uniqueViewer) = [some 1] := by
  decide +kernel

end CorePlatform.Counter.Tiers
