import CorePlatform.Theory.Machine
import CorePlatform.Counter.Stores

/-! # What windowing counts

Observations are folded in any order, closed windows are drained at any watermarks, and every batch
is flushed with all stores at work. A window that is opened again after its flush has the key of the
flushed one, and the ledger takes it for a redelivery: its amounts are lost. Everything else is
counted once. -/

namespace CorePlatform.Counter.Windowing

open Theory Server
open Audit (DateTime)

structure System where
  aggregator : WindowAggregator
  stores : Stores

inductive Step where
  | fold (obs : Observation)
  | drainClosed (watermark : DateTime)
  | drainAll

/-- A drained batch goes to `flush`; no store call fails. -/
def flushed (size : WindowSize) (stores : Stores) (drained : WindowAggregator × List WindowDelta) : Option System :=
  match (server size).execute (flush drained.2) stores Server.allServed with
  | (stores, .ok _) => some ⟨drained.1, stores⟩
  | (_, .error _) => none

def step (size : WindowSize) (s : System) : Step → Option System
  | .fold obs => some { s with aggregator := (s.aggregator.fold obs).1 }
  | .drainClosed watermark => flushed size s.stores (s.aggregator.drainClosed watermark)
  | .drainAll => flushed size s.stores s.aggregator.drainAll

def start (size : WindowSize) : System := ⟨.new size, .empty⟩

def machine (size : WindowSize) : Machine System Step := ⟨(· = start size), step size⟩

def System.total (s : System) (pair : Pair) : Int := (s.stores.totals pair).getD 0

@[simp] theorem serve_flushWindow : (server size).serve s (.flushWindow delta) = s.flushWindow delta := rfl

@[simp] theorem serve_append : (server size).serve s (.append delta) = (s.append size delta, .ok ()) := rfl

/-- What the hot tier makes of a delta: its counters and its estimators. -/
def hot (s : Stores) (delta : WindowDelta) : (Pair → Option Int) × (Pair → List MemberId) :=
  match delta.key.metric.aggregation with
  | .sum =>
    (Function.update s.counters delta.key.pair (some ((s.counters delta.key.pair).getD 0 + delta.sum)), s.estimators)
  | .cardinality =>
    (s.counters, Function.update s.estimators delta.key.pair (s.estimators delta.key.pair ++ delta.uniqueMembers))

theorem applyDelta_spec (ran : (server size).execute (applyDelta delta) s allServed = (s', .ok r)) :
    s'.windows = s.windows ∧ s'.totals = s.totals ∧ (s'.counters, s'.estimators) = hot s delta := by
  unfold applyDelta at ran
  unfold hot
  cases kind : delta.key.metric.aggregation with
  | sum =>
    simp only [kind, execute_bind_served, execute_perform, allServed, Server.perform, server, Stores.hincrby] at ran
    by_cases fits : fitsI64 ((s.counters delta.key.pair).getD 0 + delta.sum) = true
    · simp only [fits, if_true, Prod.mk.injEq] at ran
      obtain ⟨rfl, _⟩ := ran
      exact ⟨rfl, rfl, rfl⟩
    · simp only [fits] at ran
      cases ran
  | cardinality =>
    simp only [kind] at ran
    cases none_ : delta.uniqueMembers.isEmpty with
    | true =>
      simp only [none_, if_true, execute_pure, Prod.mk.injEq] at ran
      obtain ⟨rfl, _⟩ := ran
      simp [List.isEmpty_iff.mp none_]
    | false =>
      simp only [none_, Bool.false_eq_true, if_false, execute_perform, allServed,
        Server.perform, server, Prod.mk.injEq] at ran
      obtain ⟨rfl, _⟩ := ran
      exact ⟨rfl, rfl, rfl⟩

/-- What a flushed delta adds to the total of a pair, when the ledger knows `windows`. -/
def counted (windows : List WindowKey) (pair : Pair) (delta : WindowDelta) : Int :=
  if delta.key.pair = pair ∧ delta.key ∉ windows then delta.scalar else 0

theorem flushFrom_cons
    (ran : (server size).execute (flushFrom report (delta :: rest)) s allServed = (s', .ok r)) :
    (delta.key ∈ s.windows ∧ ∃ report', (server size).execute (flushFrom report' rest) s allServed = (s', .ok r)) ∨
    (delta.key ∉ s.windows ∧ ∃ report' between,
      between.windows = delta.key :: s.windows ∧
      between.totals = Function.update s.totals delta.key.pair (some (s.advanced delta)) ∧
      (between.counters, between.estimators) = hot s delta ∧
      (server size).execute (flushFrom report' rest) between allServed = (s', .ok r)) := by
  rw [flushFrom, execute_bind_served, execute_perform] at ran
  simp only [allServed, Server.perform, serve_flushWindow, Stores.flushWindow] at ran
  by_cases hk : delta.key ∈ s.windows
  · simp only [hk, if_true] at ran
    exact .inl ⟨hk, _, ran⟩
  refine .inr ⟨hk, ?_⟩
  by_cases fits : fitsI64 (s.advanced delta) = true
  · simp only [hk, fits, if_true, if_false] at ran
    rw [execute_bind_served] at ran
    rcases applied : (server size).execute (applyDelta delta) _ allServed with ⟨between, ans⟩
    rw [applied] at ran
    cases ans with
    | error => cases ran
    | ok =>
      obtain ⟨windows, totals, tier⟩ := applyDelta_spec applied
      exact ⟨_, between.append size delta, windows, totals, tier, ran⟩
  · simp only [hk, fits, if_false] at ran
    cases ran

theorem flushFrom_served : ∀ {s s' : Stores} {report r : FlushReport},
    (server size).execute (flushFrom report deltas) s allServed = (s', .ok r) →
      (deltas.map WindowDelta.key).Nodup →
      (∀ key, key ∈ s'.windows ↔ key ∈ s.windows ∨ key ∈ deltas.map WindowDelta.key) ∧
      ∀ pair, (s'.totals pair).getD 0 = (s.totals pair).getD 0 + (deltas.map (counted s.windows pair)).sum := by
  induction deltas with
  | nil =>
    intro s s' report r ran _
    obtain ⟨rfl, _⟩ := Prod.mk.inj ran
    simp
  | cons delta rest ih =>
    intro s s' report r ran distinct
    obtain ⟨fresh, distinct⟩ := List.nodup_cons.mp distinct
    rcases flushFrom_cons ran with ⟨known, report', ran⟩ | ⟨new, report', between, windows, totals, -, ran⟩
    · obtain ⟨keys, sums⟩ := ih ran distinct
      constructor
      · intro key
        rw [keys key, List.map_cons, List.mem_cons]
        constructor
        · exact fun h => h.imp id .inr
        · rintro (h | rfl | h)
          · exact .inl h
          · exact .inl known
          · exact .inr h
      · intro pair
        rw [sums pair]
        simp [counted, known]
    · obtain ⟨keys, sums⟩ := ih ran distinct
      constructor
      · intro key
        rw [keys key, windows, List.map_cons, List.mem_cons, List.mem_cons]
        tauto
      · intro pair
        -- The windows after the first one have other keys, so it does not make them known.
        have others : rest.map (counted between.windows pair) = rest.map (counted s.windows pair) := by
          apply List.map_congr_left
          intro other mem
          have differ : other.key ≠ delta.key := by
            intro eq
            exact fresh (eq ▸ List.mem_map_of_mem mem)
          simp [counted, windows, differ]
        rw [sums pair, others, totals]
        by_cases eq : delta.key.pair = pair
        · subst eq
          simp [counted, new, Stores.advanced]
          omega
        · simp [counted, eq, Function.update_of_ne (Ne.symm eq)]

variable (agg : WindowAggregator) (closed : WindowKey → Bool) (windows : List WindowKey)

theorem removeAndCollect_perm :
    (agg.removeAndCollect closed).2.Perm
      ((agg.buckets.filter fun bucket => closed bucket.1).map WindowAggregator.deltaOf) :=
  List.perm_insertionSort _ _

theorem removeAndCollect_keys :
    ((agg.removeAndCollect closed).2.map WindowDelta.key).Perm ((agg.buckets.map Prod.fst).filter closed) := by
  refine ((removeAndCollect_perm agg closed).map WindowDelta.key).trans ?_
  rw [List.map_map, List.filter_map]
  rfl

theorem removeAndCollect_distinct : ((agg.removeAndCollect closed).2.map WindowDelta.key).Nodup :=
  (removeAndCollect_keys agg closed).nodup_iff.mpr (agg.distinct.filter closed)

def windowOf (size : WindowSize) (obs : Observation) : WindowKey :=
  ⟨obs.entity, obs.metric, .forEvent size obs.occurredAt⟩

/-- The windows that were observed and not drained since, and those that were drained. -/
structure Progress where
  opened : List WindowKey
  drained : List WindowKey

def Progress.drain (p : Progress) (closed : WindowKey → Bool) : Progress :=
  ⟨p.opened.filter fun key => ! closed key, p.opened.filter closed ++ p.drained⟩

def Progress.after (size : WindowSize) (p : Progress) : Step → Progress
  | .fold obs => { p with opened := windowOf size obs :: p.opened }
  | .drainClosed watermark => p.drain fun key => WindowId.isClosedAt key.window size watermark
  | .drainAll => p.drain fun _ => true

def amountFor (pair : Pair) (obs : Observation) : Int :=
  if (obs.entity, obs.metric) = pair then obs.amount else 0

def foldedIn (pair : Pair) : Step → Int
  | .fold obs => amountFor pair obs
  | _ => 0

def folded (pair : Pair) (steps : List Step) : Int := (steps.map (foldedIn pair)).sum

/-- The amount that the step folds for the pair into a window that was drained before. -/
def lateIn (size : WindowSize) (pair : Pair) (p : Progress) : Step → Int
  | .fold obs => if windowOf size obs ∈ p.drained then amountFor pair obs else 0
  | _ => 0

def late (size : WindowSize) (pair : Pair) : Progress → List Step → Int
  | _, [] => 0
  | p, step :: rest => lateIn size pair p step + late size pair (p.after size step) rest

/-- The aggregator and the ledger hold the windows that the steps left open and drained. -/
structure Follows (size : WindowSize) (p : Progress) (s : System) : Prop where
  sized : s.aggregator.size = size
  opened : ∀ key, key ∈ s.aggregator.buckets.map Prod.fst ↔ key ∈ p.opened
  drained : ∀ key, key ∈ s.stores.windows ↔ key ∈ p.drained

/-- What an open window will add to the total of the pair. -/
def pendingFor (windows : List WindowKey) (pair : Pair) (key : WindowKey) (acc : WindowAccumulator) : Int :=
  if key.pair = pair ∧ key ∉ windows then acc.sum else 0

/-- The total of the pair with all that is still to come. -/
def System.worth (s : System) (pair : Pair) : Int :=
  s.total pair + KeyedList.weigh (pendingFor s.stores.windows pair) s.aggregator.buckets

/-- A fold that adds an amount finds room for it in its window. -/
def NoOverflow (s : System) : Step → Prop
  | .fold obs => obs.metric.aggregation = .sum →
      fitsI64 (((KeyedList.find (s.aggregator.keyOf obs) s.aggregator.buckets).getD .default).sum + obs.amount) = true
  | _ => True

variable {size : WindowSize} {s : System} {pair : Pair}

theorem accumulate_keys :
    other ∈ (agg.accumulate key change).buckets.map Prod.fst ↔ other = key ∨ other ∈ agg.buckets.map Prod.fst := by
  simp only [WindowAggregator.accumulate, KeyedList.keys_upsert]
  split
  · rename_i h
    constructor
    · exact .inr
    · rintro (rfl | present)
      · exact h
      · exact present
  · rw [List.mem_append, List.mem_singleton, or_comm]

/-- What the observation does to the window it falls in. -/
def gather (obs : Observation) (acc : WindowAccumulator) : WindowAccumulator :=
  match obs.metric.aggregation, obs.uniqueMember with
  | .sum, _ => { acc with sum := saturatingAdd acc.sum obs.amount }
  | .cardinality, some member => { acc with members := acc.members.insert member () }
  | .cardinality, none => acc

theorem fold_gathers (obs : Observation) : (agg.fold obs).1 = agg.accumulate (agg.keyOf obs) (gather obs) := by
  unfold WindowAggregator.fold gather
  cases obs.metric.aggregation with
  | sum => rfl
  | cardinality => cases obs.uniqueMember <;> rfl

theorem fold_keys (obs : Observation) (key : WindowKey) :
    key ∈ (agg.fold obs).1.buckets.map Prod.fst ↔ key = agg.keyOf obs ∨ key ∈ agg.buckets.map Prod.fst := by
  rw [fold_gathers, accumulate_keys]

theorem fold_size (obs : Observation) : (agg.fold obs).1.size = agg.size := by
  rw [fold_gathers]
  rfl

theorem gather_sum (summed : obs.metric.aggregation = .sum) (fits : fitsI64 (acc.sum + obs.amount) = true) :
    (gather obs acc).sum = acc.sum + obs.amount := by
  simp [gather, summed, saturatingAdd_of_fits fits]

theorem fold_follows (hf : Follows size p s) :
    Follows size (p.after size (.fold obs)) { s with aggregator := (s.aggregator.fold obs).1 } := by
  refine ⟨(fold_size ..).trans hf.sized, fun key => ?_, hf.drained⟩
  have window : s.aggregator.keyOf obs = windowOf size obs := by
    simp [WindowAggregator.keyOf, windowOf, hf.sized]
  rw [fold_keys, window, hf.opened]
  simp [Progress.after]

theorem counted_drained (hs : pair.2.aggregation = .sum) :
    ((agg.removeAndCollect closed).2.map (counted windows pair)).sum =
      KeyedList.weigh (pendingFor windows pair) (agg.buckets.filter fun bucket => closed bucket.1) := by
  rw [((removeAndCollect_perm agg closed).map (counted windows pair)).sum_eq, List.map_map]
  congr 1
  apply List.map_congr_left
  intro bucket _
  by_cases eq : bucket.1.pair = pair
  · have kind : bucket.1.metric.aggregation = .sum := by rw [← hs, ← eq]; rfl
    simp [counted, pendingFor, WindowAggregator.deltaOf, WindowDelta.scalar, kind]
  · simp [counted, pendingFor, WindowAggregator.deltaOf, eq]

theorem flushed_spec {closed : WindowKey → Bool} (hf : Follows size p s)
    (done : flushed size s.stores (s.aggregator.removeAndCollect closed) = some next) :
    Follows size (p.drain closed) next ∧
    ∀ pair : Pair, pair.2.aggregation = .sum → next.worth pair = s.worth pair := by
  unfold flushed at done
  split at done
  · rename_i stores report ran
    cases done
    obtain ⟨windows, totals⟩ := flushFrom_served ran (removeAndCollect_distinct s.aggregator closed)
    have keys := removeAndCollect_keys s.aggregator closed
    have hk : ∀ key, key ∈ stores.windows ↔
        key ∈ s.stores.windows ∨ (key ∈ s.aggregator.buckets.map Prod.fst ∧ closed key = true) := by
      intro key
      rw [windows key, keys.mem_iff, List.mem_filter]
    have left_ : (s.aggregator.buckets.filter fun bucket => ! closed bucket.1).map Prod.fst =
        (s.aggregator.buckets.map Prod.fst).filter fun key => ! closed key := by
      rw [List.filter_map]
      rfl
    refine ⟨⟨hf.sized, ?_, ?_⟩, ?_⟩
    · intro key
      simp only [WindowAggregator.removeAndCollect, Progress.drain]
      rw [left_, List.mem_filter, List.mem_filter, hf.opened]
    · intro key
      simp only [Progress.drain]
      rw [hk key, hf.drained, hf.opened, List.mem_append, List.mem_filter, or_comm]
    intro pair summed
    have still : KeyedList.weigh (pendingFor stores.windows pair)
        (s.aggregator.buckets.filter fun bucket => ! closed bucket.1) =
        KeyedList.weigh (pendingFor s.stores.windows pair)
          (s.aggregator.buckets.filter fun bucket => ! closed bucket.1) := by
      apply KeyedList.weigh_congr
      intro bucket mem
      have open_ : closed bucket.1 = false := by simpa using (List.mem_filter.mp mem).2
      simp [pendingFor, hk, open_]
    have split := KeyedList.weigh_split (pendingFor s.stores.windows pair) (fun bucket => closed bucket.1)
      s.aggregator.buckets
    simp only [System.worth, System.total, WindowAggregator.removeAndCollect] at *
    rw [totals pair, still]
    have brought := counted_drained s.aggregator closed s.stores.windows summed
    simp only [WindowAggregator.removeAndCollect] at brought
    omega
  · cases done

theorem accumulate_weigh
    (adds : key.pair = pair → (change ((KeyedList.find key agg.buckets).getD .default)).sum =
      ((KeyedList.find key agg.buckets).getD .default).sum + amount) :
    KeyedList.weigh (pendingFor windows pair) (agg.accumulate key change).buckets =
      KeyedList.weigh (pendingFor windows pair) agg.buckets +
        if key.pair = pair ∧ key ∉ windows then amount else 0 := by
  simp only [WindowAggregator.accumulate, KeyedList.weigh_upsert]
  congr 1
  by_cases mine : key.pair = pair ∧ key ∉ windows
  · have hg := adds mine.1
    simp only [pendingFor, mine, not_false_eq_true, and_self, if_true]
    cases h : KeyedList.find key agg.buckets with
    | none =>
      simp only [h, Option.getD_none, WindowAccumulator.default] at hg
      simp [WindowAccumulator.default, hg]
    | some =>
      simp only [h, Option.getD_some] at hg
      simp [hg, pendingFor, mine]
  have nothing : ∀ acc, pendingFor windows pair key acc = 0 := by simp [pendingFor, mine]
  rw [nothing, if_neg mine]
  cases KeyedList.find key agg.buckets with
  | none => rfl
  | some => simp [nothing]

theorem fold_weigh (hs : pair.2.aggregation = .sum) (room : (agg.keyOf obs).pair = pair →
      fitsI64 (((KeyedList.find (agg.keyOf obs) agg.buckets).getD .default).sum + obs.amount) = true) :
    KeyedList.weigh (pendingFor windows pair) (agg.fold obs).1.buckets =
      KeyedList.weigh (pendingFor windows pair) agg.buckets +
        if (agg.keyOf obs).pair = pair ∧ agg.keyOf obs ∉ windows then obs.amount else 0 := by
  rw [fold_gathers]
  apply accumulate_weigh
  intro mine
  rw [← mine] at hs
  exact gather_sum hs (room mine)

theorem fold_worth (hf : Follows size p s) (room : NoOverflow s (.fold obs)) (hs : pair.2.aggregation = .sum) :
    System.worth { s with aggregator := (s.aggregator.fold obs).1 } pair =
      s.worth pair + foldedIn pair (.fold obs) - lateIn size pair p (.fold obs) := by
  have window : s.aggregator.keyOf obs = windowOf size obs := by
    simp [WindowAggregator.keyOf, windowOf, hf.sized]
  have eq : (windowOf size obs).pair = (obs.entity, obs.metric) := rfl
  have hg := fold_weigh s.aggregator s.stores.windows hs fun mine => room (by
    rw [window, eq] at mine
    rw [← hs, ← mine])
  have added : (if (s.aggregator.keyOf obs).pair = pair ∧ s.aggregator.keyOf obs ∉ s.stores.windows then obs.amount
      else 0) = foldedIn pair (.fold obs) - lateIn size pair p (.fold obs) := by
    rw [window, eq]
    by_cases mine : (obs.entity, obs.metric) = pair <;>
      by_cases hk : windowOf size obs ∈ p.drained <;>
        simp [foldedIn, lateIn, amountFor, mine, hk, hf.drained]
  simp only [System.worth, System.total] at hg ⊢
  omega

theorem step_spec (hf : Follows size p s) (room : NoOverflow s a) (hs : step size s a = some next) :
    Follows size (p.after size a) next ∧
    ∀ pair : Pair, pair.2.aggregation = .sum →
      next.worth pair = s.worth pair + foldedIn pair a - lateIn size pair p a := by
  cases a with
  | fold obs =>
    cases hs
    exact ⟨fold_follows hf, fun pair summed => fold_worth hf room summed⟩
  | drainClosed =>
    have sized := hf.sized
    obtain ⟨ho, kept⟩ := flushed_spec hf hs
    rw [sized] at ho
    refine ⟨ho, fun pair summed => ?_⟩
    simp [kept pair summed, foldedIn, lateIn]
  | drainAll =>
    obtain ⟨ho, kept⟩ := flushed_spec hf hs
    refine ⟨ho, fun pair summed => ?_⟩
    simp [kept pair summed, foldedIn, lateIn]

theorem run_spec : ∀ {p : Progress} {s s' : System}, Follows size p s →
    (machine size).Meets NoOverflow s steps → (machine size).run s steps = some s' →
      (∃ p', Follows size p' s') ∧
      ∀ pair : Pair, pair.2.aggregation = .sum →
        s'.worth pair = s.worth pair + folded pair steps - late size pair p steps := by
  induction steps with
  | nil =>
    intro p s s' hf _ ran
    cases ran
    exact ⟨⟨p, hf⟩, fun pair _ => by simp [folded, late]⟩
  | cons _ _ ih =>
    intro p s s' hf room ran
    obtain ⟨between, hs, ran⟩ := (machine size).run_cons_iff.mp ran
    obtain ⟨ho, first⟩ := step_spec hf room.1 hs
    obtain ⟨followed, hl⟩ := ih ho (room.2 between hs) ran
    refine ⟨followed, fun pair summed => ?_⟩
    have begun := first pair summed
    have he := hl pair summed
    simp only [folded, late, List.map_cons, List.sum_cons] at he ⊢
    omega

theorem start_follows : Follows size ⟨[], []⟩ (start size) :=
  ⟨rfl, by simp [start, WindowAggregator.new], by simp [start, Stores.empty]⟩

theorem total_after_drainAll (room : (machine size).Meets NoOverflow (start size) steps)
    (ran : (machine size).run (start size) steps = some before) (he : step size before .drainAll = some s)
    (hs : pair.2.aggregation = .sum) : s.total pair = folded pair steps - late size pair ⟨[], []⟩ steps := by
  obtain ⟨⟨_, hf⟩, worth⟩ := run_spec start_follows room ran
  have last := (flushed_spec hf he).2 pair hs
  have empty : s.aggregator.buckets = [] := by
    simp only [step, flushed, WindowAggregator.drainAll] at he
    split at he
    · cases he
      simp [WindowAggregator.removeAndCollect]
    · cases he
  have first : (start size).worth pair = 0 := rfl
  have final : s.worth pair = s.total pair := by simp [System.worth, empty]
  have passed := worth pair hs
  omega

theorem windowing_counts_once_iff {steps : List Step} {before s : System}
    (room : (machine size).Meets NoOverflow (start size) steps)
    (ran : (machine size).run (start size) steps = some before) (ended : step size before .drainAll = some s)
    (pair : Pair) (summed : pair.2.aggregation = .sum) :
    s.total pair = folded pair steps ↔ late size pair ⟨[], []⟩ steps = 0 := by
  rw [total_after_drainAll room ran ended summed]
  omega

instance (s : System) (a : Step) : Decidable (NoOverflow s a) := by
  unfold NoOverflow
  split <;> infer_instance

def watermarks (steps : List Step) : List DateTime :=
  steps.filterMap fun
    | .drainClosed watermark => some watermark
    | _ => none

private def fiveSeconds : WindowSize := ⟨5000, by decide, by decide⟩

private def likes : Pair := (⟨.post, "p1"⟩, .like)

private def second (secs : Int) : DateTime := (DateTime.fromTimestamp secs 0).getD .epoch

private def liked (secs : Int) : Step := .fold ⟨likes.1, likes.2, 1, none, second secs⟩

private def drained (secs : Int) : Step := .drainClosed (second secs)

/-- One like in each of two windows, with a drain in between. -/
private def twoWindows : List Step := [liked 1, drained 10, liked 12]

/-- A like that arrives after its window was flushed. -/
private def lateLike : List Step := [liked 1, drained 10, liked 2]

theorem windowing_counts_once_two_windows : ∃ before s,
    (machine fiveSeconds).run (start fiveSeconds) twoWindows = some before ∧
      step fiveSeconds before .drainAll = some s ∧
      late fiveSeconds likes ⟨[], []⟩ twoWindows = 0 ∧ s.total likes = 2 := by
  obtain ⟨before, ran, s, ended, none_⟩ : ∃ before, (machine fiveSeconds).run (start fiveSeconds) twoWindows =
      some before ∧ ∃ s, step fiveSeconds before .drainAll = some s ∧
        late fiveSeconds likes ⟨[], []⟩ twoWindows = 0 := by decide +kernel
  have room : (machine fiveSeconds).Meets NoOverflow (start fiveSeconds) twoWindows := by decide +kernel
  exact ⟨before, s, ran, ended, none_, (windowing_counts_once_iff room ran ended likes rfl).mpr none_⟩

theorem windowing_loses_late_like : ∃ before s,
    (watermarks lateLike).Pairwise (· ≤ ·) ∧
      (machine fiveSeconds).Meets NoOverflow (start fiveSeconds) lateLike ∧
      (machine fiveSeconds).run (start fiveSeconds) lateLike = some before ∧
      step fiveSeconds before .drainAll = some s ∧ s.total likes = 1 ∧ folded likes lateLike = 2 := by
  simp only [exists_and_left]
  decide +kernel

end CorePlatform.Counter.Windowing
