import CorePlatform.Theory.Interleaving
import CorePlatform.Counter.Windowing

/-! # Reconciling while events are under way

The owning service changes a relation and publishes the change; the consumer folds it, the flush
loop drains and flushes it, and meanwhile reconciliations read the true count and the total and
overwrite the total. A count includes the changes still on their way, and those are added again when
they arrive. What is off is the true count less the total and less all that is still to come: every
other step leaves it as it is. -/

namespace CorePlatform.Counter.Reconcile

open Theory Server Function
open Audit (DateTime)
open Windowing (pendingFor fold_weigh fold_gathers fold_keys fold_size removeAndCollect_perm removeAndCollect_keys
  removeAndCollect_distinct flushFrom_served counted counted_drained)

structure FollowChangeWire where
  followerId : String
  followeeId : String
  occurredAtMs : Int

inductive FollowWire where
  | followed (change : FollowChangeWire)
  | unfollowed (change : FollowChangeWire)

namespace FollowWire

def change : FollowWire → FollowChangeWire
  | followed change | unfollowed change => change

def amount : FollowWire → Int
  | followed _ => 1
  | unfollowed _ => -1

/-- What the change is about: the followee's followers and the follower's followees. -/
def pairs (wire : FollowWire) : List Pair :=
  [(⟨.profile, wire.change.followeeId⟩, .follower), (⟨.profile, wire.change.followerId⟩, .following)]

end FollowWire

/-- A time outside the calendar counts as now. -/
def at_ (now : DateTime) (ms : Int) : DateTime := (DateTime.fromTimestampMillis ms).getD now

def profile (id : String) : Except CounterError EntityRef := do
  return ⟨.profile, ← EntityId.new id⟩

def mapFollow (now : DateTime) (wire : FollowWire) : Except CounterError (List Observation) := do
  let occurred := at_ now wire.change.occurredAtMs
  return [← Observation.sum (← profile wire.change.followeeId) .follower wire.amount occurred,
    ← Observation.sum (← profile wire.change.followerId) .following wire.amount occurred]

structure World where
  transit : List FollowWire
  aggregator : WindowAggregator
  batch : List WindowDelta
  stores : Stores

inductive Event where
  | related (wire : FollowWire)
  | consume (index : Nat) (now : DateTime)
  | drainClosed (watermark : DateTime)
  | drainAll
  | flushNext

/-- The owning service counts the change. -/
def relate (stores : Stores) (wire : FollowWire) : Stores :=
  { stores with
    graph := fun pair =>
      if pair ∈ wire.pairs then some ((stores.graph pair).getD 0 + wire.amount) else stores.graph pair }

def drained (w : World) (taken : WindowAggregator × List WindowDelta) : Option World :=
  -- The loop drains again only after it has dealt with the batch before.
  if w.batch = [] then some { w with aggregator := taken.1, batch := taken.2 } else none

def elapse (size : WindowSize) (w : World) : Event → Option World
  | .related wire =>
    -- Profiles have names.
    if ¬ Audit.isBlank wire.change.followeeId ∧ ¬ Audit.isBlank wire.change.followerId then
      some { w with transit := w.transit ++ [wire], stores := relate w.stores wire }
    else none
  | .consume index now =>
    match w.transit[index]? with
    | none => none
    | some wire =>
      match mapFollow now wire with
      | .ok observations =>
        some { w with
          transit := w.transit.eraseIdx index
          aggregator := observations.foldl (fun agg obs => (agg.fold obs).1) w.aggregator }
      | .error _ => none
  | .drainClosed watermark => drained w (w.aggregator.drainClosed watermark)
  | .drainAll => drained w w.aggregator.drainAll
  | .flushNext =>
    match w.batch with
    | [] => none
    | delta :: rest =>
      match (server size).execute (flush [delta]) w.stores Server.allServed with
      | (stores, .ok _) => some { w with stores, batch := rest }
      -- A flush that fails drops what is left of the batch.
      | (stores, .error _) => some { w with stores, batch := [] }

/-- A call only sees the stores. -/
def shared (size : WindowSize) : Server World Op Op.Reply CounterError where
  serve w op := ({ w with stores := ((server size).serve w.stores op).1 }, ((server size).serve w.stores op).2)
  failure := (server size).failure

/-- Reconciliations of any pairs, any number at a time. -/
def host (size : WindowSize) (tolerance : Int) : Host World Pair Event Op Op.Reply CounterError ReconcileOutcome where
  init w := w.transit = [] ∧ w.aggregator = .new size ∧ w.batch = []
  server := shared size
  accept w pair := some (w, reconcile tolerance pair.1 pair.2)
  elapse := elapse size

abbrev State := Pool World Pair Op Op.Reply CounterError ReconcileOutcome

abbrev Label := Move Pair Event

def World.authoritative (w : World) (pair : Pair) : Int := (w.stores.graph pair).getD 0

def World.total (w : World) (pair : Pair) : Int := (w.stores.totals pair).getD 0

def FollowWire.amountFor (pair : Pair) (wire : FollowWire) : Int := if pair ∈ wire.pairs then wire.amount else 0

def batchedFor (pair : Pair) (delta : WindowDelta) : Int := if delta.key.pair = pair then delta.sum else 0

/-- What is still to be added to the pair's total. -/
def World.pending (w : World) (pair : Pair) : Int :=
  (w.transit.map (FollowWire.amountFor pair)).sum + KeyedList.weigh (pendingFor [] pair) w.aggregator.buckets +
    (w.batch.map (batchedFor pair)).sum

def World.drift (w : World) (pair : Pair) : Int := w.authoritative pair - (w.total pair + w.pending pair)

/-- What the total has to be, with what is still to come. -/
def World.due (w : World) (pair : Pair) : Int := w.authoritative pair - w.pending pair

/-- No change of the pair's count is under way. -/
@[mk_iff] structure World.Settled (w : World) (pair : Pair) : Prop where
  transit : ∀ wire ∈ w.transit, pair ∉ wire.pairs
  aggregator : ∀ bucket ∈ w.aggregator.buckets, bucket.1.pair ≠ pair
  batch : ∀ delta ∈ w.batch, delta.key.pair ≠ pair

/-- A follower or following count of a profile. -/
def Owned (pair : Pair) : Prop := (pair.2 = .follower ∨ pair.2 = .following) ∧ pair.1.kind = .profile

/-- The observation opens no window anew that was drained before, and finds room in its own. -/
def Timely (w : World) (obs : Observation) : Prop :=
  w.aggregator.keyOf obs ∉ w.stores.windows ∧ w.aggregator.keyOf obs ∉ w.batch.map WindowDelta.key ∧
    fitsI64 (((KeyedList.find (w.aggregator.keyOf obs) w.aggregator.buckets).getD .default).sum + obs.amount) = true
  deriving Decidable

/-- The pair's count is about to be read. -/
def counts (pair : Pair) : Calling ReconcileOutcome → Bool
  | .call (.authoritativeCount entity metric) _ => (entity, metric) = pair
  | _ => false

/-- The pair's total is about to be overwritten. -/
def overwrites (pair : Pair) : Calling ReconcileOutcome → Bool
  | .call (.setTotal entity metric _) _ => (entity, metric) = pair
  | _ => false

/-- What was on its way to the pair's total when a call read the count, less what was flushed since. -/
def outstanding (pair : Pair) (pool : State) : Label → (Nat → Int) → Nat → Int
  | .advance id _, owed =>
    if (pool.calls id).any fun call => counts pair call.program then update owed id (pool.world.pending pair)
    else owed
  | .elapse .flushNext, owed => fun id => owed id - (pool.world.batch.head?.map (batchedFor pair)).getD 0
  | _, owed => owed

/-- Reconciliations and what is outstanding for each. -/
def watched (size : WindowSize) (tolerance : Int) (pair : Pair) : Machine (State × (Nat → Int)) Label :=
  (host size tolerance).machine.recorded (outstanding pair)

/-- From the read of the count to the overwrite of the total, what is flushed is what was on its way
at the read; changes reach their windows in time, and flushes go through. -/
def Orderly (size : WindowSize) (pair : Pair) : State × (Nat → Int) → Label → Prop
  | (pool, owed), .advance id service =>
    ∀ call ∈ pool.calls id, overwrites pair call.program = true → service.reaches = true → owed id = 0
  | (pool, _), .elapse (.consume index now) =>
    ∀ wire ∈ pool.world.transit[index]?, ∀ observations ∈ (mapFollow now wire).toOption,
      ∀ obs ∈ observations, (obs.entity, obs.metric) = pair → Timely pool.world obs
  | (pool, _), .elapse .flushNext =>
    ∀ delta ∈ pool.world.batch.head?,
      ((server size).execute (flush [delta]) pool.world.stores Server.allServed).2.isOk = true
  | _, _ => True

theorem World.Settled.pending {w : World} (hs : w.Settled pair) : w.pending pair = 0 := by
  have none_ {α : Type} (f : α → Int) (l : List α) (zero : ∀ a ∈ l, f a = 0) : (l.map f).sum = 0 :=
    List.sum_eq_zero (by simpa using zero)
  have first := none_ (FollowWire.amountFor pair) w.transit fun wire h => by
    simp [FollowWire.amountFor, hs.transit wire h]
  have second := none_ (fun bucket => pendingFor [] pair bucket.1 bucket.2) w.aggregator.buckets fun bucket h => by
    simp [pendingFor, hs.aggregator bucket h]
  have third := none_ (batchedFor pair) w.batch fun delta h => by simp [batchedFor, hs.batch delta h]
  simp [World.pending, KeyedList.weigh, first, second, third]

/-- The windows that are still to be flushed are new to the ledger. -/
structure Fresh (size : WindowSize) (pair : Pair) (w : World) : Prop where
  sized : w.aggregator.size = size
  opened : ∀ key ∈ w.aggregator.buckets.map Prod.fst, key.pair = pair →
    key ∉ w.stores.windows ∧ key ∉ w.batch.map WindowDelta.key
  batched : ∀ key ∈ w.batch.map WindowDelta.key, key.pair = pair → key ∉ w.stores.windows
  distinct : (w.batch.map WindowDelta.key).Nodup

variable {size : WindowSize} {tolerance : Int} {pair : Pair} {w : World} {observations : List Observation}

theorem Owned.summed (ho : Owned pair) : pair.2.aggregation = .sum := by
  rcases ho.1 with eq | eq <;> rw [eq] <;> rfl

theorem mapFollow_ok (hm : mapFollow now wire = .ok observations) :
    ∃ first second, observations = [first, second] ∧
      (first.entity, first.metric) = (⟨.profile, wire.change.followeeId⟩, Metric.follower) ∧
      (second.entity, second.metric) = (⟨.profile, wire.change.followerId⟩, Metric.following) ∧
      first.amount = wire.amount ∧ second.amount = wire.amount := by
  simp only [mapFollow, profile, EntityId.new] at hm
  by_cases followee : Audit.isBlank wire.change.followeeId <;> by_cases follower : Audit.isBlank wire.change.followerId
  all_goals simp only [followee, follower, if_true] at hm
  all_goals cases hm
  exact ⟨_, _, rfl, rfl, rfl, rfl, rfl⟩

theorem related_drift (wire : FollowWire) :
    World.drift { w with transit := w.transit ++ [wire], stores := relate w.stores wire } pair = w.drift pair := by
  by_cases mine : pair ∈ wire.pairs
  all_goals simp [World.drift, World.authoritative, World.total, World.pending, relate, FollowWire.amountFor, mine]
  omega

variable (agg : WindowAggregator) (obs : Observation)

theorem fold_pending (ho : Owned pair)
    (room : (obs.entity, obs.metric) = pair →
      fitsI64 (((KeyedList.find (agg.keyOf obs) agg.buckets).getD .default).sum + obs.amount) = true) :
    KeyedList.weigh (pendingFor [] pair) (agg.fold obs).1.buckets =
      KeyedList.weigh (pendingFor [] pair) agg.buckets + if (obs.entity, obs.metric) = pair then obs.amount else 0 := by
  rw [fold_weigh agg [] ho.summed room]
  simp [WindowAggregator.keyOf, WindowKey.pair]

theorem find_after_fold (ne : (first.entity, first.metric) ≠ (second.entity, second.metric)) :
    (agg.fold first).1.keyOf second = agg.keyOf second ∧
      KeyedList.find (agg.keyOf second) (agg.fold first).1.buckets = KeyedList.find (agg.keyOf second) agg.buckets := by
  rw [fold_gathers]
  refine ⟨rfl, KeyedList.find_upsert_of_ne (fun equal => ne ?_) _⟩
  have pairs := congrArg WindowKey.pair equal
  exact pairs.symm

theorem sum_eraseIdx {α : Type} (f : α → Int) {l : List α} {a : α} (h : l[index]? = some a) :
    (l.map f).sum = f a + ((l.eraseIdx index).map f).sum := by
  obtain ⟨within, rfl⟩ := List.getElem?_eq_some_iff.mp h
  rw [← ((List.getElem_cons_eraseIdx_perm within).map f).sum_eq, List.map_cons, List.sum_cons]

theorem consume_drift {index : Nat} {wire : FollowWire} (ho : Owned pair) (h : w.transit[index]? = some wire)
    (hm : mapFollow now wire = .ok observations)
    (ht : ∀ obs ∈ observations, (obs.entity, obs.metric) = pair → Timely w obs) :
    World.drift { w with
      transit := w.transit.eraseIdx index
      aggregator := observations.foldl (fun agg obs => (agg.fold obs).1) w.aggregator } pair = w.drift pair := by
  obtain ⟨first, second, rfl, ofFollowee, ofFollower, eq, same'⟩ := mapFollow_ok hm
  have ne : (first.entity, first.metric) ≠ (second.entity, second.metric) := by
    rw [ofFollowee, ofFollower]
    intro equal
    cases congrArg Prod.snd equal
  obtain ⟨key, hf⟩ := find_after_fold w.aggregator ne
  have one := fold_pending w.aggregator first ho fun mine => (ht first (by simp) mine).2.2
  have two := fold_pending (w.aggregator.fold first).1 second ho fun mine => by
    rw [key, hf]
    exact (ht second (by simp) mine).2.2
  have both : wire.amountFor pair = (if (first.entity, first.metric) = pair then first.amount else 0) +
      if (second.entity, second.metric) = pair then second.amount else 0 := by
    rw [eq, same']
    simp only [FollowWire.amountFor, FollowWire.pairs, List.mem_cons, List.not_mem_nil, or_false, ← ofFollowee,
      ← ofFollower, @eq_comm _ pair]
    by_cases mine : (first.entity, first.metric) = pair <;> by_cases mine' : (second.entity, second.metric) = pair
    · exact absurd (mine.trans mine'.symm) ne
    all_goals simp [mine, mine']
  have erased := sum_eraseIdx (FollowWire.amountFor pair) h
  simp only [World.drift, World.authoritative, World.total, World.pending, List.foldl_cons, List.foldl_nil]
  omega

theorem Fresh.folded : ∀ {w : World}, Fresh size pair w →
    (∀ obs ∈ observations, (obs.entity, obs.metric) = pair →
      w.aggregator.keyOf obs ∉ w.stores.windows ∧ w.aggregator.keyOf obs ∉ w.batch.map WindowDelta.key) →
    Fresh size pair { w with aggregator := observations.foldl (fun agg obs => (agg.fold obs).1) w.aggregator } := by
  induction observations with
  | nil =>
    intro w hf _
    exact hf
  | cons obs _ ih =>
    intro w hf timely
    obtain ⟨here, hl⟩ := List.forall_mem_cons.mp timely
    have sized := fold_size w.aggregator obs
    refine ih (w := { w with aggregator := (w.aggregator.fold obs).1 }) ?_ ?_
    · refine ⟨sized.trans hf.sized, ?_, hf.batched, hf.distinct⟩
      intro key mem mine
      rcases (fold_keys w.aggregator obs key).mp mem with rfl | old
      · exact here mine
      · exact hf.opened key old mine
    intro other mem mine
    have eq : (w.aggregator.fold obs).1.keyOf other = w.aggregator.keyOf other := by
      simp [WindowAggregator.keyOf, sized]
    simp only [eq]
    exact hl other mem mine

theorem batched_drained (ho : Owned pair) (deltas : List WindowDelta) :
    (deltas.map (batchedFor pair)).sum = (deltas.map (counted [] pair)).sum := by
  congr 1
  apply List.map_congr_left
  intro delta _
  by_cases mine : delta.key.pair = pair
  · have kind : delta.key.metric.aggregation = .sum := by
      rw [← ho.summed, ← mine]
      rfl
    simp [batchedFor, counted, mine, WindowDelta.scalar, kind]
  · simp [batchedFor, counted, mine]

theorem drained_spec (ho : Owned pair) (hf : Fresh size pair w)
    (done : drained w (w.aggregator.removeAndCollect closed) = some w') :
    Fresh size pair w' ∧ w'.drift pair = w.drift pair ∧ w'.total pair = w.total pair := by
  unfold drained at done
  split at done
  · rename_i free
    cases done
    have keys := removeAndCollect_keys w.aggregator closed
    have left_ : ((w.aggregator.removeAndCollect closed).1.buckets.map Prod.fst) =
        (w.aggregator.buckets.map Prod.fst).filter fun key => ! closed key := by
      rw [List.filter_map]
      rfl
    refine ⟨⟨hf.sized, ?_, ?_, removeAndCollect_distinct w.aggregator closed⟩, ?_, rfl⟩
    · intro key mem mine
      rw [left_, List.mem_filter] at mem
      refine ⟨(hf.opened key mem.1 mine).1, fun also => ?_⟩
      have shut := (List.mem_filter.mp (keys.mem_iff.mp also)).2
      simp [shut] at mem
    · intro key mem mine
      exact (hf.opened key (List.mem_filter.mp (keys.mem_iff.mp mem)).1 mine).1
    have split := KeyedList.weigh_split (pendingFor [] pair) (fun bucket => closed bucket.1) w.aggregator.buckets
    have brought := counted_drained w.aggregator closed [] ho.summed
    simp only [World.drift, World.authoritative, World.total, World.pending, batched_drained ho, free]
    simp only [brought]
    simp only [WindowAggregator.removeAndCollect, List.map_nil, List.sum_nil]
    omega
  · cases done

theorem serve_graph (size : WindowSize) (s : Stores) (op : Op) : ((server size).serve s op).1.graph = s.graph := by
  cases op with
  | flushWindow =>
    simp only [server, Stores.flushWindow]
    split
    · rfl
    · split <;> rfl
  | hincrby =>
    simp only [server, Stores.hincrby]
    split <;> rfl
  | authoritativeCount =>
    simp only [server]
    split <;> rfl
  | _ => rfl

theorem flushNext_spec (ho : Owned pair) (hf : Fresh size pair w) (next : w.batch = delta :: rest)
    (ran : (server size).execute (flush [delta]) w.stores allServed = (stores, .ok report)) :
    Fresh size pair { w with stores, batch := rest } ∧
      World.drift { w with stores, batch := rest } pair = w.drift pair ∧
      World.total { w with stores, batch := rest } pair = w.total pair + batchedFor pair delta := by
  obtain ⟨windows, totals⟩ := flushFrom_served ran (List.pairwise_singleton _ _)
  have distinct := hf.distinct
  rw [next, List.map_cons, List.nodup_cons] at distinct
  have batch : w.batch.map WindowDelta.key = delta.key :: rest.map WindowDelta.key := by rw [next, List.map_cons]
  have graph : stores.graph = w.stores.graph := by
    have kept := execute_unchanged Stores.graph (serve_graph size) (flush [delta]) w.stores allServed
    rw [ran] at kept
    exact kept
  refine ⟨⟨hf.sized, ?_, ?_, distinct.2⟩, ?_⟩
  · intro key mem mine
    obtain ⟨new, open_⟩ := hf.opened key mem mine
    rw [batch, List.mem_cons, not_or] at open_
    refine ⟨fun known => ?_, open_.2⟩
    rcases (windows key).mp known with old | single
    · exact new old
    · exact open_.1 (by simpa using single)
  · intro key mem mine
    have new := hf.batched key (batch ▸ .tail _ mem) mine
    intro known
    rcases (windows key).mp known with old | single
    · exact new old
    · simp only [List.map_cons, List.map_nil, List.mem_singleton] at single
      exact distinct.1 (single ▸ mem)
  · have grown := totals pair
    have one := batched_drained ho [delta]
    have fresh' : delta.key.pair = pair → delta.key ∉ w.stores.windows :=
      hf.batched delta.key (batch ▸ .head _)
    have added : counted w.stores.windows pair delta = counted [] pair delta := by
      by_cases mine : delta.key.pair = pair
      · simp [counted, mine, fresh' mine]
      · simp [counted, mine]
    simp only [List.map_cons, List.map_nil, List.sum_cons, List.sum_nil, Int.add_zero] at grown one
    simp only [World.drift, World.authoritative, World.total, World.pending, graph, next, List.map_cons, List.sum_cons]
    omega

/-- What a reconciliation asks for after it has read the count. -/
inductive Asks (pair : Pair) (count : Int) : Op → Prop where
  | readTotal : Asks pair count (.readTotal pair.1 pair.2)
  | setTotal : Asks pair count (.setTotal pair.1 pair.2 count)
  | hset : Asks pair count (.hset pair.1 pair.2 count)

theorem reconcile_reads (tolerance : Int) (pair : Pair) : reconcile tolerance pair.1 pair.2 = .ok .notApplicable ∨
    ∃ rest, reconcile tolerance pair.1 pair.2 = .call (.authoritativeCount pair.1 pair.2) rest ∧
      ∀ count answer, (∀ value, answer = .ok (some value) → value = count) →
        (rest answer).Confined (Asks pair count) fun _ => True := by
  unfold reconcile
  split
  · exact .inl rfl
  refine .inr ⟨_, rfl, fun count ans read => ?_⟩
  match ans with
  | .error _ | .ok none => trivial
  | .ok (some value) =>
    cases read value rfl
    refine .perform .readTotal fun total => ?_
    simp only
    split
    · trivial
    · split
      · trivial
      · exact .perform .setTotal fun _ => .perform .hset fun _ => trivial

/-- A call has not read the count yet, or works with the one it read. -/
def Works (tolerance : Int) (pair : Pair) (count : Int) (program : Calling ReconcileOutcome) : Prop :=
  program = reconcile tolerance pair.1 pair.2 ∨ program.Confined (Asks pair count) fun _ => True

/-- A count that was read falls short of what the total has to be by what is outstanding. -/
structure Consistent (size : WindowSize) (tolerance : Int) (pair : Pair) (s : State × (Nat → Int)) : Prop where
  fresh : Fresh size pair s.1.world
  programs : ∀ {id call}, s.1.calls id = some call →
    ∃ count, (call.request = pair → count = s.1.world.due pair + s.2 id) ∧
      Works tolerance call.request count call.program

theorem elapse_spec (ho : Owned pair) (hf : Fresh size pair pool.world)
    (hor : Orderly size pair (pool, owed) (.elapse ev)) (hc : elapse size pool.world ev = some w') :
    Fresh size pair w' ∧ w'.drift pair = pool.world.drift pair ∧
      ∀ id, w'.due pair + outstanding pair pool (.elapse ev) owed id = pool.world.due pair + owed id := by
  suffices Fresh size pair w' ∧ w'.drift pair = pool.world.drift pair ∧
      ∀ id, w'.total pair + outstanding pair pool (.elapse ev) owed id = pool.world.total pair + owed id by
    refine this.imp_right (And.imp_right fun totals id => ?_)
    have drift := this.2.1
    have total := totals id
    simp only [World.drift, World.due] at drift ⊢
    omega
  cases ev with
  | related wire =>
    simp only [elapse] at hc
    split at hc
    · cases hc
      exact ⟨{ hf with }, related_drift wire, fun _ => rfl⟩
    · cases hc
  | consume _ _ =>
    simp only [elapse] at hc
    split at hc
    · cases hc
    rename_i wire h
    split at hc
    · rename_i observations mapped
      cases hc
      have timely := hor wire h observations (by simp [mapped, Except.toOption])
      refine ⟨?_, consume_drift ho h mapped timely, fun _ => rfl⟩
      have folded := hf.folded fun obs mem mine =>
        ⟨(timely obs mem mine).1, (timely obs mem mine).2.1⟩
      exact { folded with }
    · cases hc
  | drainClosed | drainAll =>
    obtain ⟨fresh, drift, total⟩ := drained_spec ho hf hc
    exact ⟨fresh, drift, fun id => congrArg (· + owed id) total⟩
  | flushNext =>
    simp only [elapse] at hc
    split at hc
    · cases hc
    rename_i delta rest next
    have through := hor delta (by simp [next])
    split at hc
    · rename_i stores report ran
      cases hc
      obtain ⟨fresh, drift, total⟩ := flushNext_spec ho hf next ran
      refine ⟨fresh, drift, fun id => ?_⟩
      simp only [outstanding, total, next, List.head?_cons, Option.map_some, Option.getD_some]
      omega
    · rename_i stores e ran
      rw [ran] at through
      cases through

theorem serve_due (size : WindowSize) (w : World) (op : Op) (pair : Pair) :
    ((shared size).serve w op).1.due pair = w.due pair := by
  simp only [shared, World.due, World.authoritative, World.pending, serve_graph]

theorem works_spec (works : Works tolerance asked count (.call op onward)) (hf : Fresh size pair w) :
    Fresh size pair ((shared size).serve w op).1 ∧
      (((shared size).serve w op).1.drift pair = w.drift pair ∨
        asked = pair ∧ overwrites pair (.call op onward) = true ∧
          ((shared size).serve w op).1.drift pair = w.due pair - count) := by
  rcases works with new | confined
  · rcases reconcile_reads tolerance asked with ends | ⟨rest, reads, -⟩
    · cases new.trans ends
    · cases new.trans reads
      simp only [shared, server]
      split <;> exact ⟨hf, .inl rfl⟩
  cases confined.1 with
  | readTotal => exact ⟨hf, .inl rfl⟩
  | hset => exact ⟨{ hf with }, .inl rfl⟩
  | setTotal =>
    refine ⟨{ hf with }, ?_⟩
    by_cases mine : asked = pair
    · subst mine
      refine .inr ⟨rfl, by simp [overwrites], ?_⟩
      simp [World.drift, World.due, World.total, World.authoritative, World.pending, shared, server]
      omega
    · refine .inl ?_
      simp [World.drift, World.total, World.authoritative, World.pending, shared, server, update_of_ne (Ne.symm mine)]

theorem outstanding_of_ne {id other : Nat} (ne : other ≠ id) :
    outstanding pair pool (.advance id service) owed other = owed other := by
  simp only [outstanding]
  split
  · exact update_of_ne ne _ _
  · rfl

theorem authoritativeCount_ok {value : Int}
    (got : ((shared size).perform w (.authoritativeCount pair.1 pair.2) service).2 = .ok (some value)) :
    value = w.authoritative pair := by
  cases service with
  | refused | replyLost => cases got
  | served =>
    simp only [Server.perform, shared, server] at got
    split at got
    · simp only [Except.ok.injEq] at got
      simp [World.authoritative, got]
    · cases got

theorem Consistent.advanced {id : Nat} {onward : Except CounterError (Op.Reply op) → Calling ReconcileOutcome}
    (inv : Consistent size tolerance pair (pool, owed)) (hw : pool.calls id = some ⟨asked, .call op onward, heard⟩) :
    ∃ count, (asked = pair → count = pool.world.due pair + outstanding pair pool (.advance id service) owed id) ∧
      Works tolerance asked count (onward ((shared size).perform pool.world op service).2) := by
  obtain ⟨count, held, works⟩ := inv.programs hw
  rcases works with new | confined
  · rcases reconcile_reads tolerance asked with ends | ⟨rest, reads, onwards⟩
    · cases new.trans ends
    · cases new.trans reads
      refine ⟨pool.world.authoritative asked, ?_, .inr (onwards _ _ fun _ got => authoritativeCount_ok got)⟩
      rintro rfl
      simp [outstanding, hw, counts, World.due]
  · refine ⟨count, fun mine => (held mine).trans ?_, .inr (confined.2 _ fun _ _ => trivial)⟩
    have asks : Asks asked count op := confined.1
    have uncounted : counts pair (.call op onward) = false := by cases asks <;> rfl
    simp [outstanding, hw, uncounted]

theorem step_spec (ho : Owned pair) (inv : Consistent size tolerance pair s)
    (hor : Orderly size pair s move) (hs : (watched size tolerance pair).step s move = some next) :
    Consistent size tolerance pair next ∧
      (next.1.world.drift pair = s.1.world.drift pair ∨ next.1.world.drift pair = 0) := by
  obtain ⟨pool, owed⟩ := s
  obtain ⟨after, stepped, rfl⟩ := Option.map_eq_some_iff.mp hs
  cases Host.step_steps stepped with
  | begun _ ha =>
    cases ha
    refine ⟨⟨inv.fresh, fun h => ?_⟩, .inl rfl⟩
    rcases update_cases h with ⟨rfl, eq⟩ | ⟨-, old⟩
    · cases eq
      exact ⟨_, fun _ => rfl, .inl rfl⟩
    · exact inv.programs old
  | @advanced id asked op onward heard svc hw =>
    obtain ⟨count, held, works⟩ := inv.programs hw
    obtain ⟨fresh, drift⟩ := works_spec works inv.fresh
    have due : ((host size tolerance).server.perform pool.world op svc).1.due pair = pool.world.due pair :=
      perform_unchanged (World.due · pair) (fun w op => serve_due size w op pair) pool.world op svc
    refine ⟨⟨?_, fun {id' call} h => ?_⟩, ?_⟩
    · cases svc with
      | served | replyLost => exact fresh
      | refused => exact inv.fresh
    · rcases update_cases h with ⟨rfl, eq⟩ | ⟨ne, old⟩
      · cases eq
        simp only [due]
        exact inv.advanced hw
      · simp only [due, outstanding_of_ne ne]
        exact inv.programs old
    -- What an orderly overwrite leaves is nothing.
    have settles : svc.reaches = true →
        ((shared size).serve pool.world op).1.drift pair = pool.world.drift pair ∨
        ((shared size).serve pool.world op).1.drift pair = 0 := by
      intro reaches
      refine drift.imp_right fun ⟨mine, writes, left_⟩ => ?_
      have none_ : owed id = 0 := hor _ hw writes reaches
      rw [left_, held mine]
      simp [none_]
    cases svc with
    | served | replyLost => exact settles rfl
    | refused => exact .inl rfl
  | crashed => exact ⟨⟨inv.fresh, fun h => inv.programs (of_update_none h)⟩, .inl rfl⟩
  | elapsed hc =>
    obtain ⟨fresh, drift, due⟩ := elapse_spec ho inv.fresh hor hc
    refine ⟨⟨fresh, fun {id call} h => ?_⟩, .inl drift⟩
    simp only [due]
    exact inv.programs h

/-- As long as between the read of the count and the overwrite of the total exactly that is flushed
which was on its way at the read, a total within the tolerance is so again whenever nothing is under
way, and a reconciliation never puts it further off. -/
theorem reconciliation_converges {start pool : State} {owed : Nat → Int} {trace : List Label} (owned : Owned pair)
    (begins : (host size tolerance).machine.init start)
    (near : (start.world.authoritative pair - start.world.total pair).natAbs ≤ tolerance)
    (orderly : (watched size tolerance pair).Meets (Orderly size pair) (start, fun _ => 0) trace)
    (ran : (watched size tolerance pair).run (start, fun _ => 0) trace = some (pool, owed)) :
    (pool.world.Settled pair → (pool.world.authoritative pair - pool.world.total pair).natAbs ≤ tolerance) ∧
      ∀ id service next, Orderly size pair (pool, owed) (.advance id service) →
        (watched size tolerance pair).step (pool, owed) (.advance id service) = some next →
        (next.1.world.drift pair).natAbs ≤ (pool.world.drift pair).natAbs := by
  obtain ⟨⟨transit, aggregator, batch⟩, calls⟩ := begins
  have empty : start.world.pending pair = 0 := by
    simp [World.pending, transit, aggregator, batch, WindowAggregator.new]
  have first : Consistent size tolerance pair (start, fun _ => 0) ∧ (start.world.drift pair).natAbs ≤ tolerance := by
    refine ⟨⟨⟨?_, ?_, ?_, ?_⟩, ?_⟩, ?_⟩
    · rw [aggregator]
      rfl
    · simp [aggregator, WindowAggregator.new]
    · simp [batch]
    · simp [batch]
    · simp [calls]
    · simpa [World.drift, empty] using near
  have last := Machine.run_keeps (fun s _ next
      (both : Consistent size tolerance pair s ∧ (s.1.world.drift pair).natAbs ≤ tolerance) orderly stepped => by
    obtain ⟨inv, drift⟩ := step_spec owned both.1 orderly stepped
    refine ⟨inv, ?_⟩
    rcases drift with eq | none_ <;> omega) first orderly ran
  constructor
  · intro settled
    have bound := last.2
    rwa [World.drift, settled.pending, Int.add_zero] at bound
  · intro id service next orderly stepped
    rcases (step_spec owned last.1 orderly stepped).2 with same | none_
    · rw [same]
    · simp [none_]

instance (size : WindowSize) (pair : Pair) (s : State × (Nat → Int)) (move : Label) :
    Decidable (Orderly size pair s move) := by
  unfold Orderly
  split <;> infer_instance

instance (w : World) (pair : Pair) : Decidable (w.Settled pair) := decidable_of_iff' _ (World.settled_iff w pair)

private def followers : Pair := (⟨.profile, "ana"⟩, .follower)

private def follows (follower : String) : Label := .elapse (.related (.followed ⟨follower, "ana", 1000⟩))

private def folds : Label := .elapse (.consume 0 .epoch)

private def tenFollowers : State where
  world := ⟨[], .new oneMinute, [],
    { Stores.empty with
      totals := fun pair => if pair = followers then some 10 else none
      graph := fun pair => if pair = followers then some 10 else none }⟩
  calls _ := none

private def sixFollow : List Label :=
  ["bo", "cy", "di", "ed", "flo", "gus"].flatMap fun follower => [follows follower, folds]

private def advances (count : Nat) : List Label := List.replicate count (.advance 0 .served)

private def flushesAll : List Label := .elapse .drainAll :: List.replicate 7 (.elapse .flushNext)

/-- The new followers are flushed after the total was read and before it is overwritten. -/
private def overtaken : List Label := sixFollow ++ [.begin 0 followers] ++ advances 2 ++ flushesAll ++ advances 2

/-- The total is overwritten while the new followers are still in their window. -/
private def countedTwice : List Label := sixFollow ++ [.begin 0 followers] ++ advances 4 ++ flushesAll

theorem reconciliation_converges_overtaken : ∃ s : State × (Nat → Int),
    (watched oneMinute 5 followers).run (tenFollowers, fun _ => 0) overtaken = some s ∧ s.1.world.Settled followers ∧
      (s.1.world.authoritative followers - s.1.world.total followers).natAbs ≤ (5 : Int) := by
  obtain ⟨s, ran, settled⟩ : ∃ s : State × (Nat → Int),
      (watched oneMinute 5 followers).run (tenFollowers, fun _ => 0) overtaken = some s ∧
        s.1.world.Settled followers := by decide +kernel
  refine ⟨s, ran, settled, ?_⟩
  refine (reconciliation_converges ?_ ⟨⟨rfl, rfl, rfl⟩, rfl⟩ ?_ ?_ ran).1 settled
  · exact ⟨.inl rfl, rfl⟩
  · decide
  · decide +kernel

theorem reconciliation_counts_twice : ∃ pool : State,
    (host oneMinute 5).machine.init tenFollowers ∧
      (host oneMinute 5).machine.run tenFollowers countedTwice = some pool ∧ pool.world.Settled followers ∧
      pool.world.authoritative followers = 16 ∧ pool.world.total followers = 22 := by
  obtain ⟨pool, seen⟩ : ∃ pool : State, (host oneMinute 5).machine.run tenFollowers countedTwice = some pool ∧
      pool.world.Settled followers ∧ pool.world.authoritative followers = 16 ∧ pool.world.total followers = 22 := by
    decide +kernel
  exact ⟨pool, ⟨⟨rfl, rfl, rfl⟩, rfl⟩, seen⟩

end CorePlatform.Counter.Reconcile
