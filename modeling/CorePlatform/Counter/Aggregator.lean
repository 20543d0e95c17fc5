import Mathlib.Data.String.Basic
import CorePlatform.Theory.KeyedList
import CorePlatform.Theory.SortedMap
import CorePlatform.Counter.Values

/-! # The windowed pre-aggregator

Observations are folded into one delta per entity, metric and window. Windows close against a
watermark; closing hands their deltas out and forgets them. The key of a window is also the one its
delta is flushed under. -/

namespace CorePlatform.Counter

open Theory
open Audit (DateTime)

structure WindowKey where
  entity : EntityRef
  metric : Metric
  window : WindowId
  deriving DecidableEq

structure WindowAccumulator where
  sum : Int
  members : SortedMap MemberId Unit

def WindowAccumulator.default : WindowAccumulator := ⟨0, .empty⟩

structure WindowDelta where
  key : WindowKey
  sum : Int
  uniqueMembers : List MemberId
  deriving DecidableEq

namespace WindowDelta

def scalar (delta : WindowDelta) : Int :=
  match delta.key.metric.aggregation with
  | .sum => delta.sum
  | .cardinality => delta.uniqueMembers.length

/-- The order of a drained batch: by the texts of kind, id and metric, then by window. -/
def order (a b : WindowDelta) : Ordering :=
  (compare a.key.entity.kind.asStr b.key.entity.kind.asStr).then <|
    (compare a.key.entity.id b.key.entity.id).then <|
      (compare a.key.metric.asStr b.key.metric.asStr).then (compare a.key.window b.key.window)

end WindowDelta

structure WindowAggregator where
  size : WindowSize
  buckets : List (WindowKey × WindowAccumulator)
  distinct : (buckets.map Prod.fst).Nodup

namespace WindowAggregator

def new (size : WindowSize) : WindowAggregator := ⟨size, [], List.nodup_nil⟩

def pending (agg : WindowAggregator) : Nat := agg.buckets.length

def keyOf (agg : WindowAggregator) (obs : Observation) : WindowKey :=
  ⟨obs.entity, obs.metric, .forEvent agg.size obs.occurredAt⟩

/-- Put the changed accumulator of a window in its place. -/
def accumulate (agg : WindowAggregator) (key : WindowKey) (change : WindowAccumulator → WindowAccumulator) :
    WindowAggregator where
  size := agg.size
  buckets := KeyedList.upsert key (fun held => change (held.getD .default)) agg.buckets
  distinct := KeyedList.nodup_upsert agg.distinct

/-- The window is opened even when the observation turns out to be malformed. -/
def fold (agg : WindowAggregator) (obs : Observation) : WindowAggregator × Except CounterError Unit :=
  match obs.metric.aggregation with
  | .sum =>
    (agg.accumulate (agg.keyOf obs) fun acc => { acc with sum := saturatingAdd acc.sum obs.amount }, .ok ())
  | .cardinality =>
    match obs.uniqueMember with
    | some member =>
      (agg.accumulate (agg.keyOf obs) fun acc => { acc with members := acc.members.insert member () }, .ok ())
    | none =>
      (agg.accumulate (agg.keyOf obs) id,
        .error (.domainViolation "unique_member"
          ("cardinality metric '" ++ obs.metric.asStr ++ "' requires a member id")))

def deltaOf (bucket : WindowKey × WindowAccumulator) : WindowDelta where
  key := bucket.1
  sum := bucket.2.sum
  uniqueMembers := bucket.2.members.entries.map Prod.fst

/-- Take the windows that `closed` picks out, as deltas in their order. -/
def removeAndCollect (agg : WindowAggregator) (closed : WindowKey → Bool) : WindowAggregator × List WindowDelta :=
  ({ size := agg.size
     buckets := agg.buckets.filter fun bucket => ! closed bucket.1
     distinct := agg.distinct.sublist (List.filter_sublist.map Prod.fst) },
    ((agg.buckets.filter fun bucket => closed bucket.1).map deltaOf).insertionSort fun a b => (a.order b).isLE = true)

def drainClosed (agg : WindowAggregator) (watermark : DateTime) : WindowAggregator × List WindowDelta :=
  agg.removeAndCollect fun key => WindowId.isClosedAt key.window agg.size watermark

def drainAll (agg : WindowAggregator) : WindowAggregator × List WindowDelta :=
  agg.removeAndCollect fun _ => true

end WindowAggregator
end CorePlatform.Counter
