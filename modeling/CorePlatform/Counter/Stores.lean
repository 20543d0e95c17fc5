import CorePlatform.Theory.Server
import CorePlatform.Counter.Aggregator

/-! # The counter's stores, flushing and reconciliation

Three tiers hold what was counted: the ledger with a row per flushed window and a total per entity
and metric, the hot counters, and the time series. The ledger's row decides whether the other two
get a delta at all.

Reconciliation asks the owning service for the true count and overwrites a total that is too far
off. -/

namespace CorePlatform.Counter

open Theory Function

abbrev Pair := EntityRef × Metric

def WindowKey.pair (key : WindowKey) : Pair := (key.entity, key.metric)

inductive FlushOutcome where
  | applied
  | alreadyApplied

structure FlushReport where
  applied : Nat := 0
  alreadyApplied : Nat := 0

inductive ReconcileOutcome where
  | inSync
  | withinTolerance (drift : Int)
  | corrected (from_ to_ : Int)
  | notApplicable

structure Stores where
  windows : List WindowKey
  totals : Pair → Option Int
  counters : Pair → Option Int
  /-- The scores of the global trending boards. -/
  trending : Pair → Int
  /-- What was added to the cardinality estimators. -/
  estimators : Pair → List MemberId
  /-- The time series by hour bucket. -/
  series : Pair → Nat → Int
  graph : Pair → Option Int

inductive Op where
  | flushWindow (delta : WindowDelta)
  | hincrby (delta : WindowDelta)
  | zincrby (delta : WindowDelta)
  | pfadd (delta : WindowDelta)
  | append (delta : WindowDelta)
  | authoritativeCount (entity : EntityRef) (metric : Metric)
  | readTotal (entity : EntityRef) (metric : Metric)
  | setTotal (entity : EntityRef) (metric : Metric) (value : Int)
  | hset (entity : EntityRef) (metric : Metric) (value : Int)
  deriving DecidableEq

abbrev Op.Reply : Op → Type
  | .flushWindow _ => FlushOutcome
  | .authoritativeCount _ _ | .readTotal _ _ => Option Int
  | _ => Unit

def hourMs : Nat := 3600000

def hourBucket (ms : Nat) : Nat := ms / hourMs * hourMs

namespace Stores

def empty : Stores where
  windows := []
  totals _ := none
  counters _ := none
  trending _ := 0
  estimators _ := []
  series _ _ := 0
  graph _ := none

/-- What a flush of the window makes of the pair's total. -/
def advanced (s : Stores) (delta : WindowDelta) : Int := (s.totals delta.key.pair).getD 0 + delta.scalar

def applies (s : Stores) (delta : WindowDelta) : Bool :=
  decide (delta.key ∉ s.windows) && fitsI64 (s.advanced delta)

/-- `FLUSH_SQL`: one statement records the window and advances the total. -/
def flushWindow (s : Stores) (delta : WindowDelta) : Stores × Except CounterError FlushOutcome :=
  if delta.key ∈ s.windows then (s, .ok .alreadyApplied)
  else if fitsI64 (s.advanced delta) then
    ({ s with
        windows := delta.key :: s.windows
        totals := update s.totals delta.key.pair (some (s.advanced delta)) }, .ok .applied)
  else (s, .error (.flushFailed "bigint out of range"))

def hincrby (s : Stores) (delta : WindowDelta) : Stores × Except CounterError Unit :=
  let value := (s.counters delta.key.pair).getD 0 + delta.sum
  if fitsI64 value then ({ s with counters := update s.counters delta.key.pair (some value) }, .ok ())
  else (s, .error (.cacheWriteFailed "ERR increment or decrement would overflow"))

def append (size : WindowSize) (s : Stores) (delta : WindowDelta) : Stores :=
  let bucket := hourBucket (WindowId.startMillis delta.key.window size)
  { s with
    series := update s.series delta.key.pair
      (update (s.series delta.key.pair) bucket (s.series delta.key.pair bucket + delta.scalar)) }

end Stores

/-- The stores behind the calls; `size` is the window size the series is configured with. -/
def server (size : WindowSize) : Server Stores Op Op.Reply CounterError where
  serve s
    | .flushWindow delta => s.flushWindow delta
    | .hincrby delta => s.hincrby delta
    | .zincrby delta =>
      ({ s with trending := update s.trending delta.key.pair (s.trending delta.key.pair + delta.sum) }, .ok ())
    | .pfadd delta =>
      ({ s with
          estimators := update s.estimators delta.key.pair
            (s.estimators delta.key.pair ++ delta.uniqueMembers) }, .ok ())
    | .append delta => (s.append size delta, .ok ())
    | .authoritativeCount entity metric =>
      -- Only follower and following counts of profiles have an owning service.
      if (metric = .follower ∨ metric = .following) ∧ entity.kind = .profile then (s, .ok (s.graph (entity, metric)))
      else (s, .ok none)
    | .readTotal entity metric => (s, .ok (s.totals (entity, metric)))
    | .setTotal entity metric value =>
      ({ s with totals := update s.totals (entity, metric) (some value) }, .ok ())
    | .hset entity metric value =>
      ({ s with counters := update s.counters (entity, metric) (some value) }, .ok ())
  failure
    | .flushWindow _, reason | .append _, reason | .setTotal _ _ _, reason => .flushFailed reason
    | .hincrby _, reason | .zincrby _, reason | .pfadd _, reason | .hset _ _ _, reason => .cacheWriteFailed reason
    | .readTotal _ _, _ => .ledgerUnavailable
    | .authoritativeCount _ _, reason => .sourceReplayFailed ("social-graph get_relation_status: " ++ reason)

abbrev Calling := Program Op Op.Reply CounterError

/-- `RedisCounterStore::apply_delta`. -/
def applyDelta (delta : WindowDelta) : Calling Unit :=
  match delta.key.metric.aggregation with
  | .sum => do
      Program.perform (Op.hincrby delta)
      Program.perform (Op.zincrby delta)
  | .cardinality => if delta.uniqueMembers.isEmpty then pure () else Program.perform (Op.pfadd delta)

def flushFrom (report : FlushReport) : List WindowDelta → Calling FlushReport
  | [] => pure report
  | delta :: rest => do
      match ← Program.perform (Op.flushWindow delta) with
      | .applied =>
        applyDelta delta
        Program.perform (Op.append delta)
        flushFrom { report with applied := report.applied + 1 } rest
      | .alreadyApplied => flushFrom { report with alreadyApplied := report.alreadyApplied + 1 } rest

/-- `DeltaFlusher::flush`. -/
def flush (deltas : List WindowDelta) : Calling FlushReport := flushFrom {} deltas

/-- `Reconciler::reconcile`, as a release build has it: the drift wraps. -/
def reconcile (tolerance : Int) (entity : EntityRef) (metric : Metric) : Calling ReconcileOutcome :=
  if metric.kind ≠ .exact then pure .notApplicable
  else do
    match ← Program.perform (Op.authoritativeCount entity metric) with
    | none => pure .notApplicable
    | some authoritative =>
      let current := (← Program.perform (Op.readTotal entity metric)).getD 0
      let drift := wrapI64 (authoritative - current)
      if drift = 0 then pure .inSync
      else if absI64 drift ≤ tolerance then pure (.withinTolerance drift)
      else do
        Program.perform (Op.setTotal entity metric authoritative)
        Program.perform (Op.hset entity metric authoritative)
        pure (.corrected current authoritative)

end CorePlatform.Counter
