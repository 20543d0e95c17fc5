import Mathlib.Algebra.Group.Nat.Defs
import CorePlatform.Audit.Values

/-! # Metrics, entities, windows and observations of the counter domain

A metric says by itself how it is aggregated and whether another service owns the true
count. An observation lands in a window by its event time alone.
-/

namespace CorePlatform.Counter

open Audit (DateTime isBlank)

inductive CounterError where
  | invalidDelta (reason : String)
  | flushFailed (reason : String)
  | cacheWriteFailed (reason : String)
  | ledgerUnavailable
  | sourceReplayFailed (reason : String)
  | domainViolation (field message : String)
  | invalidIdentifier (field : String)

inductive MetricKind where
  | exact
  | approximate
  deriving DecidableEq

inductive Aggregation where
  | sum
  | cardinality
  deriving DecidableEq

inductive Metric where
  | view
  | impression
  | click
  | like
  | share
  | comment
  | follower
  | following
  | uniqueViewer
  | reach
  deriving DecidableEq

namespace Metric

def asStr : Metric → String
  | view => "view"
  | impression => "impression"
  | click => "click"
  | like => "like"
  | share => "share"
  | comment => "comment"
  | follower => "follower"
  | following => "following"
  | uniqueViewer => "unique_viewer"
  | reach => "reach"

def kind : Metric → MetricKind
  | like | share | comment | follower | following => .exact
  | view | impression | click | uniqueViewer | reach => .approximate

def aggregation : Metric → Aggregation
  | uniqueViewer | reach => .cardinality
  | _ => .sum

end Metric

inductive EntityKind where
  | post
  | profile
  | media
  | hashtag
  | comment
  deriving DecidableEq

def EntityKind.asStr : EntityKind → String
  | post => "post"
  | profile => "profile"
  | media => "media"
  | hashtag => "hashtag"
  | comment => "comment"

abbrev EntityId := String
abbrev MemberId := String

def EntityId.new (value : String) : Except CounterError EntityId :=
  if isBlank value then .error (.invalidIdentifier "entity_id") else .ok value

structure EntityRef where
  kind : EntityKind
  id : EntityId
  deriving DecidableEq

structure WindowSize where
  millis : Nat
  nonZero : millis ≠ 0
  fits : millis < 2 ^ 64

def oneMinute : WindowSize := ⟨60000, by decide, by decide⟩

abbrev WindowId := Nat

namespace WindowId

/-- Milliseconds since the epoch; times before it count as the epoch. -/
def eventMillis (t : DateTime) : Nat := t.timestampMillis.toNat

def forEvent (size : WindowSize) (occurredAt : DateTime) : WindowId := eventMillis occurredAt / size.millis

def startMillis (window : WindowId) (size : WindowSize) : Nat := window * size.millis

def endMillis (window : WindowId) (size : WindowSize) : Nat := startMillis window size + size.millis

def isClosedAt (window : WindowId) (size : WindowSize) (watermark : DateTime) : Bool :=
  decide (endMillis window size ≤ eventMillis watermark)

theorem endMillis_eq (window : WindowId) (size : WindowSize) : endMillis window size = (window + 1) * size.millis :=
  (Nat.succ_mul ..).symm

theorem lt_endMillis (size : WindowSize) (t : DateTime) : eventMillis t < endMillis (forEvent size t) size :=
  Nat.lt_div_mul_add (Nat.pos_of_ne_zero size.nonZero)

theorem endMillis_fits (size : WindowSize) (t : DateTime) : endMillis (forEvent size t) size < 2 ^ 64 := by
  have fits := size.fits
  have late := t.timestampMillis_fits.2
  have start := Nat.div_mul_le_self (eventMillis t) size.millis
  rcases Nat.lt_or_ge (eventMillis t) size.millis with short | long
  · rw [endMillis, startMillis, forEvent, Nat.div_eq_of_lt short]
    omega
  · unfold endMillis startMillis forEvent eventMillis at *
    omega

/-- The windows tile the time from the epoch on, without overflow, and a window is closed when no
event can come into it or an earlier one. -/
theorem windows_tile_time (size : WindowSize) (t : DateTime) :
    (startMillis (forEvent size t) size ≤ max t.timestampMillis 0 ∧
      max t.timestampMillis 0 < endMillis (forEvent size t) size ∧ endMillis (forEvent size t) size < 2 ^ 64) ∧
    (∀ t', forEvent size t ≠ forEvent size t' →
      endMillis (forEvent size t) size ≤ startMillis (forEvent size t') size ∨
        endMillis (forEvent size t') size ≤ startMillis (forEvent size t) size) ∧
    ∀ watermark, isClosedAt (forEvent size t) size watermark = true ↔
      ∀ t', max watermark.timestampMillis 0 ≤ t'.timestampMillis → forEvent size t < forEvent size t' := by
  have start := Nat.div_mul_le_self (eventMillis t) size.millis
  have finish := lt_endMillis size t
  refine ⟨⟨?_, ?_, endMillis_fits size t⟩, ?_, fun watermark => ?_⟩
  · unfold startMillis forEvent eventMillis at *
    omega
  · unfold eventMillis at finish
    omega
  · intro t' ne
    simp only [endMillis_eq]
    rcases Nat.lt_or_gt_of_ne ne with lt | gt
    · exact .inl (Nat.mul_le_mul_right _ lt)
    · exact .inr (Nat.mul_le_mul_right _ gt)
  simp only [isClosedAt, decide_eq_true_eq, endMillis_eq]
  have closed : ∀ ms, (forEvent size t + 1) * size.millis ≤ ms ↔ forEvent size t < ms / size.millis :=
    fun ms => (Nat.le_div_iff_mul_le (Nat.pos_of_ne_zero size.nonZero)).symm
  rw [closed]
  constructor
  · intro before t' late
    refine Nat.lt_of_lt_of_le before (Nat.div_le_div_right ?_)
    unfold eventMillis
    omega
  · intro open_
    -- The watermark itself, or the epoch, is such a time.
    by_cases past : watermark.timestampMillis < 0
    · have epoch : DateTime.epoch.timestampMillis = 0 := rfl
      exact Nat.lt_of_lt_of_le (open_ .epoch (by omega)) (Nat.div_le_div_right (Nat.zero_le _))
    · exact open_ watermark (by omega)

end WindowId

/-- For a sum metric the amount counts, for a cardinality metric the member. -/
structure Observation where
  entity : EntityRef
  metric : Metric
  amount : Int
  uniqueMember : Option MemberId
  occurredAt : DateTime

namespace Observation

def sum (entity : EntityRef) (metric : Metric) (amount : Int) (occurredAt : DateTime) :
    Except CounterError Observation :=
  if metric.aggregation ≠ .sum then
    .error (.invalidDelta ("metric '" ++ metric.asStr ++ "' is not a sum metric"))
  else .ok { entity, metric, amount, uniqueMember := none, occurredAt }

end Observation

def i64Min : Int := -2 ^ 63
def i64Max : Int := 2 ^ 63 - 1

def fitsI64 (n : Int) : Bool := decide (i64Min ≤ n) && decide (n ≤ i64Max)

/-- What is left of a result in an `i64` that wraps. -/
def wrapI64 (n : Int) : Int := n.bmod (2 ^ 64)

/-- `i64::abs`. -/
def absI64 (n : Int) : Int := wrapI64 n.natAbs

/-- `i64::saturating_add`. -/
def saturatingAdd (a b : Int) : Int := max i64Min (min i64Max (a + b))

theorem saturatingAdd_of_fits (fits : fitsI64 (a + b) = true) : saturatingAdd a b = a + b := by
  simp only [fitsI64, Bool.and_eq_true, decide_eq_true_eq] at fits
  unfold saturatingAdd
  omega

end CorePlatform.Counter
