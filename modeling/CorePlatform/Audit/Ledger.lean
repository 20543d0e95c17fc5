import Mathlib.Data.List.Dedup
import CorePlatform.Theory.Verdict
import CorePlatform.Audit.Chain
import CorePlatform.Audit.Checkpoint

/-! # The ledger table

The Postgres table behind the ledger port, with the statements run against it. Each
column is kept: the head and the partition heads are read from the columns, the records
from the stored JSON, and nothing in the database ties the two together.
-/

namespace CorePlatform.Audit

open Option

/-- Stored JSON, known by what it deserializes to. Serializing a record and reading it
back gives the record. -/
inductive RecordJson where
  | record (record : AuditRecord)
  | malformed (reason : String)
  deriving DecidableEq

def decodeRow : RecordJson → Except AuditError AuditRecord
  | .record record => .ok record
  | .malformed reason =>
    .error (.domainViolation "record_json" ("stored audit record failed to deserialize: " ++ reason))

/-- One row of `audit_records`. -/
structure Row where
  partitionKey : String
  sequenceNo : Int64
  eventId : String
  recordHash : String
  subjectPseudonym : Option String
  tenantId : Option String
  categoryTag : Nat
  occurredAtMs : Int
  recordedAtMs : Int
  recordJson : RecordJson
  deriving DecidableEq

namespace Row

def slot (row : Row) : String × Int64 := (row.partitionKey, row.sequenceNo)

def ofRecord (record : AuditRecord) : Row where
  partitionKey := record.partition
  sequenceNo := record.link.sequence.toInt64
  eventId := record.event.eventId
  recordHash := record.link.recordHash
  subjectPseudonym := record.event.subject
  tenantId := record.event.tenant
  categoryTag := record.event.category.hashTag.toNat
  occurredAtMs := record.event.occurredAt.timestampMillis
  recordedAtMs := record.recordedAt.timestampMillis
  recordJson := .record record

end Row

/-- More rows than any table can store. -/
def capacity : Nat := 2 ^ 63 - 1

/-- `audit_records` under its constraints, rows in the order they were inserted. -/
structure Ledger where
  rows : List Row
  primaryKey : rows.Pairwise fun a b => a.slot ≠ b.slot
  uniqueEventId : (rows.map (·.eventId)).Nodup
  bounded : rows.length ≤ capacity
  deriving DecidableEq

namespace Ledger

theorem eq_of_rows {b : Ledger} (eq : a.rows = b.rows) : a = b := by
  cases a
  cases b
  simpa using eq

def empty : Ledger := ⟨[], .nil, .nil, Nat.zero_le _⟩

def Taken (ledger : Ledger) (record : AuditRecord) : Prop :=
  ∃ row ∈ ledger.rows, row.slot = (Row.ofRecord record).slot
  deriving Decidable

def Known (ledger : Ledger) (eventId : EventId) : Prop := ∃ row ∈ ledger.rows, row.eventId = eventId
  deriving Decidable

def Full (ledger : Ledger) : Prop := ledger.rows.length = capacity
  deriving Decidable

/-- What the driver reports of an insert. -/
inductive InsertAnswer where
  | inserted
  | noRow
  | uniqueViolation
  | otherError

/-- `INSERT … ON CONFLICT (partition_key, sequence_no) DO NOTHING RETURNING 1`: a taken slot yields
no row before any other constraint is checked. -/
def insert (ledger : Ledger) (record : AuditRecord) : Ledger × InsertAnswer :=
  if taken : ledger.Taken record then (ledger, .noRow)
  else if full : ledger.Full then (ledger, .otherError)
  else if known : ledger.Known record.event.eventId then (ledger, .uniqueViolation)
  else
    ({ rows := ledger.rows ++ [.ofRecord record]
       primaryKey := by
        rw [List.pairwise_append]
        refine ⟨ledger.primaryKey, List.pairwise_singleton _ _, fun row member new same => ?_⟩
        rw [List.mem_singleton.mp same]
        exact fun clash => taken ⟨row, member, clash⟩
       uniqueEventId := by
        rw [List.map_append, List.nodup_append]
        refine ⟨ledger.uniqueEventId, List.nodup_singleton _, fun id member new same => ?_⟩
        obtain ⟨row, stored, rfl⟩ := List.mem_map.mp member
        rw [List.mem_singleton.mp same]
        exact fun clash => known ⟨row, stored, clash⟩
       bounded := by
        rw [List.length_append]
        exact Nat.lt_of_le_of_ne ledger.bounded full },
      .inserted)

/-- The head argument is not looked at; only the primary key guards the slot. -/
def append (ledger : Ledger) (record : AuditRecord) (_expectedHead : ChainHead) : Ledger × Except AuditError Unit :=
  match ledger.insert record with
  | (ledger, .inserted) => (ledger, .ok ())
  | (ledger, .noRow) => (ledger, .error (.chainHeadConflict record.partition))
  | (ledger, .uniqueViolation) => (ledger, .error (.duplicateEvent record.event.eventId))
  | (ledger, .otherError) => (ledger, .error .ledgerStoreUnavailable)

def partitionRows (ledger : Ledger) (partition : PartitionKey) : List Row :=
  (ledger.rows.filter (·.partitionKey = partition)).insertionSort fun a b => a.sequenceNo.toInt ≤ b.sequenceNo.toInt

def head (ledger : Ledger) (partition : PartitionKey) : ChainHead :=
  match (ledger.partitionRows partition).getLast? with
  | some row => ⟨row.sequenceNo.toUInt64, row.recordHash⟩
  | none => .genesis

def lookup (ledger : Ledger) (eventId : EventId) : Except AuditError (Option AuditRecord) :=
  match ledger.rows.find? (·.eventId = eventId) with
  | some row => (decodeRow row.recordJson).map some
  | none => .ok none

def readPartition (ledger : Ledger) (partition : PartitionKey) : Except AuditError (List AuditRecord) :=
  (ledger.partitionRows partition).mapM fun row => decodeRow row.recordJson

/-- The last row of each partition, hash from its column; partitions not named by an identifier are
passed over. -/
def partitionHeads (ledger : Ledger) : List PartitionHead :=
  ((ledger.rows.map (·.partitionKey)).dedup.insertionSort (· ≤ ·)).filterMap fun partition => do
    let row ← (ledger.partitionRows partition).getLast?
    let key ← (PartitionKey.new partition).toOption
    some (key, row.recordHash)

theorem mem_partitionRows {ledger : Ledger} :
    row ∈ ledger.partitionRows partition ↔ row ∈ ledger.rows ∧ row.partitionKey = partition := by
  simp [partitionRows, List.mem_insertionSort]

theorem readPartition_ok_iff {ledger : Ledger} :
    ledger.readPartition partition = .ok records ↔
      (ledger.partitionRows partition).map (·.recordJson) = records.map .record := by
  have decoded : ∀ json record, decodeRow json = .ok record ↔ json = .record record := by
    intro json record
    cases json <;> simp [decodeRow]
  rw [readPartition, Theory.mapM_ok_iff, ← List.forall₂_eq_eq_eq, List.forall₂_map_left_iff,
    List.forall₂_map_right_iff]
  simp only [decoded]

theorem row_of_read {ledger : Ledger} (read : ledger.readPartition part = .ok records)
    (mem : record ∈ records) : ∃ row ∈ ledger.rows, row.recordJson = .record record := by
  have json : RecordJson.record record ∈ (ledger.partitionRows part).map (·.recordJson) := by
    rw [readPartition_ok_iff.mp read]
    exact List.mem_map_of_mem mem
  obtain ⟨row, hl, stored⟩ := List.mem_map.mp json
  exact ⟨row, (mem_partitionRows.mp hl).1, stored⟩

theorem mem_partitionHeads {ledger : Ledger} {hash : RecordHash} :
    (part, hash) ∈ ledger.partitionHeads ↔ isBlank part = false ∧
      ∃ row, (ledger.partitionRows part).getLast? = some row ∧ row.recordHash = hash := by
  have hn : ∀ key, (PartitionKey.new key).toOption = if isBlank key then none else some key := by
    intro key
    simp only [PartitionKey.new, stringId]
    split <;> rfl
  simp only [partitionHeads, List.mem_filterMap, List.mem_insertionSort, List.mem_dedup, List.mem_map]
  constructor
  · rintro ⟨key, -, hl⟩
    obtain ⟨row, last, hl⟩ := bind_eq_some_iff.mp hl
    obtain ⟨_, name, hl⟩ := bind_eq_some_iff.mp hl
    rw [hn] at name
    cases blank : isBlank key with
    | true => simp [blank] at name
    | false =>
      simp only [blank, Bool.false_eq_true, if_false, some.injEq] at name
      cases hl
      subst name
      exact ⟨blank, row, last, rfl⟩
  · rintro ⟨blank, row, last, rfl⟩
    have mem := mem_partitionRows.mp (List.mem_of_getLast? last)
    refine ⟨part, ⟨row, mem⟩, ?_⟩
    simp [last, hn, blank]

variable {ledger : Ledger}

theorem append_taken (ht : ledger.Taken record) :
    ledger.append record expected = (ledger, .error (.chainHeadConflict record.partition)) := by
  simp [append, insert, ht]

theorem append_full (free : ¬ ledger.Taken record) (full : ledger.Full) :
    ledger.append record expected = (ledger, .error .ledgerStoreUnavailable) := by
  simp [append, insert, free, full]

theorem append_known (free : ¬ ledger.Taken record) (room : ¬ ledger.Full)
    (hk : ledger.Known record.event.eventId) :
    ledger.append record expected = (ledger, .error (.duplicateEvent record.event.eventId)) := by
  simp [append, insert, free, room, hk]

theorem append_new (free : ¬ ledger.Taken record) (room : ¬ ledger.Full) (new : ¬ ledger.Known record.event.eventId) :
    (ledger.append record expected).1.rows = ledger.rows ++ [.ofRecord record] ∧
      (ledger.append record expected).2 = .ok () := by
  simp [append, insert, free, room, new]

end Ledger
end CorePlatform.Audit
