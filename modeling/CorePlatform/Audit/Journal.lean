import Mathlib.Data.List.Infix
import CorePlatform.Audit.Verify

/-! # What the ledger is for

A journal is the history the table is meant to keep: records in the order they came in, each
partition's share one chain from genesis, no event twice. The table stores a journal when its rows
are the journal's records column by column; every statement run against it then has a plain meaning
on the journal. -/

namespace CorePlatform.Audit

structure Journal (sha256 : Sha256) where
  records : List AuditRecord
  chained : ∀ partition, Chained sha256 .genesis (records.filter (·.partition = partition))
  placed : ∀ record ∈ records, record.partition = .derive record.event.tenant record.event.category
  distinct : (records.map (·.event.eventId)).Nodup
  bounded : records.length ≤ capacity

namespace Journal

variable {sha256 : Sha256} (journal : Journal sha256)

def empty : Journal sha256 := ⟨[], fun _ => trivial, by simp, .nil, Nat.zero_le _⟩

def chain (partition : PartitionKey) : List AuditRecord :=
  journal.records.filter (·.partition = partition)

def head (partition : PartitionKey) : ChainHead := headAfter .genesis (journal.chain partition)

/-- A record that follows its partition's head and carries a new event may come next. -/
def extend (record : AuditRecord) (follows : record.Follows sha256 (journal.head record.partition))
    (placed : record.partition = .derive record.event.tenant record.event.category)
    (new : ∀ earlier ∈ journal.records, earlier.event.eventId ≠ record.event.eventId)
    (room : journal.records.length < capacity) : Journal sha256 where
  records := journal.records ++ [record]
  chained := by
    intro partition
    rw [List.filter_append, chained_append]
    refine ⟨journal.chained partition, ?_⟩
    by_cases own : record.partition = partition
    · rw [List.filter_cons_of_pos (by simpa using own)]
      exact ⟨by rw [← own]; exact follows, trivial⟩
    · rw [List.filter_cons_of_neg (by simpa using own)]
      trivial
  placed := by
    intro earlier member
    rcases List.mem_append.mp member with member | member
    · exact journal.placed earlier member
    · rw [List.mem_singleton.mp member]
      exact placed
  distinct := by
    rw [List.map_append, List.nodup_append]
    refine ⟨journal.distinct, List.nodup_singleton _, fun id member new' same => ?_⟩
    obtain ⟨earlier, stored, rfl⟩ := List.mem_map.mp member
    rw [List.mem_singleton.mp same]
    exact new earlier stored
  bounded := by
    rw [List.length_append]
    exact room

variable {journal}

theorem mem_chain : record ∈ journal.chain partition ↔ record ∈ journal.records ∧ record.partition = partition := by
  simp [chain]

theorem eq_of_eventId (ha : a ∈ journal.records) (hb : b ∈ journal.records) (eq : a.event.eventId = b.event.eventId) :
    a = b :=
  List.inj_on_of_nodup_map journal.distinct ha hb eq

theorem chain_chained (part : PartitionKey) : Chained sha256 .genesis (journal.chain part) :=
  journal.chained part

theorem chain_length_le (part : PartitionKey) : (journal.chain part).length ≤ capacity :=
  (List.length_filter_le _ _).trans journal.bounded

theorem chain_sequences (part : PartitionKey) :
    (journal.chain part).map (·.link.sequence.toNat) = List.range' 1 (journal.chain part).length := by
  have bound := journal.chain_length_le part
  have fits : ChainHead.genesis.sequence.toNat + (journal.chain part).length < 2 ^ 64 := by
    simp only [capacity] at bound
    simp only [ChainHead.genesis, UInt64.toNat_zero]
    omega
  simpa [ChainHead.genesis] using (journal.chain_chained part).sequences fits

theorem sequence_bounds (mem : record ∈ journal.chain part) :
    1 ≤ record.link.sequence.toNat ∧ record.link.sequence.toNat ≤ (journal.chain part).length := by
  have position : record.link.sequence.toNat ∈ (journal.chain part).map (·.link.sequence.toNat) :=
    List.mem_map_of_mem mem
  rw [chain_sequences, List.mem_range'_1] at position
  omega

theorem sequence_after (hw : journal.chain part = seen ++ record :: rest) :
    record.link.sequence.toNat = seen.length + 1 := by
  have positions := journal.chain_sequences part
  rw [hw] at positions
  have position := congrArg (·[seen.length]?) positions
  simpa [Nat.add_comm] using position

theorem sequence_headAfter (hb : seen <+: journal.chain partition) :
    (headAfter .genesis seen).sequence.toNat = seen.length := by
  obtain ⟨_, whole⟩ := hb
  rcases List.eq_nil_or_concat seen with rfl | ⟨he, last, rfl⟩
  · rfl
  · rw [List.concat_eq_append] at whole ⊢
    rw [List.append_assoc] at whole
    rw [headAfter_of_getLast? List.getLast?_concat, List.length_append]
    exact sequence_after whole.symm

end Journal

namespace Ledger

variable {sha256 : Sha256} {ledger : Ledger} {journal : Journal sha256}

/-- The rows are the journal's records, in the order they came in. -/
def Stores (ledger : Ledger) (journal : Journal sha256) : Prop :=
  ledger.rows = journal.records.map .ofRecord

theorem empty_stores : empty.Stores (.empty : Journal sha256) := rfl

private theorem toInt_sequence {sequence : UInt64} (hs : sequence.toNat ≤ capacity) :
    sequence.toInt64.toInt = sequence.toNat := by
  simp only [capacity] at hs
  simp only [Int64.toInt, BitVec.toInt, UInt64.toBitVec_toInt64, UInt64.toNat_toBitVec]
  omega

section

variable (stores : ledger.Stores journal)

include stores

theorem Stores.partitionRows (part : PartitionKey) :
    ledger.partitionRows part = (journal.chain part).map .ofRecord := by
  have rows : ledger.rows.filter (·.partitionKey = part) = (journal.chain part).map .ofRecord := by
    rw [stores, List.filter_map]
    rfl
  have ascending : (journal.chain part).Pairwise fun a b =>
      a.link.sequence.toNat < b.link.sequence.toNat := by
    rw [← List.pairwise_map (f := fun record : AuditRecord => record.link.sequence.toNat) (R := (· < ·)),
      journal.chain_sequences]
    exact List.pairwise_lt_range'
  rw [Ledger.partitionRows, rows]
  apply List.Pairwise.insertionSort_eq
  rw [List.pairwise_map]
  refine ascending.imp_of_mem fun {a b} ha hb less => ?_
  have bound := journal.chain_length_le part
  have hb := journal.sequence_bounds hb
  simp only [Row.ofRecord]
  rw [toInt_sequence (by omega), toInt_sequence (by omega)]
  omega

theorem Stores.head (partition : PartitionKey) : ledger.head partition = journal.head partition := by
  rw [Ledger.head, stores.partitionRows, Journal.head]
  rw [List.getLast?_map]
  cases ends : (journal.chain partition).getLast? with
  | none =>
    rw [List.getLast?_eq_none_iff.mp ends]
    rfl
  | some =>
    rw [headAfter_of_getLast? ends]
    simp [Row.ofRecord]

theorem Stores.readPartition (part : PartitionKey) : ledger.readPartition part = .ok (journal.chain part) := by
  rw [readPartition_ok_iff, stores.partitionRows, List.map_map]
  rfl

theorem Stores.grown {table : Ledger} {later : Journal sha256} (now : table.Stores later)
    (grown : journal.records <+: later.records) (part : PartitionKey) :
    ∃ records more, ledger.readPartition part = .ok records ∧ table.readPartition part = .ok (records ++ more) := by
  obtain ⟨more, eq⟩ := grown.filter (·.partition = part)
  exact ⟨_, more, stores.readPartition part, eq ▸ now.readPartition part⟩

theorem Stores.lookup (eventId : EventId) :
    ledger.lookup eventId = .ok (journal.records.find? (·.event.eventId = eventId)) := by
  rw [Ledger.lookup, stores, List.find?_map]
  have eq : (fun row : Row => decide (row.eventId = eventId)) ∘ Row.ofRecord =
      fun record => decide (record.event.eventId = eventId) := rfl
  rw [eq]
  cases journal.records.find? _ with
  | none | some => rfl

theorem Stores.lookup_eq_some :
    ledger.lookup eventId = .ok (some record) ↔ record ∈ journal.records ∧ record.event.eventId = eventId := by
  rw [stores.lookup, Except.ok.injEq]
  constructor
  · intro hit
    exact ⟨List.mem_of_find?_eq_some hit, by simpa using List.find?_some hit⟩
  rintro ⟨mem, eq⟩
  cases hit : journal.records.find? _ with
  | none => exact absurd eq (by simpa using List.find?_eq_none.mp hit record mem)
  | some found =>
    have other : found.event.eventId = eventId := by simpa using List.find?_some hit
    rw [journal.eq_of_eventId (List.mem_of_find?_eq_some hit) mem (other.trans eq.symm)]

theorem Stores.mem_rows : .ofRecord record ∈ ledger.rows ↔ record ∈ journal.records := by
  have injective : Function.Injective Row.ofRecord := fun a b eq => by
    simpa [Row.ofRecord] using congrArg Row.recordJson eq
  rw [stores, List.mem_map_of_injective injective]

theorem Stores.known : ledger.Known eventId ↔ ∃ record ∈ journal.records, record.event.eventId = eventId := by
  rw [Known, stores]
  simp [Row.ofRecord]

theorem Stores.taken :
    ledger.Taken record ↔
      ∃ earlier ∈ journal.chain record.partition, earlier.link.sequence = record.link.sequence := by
  have cast_inj : ∀ m n : UInt64, m.toInt64 = n.toInt64 ↔ m = n := fun m n =>
    ⟨fun eq => by simpa using congrArg Int64.toUInt64 eq, congrArg _⟩
  rw [Taken, stores]
  simp [Row.ofRecord, Row.slot, Journal.mem_chain, and_assoc, cast_inj]

theorem Stores.full : ledger.Full ↔ journal.records.length = capacity := by
  rw [Full, stores, List.length_map]

theorem Stores.mem_partitionHeads {hash : RecordHash} :
    (part, hash) ∈ ledger.partitionHeads ↔
      isBlank part = false ∧ journal.chain part ≠ [] ∧ hash = (journal.head part).hash := by
  rw [Ledger.mem_partitionHeads, stores.partitionRows, List.getLast?_map]
  refine and_congr_right fun _ => ?_
  cases ends : (journal.chain part).getLast? with
  | none => simp [List.getLast?_eq_none_iff.mp ends]
  | some =>
    have nonempty : journal.chain part ≠ [] := by
      intro empty
      rw [empty] at ends
      cases ends
    rw [Journal.head, headAfter_of_getLast? ends]
    simp [nonempty, Row.ofRecord, eq_comm]

theorem Stores.verifyPartition (part : PartitionKey) :
    Audit.verifyPartition sha256 ledger part = .ok (.verified (UInt64.ofNat (journal.chain part).length)) := by
  have last := journal.sequence_headAfter (List.prefix_refl (journal.chain part))
  rw [verifyPartition_of_read (stores.readPartition part),
    walk_chained (journal.chain_chained part), ← last, UInt64.ofNat_toNat]

end

theorem heads_of_growth {before after : Ledger} {shorter longer : Journal sha256}
    (hs : before.Stores shorter) (hst : after.Stores longer)
    (hg : shorter.records <+: longer.records) (more : shorter.records ≠ longer.records)
    (inv : Sound sha256 (before.hashed ∪ after.hashed)) :
    ¬ after.partitionHeads.Perm before.partitionHeads := by
  intro heads
  obtain ⟨rest, whole⟩ := hg
  cases rest with
  | nil => exact more (by rw [← whole, List.append_nil])
  | cons record rest =>
    have mem : record ∈ longer.records := by rw [← whole]; simp
    have hn : isBlank record.partition = false := by
      rw [longer.placed record mem]
      exact PartitionKey.derive_not_blank
    have chain : longer.chain record.partition = shorter.chain record.partition ++
        record :: rest.filter (·.partition = record.partition) := by
      rw [Journal.chain, ← whole, List.filter_append, List.filter_cons_of_pos (by simp)]
      rfl
    have hl := hst.mem_partitionHeads.mpr ⟨hn, by rw [chain]; simp, rfl⟩
    obtain ⟨-, -, hash⟩ := hs.mem_partitionHeads.mp (heads.mem_iff.mp hl)
    have used : hashedBy (longer.chain record.partition) ∪ hashedBy (shorter.chain record.partition) ⊆
        before.hashed ∪ after.hashed := by
      rw [Set.union_comm]
      exact Set.union_subset_union (hashedBy_subset (hs.readPartition _)) (hashedBy_subset (hst.readPartition _))
    have contents := (longer.chain_chained record.partition).commits
      (shorter.chain_chained record.partition) (inv.mono used) hash
    have lengths := congrArg List.length contents
    simp [chain] at lengths

end Ledger
end CorePlatform.Audit
