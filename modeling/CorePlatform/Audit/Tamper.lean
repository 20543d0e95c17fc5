import CorePlatform.Audit.Commit

/-! # An operator rewrites the table

The global check reads the heads from the `record_hash` column, the chain walk the records from
`record_json`. Each alone is tight; what neither looks at is whether the last row of a partition
shows the same hash in both places. -/

namespace CorePlatform.Audit

open Theory List Option

/-- Both checks pass: the global one against the checkpoint, and the walk of every listed
partition. -/
structure PassesChecks (sha256 : Sha256) (ledger : Ledger) (checkpoint : MerkleCheckpoint) : Prop where
  global : Clears (verifyGlobal sha256 ledger (.ok (some checkpoint)))
  partitions : ∀ partition hash, (partition, hash) ∈ ledger.partitionHeads →
    Clears (verifyPartition sha256 ledger partition)

/-- Every partition reads as the same events. A name that is blank is no partition key. -/
def SameEvents (before after : Ledger) : Prop :=
  ∀ partition, isBlank partition = false →
    ∃ xs ys, before.readPartition partition = .ok xs ∧ after.readPartition partition = .ok ys ∧
      xs.map (·.event.canonicalBytes) = ys.map (·.event.canonicalBytes)

/-- The last row of each listed partition has its record's hash in the column. -/
def Ledger.ColumnsMatch (ledger : Ledger) : Prop :=
  ∀ partition hash, (partition, hash) ∈ ledger.partitionHeads → ∀ row record,
    (ledger.partitionRows partition).getLast? = some row → row.recordJson = .record record →
    row.recordHash = record.link.recordHash

variable {sha256 : Sha256}

private theorem PassesChecks.chain {hash : RecordHash} (hp : PassesChecks sha256 ledger checkpoint)
    (hl : (part, hash) ∈ ledger.partitionHeads) :
    ∃ records row last, ledger.readPartition part = .ok records ∧ Chained sha256 .genesis records ∧
      (ledger.partitionRows part).getLast? = some row ∧ row.recordHash = hash ∧
      row.recordJson = .record last ∧ records.getLast? = some last := by
  obtain ⟨-, row, ends, column⟩ := Ledger.mem_partitionHeads.mp hl
  have clear := hp.partitions part hash hl
  cases read : ledger.readPartition part with
  | error =>
    obtain ⟨_, ans, -⟩ := clear
    rw [verifyPartition, read] at ans
    cases ans
  | ok records =>
    rw [verifyPartition_of_read read, walk_clears_iff] at clear
    have json := congrArg List.getLast? (Ledger.readPartition_ok_iff.mp read)
    rw [getLast?_map, getLast?_map, ends, map_some, eq_comm, map_eq_some_iff] at json
    obtain ⟨last, he, stored⟩ := json
    exact ⟨records, row, last, rfl, clear, ends, column, stored.symm, he⟩

private theorem read_of_unlisted {ledger : Ledger} (hn : isBlank part = false)
    (hu : ¬ ∃ hash, (part, hash) ∈ ledger.partitionHeads) : ledger.readPartition part = .ok [] := by
  have none : ledger.partitionRows part = [] := by
    by_contra nonempty
    rw [← getLast?_eq_none_iff] at nonempty
    obtain ⟨row, ends⟩ := ne_none_iff_exists'.mp nonempty
    exact hu ⟨_, Ledger.mem_partitionHeads.mpr ⟨hn, row, ends, rfl⟩⟩
  rw [Ledger.readPartition_ok_iff, none]
  rfl

/-- After both checks passed, the table holds the anchored events if and only if the last row of
each partition carries the hash of its record. -/
theorem sameEvents_iff_columnsMatch {s : Commit.State} (reached : (Commit.machine sha256).Reachable s)
    {anchoredAt : DateTime} {tampered : Ledger}
    (passes : PassesChecks sha256 tampered (.overHeads sha256 s.stores.ledger.partitionHeads anchoredAt))
    (sound : Sound sha256 (s.stores.ledger.hashed ∪ tampered.hashed ∪
      {rootBytes s.stores.ledger.partitionHeads, rootBytes tampered.partitionHeads})) :
    SameEvents s.stores.ledger tampered ↔ tampered.ColumnsMatch := by
  obtain ⟨journal, consistent⟩ := Commit.reachable_consistent reached
  have stores := consistent.stores
  have heads : tampered.partitionHeads.Perm s.stores.ledger.partitionHeads :=
    MerkleCheckpoint.verifyAgainst_perm (sound.fits _ (by simp)) (sound.free.mono Set.subset_union_right)
      (verifyGlobal_clears_iff.mp passes.global)
  constructor
  · intro sameEvents partition hash listed row record ends stored
    obtain ⟨records, _, last, read, chained, ends', column, stored', ended⟩ := passes.chain listed
    rw [ends'] at ends
    cases ends
    rw [stored'] at stored
    cases stored
    obtain ⟨named, -, head⟩ := stores.mem_partitionHeads.mp (heads.mem_iff.mp listed)
    obtain ⟨_, _, readX, readY, events⟩ := sameEvents partition named
    rw [stores.readPartition] at readX
    rw [read] at readY
    cases readX
    cases readY
    -- Equal events chain to one head, so the last hash is the one that was anchored.
    rw [column, head, Journal.head, (journal.chain_chained partition).head_eq chained events,
      headAfter_of_getLast? ended]
  · intro columnsMatch partition named
    by_cases listed : ∃ hash, (partition, hash) ∈ tampered.partitionHeads
    · obtain ⟨hash, listed⟩ := listed
      obtain ⟨records, row, last, read, chained, ends, column, stored, ended⟩ := passes.chain listed
      obtain ⟨-, -, head⟩ := stores.mem_partitionHeads.mp (heads.mem_iff.mp listed)
      have one : (headAfter .genesis (journal.chain partition)).hash = (headAfter .genesis records).hash := by
        rw [headAfter_of_getLast? ended, ← columnsMatch partition hash listed row last ends stored, column,
          head, Journal.head]
      have links := Set.union_subset_union (Ledger.hashedBy_subset (stores.readPartition partition))
        (Ledger.hashedBy_subset read)
      have contents := (journal.chain_chained partition).commits chained
        (sound.mono (links.trans Set.subset_union_left)) one
      have events := congrArg (List.map Prod.fst) contents
      rw [List.map_map, List.map_map] at events
      exact ⟨_, records, stores.readPartition partition, read, events⟩
    · have unlisted : ¬ ∃ hash, (partition, hash) ∈ s.stores.ledger.partitionHeads := by
        rintro ⟨hash, there⟩
        exact listed ⟨hash, heads.mem_iff.mpr there⟩
      exact ⟨[], [], read_of_unlisted named unlisted, read_of_unlisted named listed, rfl⟩

/-- The table after `oneCommit`, with the row's JSON replaced. -/
def rewritten (json : RecordJson) : Ledger where
  rows := [{ Row.ofRecord (signInRecord "e-1" .epoch) with recordJson := json }]
  primaryKey := List.pairwise_singleton _ _
  uniqueEventId := List.nodup_singleton _
  bounded := show 1 ≤ capacity by decide

private theorem oneCommit_run :
    ∃ s, (Commit.machine signInSha256).run Commit.start Commit.oneCommit = some s ∧
      s.stores.ledger = rewritten (.record (signInRecord "e-1" .epoch)) := by
  have ran : ((Commit.machine signInSha256).run Commit.start Commit.oneCommit).map (·.stores.ledger) =
      some (rewritten (.record (signInRecord "e-1" .epoch))) := by decide +kernel
  exact map_eq_some_iff.mp ran

private theorem rewritten_heads : ∀ eventId ∈ ["e-1", "e-2"],
    (rewritten (.record (signInRecord eventId .epoch))).partitionHeads = [("_global:1", signInHash)] := by
  decide +kernel

private theorem rewritten_verifies : ∀ eventId ∈ ["e-1", "e-2"],
    verifyPartition signInSha256 (rewritten (.record (signInRecord eventId .epoch))) "_global:1" =
      .ok (.verified 1) := by
  decide +kernel

private theorem rewritten_passes (first : eventId ∈ ["e-1", "e-2"]) :
    PassesChecks signInSha256 (rewritten (.record (signInRecord eventId .epoch)))
      (.overHeads signInSha256 (rewritten (.record (signInRecord "e-1" .epoch))).partitionHeads .epoch) := by
  have heads := rewritten_heads eventId first
  constructor
  · rw [verifyGlobal_clears_iff, heads, rewritten_heads "e-1" (by simp)]
    exact MerkleCheckpoint.overHeads_verifyAgainst
  · intro part hash hl
    rw [heads] at hl
    cases mem_singleton.mp hl
    exact ⟨_, rewritten_verifies eventId first, rfl⟩

private theorem rewritten_sound (first : eventId ∈ ["e-1", "e-2"]) :
    Sound signInSha256 ((rewritten (.record (signInRecord "e-1" .epoch))).hashed ∪
      (rewritten (.record (signInRecord eventId .epoch))).hashed ∪
      {rootBytes (rewritten (.record (signInRecord "e-1" .epoch))).partitionHeads,
        rootBytes (rewritten (.record (signInRecord eventId .epoch))).partitionHeads}) := by
  have links : ∀ id ∈ ["e-1", "e-2"], linkBytes (signInRecord id .epoch).link.prevHash
      (signInRecord id .epoch).event.canonicalBytes (signInRecord id .epoch).link.sequence ∈
        signInDigests.map Prod.fst := by decide +kernel
  have root : rootBytes [("_global:1", signInHash)] ∈ signInDigests.map Prod.fst := by simp [signInDigests]
  have hashed : ∀ id ∈ ["e-1", "e-2"], (rewritten (.record (signInRecord id .epoch))).hashed ⊆
      { bytes | bytes ∈ signInDigests.map Prod.fst } := by
    rintro id one bytes ⟨part, records, read, record, mem, rfl⟩
    obtain ⟨_, hl, stored⟩ := Ledger.row_of_read read mem
    cases mem_singleton.mp hl
    cases stored
    exact links id one
  have both := Set.union_subset (hashed "e-1" (by simp)) (hashed eventId first)
  refine signInSha256_sound.mono (Set.union_subset both ?_)
  rw [rewritten_heads eventId first, rewritten_heads "e-1" (by simp)]
  rintro bytes (rfl | rfl) <;> exact root

theorem sameEvents_iff_columnsMatch_untouched :
    ∃ s, (Commit.machine signInSha256).run Commit.start Commit.oneCommit = some s ∧
      (SameEvents s.stores.ledger (rewritten (.record (signInRecord "e-1" .epoch))) ↔
        (rewritten (.record (signInRecord "e-1" .epoch))).ColumnsMatch) := by
  obtain ⟨s, ran, ledger⟩ := oneCommit_run
  have passes := rewritten_passes (show "e-1" ∈ ["e-1", "e-2"] by simp)
  have sound := rewritten_sound (show "e-1" ∈ ["e-1", "e-2"] by simp)
  refine ⟨s, ran, ?_⟩
  rw [← ledger] at passes sound ⊢
  exact sameEvents_iff_columnsMatch ⟨_, _, rfl, ran⟩ passes sound

/-- Another event linked at the same place, its hash in the JSON and the old one in the column: both
checks pass, over a different history. -/
theorem rewrittenJson_passes :
    ∃ s, (Commit.machine signInSha256).run Commit.start Commit.oneCommit = some s ∧
      PassesChecks signInSha256 (rewritten (.record (signInRecord "e-2" .epoch)))
        (.overHeads signInSha256 s.stores.ledger.partitionHeads .epoch) ∧
      Sound signInSha256 (s.stores.ledger.hashed ∪ (rewritten (.record (signInRecord "e-2" .epoch))).hashed ∪
        {rootBytes s.stores.ledger.partitionHeads,
          rootBytes (rewritten (.record (signInRecord "e-2" .epoch))).partitionHeads}) ∧
      ¬ SameEvents s.stores.ledger (rewritten (.record (signInRecord "e-2" .epoch))) := by
  obtain ⟨s, ran, ledger⟩ := oneCommit_run
  refine ⟨s, ran, ?_, ?_, fun sameEvents => ?_⟩
  · rw [ledger]
    exact rewritten_passes (by simp)
  · rw [ledger]
    exact rewritten_sound (by simp)
  rw [ledger] at sameEvents
  obtain ⟨_, _, readX, readY, same⟩ := sameEvents "_global:1" (by decide)
  cases readX
  cases readY
  revert same
  decide +kernel

end CorePlatform.Audit
