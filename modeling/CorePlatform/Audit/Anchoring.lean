import CorePlatform.Audit.Commit

/-! # Checkpoints, anchors and the global check

Beside the writers run calls of `create_and_anchor`, which anchor a checkpoint over the partition
heads, and of `verify_global`, which compare the heads with the latest anchored checkpoint. Both
take two steps, and writers move in between.

The check is for equality: it clears a table only if no row has been added since the heads were read
that the latest checkpoint stands for. -/

namespace CorePlatform.Audit

open Theory Function

/-- A `CheckpointAnchor` port: anchoring makes the new checkpoint the latest, or leaves the
latest as it was. -/
structure CheckpointAnchor where
  Store : Type
  empty : Store
  anchor : Store → MerkleCheckpoint → Store
  latestAnchored : Store → Option MerkleCheckpoint
  latest_empty : latestAnchored empty = none
  latest_anchor : ∀ store new checkpoint, latestAnchored (anchor store new) = some checkpoint →
    checkpoint = new ∨ latestAnchored store = some checkpoint

namespace PgCheckpointAnchor

/-- Rows of `checkpoint_anchors` with their `created_at_ms`, the last inserted first. -/
abbrev Table := List (Int × MerkleCheckpoint)

/-- `ON CONFLICT created_at_ms DO NOTHING`. -/
def anchor (table : Table) (checkpoint : MerkleCheckpoint) : Table :=
  if ∃ row ∈ table, row.1 = checkpoint.createdAt.timestampMillis then table
  else (checkpoint.createdAt.timestampMillis, checkpoint) :: table

/-- `ORDER BY created_at_ms DESC LIMIT 1`. -/
def latestRow : Table → Option (Int × MerkleCheckpoint)
  | [] => none
  | row :: rest =>
    match latestRow rest with
    | none => some row
    | some later => if later.1 < row.1 then some row else some later

def port : CheckpointAnchor where
  Store := Table
  empty := []
  anchor := anchor
  latestAnchored table := (latestRow table).map Prod.snd
  latest_empty := rfl
  latest_anchor := by
    intro table new checkpoint latest
    unfold anchor at latest
    split at latest
    · exact .inr latest
    cases rest : latestRow table with
    | none =>
      simp only [latestRow, rest, Option.map_some, Option.some.injEq] at latest
      exact .inl latest.symm
    | some later =>
      simp only [latestRow, rest] at latest
      split at latest
      · exact .inl (Option.some.inj latest).symm
      · exact .inr latest

end PgCheckpointAnchor

namespace Anchoring

/-- Next to each checkpoint stands the table its heads were read from. -/
structure State (port : CheckpointAnchor) where
  commits : Commit.State
  /-- `create_and_anchor` calls that have read the heads. -/
  pending : Nat → Option (MerkleCheckpoint × Ledger)
  anchors : port.Store
  anchored : List (MerkleCheckpoint × Ledger)
  /-- `verify_global` calls that have read the heads. -/
  verifying : Nat → Option Ledger
  reports : List (Ledger × Except AuditError IntegrityReport)

inductive Action where
  | commit (action : Commit.Action)
  | createCheckpoint (id : Nat) (now : DateTime)
  | anchor (id : Nat) (service : Commit.Service)
  | readHeads (id : Nat)
  | compare (id : Nat)

variable (sha256 : Sha256) (port : CheckpointAnchor)

def step (s : State port) : Action → Option (State port)
  | .commit action => (Commit.step sha256 s.commits action).map fun commits => { s with commits }
  | .createCheckpoint id now =>
    let ledger := s.commits.stores.ledger
    some { s with
      pending := update s.pending id (some (.overHeads sha256 ledger.partitionHeads now, ledger)) }
  | .anchor id service =>
    match s.pending id with
    | none => none
    | some (checkpoint, ledger) =>
      let s := { s with pending := update s.pending id none }
      match service with
      | .refused => some s
      | .served | .replyLost =>
        some { s with
          anchors := port.anchor s.anchors checkpoint
          anchored := (checkpoint, ledger) :: s.anchored }
  | .readHeads id =>
    some { s with verifying := update s.verifying id (some s.commits.stores.ledger) }
  | .compare id =>
    match s.verifying id with
    | none => none
    | some ledger =>
      some { s with
        verifying := update s.verifying id none
        reports :=
          (ledger, verifyGlobal sha256 ledger (.ok (port.latestAnchored s.anchors))) :: s.reports }

def start : State port := ⟨Commit.start, fun _ => none, port.empty, [], fun _ => none, []⟩

def machine : Machine (State port) Action := ⟨(· = start port), step sha256 port⟩

variable {port}

def NoAlarm (s : State port) : Prop :=
  ∀ ledger report, (ledger, .ok report) ∈ s.reports → report.status ≠ .checkpointDivergence

/-- The comparison about to be made is between heads of one table: no row was added between the two
readings, in either order. -/
def Current (s : State port) (a : Action) : Prop :=
  ∀ id ledger checkpoint, a = .compare id → s.verifying id = some ledger →
    port.latestAnchored s.anchors = some checkpoint →
    ∃ snapshot, (checkpoint, snapshot) ∈ s.anchored ∧ snapshot.rows = ledger.rows

variable {sha256} {s : State port} {journal : Journal sha256}

def Past (journal : Journal sha256) (ledger : Ledger) : Prop :=
  ∃ earlier : Journal sha256, ledger.Stores earlier ∧ earlier.records <+: journal.records

def TakenOver (journal : Journal sha256) (checkpoint : MerkleCheckpoint) (ledger : Ledger) : Prop :=
  Past journal ledger ∧ checkpoint = .overHeads sha256 ledger.partitionHeads checkpoint.createdAt

structure Consistent (s : State port) (journal : Journal sha256) : Prop where
  commits : Commit.Consistent s.commits journal
  pending : ∀ id checkpoint ledger, s.pending id = some (checkpoint, ledger) → TakenOver journal checkpoint ledger
  anchored : ∀ checkpoint ledger, (checkpoint, ledger) ∈ s.anchored → TakenOver journal checkpoint ledger
  verifying : ∀ id ledger, s.verifying id = some ledger → Past journal ledger
  latest : ∀ checkpoint, port.latestAnchored s.anchors = some checkpoint → ∃ ledger, (checkpoint, ledger) ∈ s.anchored

theorem start_consistent : Consistent (start port) (.empty : Journal sha256) where
  commits := Commit.start_consistent
  pending _ _ _ found := by cases found
  anchored _ _ found := by cases found
  verifying _ _ found := by cases found
  latest checkpoint found := by
    rw [start, port.latest_empty] at found
    cases found

theorem Past.mono {hl : Journal sha256} (past : Past journal ledger) (hg : journal.records <+: hl.records) :
    Past hl ledger := by
  obtain ⟨he, stores, hb⟩ := past
  exact ⟨he, stores, hb.trans hg⟩

theorem Consistent.present (inv : Consistent s journal) : Past journal s.commits.stores.ledger :=
  ⟨journal, inv.commits.stores, List.prefix_refl _⟩

theorem step_consistent (inv : Consistent s journal) (hs : step sha256 port s a = some next) :
    ∃ later : Journal sha256, Consistent next later := by
  cases a with
  | commit =>
    obtain ⟨_, hm, rfl⟩ := Option.map_eq_some_iff.mp hs
    obtain ⟨later, hg, after⟩ := (Commit.step_steps hm).consistent inv.commits
    exact ⟨later, after,
      fun id cp ledger hf =>
        (inv.pending id cp ledger hf).imp_left (·.mono hg),
      fun cp ledger hf => (inv.anchored cp ledger hf).imp_left (·.mono hg),
      fun id ledger hf => (inv.verifying id ledger hf).mono hg, inv.latest⟩
  | createCheckpoint =>
    cases hs
    refine ⟨journal, { inv with pending := fun other cp ledger hf => ?_ }⟩
    rcases update_cases hf with ⟨-, new⟩ | ⟨-, old⟩
    · cases new
      exact ⟨inv.present, rfl⟩
    · exact inv.pending other cp ledger old
  | anchor id svc =>
    simp only [step] at hs
    cases ht : s.pending id with
    | none => rw [ht] at hs; cases hs
    | some entry =>
      obtain ⟨cp, ledger⟩ := entry
      rw [ht] at hs
      have pending : ∀ other cp ledger,
          update s.pending id none other = some (cp, ledger) →
          TakenOver journal cp ledger := by
        intro other cp ledger hf
        exact inv.pending other cp ledger (of_update_none hf)
      have added : Consistent { s with
          pending := update s.pending id none
          anchors := port.anchor s.anchors cp
          anchored := (cp, ledger) :: s.anchored } journal := by
        refine { inv with pending, anchored := ?_, latest := ?_ }
        · intro other table hf
          rcases List.mem_cons.mp hf with new | old
          · cases new
            exact inv.pending id _ _ ht
          · exact inv.anchored other table old
        intro other hf
        rcases port.latest_anchor _ _ _ hf with rfl | old
        · exact ⟨ledger, .head _⟩
        · obtain ⟨table, mem⟩ := inv.latest other old
          exact ⟨table, .tail _ mem⟩
      cases svc with
      | refused => cases hs; exact ⟨journal, { inv with pending }⟩
      | served | replyLost => cases hs; exact ⟨journal, added⟩
  | readHeads =>
    cases hs
    refine ⟨journal, { inv with verifying := fun other ledger hf => ?_ }⟩
    rcases update_cases hf with ⟨-, new⟩ | ⟨-, old⟩
    · cases new
      exact inv.present
    · exact inv.verifying other ledger old
  | compare id =>
    simp only [step] at hs
    cases reading : s.verifying id with
    | none => rw [reading] at hs; cases hs
    | some =>
      rw [reading] at hs
      cases hs
      refine ⟨journal, { inv with verifying := fun other table hf => ?_ }⟩
      exact inv.verifying other table (of_update_none hf)

private theorem compare_clears (inv : Consistent s journal) {id : Nat} (hr : s.verifying id = some ledger)
    (hc : Current s (.compare id)) :
    Clears (verifyGlobal sha256 ledger (.ok (port.latestAnchored s.anchors))) := by
  cases latest : port.latestAnchored s.anchors with
  | none => exact ⟨_, rfl, rfl⟩
  | some cp =>
    obtain ⟨snap, mem, eq⟩ := hc id ledger cp rfl hr latest
    obtain ⟨-, ht⟩ := inv.anchored cp snap mem
    cases Ledger.eq_of_rows eq
    rw [verifyGlobal_clears_iff, ht]
    exact MerkleCheckpoint.overHeads_verifyAgainst

/-- What has been hashed for the checkpoints and the checks so far. -/
def hashed (s : State port) : Set (List UInt8) :=
  { bytes | ∃ ledger : Ledger,
      ((∃ checkpoint, (checkpoint, ledger) ∈ s.anchored) ∨ ∃ report, (ledger, report) ∈ s.reports) ∧
      (bytes ∈ ledger.hashed ∨ bytes = rootBytes ledger.partitionHeads) }

private theorem past_diverges (hp : Past journal snap) (hpa : Past journal ledger)
    (ne : snap.rows ≠ ledger.rows)
    (inv : Sound sha256 (snap.hashed ∪ ledger.hashed ∪
      {rootBytes snap.partitionHeads, rootBytes ledger.partitionHeads})) (createdAt : DateTime) :
    (MerkleCheckpoint.overHeads sha256 snap.partitionHeads createdAt).verifyAgainst sha256
      ledger.partitionHeads ≠ .ok () := by
  intro agrees
  have heads := MerkleCheckpoint.verifyAgainst_perm (inv.fits _ (by simp))
    (inv.free.mono Set.subset_union_right) agrees
  have links := inv.mono Set.subset_union_left
  obtain ⟨journalS, storesS, beforeS⟩ := hp
  obtain ⟨journalL, storesL, beforeL⟩ := hpa
  have records : journalS.records ≠ journalL.records := fun eq =>
    ne (by rw [storesS, storesL, eq])
  rcases List.prefix_or_prefix_of_prefix beforeS beforeL with hg | hg
  · exact Ledger.heads_of_growth storesS storesL hg records links heads
  · exact Ledger.heads_of_growth storesL storesS hg records.symm (by rwa [Set.union_comm]) heads.symm

private theorem step_of_reading {id : Nat} (hr : s.verifying id = some ledger) :
    step sha256 port s (.compare id) = some { s with
      verifying := update s.verifying id none
      reports :=
        (ledger, verifyGlobal sha256 ledger (.ok (port.latestAnchored s.anchors))) :: s.reports } := by
  simp only [step, hr]

private theorem stale_alarms (inv : Consistent s journal) (hs : ¬ Current s a) :
    ∃ next, step sha256 port s a = some next ∧ ¬ (NoAlarm next ∧ Sound sha256 (hashed next)) := by
  simp only [Current, not_forall, not_exists, not_and] at hs
  obtain ⟨id, ledger, cp, rfl, reading, latest, other⟩ := hs
  obtain ⟨snap, mem⟩ := inv.latest cp latest
  obtain ⟨past, ht⟩ := inv.anchored cp snap mem
  refine ⟨_, step_of_reading reading, ?_⟩
  rw [latest]
  rintro ⟨noAlarm, hso⟩
  have used : snap.hashed ∪ ledger.hashed ∪
      {rootBytes snap.partitionHeads, rootBytes ledger.partitionHeads} ⊆ hashed
        { s with
          verifying := update s.verifying id none
          reports := (ledger, verifyGlobal sha256 ledger (.ok (some cp))) :: s.reports } := by
    rintro bytes ((link | link) | (rfl | rfl))
    · exact ⟨snap, .inl ⟨_, mem⟩, .inl link⟩
    · exact ⟨ledger, .inr ⟨_, .head _⟩, .inl link⟩
    · exact ⟨snap, .inl ⟨_, mem⟩, .inr rfl⟩
    · exact ⟨ledger, .inr ⟨_, .head _⟩, .inr rfl⟩
  have diverges := past_diverges past (inv.verifying id ledger reading) (other snap mem) (hso.mono used) cp.createdAt
  rw [← ht] at diverges
  cases verdict : cp.verifyAgainst sha256 ledger.partitionHeads with
  | ok => exact diverges verdict
  | error =>
    cases MerkleCheckpoint.verifyAgainst_error verdict
    refine noAlarm ledger ⟨.checkpointDivergence, 0, none, some cp.root⟩ ?_ rfl
    simp [verifyGlobal, verdict]

private theorem step_reports (hs : step sha256 port s a = some next) :
    next.reports = s.reports ∨ ∃ id ledger, a = .compare id ∧ s.verifying id = some ledger ∧
      next.reports = (ledger, verifyGlobal sha256 ledger (.ok (port.latestAnchored s.anchors))) :: s.reports := by
  cases a with
  | commit =>
    obtain ⟨_, -, rfl⟩ := Option.map_eq_some_iff.mp hs
    exact .inl rfl
  | createCheckpoint id now | readHeads id => cases hs; exact .inl rfl
  | anchor id svc =>
    simp only [step] at hs
    cases ht : s.pending id with
    | none => rw [ht] at hs; cases hs
    | some =>
      rw [ht] at hs
      cases svc <;> cases hs <;> exact .inl rfl
  | compare id =>
    simp only [step] at hs
    cases reading : s.verifying id with
    | none => rw [reading] at hs; cases hs
    | some ledger =>
      rw [reading] at hs
      cases hs
      exact .inr ⟨id, ledger, rfl, reading, rfl⟩

private theorem step_noAlarm (inv : Consistent s journal) (hn : NoAlarm s) (hc : Current s a)
    (hs : step sha256 port s a = some next) : NoAlarm next := by
  unfold NoAlarm
  rcases step_reports hs with eq | ⟨id, ledger, rfl, reading, reported⟩
  · rw [eq]
    exact hn
  intro table report hf
  rw [reported] at hf
  cases List.mem_cons.mp hf with
  | inl new =>
    obtain ⟨_, ans, verified⟩ := compare_clears inv reading hc
    rw [ans] at new
    cases new
    rw [verified]
    nofun
  | inr old => exact hn table report old

/-- Along a run, no check reports a divergence if each compares heads of one table; and only then,
if the digest is sound on what the run hashes. -/
theorem noAlarm_iff_current (trace : List Action) :
    ((machine sha256 port).Meets Current (start port) trace →
      (machine sha256 port).Always NoAlarm (start port) trace) ∧
    ((machine sha256 port).Always (fun s => Sound sha256 (hashed s)) (start port) trace →
      (machine sha256 port).Always NoAlarm (start port) trace →
      (machine sha256 port).Meets Current (start port) trace) := by
  constructor
  · apply Machine.always_of_keeps (fun s => (∃ journal : Journal sha256, Consistent s journal) ∧ NoAlarm s)
    · rintro s a next ⟨⟨journal, consistent⟩, noAlarm⟩ current stepped
      exact ⟨step_consistent consistent stepped, step_noAlarm consistent noAlarm current stepped⟩
    · intro s holds
      exact holds.2
    · exact ⟨⟨.empty, start_consistent⟩, fun _ _ found => by cases found⟩
  · intro sound noAlarm
    apply Machine.meets_of_always (fun s => ∃ journal : Journal sha256, Consistent s journal) ?_ ?_
      ⟨.empty, start_consistent⟩ (noAlarm.and sound)
    · rintro s a next ⟨journal, consistent⟩ stepped
      exact step_consistent consistent stepped
    · rintro s a ⟨journal, consistent⟩ - stale
      exact stale_alarms consistent stale

def Holds (s : State port) (checkpoint : MerkleCheckpoint) (ledger : Ledger) : Prop :=
  (∃ id, s.pending id = some (checkpoint, ledger)) ∨ (checkpoint, ledger) ∈ s.anchored

theorem step_holds (hs : step sha256 port s a = some next) (holds : Holds next checkpoint ledger) :
    Holds s checkpoint ledger ∨ ledger = s.commits.stores.ledger := by
  cases a with
  | commit =>
    obtain ⟨_, -, rfl⟩ := Option.map_eq_some_iff.mp hs
    exact .inl holds
  | createCheckpoint =>
    cases hs
    rcases holds with ⟨other, hf⟩ | mem
    · rcases update_cases hf with ⟨-, new⟩ | ⟨-, old⟩
      · cases new
        exact .inr rfl
      · exact .inl (.inl ⟨other, old⟩)
    · exact .inl (.inr mem)
  | anchor id svc =>
    simp only [step] at hs
    split at hs
    · cases hs
    rename_i cp table ht
    cases svc with
    | refused =>
      cases hs
      exact .inl (holds.imp_left fun ⟨other, hf⟩ => ⟨other, of_update_none hf⟩)
    | served | replyLost =>
      cases hs
      rcases holds with ⟨other, hf⟩ | mem
      · exact .inl (.inl ⟨other, of_update_none hf⟩)
      · rcases List.mem_cons.mp mem with new | old
        · cases new
          exact .inl (.inl ⟨id, ht⟩)
        · exact .inl (.inr old)
  | readHeads =>
    cases hs
    exact .inl holds
  | compare =>
    simp only [step] at hs
    split at hs
    · cases hs
    · cases hs
      exact .inl holds

theorem holds_past (ran : (machine sha256 port).run (start port) trace = some s) (holds : Holds s checkpoint ledger) :
    ∃ first rest past, trace = first ++ rest ∧ (machine sha256 port).run (start port) first = some past ∧
      past.commits.stores.ledger = ledger := by
  induction trace using List.reverseRecOn generalizing s with
  | nil =>
    cases ran
    rcases holds with ⟨_, hf⟩ | mem
    · cases hf
    · cases mem
  | append_singleton before a ih =>
    rw [Machine.run_append] at ran
    obtain ⟨middle, ranBefore, last⟩ := Option.bind_eq_some_iff.mp ran
    obtain ⟨_, stepped, eq⟩ := Machine.run_cons_iff _ |>.mp last
    cases eq
    rcases step_holds stepped holds with old | new
    · obtain ⟨first, rest, past, split, reached, same⟩ := ih ranBefore old
      exact ⟨first, rest ++ [a], past, by rw [split, List.append_assoc], reached, same⟩
    · exact ⟨before, [a], middle, rfl, ranBefore, new.symm⟩

/-- The latest anchored checkpoint is over the heads of a table that the run had at some point, and
from which the present one has grown, partition by partition, whatever the writers did meanwhile. -/
theorem checkpoint_vouches_for_past {trace : List Action}
    (ran : (machine sha256 port).run (start port) trace = some s)
    (latest : port.latestAnchored s.anchors = some checkpoint) :
    ∃ first rest past, trace = first ++ rest ∧ (machine sha256 port).run (start port) first = some past ∧
      checkpoint.verifyAgainst sha256 past.commits.stores.ledger.partitionHeads = .ok () ∧
      ∀ partition, ∃ records more, past.commits.stores.ledger.readPartition partition = .ok records ∧
        s.commits.stores.ledger.readPartition partition = .ok (records ++ more) := by
  have keeps (s : State port) (a : Action) (next : State port) (kept : ∃ journal : Journal sha256, Consistent s journal)
      (_ : True) (hs : step sha256 port s a = some next) : ∃ later : Journal sha256, Consistent next later := by
    obtain ⟨_, kept⟩ := kept
    exact step_consistent kept hs
  obtain ⟨journal, inv⟩ := Machine.run_keeps keeps ⟨.empty, start_consistent⟩ (Machine.meets_true _) ran
  obtain ⟨ledger, mem⟩ := inv.latest checkpoint latest
  obtain ⟨first, rest, past, split, reached, rfl⟩ := holds_past ran (.inr mem)
  obtain ⟨⟨earlier, stores, grown⟩, taken⟩ := inv.anchored checkpoint _ mem
  refine ⟨first, rest, past, split, reached, ?_, stores.grown inv.commits.stores grown⟩
  rw [taken]
  exact MerkleCheckpoint.overHeads_verifyAgainst

/-- A checkpoint over the empty table, one commit, and a checkpoint over the record. -/
def anchoredTwice : List Action :=
  [.createCheckpoint 0 .epoch, .anchor 0 .served] ++ Commit.oneCommit.map .commit ++
    [.createCheckpoint 1 ((DateTime.fromTimestamp 1 0).getD .epoch), .anchor 1 .replyLost]

theorem checkpoint_vouches_for_one_record : ∃ s checkpoint first rest past,
    (machine signInSha256 PgCheckpointAnchor.port).run (start PgCheckpointAnchor.port) anchoredTwice = some s ∧
    PgCheckpointAnchor.port.latestAnchored s.anchors = some checkpoint ∧ checkpoint.createdAt.secs = 1 ∧
    anchoredTwice = first ++ rest ∧
    (machine signInSha256 PgCheckpointAnchor.port).run (start PgCheckpointAnchor.port) first = some past ∧
    checkpoint.verifyAgainst signInSha256 past.commits.stores.ledger.partitionHeads = .ok () := by
  obtain ⟨s, ran, checkpoint, latest, dated⟩ : ∃ s, (machine signInSha256 PgCheckpointAnchor.port).run
      (start PgCheckpointAnchor.port) anchoredTwice = some s ∧
      ∃ checkpoint, PgCheckpointAnchor.port.latestAnchored s.anchors = some checkpoint ∧
        checkpoint.createdAt.secs = 1 := by decide +kernel
  obtain ⟨first, rest, past, split, reached, verified, -⟩ := checkpoint_vouches_for_past ran latest
  exact ⟨s, checkpoint, first, rest, past, ran, latest, dated, split, reached, verified⟩

/-- A checkpoint over the empty table, one commit, one check. -/
def checkAfterCommit : List Action :=
  [.createCheckpoint 0 .epoch, .anchor 0 .served] ++ Commit.oneCommit.map .commit ++ [.readHeads 0, .compare 0]

theorem checkAfterCommit_alarms :
    ∃ s, (machine signInSha256 PgCheckpointAnchor.port).run (start PgCheckpointAnchor.port) checkAfterCommit =
      some s ∧ ¬ NoAlarm s := by
  obtain ⟨s, ran, ⟨ledger, answer⟩, member, _, same, alarm⟩ : ∃ s, (machine signInSha256 PgCheckpointAnchor.port).run
      (start PgCheckpointAnchor.port) checkAfterCommit = some s ∧ ∃ entry ∈ s.reports, ∃ report,
        entry.2.toOption = some report ∧ report.status = .checkpointDivergence := by decide +kernel
  refine ⟨s, ran, fun noAlarm => ?_⟩
  cases answer with
  | error => cases same
  | ok =>
    cases same
    exact noAlarm _ _ member alarm

end Anchoring
end CorePlatform.Audit
