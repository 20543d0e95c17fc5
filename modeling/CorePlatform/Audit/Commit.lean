import CorePlatform.Theory.Machine
import CorePlatform.Audit.Journal

/-! # Committing an event

`commit_event` touches the stores in four steps: look the event up, read the partition head, append,
archive. Any number of calls run against one ledger and one archive, in any order. A step can be
refused, or be carried out with the reply lost, and a call can stop for good anywhere. -/

namespace CorePlatform.Audit

open Theory Transport

structure RecordProof where
  eventId : EventId
  partition : PartitionKey
  sequence : UInt64
  recordHash : RecordHash
  committedAt : DateTime
  deriving DecidableEq

def proofOf (record : AuditRecord) : RecordProof where
  eventId := record.event.eventId
  partition := record.partition
  sequence := record.link.sequence
  recordHash := record.link.recordHash
  committedAt := record.recordedAt

inductive CommitOutcome where
  | committed (proof : RecordProof)
  | alreadyRecorded (proof : RecordProof)
  deriving DecidableEq

def CommitOutcome.proof : CommitOutcome → RecordProof
  | committed proof | alreadyRecorded proof => proof

/-- What the ingest consumer makes of a commit. -/
def ingestOutcome (result : Except AuditError CommitOutcome) : ProcessOutcome :=
  .fromResult (result.map fun _ => ())

def maxAppendRetries : Nat := 8

namespace Commit

inductive Stage where
  | lookup
  | head (attempt : Nat)
  | append (attempt : Nat) (record : AuditRecord) (head : ChainHead)
  | archive (record : AuditRecord)
  | returned (result : Except AuditError CommitOutcome)
  | crashed
  deriving DecidableEq

structure Call where
  event : AuditEvent
  stage : Stage

structure Stores where
  ledger : Ledger
  archive : List AuditRecord

/-- How a store serves a step. -/
inductive Service where
  | served
  | refused
  | replyLost
  deriving DecidableEq

/-- One step of a call for `event`, with the clock at `now`. -/
def advance (sha256 : Sha256) (stores : Stores) (event : AuditEvent) (now : DateTime) (service : Service) :
    Stage → Option (Stores × Stage)
  | .lookup =>
    match service with
    | .served =>
      match stores.ledger.lookup event.eventId with
      | .ok (some existing) =>
        some (stores, .returned (.ok (.alreadyRecorded (proofOf existing))))
      | .ok none => some (stores, .head 0)
      | .error e => some (stores, .returned (.error e))
    | _ => some (stores, .returned (.error .ledgerStoreUnavailable))
  | .head attempt =>
    match service with
    | .served =>
      let partition := PartitionKey.derive event.tenant event.category
      let head := stores.ledger.head partition
      some (stores, .append attempt (AuditRecord.append sha256 event partition head now).1 head)
    | _ => some (stores, .returned (.error .ledgerStoreUnavailable))
  | .append attempt record head =>
    let (ledger, answer) := stores.ledger.append record head
    match service with
    | .served =>
      some ({ stores with ledger },
        match answer with
        | .ok () => .archive record
        | .error (.chainHeadConflict partition) =>
          if attempt + 1 < maxAppendRetries then .head (attempt + 1)
          else .returned (.error (.chainHeadConflict partition))
        | .error other => .returned (.error other))
    | .refused => some (stores, .returned (.error .ledgerStoreUnavailable))
    | .replyLost => some ({ stores with ledger }, .returned (.error .ledgerStoreUnavailable))
  | .archive record =>
    match service with
    | .served =>
      some ({ stores with archive := stores.archive ++ [record] }, .returned (.ok (.committed (proofOf record))))
    | .refused => some (stores, .returned (.error .archiveUnavailable))
    | .replyLost =>
      some ({ stores with archive := stores.archive ++ [record] }, .returned (.error .archiveUnavailable))
  | .returned _ => none
  | .crashed => none

structure State where
  stores : Stores
  calls : Nat → Option Call

inductive Action where
  | begin (id : Nat) (event : AuditEvent)
  | advance (id : Nat) (now : DateTime) (service : Service)
  | crash (id : Nat)

def State.setCall (s : State) (id : Nat) (call : Call) : Nat → Option Call :=
  Function.update s.calls id (some call)

def State.returned (s : State) (id : Nat) : Option (Except AuditError CommitOutcome) :=
  match s.calls id with
  | some ⟨_, .returned result⟩ => some result
  | _ => none

def step (sha256 : Sha256) (s : State) : Action → Option State
  | .begin id event =>
    match s.calls id with
    | none => some { s with calls := s.setCall id ⟨event, .lookup⟩ }
    | some _ => none
  | .advance id now service =>
    match s.calls id with
    | none => none
    | some call =>
      (advance sha256 s.stores call.event now service call.stage).map fun (stores, stage) =>
        { stores, calls := s.setCall id { call with stage } }
  | .crash id =>
    match s.calls id with
    | none => none
    | some call =>
      match call.stage with
      | .returned _ | .crashed => none
      | _ => some { s with calls := s.setCall id { call with stage := .crashed } }

def start : State := ⟨⟨.empty, []⟩, fun _ => none⟩

/-- The ledger with its writers, from an empty table on. -/
def machine (sha256 : Sha256) : Machine State Action := ⟨(· = start), step sha256⟩

section

variable (sha256 : Sha256) (stores : Stores) (event : AuditEvent) (now : DateTime)

inductive Advances : Service → Stage → Stores → Stage → Prop where
  | found (hit : stores.ledger.lookup event.eventId = .ok (some existing)) :
      Advances .served .lookup stores (.returned (.ok (.alreadyRecorded (proofOf existing))))
  | unreadable (bad : stores.ledger.lookup event.eventId = .error e) :
      Advances .served .lookup stores (.returned (.error e))
  | missing (miss : stores.ledger.lookup event.eventId = .ok none) :
      Advances .served .lookup stores (.head 0)
  | headRead (attempt : Nat) (derived : partition = .derive event.tenant event.category)
      (current : head = stores.ledger.head partition) :
      Advances .served (.head attempt) stores
        (.append attempt (AuditRecord.append sha256 event partition head now).1 head)
  | appended (attempt : Nat) (head : ChainHead) (free : ¬ stores.ledger.Taken record) (room : ¬ stores.ledger.Full)
      (new : ¬ stores.ledger.Known record.event.eventId)
      (grown : ledger.rows = stores.ledger.rows ++ [.ofRecord record]) :
      Advances .served (.append attempt record head) { stores with ledger } (.archive record)
  | appendedUnanswered (attempt : Nat) (head : ChainHead) (free : ¬ stores.ledger.Taken record)
      (room : ¬ stores.ledger.Full) (new : ¬ stores.ledger.Known record.event.eventId)
      (grown : ledger.rows = stores.ledger.rows ++ [.ofRecord record]) :
      Advances .replyLost (.append attempt record head) { stores with ledger }
        (.returned (.error .ledgerStoreUnavailable))
  | raceLost (head : ChainHead) (taken : stores.ledger.Taken record) (again : attempt + 1 < maxAppendRetries) :
      Advances .served (.append attempt record head) stores (.head (attempt + 1))
  | exhausted (head : ChainHead) (taken : stores.ledger.Taken record) (last : ¬ attempt + 1 < maxAppendRetries) :
      Advances .served (.append attempt record head) stores (.returned (.error (.chainHeadConflict record.partition)))
  | duplicate (attempt : Nat) (head : ChainHead) (free : ¬ stores.ledger.Taken record) (room : ¬ stores.ledger.Full)
      (known : stores.ledger.Known record.event.eventId) :
      Advances .served (.append attempt record head) stores
        (.returned (.error (.duplicateEvent record.event.eventId)))
  | ledgerFailed (pending : stage = .lookup ∨ (∃ n, stage = .head n) ∨ ∃ n record head, stage = .append n record head) :
      Advances service stage stores (.returned (.error .ledgerStoreUnavailable))
  | archived (record : AuditRecord) :
      Advances .served (.archive record)
        { stores with archive := stores.archive ++ [record] } (.returned (.ok (.committed (proofOf record))))
  | archivedUnanswered (record : AuditRecord) :
      Advances .replyLost (.archive record)
        { stores with archive := stores.archive ++ [record] } (.returned (.error .archiveUnavailable))
  | archiveFailed (record : AuditRecord) :
      Advances .refused (.archive record) stores (.returned (.error .archiveUnavailable))

end

variable {sha256 : Sha256} {s : State} {journal : Journal sha256}

private theorem append_advances
    (hm : advance sha256 stores event now svc (.append att record head) = some (stores', stage')) :
    Advances sha256 stores event now svc (.append att record head) stores' stage' := by
  have pending : (Stage.append att record head) = .lookup ∨
      (∃ n, Stage.append att record head = .head n) ∨
      ∃ n r h, Stage.append att record head = .append n r h := .inr (.inr ⟨_, _, _, rfl⟩)
  by_cases ht : stores.ledger.Taken record
  · rw [advance, Ledger.append_taken ht] at hm
    cases svc with
    | served =>
      by_cases again : att + 1 < maxAppendRetries
      · simp only [again, if_true] at hm
        cases hm
        exact .raceLost head ht again
      · simp only [again, if_false] at hm
        cases hm
        exact .exhausted head ht again
    | refused | replyLost => cases hm; exact .ledgerFailed pending
  · by_cases full : stores.ledger.Full
    · rw [advance, Ledger.append_full ht full] at hm
      cases svc with
      | served | refused | replyLost => cases hm; exact .ledgerFailed pending
    by_cases hk : stores.ledger.Known record.event.eventId
    · rw [advance, Ledger.append_known ht full hk] at hm
      cases svc with
      | served => cases hm; exact .duplicate att head ht full hk
      | refused | replyLost => cases hm; exact .ledgerFailed pending
    obtain ⟨hg, ha⟩ := Ledger.append_new ht full hk
    rw [advance] at hm
    generalize stores.ledger.append record head = ans at hm hg ha
    obtain ⟨_, ans⟩ := ans
    cases ha
    cases svc with
    | served => cases hm; exact .appended att head ht full hk hg
    | replyLost => cases hm; exact .appendedUnanswered att head ht full hk hg
    | refused => cases hm; exact .ledgerFailed pending

theorem advance_advances (hm : advance sha256 stores event now svc stage = some (stores', stage')) :
    Advances sha256 stores event now svc stage stores' stage' := by
  cases stage with
  | lookup =>
    cases svc with
    | served =>
      simp only [advance] at hm
      cases ans : stores.ledger.lookup event.eventId with
      | error => rw [ans] at hm; cases hm; exact .unreadable ans
      | ok existing =>
        cases existing with
        | none => rw [ans] at hm; cases hm; exact .missing ans
        | some => rw [ans] at hm; cases hm; exact .found ans
    | refused | replyLost => cases hm; exact .ledgerFailed (.inl rfl)
  | head att =>
    cases svc with
    | served => cases hm; exact .headRead att rfl rfl
    | refused | replyLost => cases hm; exact .ledgerFailed (.inr (.inl ⟨att, rfl⟩))
  | append => exact append_advances hm
  | archive record =>
    cases svc with
    | served => cases hm; exact .archived record
    | refused => cases hm; exact .archiveFailed record
    | replyLost => cases hm; exact .archivedUnanswered record
  | returned | crashed => cases hm

inductive Steps (sha256 : Sha256) (s : State) : Action → State → Prop where
  | began {id : Nat} (idle : s.calls id = none) :
      Steps sha256 s (.begin id event) { s with calls := s.setCall id ⟨event, .lookup⟩ }
  | advanced {id : Nat} {now : DateTime} {service : Service} {call : Call} {stores : Stores} {stage : Stage}
      (running : s.calls id = some call)
      (moved : Advances sha256 s.stores call.event now service call.stage stores stage) :
      Steps sha256 s (.advance id now service) ⟨stores, s.setCall id { call with stage }⟩
  | crashed {id : Nat} (running : s.calls id = some call) (live : ∀ result, call.stage ≠ .returned result) :
      Steps sha256 s (.crash id) { s with calls := s.setCall id { call with stage := .crashed } }

theorem step_steps (hs : step sha256 s a = some next) : Steps sha256 s a next := by
  cases a with
  | begin id =>
    simp only [step] at hs
    cases idle : s.calls id with
    | none => rw [idle] at hs; cases hs; exact .began idle
    | some => rw [idle] at hs; cases hs
  | advance id =>
    simp only [step] at hs
    cases hr : s.calls id with
    | none => rw [hr] at hs; cases hs
    | some =>
      rw [hr] at hs
      obtain ⟨⟨_, stage⟩, hm, rfl⟩ := Option.map_eq_some_iff.mp hs
      exact .advanced hr (advance_advances hm)
  | crash id =>
    simp only [step] at hs
    cases hr : s.calls id with
    | none => rw [hr] at hs; cases hs
    | some call =>
      rw [hr] at hs
      obtain ⟨_, stage⟩ := call
      cases stage with
      | returned | crashed => cases hs
      | _ => cases hs; exact .crashed hr (by simp)

/-- What a call's stage promises about the journal it works on. -/
def Stage.Sound (journal : Journal sha256) (event : AuditEvent) : Stage → Prop
  | .append _ record expected =>
    record.event = event ∧ record.partition = .derive event.tenant event.category ∧
      record.Follows sha256 expected ∧
      ∃ seen, seen <+: journal.chain record.partition ∧ expected = headAfter .genesis seen
  | .archive record => record ∈ journal.records ∧ record.event = event
  | .returned (.ok outcome) =>
    ∃ record ∈ journal.records, record.event.eventId = event.eventId ∧ outcome.proof = proofOf record
  | .returned (.error e) =>
    e = .ledgerStoreUnavailable ∨ e = .archiveUnavailable ∨
      (∃ partition, e = .chainHeadConflict partition) ∨ e = .duplicateEvent event.eventId
  | _ => True

structure Consistent (s : State) (journal : Journal sha256) : Prop where
  stores : s.stores.ledger.Stores journal
  calls : ∀ id call, s.calls id = some call → call.stage.Sound journal call.event

theorem Stage.Sound.mono {hl : Journal sha256} {stage : Stage} (inv : stage.Sound journal event)
    (hg : journal.records <+: hl.records) : stage.Sound hl event := by
  cases stage with
  | append =>
    obtain ⟨own, derived, hf, seen, hb, rfl⟩ := inv
    exact ⟨own, derived, hf, seen, hb.trans (hg.filter _), rfl⟩
  | archive => exact ⟨hg.subset inv.1, inv.2⟩
  | returned res =>
    cases res with
    | ok =>
      obtain ⟨record, mem, eq, proof⟩ := inv
      exact ⟨record, hg.subset mem, eq, proof⟩
    | error => exact inv
  | _ => trivial

theorem head_current {ledger : Ledger} (stores : ledger.Stores journal)
    (hb : seen <+: journal.chain record.partition) (hf : record.Follows sha256 (headAfter .genesis seen))
    (free : ¬ ledger.Taken record) : headAfter .genesis seen = journal.head record.partition := by
  have seenLength := journal.sequence_headAfter hb
  obtain ⟨rest, whole⟩ := hb
  cases rest with
  | nil => rw [Journal.head, ← whole, List.append_nil]
  | cons after =>
    exfalso
    apply free
    have position := journal.sequence_after whole.symm
    have bound := journal.chain_length_le record.partition
    rw [← whole] at bound
    simp only [List.length_append, List.length_cons, capacity] at bound
    refine stores.taken.mpr ⟨after, by rw [← whole]; simp, UInt64.toNat_inj.mp ?_⟩
    rw [hf, ChainHead.linkNext, UInt64.toNat_add, seenLength, position, UInt64.toNat_one, Nat.mod_eq_of_lt (by omega)]

theorem Advances.sound (hm : Advances sha256 stores event now service stage stores' stage')
    (kept : stores.ledger.Stores journal) (inv : stage.Sound journal event) :
    ∃ later : Journal sha256, journal.records <+: later.records ∧ stores'.ledger.Stores later ∧
      stage'.Sound later event := by
  have here : ∀ {stage' : Stage}, stage'.Sound journal event → ∃ later : Journal sha256,
      journal.records <+: later.records ∧ stores.ledger.Stores later ∧ stage'.Sound later event :=
    fun inv => ⟨journal, List.prefix_refl _, kept, inv⟩
  have grow : ∀ {att : Nat} {record : AuditRecord} {head : ChainHead} {ledger : Ledger},
      Stage.Sound journal event (.append att record head) → ¬ stores.ledger.Taken record →
      ¬ stores.ledger.Full → ¬ stores.ledger.Known record.event.eventId →
      ledger.rows = stores.ledger.rows ++ [.ofRecord record] →
      ∃ later : Journal sha256, later.records = journal.records ++ [record] ∧ ledger.Stores later := by
    rintro att record head ledger ⟨own, derived, hf, seen, hb, rfl⟩ free room new hg
    rw [head_current kept hb hf free] at hf
    have hfr : ∀ he ∈ journal.records, he.event.eventId ≠ record.event.eventId :=
      fun he mem eq => new (kept.known.mpr ⟨he, mem, eq⟩)
    have space : journal.records.length < capacity :=
      lt_of_le_of_ne journal.bounded fun full => room (kept.full.mpr full)
    refine ⟨journal.extend record hf (by rw [derived, own]) hfr space, rfl, ?_⟩
    rw [Ledger.Stores, hg, kept]
    simp [Journal.extend]
  cases hm with
  | found hit =>
    obtain ⟨mem, eq⟩ := kept.lookup_eq_some.mp hit
    exact here ⟨_, mem, eq, rfl⟩
  | unreadable bad => rw [kept.lookup] at bad; cases bad
  | missing | raceLost => exact here trivial
  | headRead _ derived current =>
    subst derived current
    refine here ⟨rfl, rfl, AuditRecord.append_follows _ _ _ _, _, List.prefix_refl _, ?_⟩
    exact kept.head _
  | appended _ _ free room new hg =>
    obtain ⟨later, records, kept⟩ := grow inv free room new hg
    exact ⟨later, ⟨_, records.symm⟩, kept, by rw [records]; simp, inv.1⟩
  | appendedUnanswered _ _ free room new hg =>
    obtain ⟨later, records, kept⟩ := grow inv free room new hg
    exact ⟨later, ⟨_, records.symm⟩, kept, .inl rfl⟩
  | exhausted => exact here (.inr (.inr (.inl ⟨_, rfl⟩)))
  | duplicate => exact here (.inr (.inr (.inr (by rw [inv.1]))))
  | ledgerFailed => exact here (.inl rfl)
  | archived record =>
    exact ⟨journal, List.prefix_refl _, kept, record, inv.1, by rw [inv.2], rfl⟩
  | archivedUnanswered => exact ⟨journal, List.prefix_refl _, kept, .inr (.inl rfl)⟩
  | archiveFailed => exact here (.inr (.inl rfl))

theorem setCall_self (id : Nat) : s.setCall id own id = some own := Function.update_self ..

theorem setCall_other {id : Nat} (hd : other ≠ id) :
    s.setCall id own other = s.calls other := Function.update_of_ne hd ..

theorem setCall_cases {id : Nat} (hf : s.setCall id own other = some call) :
    (other = id ∧ call = own) ∨ (other ≠ id ∧ s.calls other = some call) := by
  rcases update_cases hf with ⟨eq, new⟩ | old
  · exact .inl ⟨eq, (Option.some.inj new).symm⟩
  · exact .inr old

theorem Steps.returned (hs : Steps sha256 s a next) {id : Nat} (hf : next.calls id = some call)
    (hre : call.stage = .returned result) :
    s.calls id = some call ∨ ∃ now service before, a = .advance id now service ∧
      s.calls id = some ⟨call.event, before⟩ ∧
      Advances sha256 s.stores call.event now service before next.stores (.returned result) := by
  cases hs with
  | began | crashed =>
    rcases setCall_cases hf with ⟨-, rfl⟩ | ⟨-, hf⟩
    · cases hre
    · exact .inl hf
  | advanced hr hm =>
    rcases setCall_cases hf with ⟨rfl, rfl⟩ | ⟨-, hf⟩
    · subst hre
      exact .inr ⟨_, _, _, rfl, hr, hm⟩
    · exact .inl hf

theorem Steps.consistent (hs : Steps sha256 s a next) (inv : Consistent s journal) :
    ∃ later : Journal sha256, journal.records <+: later.records ∧ Consistent next later := by
  cases hs with
  | began | crashed =>
    refine ⟨journal, List.prefix_refl _, inv.stores, fun other call hf => ?_⟩
    rcases setCall_cases hf with ⟨-, rfl⟩ | ⟨-, hf⟩
    · trivial
    · exact inv.calls other call hf
  | advanced running moved =>
    obtain ⟨later, hg, kept, hso⟩ :=
      moved.sound inv.stores (inv.calls _ _ running)
    refine ⟨later, hg, kept, fun other call hf => ?_⟩
    rcases setCall_cases hf with ⟨-, rfl⟩ | ⟨-, hf⟩
    · exact hso
    · exact (inv.calls other call hf).mono hg

theorem step_consistent (hs : step sha256 s a = some next)
    (kept : ∃ journal : Journal sha256, Consistent s journal) :
    ∃ journal : Journal sha256, Consistent next journal := by
  obtain ⟨_, inv⟩ := kept
  obtain ⟨hl, -, inv⟩ := (step_steps hs).consistent inv
  exact ⟨hl, inv⟩

theorem start_consistent : Consistent start (.empty : Journal sha256) :=
  ⟨Ledger.empty_stores, fun _ _ hf => by cases hf⟩

theorem reachable_consistent (hr : (machine sha256).Reachable s) :
    ∃ journal : Journal sha256, Consistent s journal := by
  refine hr.invariant (fun s => ∃ journal : Journal sha256, Consistent s journal) ?_ ?_
  · rintro s rfl
    exact ⟨.empty, start_consistent⟩
  · intro s a next kept hs
    exact step_consistent hs kept

/-- In every reachable state each partition reads back as one chain from genesis with positions
`1..n`, no event id occurs twice, and verification says so. -/
theorem partition_chained (reached : (machine sha256).Reachable s) (partition : PartitionKey) :
    ∃ records, s.stores.ledger.readPartition partition = .ok records ∧
      records.map (·.link.sequence.toNat) = List.range' 1 records.length ∧
      (∀ before record after, records = before ++ record :: after →
        record.verify sha256 (headAfter .genesis before) = .ok (headAfter .genesis (before ++ [record]))) ∧
      (s.stores.ledger.rows.map (·.eventId)).Nodup ∧
      ∃ through : UInt64, through.toNat = records.length ∧
        verifyPartition sha256 s.stores.ledger partition = .ok (.verified through) := by
  obtain ⟨journal, consistent⟩ := reachable_consistent reached
  have stores := consistent.stores
  have fits : (journal.chain partition).length < 2 ^ 64 :=
    Nat.lt_of_le_of_lt (journal.chain_length_le partition) (by decide)
  refine ⟨journal.chain partition, stores.readPartition partition, journal.chain_sequences partition, ?_,
    s.stores.ledger.uniqueEventId, _, UInt64.toNat_ofNat_of_lt fits, stores.verifyPartition partition⟩
  intro before record after split
  have chained := journal.chain_chained partition
  rw [split] at chained
  exact chained.verify_each

/-- Two deliveries of one event: both read the empty chain, and the second one loses the
slot. -/
def racingDeliveries : List Action :=
  [.begin 0 (.signIn "e-1" .epoch), .begin 1 (.signIn "e-1" .epoch),
    .advance 0 .epoch .served, .advance 1 .epoch .served, .advance 0 .epoch .served,
    .advance 1 .epoch .served, .advance 0 .epoch .served, .advance 1 .epoch .served]

theorem partition_chained_racing :
    ∃ s, (machine signInSha256).run start racingDeliveries = some s ∧
      ∃ records, s.stores.ledger.readPartition "_global:1" = .ok records ∧
        records.map (·.link.sequence.toNat) = List.range' 1 records.length := by
  have ran : ((machine signInSha256).run start racingDeliveries).isSome := by decide +kernel
  obtain ⟨s, ran⟩ := Option.isSome_iff_exists.mp ran
  obtain ⟨records, read, positions, -⟩ := partition_chained ⟨start, _, rfl, ran⟩ "_global:1"
  exact ⟨s, ran, records, read, positions⟩

def oneCommit : List Action :=
  [.begin 0 (.signIn "e-1" .epoch), .advance 0 .epoch .served, .advance 0 .epoch .served,
    .advance 0 .epoch .served, .advance 0 .epoch .served]

/-- Whatever the calls do next, each partition still begins with the records it has now, and the
proofs handed out name records of theirs. -/
theorem ledger_only_grows (trace later : List Action) :
    (machine sha256).Always (fun s => (machine sha256).Always (fun t =>
      (∀ partition, ∃ records more, s.stores.ledger.readPartition partition = .ok records ∧
        t.stores.ledger.readPartition partition = .ok (records ++ more)) ∧
      ∀ id call outcome, s.calls id = some call → call.stage = .returned (.ok outcome) →
        ∃ records, t.stores.ledger.readPartition outcome.proof.partition = .ok records ∧
          ∃ record ∈ records, record.event.eventId = call.event.eventId ∧ proofOf record = outcome.proof)
      s later) start trace := by
  apply Machine.always_of_keeps (fun s => ∃ journal : Journal sha256, Consistent s journal)
    (fun _ _ _ kept _ hs => step_consistent hs kept) ?_ ⟨.empty, start_consistent⟩ (Machine.meets_true start)
  rintro s ⟨journal, inv⟩
  apply Machine.always_of_keeps
    (fun t => ∃ now : Journal sha256, journal.records <+: now.records ∧ Consistent t now)
    ?_ ?_ ⟨journal, List.prefix_refl _, inv⟩ (Machine.meets_true s)
  · rintro t a next ⟨now, grown, kept⟩ - hs
    obtain ⟨further, more, kept⟩ := (step_steps hs).consistent kept
    exact ⟨further, grown.trans more, kept⟩
  rintro t ⟨now, grown, kept⟩
  constructor
  · exact inv.stores.grown kept.stores grown
  · intro id call outcome hf returned
    have sound := inv.calls id call hf
    rw [returned] at sound
    obtain ⟨record, mem, own, proof⟩ := sound
    rw [proof]
    exact ⟨_, kept.stores.readPartition _, record, Journal.mem_chain.mpr ⟨grown.subset mem, rfl⟩, own, rfl⟩

end Commit
end CorePlatform.Audit
