import CorePlatform.Audit.Commit

/-! # Exactly once under redelivery

Several calls for one event should end with one `Committed` and the same proof for the rest. They
do, except that the event is looked up only before the first attempt: a call that lost its slot to
another one for the same event links the event again, and then meets the unique event id in a free
slot. -/

namespace CorePlatform.Audit.Commit

open Theory Transport

def Call.Undisturbed (call : Call) (result : Except AuditError CommitOutcome) : Prop :=
  call.stage = .returned result ∧ result ≠ .error .ledgerStoreUnavailable ∧
    result ≠ .error .archiveUnavailable ∧ ∀ partition, result ≠ .error (.chainHeadConflict partition)

structure ExactlyOnce (s : State) : Prop where
  /-- Every undisturbed call has the proof of the event's one record. -/
  answered : ∀ id call result, s.calls id = some call → call.Undisturbed result →
    ∃ record, s.stores.ledger.lookup call.event.eventId = .ok (some record) ∧
      (result = .ok (.committed (proofOf record)) ∨ result = .ok (.alreadyRecorded (proofOf record)))
  /-- No two calls commit one event. -/
  once : ∀ i j a b p q, s.calls i = some a → s.calls j = some b →
    a.stage = .returned (.ok (.committed p)) → b.stage = .returned (.ok (.committed q)) →
    a.event.eventId = b.event.eventId → i = j
  /-- One call commits it, once all calls for it are over undisturbed. -/
  one : ∀ eventId, (∃ id call, s.calls id = some call ∧ call.event.eventId = eventId) →
    (∀ id call, s.calls id = some call → call.event.eventId = eventId → ∃ result, call.Undisturbed result) →
    ∃ id call p, s.calls id = some call ∧ call.event.eventId = eventId ∧ call.stage = .returned (.ok (.committed p))
  /-- No delivery is dead-lettered. -/
  kept : ∀ id call result, s.calls id = some call → call.stage = .returned result →
    ∀ reason, ingestOutcome result ≠ .reject reason

/-- The append about to be served is not for an event already chained, unless its slot is taken too
or there is no room. -/
def Unrepeated (s : State) (a : Action) : Prop :=
  ∀ id now call attempt record head, a = .advance id now .served → s.calls id = some call →
    call.stage = .append attempt record head → s.stores.ledger.Known record.event.eventId →
    s.stores.ledger.Taken record ∨ s.stores.ledger.Full

/-- The call has appended its record and has not failed since. -/
def Stage.Holding : Stage → Prop
  | .archive _ | .returned (.ok (.committed _)) => True
  | _ => False

def Stage.Owning : Stage → Prop
  | .archive _ | .returned (.ok (.committed _)) | .returned (.error .ledgerStoreUnavailable)
  | .returned (.error .archiveUnavailable) | .crashed => True
  | _ => False

/-- Every row was appended by some call, and no two calls hold one event. -/
structure Owned (s : State) : Prop where
  owner : ∀ row ∈ s.stores.ledger.rows, ∃ id call, s.calls id = some call ∧
    call.event.eventId = row.eventId ∧ call.stage.Owning
  once : ∀ i j a b, s.calls i = some a → s.calls j = some b → a.stage.Holding → b.stage.Holding →
    a.event.eventId = b.event.eventId → i = j

variable {sha256 : Sha256} {s next : State} {journal : Journal sha256} {id : Nat}

section

variable (moved : Advances sha256 stores event now service stage stores' stage')

include moved

theorem Advances.rows :
    stores'.ledger = stores.ledger ∨ ∃ attempt record head, stage = .append attempt record head ∧
      stores'.ledger.rows = stores.ledger.rows ++ [.ofRecord record] ∧ stage'.Owning := by
  cases moved with
  | appended _ _ _ _ _ hg | appendedUnanswered _ _ _ _ _ hg => exact .inr ⟨_, _, _, rfl, hg, trivial⟩
  | _ => exact .inl rfl

theorem Advances.owning (ho : stage.Owning) : stage'.Owning := by
  cases moved with
  | archived | archivedUnanswered | archiveFailed => trivial
  | ledgerFailed pending => rcases pending with rfl | ⟨_, rfl⟩ | ⟨_, _, _, rfl⟩ <;> cases ho
  | _ => cases ho

theorem Advances.holding (holding : stage'.Holding) : stage.Holding ∨ ∃ attempt record head,
      stage = .append attempt record head ∧ ¬ stores.ledger.Known record.event.eventId := by
  cases moved with
  | appended _ _ _ _ new => exact .inr ⟨_, _, _, rfl, new⟩
  | archived => exact .inl trivial
  | _ => cases holding

end

theorem Consistent.holding_known (inv : Consistent s journal) (hr : s.calls id = some call)
    (hh : call.stage.Holding) : s.stores.ledger.Known call.event.eventId := by
  have hso := inv.calls id call hr
  obtain ⟨_, stage⟩ := call
  cases stage with
  | archive record => exact inv.stores.known.mpr ⟨record, hso.1, by rw [hso.2]⟩
  | returned res =>
    cases res with
    | error => cases hh
    | ok =>
      obtain ⟨record, mem, eq, -⟩ := hso
      exact inv.stores.known.mpr ⟨record, mem, eq⟩
  | _ => cases hh

private theorem Owned.owner_update (ho : Owned s) (own : Call)
    (kept : ∀ call, s.calls id = some call →
      own.event.eventId = call.event.eventId ∧ (call.stage.Owning → own.stage.Owning)) :
    ∀ row ∈ s.stores.ledger.rows, ∃ other call, s.setCall id own other = some call ∧
      call.event.eventId = row.eventId ∧ call.stage.Owning := by
  intro row mem
  obtain ⟨other, call, hr, eq, owning⟩ := ho.owner row mem
  by_cases acting : other = id
  · subst acting
    obtain ⟨event, still⟩ := kept call hr
    exact ⟨other, own, setCall_self other, event.trans eq, still owning⟩
  · exact ⟨other, call, by rw [setCall_other acting, hr], eq, owning⟩

private theorem Owned.once_update (ho : Owned s)
    (ha : own.stage.Holding → ∀ other call, other ≠ id → s.calls other = some call →
      call.stage.Holding → call.event.eventId ≠ own.event.eventId) :
    ∀ i j a b, s.setCall id own i = some a → s.setCall id own j = some b → a.stage.Holding →
      b.stage.Holding → a.event.eventId = b.event.eventId → i = j := by
  intro i j a b atI atJ holdingA holdingB eq
  rcases setCall_cases atI with ⟨rfl, rfl⟩ | ⟨otherI, foundI⟩
  · rcases setCall_cases atJ with ⟨rfl, -⟩ | ⟨otherJ, foundJ⟩
    · rfl
    · exact absurd eq.symm (ha holdingA j b otherJ foundJ holdingB)
  · rcases setCall_cases atJ with ⟨rfl, rfl⟩ | ⟨-, foundJ⟩
    · exact absurd eq (ha holdingB i a otherI foundI holdingA)
    · exact ho.once i j a b foundI foundJ holdingA holdingB eq

theorem Steps.owned (hs : Steps sha256 s a next) (inv : Consistent s journal) (ho : Owned s) : Owned next := by
  cases hs with
  | began idle =>
    refine ⟨ho.owner_update _ fun call hr => ?_, ho.once_update nofun⟩
    rw [idle] at hr
    cases hr
  | crashed hr =>
    refine ⟨ho.owner_update _ fun call hf => ?_, ho.once_update nofun⟩
    rw [hr] at hf
    cases hf
    exact ⟨rfl, fun _ => trivial⟩
  | advanced hr moved =>
    rename_i id now service call stores stage
    have hso := inv.calls id call hr
    constructor
    · have old := ho.owner_update { call with stage } fun hf there => by
        rw [hr] at there
        cases there
        exact ⟨rfl, moved.owning⟩
      rcases moved.rows with eq | ⟨att, record, head, stood, hg, owning⟩
      · intro row mem
        exact old row (by rw [← eq]; exact mem)
      intro row mem
      rw [hg] at mem
      rcases List.mem_append.mp mem with mem | mem
      · exact old row mem
      · rw [stood] at hso
        refine ⟨id, { call with stage }, setCall_self id, ?_, owning⟩
        rw [List.mem_singleton.mp mem, Row.ofRecord, hso.1]
    · refine ho.once_update fun holding other hf different ofOther h eq => ?_
      rcases moved.holding holding with hb | ⟨att, record, head, stood, new⟩
      · exact different (ho.once other id hf call ofOther hr h hb eq)
      · rw [stood] at hso
        refine new ?_
        rw [hso.1, ← show hf.event.eventId = call.event.eventId from eq]
        exact inv.holding_known ofOther h

theorem start_owned : Owned start where
  owner _ member := by cases member
  once _ _ _ _ found := by cases found

def Retryable (s : State) : Prop :=
  ∀ id call e, s.calls id = some call → call.stage = .returned (.error e) → e.isRetryable = true

theorem Steps.retryable (hs : Steps sha256 s a next) (inv : Consistent s journal)
    (hu : Unrepeated s a) (hre : Retryable s) : Retryable next := by
  intro id call e hf hfa
  rcases hs.returned hf hfa with hb | ⟨now, service, hb, rfl, hr, moved⟩
  · exact hre id call e hb hfa
  generalize next.stores = stores at moved
  cases moved with
  | unreadable bad => rw [inv.stores.lookup] at bad; cases bad
  | duplicate att head free room hk =>
    rcases hu id now _ att _ head rfl hr rfl hk with ht | full
    · exact absurd ht free
    · exact absurd full room
  | _ => rfl

theorem exactlyOnce_of_owned (inv : Consistent s journal) (ho : Owned s) (retryable : Retryable s) :
    ExactlyOnce s := by
  have ha : ∀ id call res, s.calls id = some call → call.Undisturbed res →
      ∃ record, s.stores.ledger.lookup call.event.eventId = .ok (some record) ∧
        (res = .ok (.committed (proofOf record)) ∨ res = .ok (.alreadyRecorded (proofOf record))) := by
    rintro id call res hr ⟨hre, ledgerUp, archiveUp, won⟩
    have hso := inv.calls id call hr
    rw [hre] at hso
    cases res with
    | error =>
      -- A duplicate is the one other error there is, and it is not retryable.
      rcases hso with rfl | rfl | ⟨part, rfl⟩ | rfl
      · exact absurd rfl ledgerUp
      · exact absurd rfl archiveUp
      · exact absurd rfl (won part)
      · cases retryable id call _ hr hre
    | ok out =>
      obtain ⟨record, mem, eq, proof⟩ := hso
      refine ⟨record, ?_, ?_⟩
      · exact inv.stores.lookup_eq_some.mpr ⟨mem, eq⟩
      · cases out with
        | committed => exact .inl (by rw [← proof]; rfl)
        | alreadyRecorded => exact .inr (by rw [← proof]; rfl)
  refine ⟨ha, ?_, ?_, ?_⟩
  · intro i j a b p q atI atJ committedA committedB eq
    exact ho.once i j a b atI atJ (by rw [committedA]; trivial) (by rw [committedB]; trivial) eq
  · rintro eventId ⟨id, call, hr, rfl⟩ he
    obtain ⟨res, undisturbed⟩ := he id call hr rfl
    obtain ⟨record, hf, -⟩ := ha id call res hr undisturbed
    obtain ⟨row, mem, eq⟩ :=
      inv.stores.known.mpr ⟨record, inv.stores.lookup_eq_some.mp hf⟩
    obtain ⟨other, owner, ran, event, owning⟩ := ho.owner row mem
    obtain ⟨result', hre, ledgerUp, archiveUp, -⟩ := he other owner ran (event.trans eq)
    refine ⟨other, owner, ?_⟩
    -- Of the stages that may own a row, only a commit is undisturbed.
    rw [hre] at owning ⊢
    cases result' with
    | ok out =>
      cases out with
      | committed p => exact ⟨p, ran, event.trans eq, rfl⟩
      | alreadyRecorded => cases owning
    | error e =>
      cases e with
      | ledgerStoreUnavailable => exact absurd rfl ledgerUp
      | archiveUnavailable => exact absurd rfl archiveUp
      | _ => cases owning
  · intro id call res hr hre reason
    cases res with
    | ok => nofun
    | error e =>
      have := retryable id call e hr hre
      simp [ingestOutcome, Except.map, ProcessOutcome.fromResult, ClassifyError.isRetryable, this]

private theorem step_of_repeated (hr : s.calls id = some call) (stood : call.stage = .append attempt record head)
    (free : ¬ s.stores.ledger.Taken record) (room : ¬ s.stores.ledger.Full)
    (hk : s.stores.ledger.Known record.event.eventId) :
    step sha256 s (.advance id now .served) = some ⟨s.stores, s.setCall id
      { call with stage := .returned (.error (.duplicateEvent record.event.eventId)) }⟩ := by
  simp only [step, hr, stood, advance, Ledger.append_known free room hk, Option.map_some]

/-- A run keeps the property throughout exactly when each append finds the event new, or the slot
taken. -/
theorem exactlyOnce_iff_unrepeated (trace : List Action) :
    (machine sha256).Always ExactlyOnce start trace ↔ (machine sha256).Meets Unrepeated start trace := by
  apply Machine.always_iff_meets (fun s => ∃ journal : Journal sha256, Consistent s journal)
    (fun s => Owned s ∧ Retryable s)
  · intro s a next kept stepped
    exact step_consistent stepped kept
  · rintro s a next ⟨journal, consistent⟩ ⟨owned, retryable⟩ unrepeated stepped
    have steps := step_steps stepped
    exact ⟨steps.owned consistent owned, steps.retryable consistent unrepeated retryable⟩
  · rintro s ⟨journal, consistent⟩ ⟨owned, retryable⟩
    exact exactlyOnce_of_owned consistent owned retryable
  · intro s a _ _ repeated
    simp only [Unrepeated, not_forall, not_or] at repeated
    obtain ⟨id, _, call, _, _, _, rfl, running, stood, known, free, room⟩ := repeated
    refine ⟨_, step_of_repeated running stood free room known, fun exactlyOnce => ?_⟩
    exact exactlyOnce.kept id _ _ (setCall_self id) rfl _ rfl
  · exact ⟨.empty, start_consistent⟩
  · refine ⟨start_owned, fun id call e found => ?_⟩
    cases found

/-- The first delivery commits; the second, having lost its slot, reads the new head and appends the
event after it. -/
def lostRedelivery : List Action :=
  racingDeliveries ++ [.advance 0 .epoch .served, .advance 1 .epoch .served, .advance 1 .epoch .served]

theorem lostRedelivery_rejected :
    ∃ s call, (machine signInSha256).run start lostRedelivery = some s ∧ s.calls 1 = some call ∧
      call.stage = .returned (.error (.duplicateEvent "e-1")) ∧
      ingestOutcome (.error (.duplicateEvent "e-1")) = .reject "duplicate audit event 'e-1' already recorded" ∧
      ¬ ExactlyOnce s := by
  obtain ⟨s, ran, call, running, returned⟩ : ∃ s, (machine signInSha256).run start lostRedelivery = some s ∧
      ∃ call, s.calls 1 = some call ∧ call.stage = .returned (.error (.duplicateEvent "e-1")) := by decide +kernel
  refine ⟨s, call, ran, running, returned, by decide, fun exactlyOnce => ?_⟩
  exact exactlyOnce.kept 1 call _ running returned "duplicate audit event 'e-1' already recorded" (by decide)

end CorePlatform.Audit.Commit
