import CorePlatform.Audit.Commit

/-! # A proof means the record is in both stores

A call that appends archives before it answers. A later call for the same event answers from the
ledger alone, and nothing else ever archives a record: one whose archive write failed stays out of
the archive while its redelivery reports success. -/

namespace CorePlatform.Audit.Commit

open Theory

/-- Every proof handed out names a record that the ledger and the archive both have. -/
def Durable (s : State) : Prop :=
  ∀ id call outcome, s.calls id = some call → call.stage = .returned (.ok outcome) →
    ∃ record, outcome.proof = proofOf record ∧ .ofRecord record ∈ s.stores.ledger.rows ∧ record ∈ s.stores.archive

/-- The lookup about to be served does not find a record that is not archived. -/
def FindsArchived (s : State) (a : Action) : Prop :=
  ∀ id now call record, a = .advance id now .served → s.calls id = some call → call.stage = .lookup →
    s.stores.ledger.lookup call.event.eventId = .ok (some record) → record ∈ s.stores.archive

theorem Advances.grows (hm : Advances sha256 stores event now service stage stores' stage') :
    stores.ledger.rows ⊆ stores'.ledger.rows ∧ stores.archive ⊆ stores'.archive := by
  cases hm with
  | appended _ _ _ _ _ hg | appendedUnanswered _ _ _ _ _ hg =>
    exact ⟨by rw [hg]; exact List.subset_append_left _ _, List.Subset.refl _⟩
  | archived | archivedUnanswered => exact ⟨List.Subset.refl _, List.subset_append_left _ _⟩
  | _ => exact ⟨List.Subset.refl _, List.Subset.refl _⟩

theorem Steps.grows (hs : Steps sha256 s a next) :
    s.stores.ledger.rows ⊆ next.stores.ledger.rows ∧ s.stores.archive ⊆ next.stores.archive := by
  cases hs with
  | began | crashed => exact ⟨List.Subset.refl _, List.Subset.refl _⟩
  | advanced _ moved => exact moved.grows

theorem Steps.durable (hs : Steps sha256 s a next) (inv : Consistent s journal)
    (archived : FindsArchived s a) (hd : Durable s) : Durable next := by
  intro id call out found hre
  rcases hs.returned found hre with hb | ⟨now, svc, hb, rfl, hr, hm⟩
  · obtain ⟨record, proof, stored, kept⟩ := hd id call out hb hre
    exact ⟨record, proof, hs.grows.1 stored, hs.grows.2 kept⟩
  have hso := inv.calls id _ hr
  generalize next.stores = stores at hm ⊢
  cases hm with
  | found hit =>
    obtain ⟨mem, -⟩ := inv.stores.lookup_eq_some.mp hit
    exact ⟨_, rfl, inv.stores.mem_rows.mpr mem, archived id now _ _ rfl hr rfl hit⟩
  | archived record =>
    exact ⟨record, rfl, inv.stores.mem_rows.mpr hso.1, by simp⟩

private theorem step_of_found {id : Nat} (hr : s.calls id = some call) (stood : call.stage = .lookup)
    (hit : s.stores.ledger.lookup call.event.eventId = .ok (some record)) :
    step sha256 s (.advance id now .served) = some ⟨s.stores, s.setCall id
      { call with stage := .returned (.ok (.alreadyRecorded (proofOf record))) }⟩ := by
  simp only [step, hr, stood, advance, hit, Option.map_some]

/-- A run keeps every proof durable exactly when no lookup hits a record missing from the archive. -/
theorem durable_iff_findsArchived (trace : List Action) :
    (machine sha256).Always Durable start trace ↔ (machine sha256).Meets FindsArchived start trace := by
  apply Machine.always_iff_meets (fun s => ∃ journal : Journal sha256, Consistent s journal) Durable
  · intro s a next kept stepped
    exact step_consistent stepped kept
  · rintro s a next ⟨journal, consistent⟩ durable archived stepped
    exact (step_steps stepped).durable consistent archived durable
  · intro s _ durable
    exact durable
  · rintro s a ⟨journal, consistent⟩ - unarchived
    simp only [FindsArchived, not_forall] at unarchived
    obtain ⟨id, _, call, record, rfl, running, stood, hit, missing⟩ := unarchived
    refine ⟨_, step_of_found running stood hit, fun durable => ?_⟩
    obtain ⟨named, proof, stored, kept⟩ := durable id _ _ (setCall_self id) rfl
    have member := consistent.stores.mem_rows.mp stored
    have same : record.event.eventId = named.event.eventId := congrArg RecordProof.eventId proof
    rw [journal.eq_of_eventId (consistent.stores.lookup_eq_some.mp hit).1 member same] at missing
    exact missing kept
  · exact ⟨.empty, start_consistent⟩
  · intro id call outcome found
    cases found

/-- The archive is down when the first delivery gets there, and the event is delivered again. -/
def redeliveryAfterOutage : List Action :=
  [.begin 0 (.signIn "e-1" .epoch), .advance 0 .epoch .served, .advance 0 .epoch .served,
    .advance 0 .epoch .served, .advance 0 .epoch .refused,
    .begin 1 (.signIn "e-1" .epoch), .advance 1 .epoch .served]

theorem redeliveryAfterOutage_not_archived :
    ∃ s call, (machine signInSha256).run start redeliveryAfterOutage = some s ∧ s.calls 1 = some call ∧
      call.stage = .returned (.ok (.alreadyRecorded (proofOf (signInRecord "e-1" .epoch)))) ∧
      s.stores.archive = [] ∧ ¬ Durable s := by
  obtain ⟨s, ran, archive, call, running, returned⟩ : ∃ s, (machine signInSha256).run start redeliveryAfterOutage =
      some s ∧ s.stores.archive = [] ∧ ∃ call, s.calls 1 = some call ∧
        call.stage = .returned (.ok (.alreadyRecorded (proofOf (signInRecord "e-1" .epoch)))) := by decide +kernel
  refine ⟨s, call, ran, running, returned, archive, fun durable => ?_⟩
  obtain ⟨_, -, -, kept⟩ := durable 1 call _ running returned
  rw [archive] at kept
  cases kept

end CorePlatform.Audit.Commit
