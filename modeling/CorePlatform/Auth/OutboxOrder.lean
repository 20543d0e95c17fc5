import CorePlatform.Auth.Outbox

/-! # The order in which the events of an account first reach the sink

The invariant is about the rows that a relay still has to publish: whatever is earlier and of the
same account is published, or comes first with the same relay. A claim brings it about when every
earlier row of the account that another relay has locked is out already. -/

namespace CorePlatform.Auth

open Theory List

namespace OutboxRow

variable {Value : Type} {row : OutboxRow Value}

theorem before_irrefl : ¬ row.before row := by
  simp [before]

theorem before_asymm (first : row.before other) : ¬ other.before row := by
  simp only [before, BitVec.lt_def] at *
  omega

end OutboxRow

namespace OutboxRelay

section

variable {Value : Type} (serde : Serde Value) {hyphenated : Uuid → String}

def sameAccount (row other : OutboxRow Value) : Bool :=
  match serde.fromValue row.payload, serde.fromValue other.payload with
  | .ok event, .ok event' => decide (event.accountId = event'.accountId)
  | _, _ => false

namespace State

variable (s : State Value)

def sinkIds : List Uuid := s.sink.map OutboxRow.id

def wasPublished (row : OutboxRow Value) : Bool := s.sinkIds.contains row.id

def firstAt (row : OutboxRow Value) : Nat := s.sinkIds.idxOf row.id

/-- The first publications of an account are in the order of the rows. -/
def InOrder : Prop :=
  ∀ row ∈ s.sink, ∀ other ∈ s.sink, sameAccount serde row other = true → row.before other →
    s.firstAt row < s.firstAt other
  deriving Decidable

/-- No relay claims a row while another has an earlier unpublished row of the account locked. -/
def ClaimsInTurn : Label → Prop
  | .claim _ => ∀ row ∈ s.claimable, ∀ other ∈ s.table, s.locked other = true → sameAccount serde other row = true →
      other.before row → s.wasPublished other = true
  | _ => True

instance (label : Label) : Decidable (s.ClaimsInTurn serde label) := by
  unfold ClaimsInTurn
  split <;> infer_instance

structure Draining (drain : Drain Value) : Prop where
  sorted : drain.todo.Pairwise OutboxRow.before
  known : ∀ row ∈ drain.todo, row ∈ s.enqueued
  turn : ∀ row ∈ drain.todo, ∀ other ∈ s.enqueued, sameAccount serde other row = true → other.before row →
    s.wasPublished other = true ∨ other ∈ drain.todo
  done : ∀ id ∈ drain.published, id ∈ s.sinkIds

structure Relaying : Prop where
  sorted : s.enqueued.Pairwise OutboxRow.before
  ids : (s.enqueued.map OutboxRow.id).Nodup
  table : s.table.Sublist s.enqueued
  gone : ∀ row ∈ s.enqueued, row ∈ s.table ∨ s.wasPublished row = true
  known : ∀ row ∈ s.sink, row ∈ s.enqueued
  complete : ∀ row ∈ s.sink, ∀ other ∈ s.enqueued, sameAccount serde other row = true → other.before row →
    other ∈ s.sink
  drains : ∀ replica ∈ s.replicas, ∀ drain ∈ replica.drain, s.Draining serde drain
  inOrder : s.InOrder serde

variable {serde s} {next : State Value}

theorem wasPublished_iff : s.wasPublished row = true ↔ row.id ∈ s.sinkIds := by
  simp [wasPublished]

theorem sinkIds_append (sink : next.sink = s.sink ++ more) : s.sinkIds ⊆ next.sinkIds := by
  intro id mem
  rw [sinkIds, sink, map_append]
  exact mem_append_left _ mem

theorem wasPublished_append (sink : next.sink = s.sink ++ more) (hp : s.wasPublished row = true) :
    next.wasPublished row = true :=
  wasPublished_iff.mpr (sinkIds_append sink (wasPublished_iff.mp hp))

theorem Relaying.mem_sink (holds : s.Relaying serde) (he : row ∈ s.enqueued)
    (hp : s.wasPublished row = true) : row ∈ s.sink := by
  obtain ⟨other, mem, eq⟩ := mem_map.mp (wasPublished_iff.mp hp)
  have : other = row := inj_on_of_nodup_map holds.ids (holds.known other mem) he eq
  exact this ▸ mem

theorem claimable_eq (hs : s.table.Pairwise OutboxRow.before) :
    s.claimable = (s.table.filter fun row => !s.locked row).take batch := by
  unfold claimable
  rw [List.Pairwise.insertionSort_eq (hs.imp OutboxRow.before_asymm)]

theorem mem_take_of_before {rows : List (OutboxRow Value)} (hs : rows.Pairwise OutboxRow.before)
    (ht : row ∈ rows.take n) (mem : other ∈ rows) (he : other.before row) : other ∈ rows.take n := by
  rw [← take_append_drop n rows] at hs mem
  rcases mem_append.mp mem with hi | outside
  · exact hi
  · have := (pairwise_append.mp hs).2.2 row ht other outside
    exact absurd this (OutboxRow.before_asymm he)

theorem Relaying.claimed (holds : s.Relaying serde) (i : Nat) (hi : s.ClaimsInTurn serde (.claim i)) :
    s.Draining serde ⟨s.claimable.map OutboxRow.id, s.claimable, [], none⟩ := by
  have tableSorted := holds.sorted.sublist holds.table
  have eq := claimable_eq tableSorted
  have freeSorted := tableSorted.sublist (filter_sublist (p := fun row => !s.locked row))
  have inTable : ∀ row ∈ s.claimable, row ∈ s.table := by
    intro row mem
    rw [eq] at mem
    exact mem_of_mem_filter (mem_of_mem_take mem)
  constructor
  · rw [eq]
    exact freeSorted.sublist (take_sublist ..)
  · intro row mem
    exact holds.table.subset (inTable row mem)
  · intro row mem other enqueued same he
    rcases holds.gone other enqueued with stays | hp
    · by_cases free : s.locked other = true
      · exact .inl (hi row mem other stays free same he)
      · rw [eq] at mem ⊢
        exact .inr (mem_take_of_before freeSorted mem (mem_filter.mpr ⟨stays, by simpa using free⟩) he)
    · exact .inl hp
  · nofun

theorem Draining.grow (holds : s.Draining serde drain) (more rows : List (OutboxRow Value))
    (hl : ∀ row ∈ s.enqueued, ∀ other ∈ rows, row.before other) (sink : next.sink = s.sink ++ more)
    (he : next.enqueued = s.enqueued ++ rows) :
    next.Draining serde drain where
  sorted := holds.sorted
  known row member := by
    rw [he]
    exact mem_append_left _ (holds.known row member)
  turn row member other hi eq earlier := by
    rw [he] at hi
    rcases mem_append.mp hi with old | new
    · rcases holds.turn row member other old eq earlier with hp | waits
      · exact .inl (wasPublished_append sink hp)
      · exact .inr waits
    · exact absurd earlier (OutboxRow.before_asymm (hl row (holds.known row member) other new))
  done id member := sinkIds_append sink (holds.done id member)

section

variable (holds : s.Relaying serde)

include holds

theorem Relaying.inOrder_append (enqueued : row ∈ s.enqueued)
    (turn : ∀ other ∈ s.enqueued, sameAccount serde other row = true → other.before row → other ∈ s.sink)
    (sink : next.sink = s.sink ++ [row]) : next.InOrder serde := by
  have ids : next.sinkIds = s.sinkIds ++ [row.id] := by simp [sinkIds, sink]
  -- A row that is in the sink already keeps its place.
  have old (other : OutboxRow Value) (there : other ∈ s.sink) : next.firstAt other = s.firstAt other := by
    have hi : other.id ∈ s.sinkIds := mem_map_of_mem there
    unfold firstAt
    rw [ids, idxOf_append_of_mem hi]
  have place (other : OutboxRow Value) (there : other ∈ s.sink) : s.firstAt other < s.sinkIds.length :=
    idxOf_lt_length_of_mem (mem_map_of_mem there)
  intro first inFirst second inSecond eq he
  have firstKnown : first ∈ s.enqueued := by
    rw [sink] at inFirst
    rcases mem_append.mp inFirst with there | new
    · exact holds.known first there
    · exact mem_singleton.mp new ▸ enqueued
  by_cases there : second ∈ s.sink
  · have firstThere := holds.complete second there first firstKnown eq he
    rw [old first firstThere, old second there]
    exact holds.inOrder first firstThere second there eq he
  have new : second = row := by
    rw [sink] at inSecond
    rcases mem_append.mp inSecond with old | new
    · exact absurd old there
    · exact mem_singleton.mp new
  subst new
  have firstThere := turn first firstKnown eq he
  have ha : second.id ∉ s.sinkIds := by
    intro hp
    exact there (holds.mem_sink enqueued (wasPublished_iff.mpr hp))
  have last : next.firstAt second = s.sinkIds.length := by
    unfold firstAt
    rw [ids, idxOf_append_of_notMem ha]
    simp
  rw [old first firstThere, last]
  exact place first firstThere

theorem Relaying.turn (hd : s.Draining serde drain) (todo : drain.todo = row :: rest) (other : OutboxRow Value)
    (hen : other ∈ s.enqueued) (eq : sameAccount serde other row = true) (he : other.before row) :
    other ∈ s.sink := by
  have sorted := hd.sorted
  rw [todo] at sorted
  have first : row ∈ drain.todo := by simp [todo]
  rcases hd.turn row first other hen eq he with hp | waits
  · exact holds.mem_sink hen hp
  · rw [todo] at waits
    rcases mem_cons.mp waits with rfl | hl
    · exact absurd he OutboxRow.before_irrefl
    · exact absurd he (OutboxRow.before_asymm (rel_of_pairwise_cons sorted hl))

theorem Relaying.publish (hd : s.Draining serde drain) (todo : drain.todo = row :: rest) :
    Relaying serde { s with sink := s.sink ++ [row], received := events } where
  sorted := holds.sorted
  ids := holds.ids
  table := holds.table
  gone other inside := by
    rcases holds.gone other inside with stays | hp
    · exact .inl stays
    · exact .inr (wasPublished_append rfl hp)
  known other inside := by
    rcases mem_append.mp inside with old | new
    · exact holds.known other old
    · exact mem_singleton.mp new ▸ hd.known row (by simp [todo])
  complete other inside earlierRow known same earlier := by
    rcases mem_append.mp inside with old | new
    · exact mem_append_left _ (holds.complete other old earlierRow known same earlier)
    · cases mem_singleton.mp new
      exact mem_append_left _ (holds.turn hd todo earlierRow known same earlier)
  drains replica member drain under :=
    (holds.drains replica member drain under).grow [row] [] nofun rfl (append_nil _).symm
  inOrder := holds.inOrder_append (hd.known row (by simp [todo])) (holds.turn hd todo) rfl

theorem Relaying.setReplica (i : Nat) (drains : ∀ drain ∈ replica.drain, s.Draining serde drain) :
    (s.setReplica i replica).Relaying serde := by
  refine { holds with drains := ?_ }
  intro other mem drain under
  have eq : s.Draining serde drain := by
    rcases mem_or_eq_of_mem_set mem with old | rfl
    · exact holds.drains other old drain under
    · exact drains drain under
  exact eq.grow [] [] nofun (append_nil _).symm (append_nil _).symm

theorem Relaying.enqueue (hl : ∀ other ∈ s.enqueued, other.before row ∧ other.id ≠ row.id) :
    Relaying serde { s with table := s.table ++ [row], enqueued := s.enqueued ++ [row], sent := events } where
  sorted := pairwise_append.mpr ⟨holds.sorted, pairwise_singleton _ _, fun other mem new eq => by
    cases mem_singleton.mp eq
    exact (hl other mem).1⟩
  ids := by
    rw [map_append, nodup_append]
    refine ⟨holds.ids, nodup_singleton _, ?_⟩
    intro id mem new eq
    obtain ⟨other, inside, rfl⟩ := mem_map.mp mem
    cases mem_singleton.mp eq
    exact (hl other inside).2
  table := holds.table.append (List.Sublist.refl _)
  gone other inside := by
    rcases mem_append.mp inside with old | new
    · rcases holds.gone other old with stays | published
      · exact .inl (mem_append_left _ stays)
      · exact .inr published
    · exact .inl (mem_append_right _ new)
  known other inside := mem_append_left _ (holds.known other inside)
  complete published inside other known eq earlier := by
    rcases mem_append.mp known with old | new
    · exact holds.complete published inside other old eq earlier
    · cases mem_singleton.mp new
      exact absurd earlier (OutboxRow.before_asymm (hl published (holds.known published inside)).1)
  drains replica mem drain under :=
    (holds.drains replica mem drain under).grow [] [row]
      (fun other inside new single => by
        cases mem_singleton.mp single
        exact (hl other inside).1)
      (append_nil _).symm rfl
  inOrder := holds.inOrder

theorem Relaying.delete (done : ∀ id ∈ published, id ∈ s.sinkIds) :
    Relaying serde { s with table := s.delete published } := by
  refine { holds with table := ?_, gone := ?_, drains := ?_ }
  · exact (filter_sublist ..).trans holds.table
  · intro row hi
    rcases holds.gone row hi with stays | out
    · by_cases deleted : row.id ∈ published
      · exact .inr (wasPublished_iff.mpr (done row.id deleted))
      · exact .inl (mem_filter.mpr ⟨stays, by simpa using deleted⟩)
    · exact .inr out
  · intro replica mem drain under
    exact (holds.drains replica mem drain under).grow [] [] nofun (append_nil _).symm (append_nil _).symm

theorem Relaying.pass (h : s.replicas[i]? = some ⟨some drain, returned⟩) (todo : drain.todo = row :: rest) :
    Relaying serde
      { (s.setReplica i ⟨some { drain with todo := rest, published := drain.published ++ [row.id] }, returned⟩) with
        sink := s.sink ++ [row], received := events } := by
  have draining := holds.drains _ (mem_of_getElem? h) drain rfl
  have hg : Relaying serde { s with sink := s.sink ++ [row], received := events } := holds.publish draining todo
  apply Relaying.setReplica hg
  intro drain' under
  cases under
  have after := hg.drains _ (mem_of_getElem? h) drain rfl
  constructor
  · exact (todo ▸ draining.sorted).of_cons
  · intro other mem
    exact draining.known other (by simp [todo, mem])
  · intro other mem earlierRow hk eq he
    rcases after.turn other (by simp [todo, mem]) earlierRow hk eq he with out | waits
    · exact .inl out
    · rw [todo] at waits
      rcases mem_cons.mp waits with rfl | hl
      · exact .inl (wasPublished_iff.mpr (by simp [sinkIds]))
      · exact .inr hl
  · intro id mem
    rcases mem_append.mp mem with old | new
    · exact after.done id old
    · cases mem_singleton.mp new
      simp [sinkIds]

theorem Relaying.stop (h : s.replicas[i]? = some ⟨some drain, returned⟩) :
    (s.setReplica i ⟨some { drain with todo := [], publishFailure := cause }, returned⟩).Relaying serde := by
  have draining := holds.drains _ (mem_of_getElem? h) drain rfl
  apply holds.setReplica
  intro drain' under
  cases under
  exact ⟨.nil, nofun, nofun, draining.done⟩

theorem step_relaying {codec : Serde Value} (hi : s.ClaimsInTurn serde label)
    (hs : (machine codec hyphenated).step s label = some next) : next.Relaying serde := by
  cases label with
  | enqueue _ _ _ =>
    simp only [machine, step] at hs
    split at hs
    · split at hs
      · rename_i hl
        cases hs
        exact holds.enqueue hl
      · cases hs
    · cases hs
  | claim =>
    simp only [machine, step] at hs
    split at hs
    · cases hs
      apply holds.setReplica
      intro drain under
      cases under
      exact holds.claimed _ hi
    · cases hs
  | publish _ svc =>
    simp only [machine, step] at hs
    split at hs
    · rename_i h
      split at hs
      · rename_i row _ todo
        unfold Drain.next arrives at hs
        cases eq : codec.fromValue row.payload with
        | error =>
          simp only [eq] at hs
          cases hs
          exact holds.stop h
        | ok =>
          simp only [eq] at hs
          cases svc with
          | served =>
            cases hs
            exact holds.pass h todo
          | refused =>
            cases hs
            exact holds.stop h
          | replyLost =>
            cases hs
            exact (holds.publish (holds.drains _ (mem_of_getElem? h) _ rfl) todo).stop h
      · cases hs
    · cases hs
  | finish _ svc =>
    simp only [machine, step] at hs
    split at hs
    · rename_i h
      have draining := holds.drains _ (mem_of_getElem? h) _ rfl
      cases svc with
      | served | replyLost =>
        cases hs
        exact (holds.delete draining.done).setReplica _ nofun
      | refused =>
        cases hs
        exact holds.setReplica _ nofun
    · cases hs
  | crash _ =>
    simp only [machine, step] at hs
    split at hs
    · cases hs
      exact holds.setReplica _ nofun
    · cases hs

end

theorem Relaying.start (n : Nat) : (start n : State Value).Relaying serde where
  sorted := .nil
  ids := .nil
  table := .refl _
  gone := nofun
  known := nofun
  complete := nofun
  drains replica mem drain under := by
    cases eq_of_mem_replicate mem
    cases under
  inOrder := nofun

end State

/-- If no relay claims a row while another has an earlier unpublished row of the account locked, the
events of every account first reach the sink in the order they were enqueued. -/
theorem first_publications_in_order {trace : List Label} {n : Nat} {s : State Value}
    (inTurn : (State.machine serde hyphenated).Meets (State.ClaimsInTurn serde) (.start n) trace)
    (ran : (State.machine serde hyphenated).run (.start n) trace = some s) : s.InOrder serde := by
  have holds : s.Relaying serde := by
    apply Machine.run_keeps (m := State.machine serde hyphenated) _ (.start n) inTurn ran
    intro s label next holds inTurn stepped
    exact State.step_relaying holds inTurn stepped
  exact holds.inOrder

end

namespace Sample

def serde : Serde DomainEvent := ⟨.ok, .ok⟩

def revoked (session : SessionId) : DomainEvent := .sessionRevoked session 7 0 .logout 0 0

def relays := State.machine serde fun _ => ""

/-- The second relay claims the later row when the first one has published the earlier one. -/
def inTurn : List Label :=
  [.enqueue 10 1 (revoked 1), .claim 0, .publish 0 .served, .enqueue 20 2 (revoked 2), .claim 1, .publish 1 .served,
    .finish 0 .served, .finish 1 .served]

theorem inTurn_in_order : ∃ s, relays.run (.start 2) inTurn = some s ∧ s.sinkIds = [1, 2] ∧ s.InOrder serde := by
  obtain ⟨s, ran, seen⟩ : ∃ s, relays.run (.start 2) inTurn = some s ∧ s.sinkIds = [1, 2] := by decide +kernel
  exact ⟨s, ran, seen, first_publications_in_order serde (by decide +kernel) ran⟩

/-- The second relay skips the row that the first one has yet to publish. -/
def overtaking : List Label :=
  [.enqueue 10 1 (revoked 1), .claim 0, .enqueue 20 2 (revoked 2), .claim 1, .publish 1 .served, .publish 0 .served]

theorem overtaking_out_of_order :
    ∃ s, relays.run (.start 2) overtaking = some s ∧ s.sinkIds = [2, 1] ∧ ¬ s.InOrder serde := by
  decide +kernel

/-- The first publication goes through and is taken for a failure; the second relay stops at the second row. -/
def retried : List Label :=
  [.enqueue 10 1 (revoked 1), .enqueue 20 2 (revoked 2), .claim 0, .publish 0 (.replyLost "timed out"),
    .finish 0 .served, .claim 1, .publish 1 .served, .publish 1 (.refused "no leader"), .finish 1 .served]

end Sample
end OutboxRelay
end CorePlatform.Auth
