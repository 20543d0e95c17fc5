import CorePlatform.Theory.Conformance
import CorePlatform.SocialGraph.Handlers

/-! # One graph in three tables

A batch writes or deletes a follow in all three tables, but only the table keyed by the pair notices
another follow of the same pair: the adjacency tables keep a row per time. The three stay one graph
as long as each batch finds no follow of its pair, or the one with its own time. -/

namespace CorePlatform.SocialGraph

open Theory

namespace Tables

/-- The tables say the same of who follows whom since when. -/
def OneGraph (t : Tables) : Prop :=
  ∀ (a b : ProfileId) (since : Int),
    (t.followStatus a b = some since ↔ (a, since, b) ∈ t.following) ∧
    (t.followStatus a b = some since ↔ (b, since, a) ∈ t.followers)

theorem oneGraph_empty : empty.OneGraph := by
  intro a b since
  simp [empty]

/-- The pair has no follow, or the one of that time. -/
def clear (t : Tables) (a b : ProfileId) (since : Int) : Bool := (t.followStatus a b).all (· == since)

variable {t : Tables} {a b : ProfileId} {since : Int}

theorem eq_of_clear (hc : t.clear a b since = true) (hf : t.followStatus a b = some other) : other = since := by
  simpa [Tables.clear, hf] using hc

theorem OneGraph.persistFollow (graph : t.OneGraph) (hc : t.clear a b since = true) :
    (t.persistFollow a b since).OneGraph := by
  intro x y time
  by_cases eq : x = a ∧ y = b
  · obtain ⟨rfl, rfl⟩ := eq
    simp only [Tables.persistFollow, setPair_self, Finset.mem_insert, Prod.mk.injEq, true_and, and_true,
      ← (graph x y time).1, ← (graph x y time).2, Option.some.injEq]
    have only : t.followStatus x y = some time → time = since := eq_of_clear hc
    constructor
    · exact ⟨fun here => .inl here.symm, fun either => (either.elim id only).symm⟩
    · exact ⟨fun here => .inl here.symm, fun either => (either.elim id only).symm⟩
  have ne : ¬ (x = a ∧ time = since ∧ y = b) := fun both => eq ⟨both.1, both.2.2⟩
  have apart' : ¬ (y = b ∧ time = since ∧ x = a) := fun both => eq ⟨both.2.2, both.1⟩
  simp only [Tables.persistFollow, setPair_of_ne eq, Finset.mem_insert, Prod.mk.injEq, ne, apart', false_or]
  exact graph x y time

theorem OneGraph.deleteFollow (graph : t.OneGraph) (hc : t.clear a b since = true) :
    (t.deleteFollow a b since).OneGraph := by
  intro x y time
  by_cases eq : x = a ∧ y = b
  · obtain ⟨rfl, rfl⟩ := eq
    have only : t.followStatus x y = some time → time = since := eq_of_clear hc
    simp only [Tables.deleteFollow, setPair_self, Finset.mem_erase, ne_eq, Prod.mk.injEq, true_and, and_true,
      ← (graph x y time).1, ← (graph x y time).2, reduceCtorEq, false_iff, not_and]
    constructor
    · intro other hf
      exact other (only hf)
    · intro other hf
      exact other (only hf)
  have ne : ¬ (x = a ∧ time = since ∧ y = b) := fun both => eq ⟨both.1, both.2.2⟩
  have apart' : ¬ (y = b ∧ time = since ∧ x = a) := fun both => eq ⟨both.2.2, both.1⟩
  simp only [Tables.deleteFollow, setPair_of_ne eq, Finset.mem_erase, ne_eq, Prod.mk.injEq, ne, apart',
    not_false_eq_true, true_and]
  exact graph x y time

/-- The follows that an operation is about to write or delete are clear of others. -/
def fits (t : Tables) : Op → Bool
  | .persistFollow a b since | .deleteFollow a b since => t.clear a b since
  | _ => true

theorem OneGraph.serve {w : World} (graph : w.tables.OneGraph) (fits : w.tables.fits op = true) :
    (w.serve op).1.tables.OneGraph := by
  cases op with
  | persistFollow => exact graph.persistFollow fits
  | deleteFollow => exact graph.deleteFollow fits
  | publish ev => cases ev <;> exact graph
  | _ => exact graph

end Tables

def carriedOut (pool : Traffic) : Move Request Empty → Option Op
  | .advance id service =>
    match pool.calls id with
    | some ⟨_, .call op _, _⟩ => if service.reaches then some op else none
    | _ => none
  | .begin _ _ | .crash _ | .elapse _ => none

/-- A batch that is carried out finds no other follow of its pair. -/
def undisturbed (pool : Traffic) (move : Move Request Empty) : Bool :=
  (carriedOut pool move).all pool.world.tables.fits

theorem carriedOut_advance {id : Nat} (hw : pool.calls id = some ⟨req, .call op next, heard⟩) :
    carriedOut pool (.advance id service) = if service.reaches then some op else none := by
  simp only [carriedOut, hw]

theorem world_step (holds : World → Prop) (initially : holds pool.world)
    (hs : (host setup init).Steps pool move next)
    (hse : ∀ op, carriedOut pool move = some op → holds (pool.world.serve op).1) : holds next.world := by
  cases hs with
  | begun _ ha =>
    cases ha
    exact initially
  | @advanced _ _ op _ _ svc waiting =>
    rw [carriedOut_advance waiting] at hse
    cases svc with
    | served | replyLost => exact hse op rfl
    | refused => exact initially
  | crashed => exact initially
  | @elapsed event => exact event.elim

/-- In a run of undisturbed batches the three tables are one graph throughout, with one row per pair
in each. -/
theorem undisturbed_batches_keep_oneGraph (setup : Setup) (start pool : Traffic) (moves : List (Move Request Empty))
    (begins : (host setup fun w => w.tables.OneGraph).machine.init start)
    (clear : (host setup fun w => w.tables.OneGraph).machine.Meets (fun pool move => undisturbed pool move = true)
      start moves)
    (ran : (host setup fun w => w.tables.OneGraph).machine.run start moves = some pool) :
    pool.world.tables.OneGraph ∧
    (∀ a b since since',
      ((a, since, b) ∈ pool.world.tables.following → (a, since', b) ∈ pool.world.tables.following → since = since') ∧
      ((b, since, a) ∈ pool.world.tables.followers → (b, since', a) ∈ pool.world.tables.followers → since = since')) ∧
    ∀ a b, pool.world.tables.followStatus a b = none →
      ∀ since, (a, since, b) ∉ pool.world.tables.following ∧ (b, since, a) ∉ pool.world.tables.followers := by
  have graph : pool.world.tables.OneGraph := by
    refine Host.run_keeps (fun s => s.world.tables.OneGraph) ?_ begins.1 clear ran
    intro s move next graph fits steps
    apply world_step (fun w => w.tables.OneGraph) graph steps
    intro op carried
    rw [undisturbed, carried] at fits
    exact graph.serve fits
  refine ⟨graph, ?_, ?_⟩
  · intro a b since since'
    constructor
    · intro row row'
      exact Option.some.inj (((graph a b since).1.mpr row).symm.trans ((graph a b since').1.mpr row'))
    · intro row row'
      exact Option.some.inj (((graph a b since).2.mpr row).symm.trans ((graph a b since').2.mpr row'))
  intro a b none_ since
  constructor
  · intro row
    cases none_.symm.trans ((graph a b since).1.mpr row)
  · intro row
    cases none_.symm.trans ((graph a b since).2.mpr row)

namespace Pair

def formats : Formats where
  parseUuid text := if text = "a" then some 1 else if text = "b" then some 2 else none
  hyphenated id := if id = 1 then "a" else "b"

def setup : Setup := ⟨formats, .new 10 100⟩

def order : Order := ⟨[.actorFollows, .targetFollows, .actorBlocks, .targetBlocks], .refl _⟩

def request (verb : Verb) (actor target : String) (now : Int) : Request :=
  ⟨verb, actor, target, fun _ => now, order, []⟩

def start : Traffic := ⟨.empty, fun _ => none⟩

/-- Calls of the given commands, one after the other, each of them served. -/
def advances (ids : List Nat) : List (Move Request Empty) := ids.map fun id => .advance id .served

/-- A command from its beginning to its end, in so many calls. -/
def alone (id calls : Nat) (request : Request) : List (Move Request Empty) :=
  .begin id request :: advances (List.replicate calls id)

/-- A follow, an unfollow and a follow again, each of them alone. -/
def inTurn : List (Move Request Empty) :=
  alone 0 9 (request .follow "a" "b" 1) ++ alone 1 9 (request .unfollow "a" "b" 2) ++
    alone 2 9 (request .follow "a" "b" 3)

/-- Two follows read the relation before either writes; then an unfollow. -/
def overlapping : List (Move Request Empty) :=
  [.begin 0 (request .follow "a" "b" 1), .begin 1 (request .follow "a" "b" 2)] ++
    advances (List.replicate 4 0 ++ List.replicate 4 1 ++ List.replicate 5 0 ++ List.replicate 5 1) ++
    alone 2 9 (request .unfollow "a" "b" 3)

theorem begins_oneGraph : (host setup fun w => w.tables.OneGraph).machine.init start :=
  ⟨Tables.oneGraph_empty, rfl⟩

theorem inTurn_oneGraph : ∃ pool, (host setup fun w => w.tables.OneGraph).machine.run start inTurn = some pool ∧
    pool.world.tables.followStatus 1 2 = some 3 ∧ pool.world.tables.OneGraph := by
  obtain ⟨pool, ran, follows⟩ : ∃ pool, (host setup fun w => w.tables.OneGraph).machine.run start inTurn = some pool ∧
      pool.world.tables.followStatus 1 2 = some 3 := by decide +kernel
  have clear : (host setup fun w => w.tables.OneGraph).machine.Meets (fun pool move => undisturbed pool move = true)
      start inTurn := by decide +kernel
  exact ⟨pool, ran, follows, (undisturbed_batches_keep_oneGraph setup start pool inTurn begins_oneGraph clear ran).1⟩

/-- The first of two overlapping follows leaves rows that the unfollow does not find. -/
theorem overlapping_follows_leave_ghosts :
    ∃ pool, (host setup fun w => w.tables.OneGraph).machine.run start overlapping = some pool ∧ pool.Idle ∧
      pool.world.tables.followStatus 1 2 = none ∧ (1, 1, 2) ∈ pool.world.tables.following ∧
      (2, 1, 1) ∈ pool.world.tables.followers := by
  obtain ⟨pool, ran, ended, seen⟩ : ∃ pool,
      (host setup fun w => w.tables.OneGraph).machine.run start overlapping = some pool ∧
      (begunIn overlapping).all (fun id => (pool.calls id).all fun call => call.program.ended) = true ∧
      pool.world.tables.followStatus 1 2 = none ∧ (1, 1, 2) ∈ pool.world.tables.following ∧
      (2, 1, 1) ∈ pool.world.tables.followers := by decide +kernel
  exact ⟨pool, ran, Host.idle_of_ended ran (fun _ => rfl) ended, seen⟩

end Pair
end CorePlatform.SocialGraph
