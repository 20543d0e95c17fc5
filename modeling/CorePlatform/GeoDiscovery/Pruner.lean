import Mathlib.Data.List.Sort
import CorePlatform.Theory.Machine

/-! # Evicting cold tiles

A query of a tile notes its time in the tracker. The pruner deletes the sets of a batch of tiles
that were not queried for a while, and then clears the tracker of all of them, the batch or not.
-/

namespace CorePlatform.GeoDiscovery

open Theory List

structure Redis where
  /-- when each tile was queried last -/
  hotTiles : List (String × Int)
  /-- the tiles that have a sorted set -/
  sets : String → Bool

structure TilePruner where
  coldThreshold : Int
  batchSize : Nat

inductive Action where
  | touch (suffix : String) (now : Int)
  | pruneOnce (now : Int)

namespace Redis

def tracks (r : Redis) (suffix : String) : Prop := ∃ entry ∈ r.hotTiles, entry.1 = suffix

def zadd (r : Redis) (suffix : String) (now : Int) : Redis :=
  { r with hotTiles := (suffix, now) :: r.hotTiles.filter (·.1 ≠ suffix) }

/-- `ZRANGEBYSCORE`: by score, and by name where scores are equal. -/
def cold (r : Redis) (cutoff : Int) : List (String × Int) :=
  (r.hotTiles.filter (·.2 ≤ cutoff)).insertionSort fun a b => a.2 < b.2 ∨ a.2 = b.2 ∧ a.1 ≤ b.1

/-- `PRUNE_COLD_TILES_SCRIPT`. -/
def pruneColdTiles (r : Redis) (cutoff : Int) (batchSize : Nat) : Redis :=
  let batch := ((r.cold cutoff).take batchSize).map Prod.fst
  if batch = [] then r
  else
    { hotTiles := r.hotTiles.filter (cutoff < ·.2)
      sets := fun suffix => r.sets suffix && !batch.contains suffix }

end Redis

namespace TilePruner

variable (p : TilePruner)

def step (r : Redis) : Action → Redis
  | .touch suffix now => r.zadd suffix now
  | .pruneOnce now => r.pruneColdTiles (now - p.coldThreshold) p.batchSize

def machine : Machine Redis Action := ⟨fun _ => True, fun r action => some (p.step r action)⟩

/-- The cold tiles that are not in the batch have no set any more. -/
def covers (r : Redis) : Action → Bool
  | .touch _ _ => true
  | .pruneOnce now => ((r.cold (now - p.coldThreshold)).drop p.batchSize).all fun entry => !r.sets entry.1

variable {p} {r : Redis}

theorem step_gone (gone : r.sets suffix = false) (action : Action) : (p.step r action).sets suffix = false := by
  cases action with
  | touch => exact gone
  | pruneOnce =>
    simp only [step, Redis.pruneColdTiles]
    split <;> simp [gone]

theorem pruned (fits : p.covers r (.pruneOnce now) = true) (ht : entry ∈ r.hotTiles) :
    (now - p.coldThreshold < entry.2 ∧ (p.step r (.pruneOnce now)).tracks entry.1) ∨
      (p.step r (.pruneOnce now)).sets entry.1 = false := by
  by_cases hc : entry.2 ≤ now - p.coldThreshold
  · have mem : entry ∈ r.cold (now - p.coldThreshold) := by simp [Redis.cold, ht, hc]
    rw [← take_append_drop p.batchSize (r.cold _)] at mem
    rcases mem_append.mp mem with first | later
    · have hb := mem_map_of_mem (f := Prod.fst) first
      refine .inr ?_
      simp only [step, Redis.pruneColdTiles, if_neg (ne_nil_of_mem hb), contains_eq_mem, hb, decide_true,
        Bool.not_true, Bool.and_false]
    · have gone := all_eq_true.mp fits entry later
      exact .inr (step_gone (by simpa using gone) _)
  refine .inl ⟨by omega, ?_⟩
  simp only [step, Redis.pruneColdTiles]
  split
  · exact ⟨entry, ht, rfl⟩
  · exact ⟨entry, mem_filter.mpr ⟨ht, by simpa using hc⟩, rfl⟩

theorem step_keeps (fits : p.covers r action = true) (h : r.tracks suffix ∨ r.sets suffix = false) :
    (p.step r action).tracks suffix ∨ (p.step r action).sets suffix = false := by
  rcases h with ⟨entry, ht, rfl⟩ | gone
  · cases action with
    | touch touched now =>
      by_cases mine : entry.1 = touched
      · exact .inl ⟨_, mem_cons_self, mine.symm⟩
      · exact .inl ⟨entry, .tail _ (mem_filter.mpr ⟨ht, by simpa using mine⟩), rfl⟩
    | pruneOnce => exact (pruned fits ht).imp_left And.right
  · exact .inr (step_gone gone action)

/-- Where the pruner covers all cold tiles, a tile tracked once is tracked still or its set is gone,
and no such set is left by a run past the cold threshold. -/
theorem cold_tiles_evicted (p : TilePruner) (r r' : Redis) (actions : List Action)
    (fits : p.machine.Meets (fun r action => p.covers r action = true) r actions)
    (ran : p.machine.run r actions = some r') (suffix : String) (tracked : r.tracks suffix) :
    (r'.tracks suffix ∨ r'.sets suffix = false) ∧
      ∀ now, p.covers r' (.pruneOnce now) = true → (∀ entry ∈ r'.hotTiles, entry.2 ≤ now - p.coldThreshold) →
        (p.step r' (.pruneOnce now)).sets suffix = false := by
  have keeps : ∀ r action next, (r.tracks suffix ∨ r.sets suffix = false) → p.covers r action = true →
      p.machine.step r action = some next → next.tracks suffix ∨ next.sets suffix = false := by
    intro r action next h fits stepped
    cases stepped
    exact step_keeps fits h
  have kept := Machine.run_keeps keeps (.inl tracked) fits ran
  refine ⟨kept, fun now covers past => ?_⟩
  rcases kept with ⟨entry, mem, rfl⟩ | gone
  · rcases pruned covers mem with ⟨hot, -⟩ | gone
    · exact absurd (past entry mem) (Int.not_le.mpr hot)
    · exact gone
  · exact step_gone gone _

private def hourly : TilePruner := ⟨3600, 1⟩

private def twoTiles : Redis := ⟨[("8a:9", 0), ("8b:9", 1)], fun _ => true⟩

theorem cold_tiles_evicted_in_turn :
    (hourly.step (hourly.step twoTiles (.pruneOnce 3600)) (.pruneOnce 3601)).sets "8b:9" = false :=
  (cold_tiles_evicted hourly twoTiles _ [.pruneOnce 3600] (by decide +kernel) rfl "8b:9"
    ⟨_, .tail _ List.mem_cons_self, rfl⟩).2 3601 (by decide +kernel) (by decide +kernel)

/-- Two tiles are cold and the batch is one: the other leaves the tracker and keeps its set. -/
theorem cold_tile_left_behind :
    (hourly.step twoTiles (.pruneOnce 3601)).hotTiles = [] ∧
      (hourly.step twoTiles (.pruneOnce 3601)).sets "8b:9" = true := by
  decide +kernel

end TilePruner
end CorePlatform.GeoDiscovery
