import Mathlib.Data.Finset.Card
import CorePlatform.Theory.Server
import CorePlatform.SocialGraph.Relation

/-! # The tables, the cache and the topic

A follow stands in three tables. One is keyed by the pair and keeps the time; the two adjacency
tables have the time in their key, so a row there is found only by the time it was written with. The
three rows are written and deleted in one logged batch.

Nothing compares the counters of the cache with the tables. -/

namespace CorePlatform.SocialGraph

open Theory

/-- A row of an adjacency table: whose list it stands in, since when, and who. -/
abbrev Edge := ProfileId × Int × ProfileId

structure Tables where
  followStatus : ProfileId → ProfileId → Option Int
  following : Finset Edge
  followers : Finset Edge
  blocks : ProfileId → ProfileId → Option Int

structure Cache where
  following : Finset (ProfileId × ProfileId)
  blocks : Finset (ProfileId × ProfileId)
  followersCount : ProfileId → Int
  followingCount : ProfileId → Int

structure World where
  tables : Tables
  cache : Cache
  published : List DomainEvent

/-- Set one entry of a table that is keyed by a pair. -/
def setPair {α : Type} (table : ProfileId → ProfileId → α) (a b : ProfileId) (entry : α) : ProfileId → ProfileId → α :=
  fun x y => if x = a ∧ y = b then entry else table x y

section

variable {α : Type}

@[simp] theorem setPair_self : setPair table a b entry a b = entry := if_pos ⟨rfl, rfl⟩

theorem setPair_of_ne (other : ¬ (x = a ∧ y = b)) : setPair table a b entry x y = table x y := if_neg other

theorem setPair_comm (ne : ¬ (a = c ∧ b = d)) :
    setPair (setPair table a b entry) c d entry' = setPair (setPair table c d entry') a b entry := by
  funext x y
  by_cases first : x = a ∧ y = b
  · obtain ⟨rfl, rfl⟩ := first
    rw [setPair_of_ne ne, setPair_self, setPair_self]
  rw [setPair_of_ne first]
  by_cases second : x = c ∧ y = d
  · obtain ⟨rfl, rfl⟩ := second
    rw [setPair_self, setPair_self]
  · rw [setPair_of_ne second, setPair_of_ne second, setPair_of_ne first]

end

namespace Tables

def empty : Tables := ⟨fun _ _ => none, ∅, ∅, fun _ _ => none⟩

def persistFollow (t : Tables) (actorId targetId : ProfileId) (followedAt : Int) : Tables :=
  { t with
    followStatus := setPair t.followStatus actorId targetId (some followedAt)
    following := insert (actorId, followedAt, targetId) t.following
    followers := insert (targetId, followedAt, actorId) t.followers }

def deleteFollow (t : Tables) (actorId targetId : ProfileId) (followedAt : Int) : Tables :=
  { t with
    followStatus := setPair t.followStatus actorId targetId none
    following := t.following.erase (actorId, followedAt, targetId)
    followers := t.followers.erase (targetId, followedAt, actorId) }

def persistBlock (t : Tables) (blockerId blockeeId : ProfileId) (blockedAt : Int) : Tables :=
  { t with blocks := setPair t.blocks blockerId blockeeId (some blockedAt) }

def deleteBlock (t : Tables) (blockerId blockeeId : ProfileId) : Tables :=
  { t with blocks := setPair t.blocks blockerId blockeeId none }

def followerCount (t : Tables) (profileId : ProfileId) : Nat := (t.followers.filter fun edge => edge.1 = profileId).card

end Tables

inductive Op where
  | getFollowSince (followerId followeeId : ProfileId)
  | getBlockExists (blockerId blockeeId : ProfileId)
  | persistFollow (actorId targetId : ProfileId) (followedAt : Int)
  | deleteFollow (actorId targetId : ProfileId) (followedAt : Int)
  | persistBlock (blockerId blockeeId : ProfileId) (blockedAt : Int)
  | deleteBlock (blockerId blockeeId : ProfileId)
  | addFollowing (followerId followeeId : ProfileId)
  | removeFollowing (followerId followeeId : ProfileId)
  | addBlock (blockerId blockeeId : ProfileId)
  | removeBlock (blockerId blockeeId : ProfileId)
  | incrFollowersCount (profileId : ProfileId)
  | decrFollowersCount (profileId : ProfileId)
  | incrFollowingCount (profileId : ProfileId)
  | decrFollowingCount (profileId : ProfileId)
  | publish (event : DomainEvent)

abbrev Op.Reply : Op → Type
  | .getFollowSince _ _ => Option Int
  | .getBlockExists _ _ => Bool
  | .incrFollowersCount _ | .decrFollowersCount _ => Int
  | _ => Unit

namespace Cache

def empty : Cache := ⟨∅, ∅, fun _ => 0, fun _ => 0⟩

/-- `DECR`, clamped at zero. -/
def lowered (count : Int) : Int := if count - 1 < 0 then 0 else count - 1

def addFollowers (c : Cache) (profileId : ProfileId) (count : Int) : Cache :=
  { c with followersCount := Function.update c.followersCount profileId count }

def addFollowings (c : Cache) (profileId : ProfileId) (count : Int) : Cache :=
  { c with followingCount := Function.update c.followingCount profileId count }

end Cache

namespace World

def empty : World := ⟨.empty, .empty, []⟩

/-- An unblocking is not sent on. -/
def publish (w : World) : DomainEvent → World
  | .profileUnblocked _ _ _ => w
  | event => { w with published := w.published ++ [event] }

def serve (w : World) : (op : Op) → World × Except SocialGraphError op.Reply
  | .getFollowSince a b => (w, .ok (w.tables.followStatus a b))
  | .getBlockExists a b => (w, .ok (w.tables.blocks a b).isSome)
  | .persistFollow a b at_ => ({ w with tables := w.tables.persistFollow a b at_ }, .ok ())
  | .deleteFollow a b at_ => ({ w with tables := w.tables.deleteFollow a b at_ }, .ok ())
  | .persistBlock a b at_ => ({ w with tables := w.tables.persistBlock a b at_ }, .ok ())
  | .deleteBlock a b => ({ w with tables := w.tables.deleteBlock a b }, .ok ())
  | .addFollowing a b => ({ w with cache := { w.cache with following := insert (a, b) w.cache.following } }, .ok ())
  | .removeFollowing a b =>
    ({ w with cache := { w.cache with following := w.cache.following.erase (a, b) } }, .ok ())
  | .addBlock a b => ({ w with cache := { w.cache with blocks := insert (a, b) w.cache.blocks } }, .ok ())
  | .removeBlock a b => ({ w with cache := { w.cache with blocks := w.cache.blocks.erase (a, b) } }, .ok ())
  | .incrFollowersCount a =>
    let count := w.cache.followersCount a + 1
    ({ w with cache := w.cache.addFollowers a count }, .ok count)
  | .decrFollowersCount a =>
    let count := Cache.lowered (w.cache.followersCount a)
    ({ w with cache := w.cache.addFollowers a count }, .ok count)
  | .incrFollowingCount a => ({ w with cache := w.cache.addFollowings a (w.cache.followingCount a + 1) }, .ok ())
  | .decrFollowingCount a =>
    ({ w with cache := w.cache.addFollowings a (Cache.lowered (w.cache.followingCount a)) }, .ok ())
  | .publish event => (w.publish event, .ok ())

end World

def Op.failure (reason : String) : Op → SocialGraphError
  | .getFollowSince _ _ | .getBlockExists _ _ | .persistFollow _ _ _ | .deleteFollow _ _ _ | .persistBlock _ _ _
  | .deleteBlock _ _ => .storage reason
  | .publish _ => .domainViolation "kafka" reason
  | _ => .cache reason

def server : Server World Op Op.Reply SocialGraphError where
  serve := World.serve
  failure op reason := op.failure reason

end CorePlatform.SocialGraph
