import CorePlatform.Theory.Interleaving
import CorePlatform.Theory.Join
import CorePlatform.SocialGraph.Stores

/-! # The commands of the social graph

Every command reads the relation by four concurrent lookups, decides on what it read, writes to the
tables and then updates the cache and publishes, whatever becomes of those two. A block writes its
row first and then severs the follows in both directions, side by side.

A request carries what its environment decides: the readings of the clock, the order in which the
lookups are answered, and the turns of the two severings. -/

namespace CorePlatform.SocialGraph

open Theory

abbrev Calling (α : Type) := Program Op Op.Reply SocialGraphError α

abbrev ask (op : Op) : Calling op.Reply := Program.perform op

def quietly (op : Op) : Calling Unit := .call op fun _ => .ok ()

theorem confined_quietly {α : Type} {f : Unit → Calling α} (fits : allowed op)
    (ho : ∀ value, (f value).Confined allowed fun _ => True) :
    (quietly op >>= f).Confined allowed fun _ => True :=
  ⟨fits, fun _ _ => ho ()⟩

inductive Lookup where
  | actorFollows
  | targetFollows
  | actorBlocks
  | targetBlocks
  deriving DecidableEq

/-- The order in which the four lookups are answered. -/
structure Order where
  lookups : List Lookup
  complete : lookups.Perm [.actorFollows, .targetFollows, .actorBlocks, .targetBlocks]

structure Found where
  r1 : Except SocialGraphError (Option Int)
  r2 : Except SocialGraphError (Option Int)
  r3 : Except SocialGraphError Bool
  r4 : Except SocialGraphError Bool

def Found.nothing : Found := ⟨.ok none, .ok none, .ok false, .ok false⟩

def lookUp (actorId targetId : ProfileId) : List Lookup → Found → Calling Found
  | [], found => .ok found
  | .actorFollows :: rest, found =>
    .call (.getFollowSince actorId targetId) fun r1 => lookUp actorId targetId rest { found with r1 }
  | .targetFollows :: rest, found =>
    .call (.getFollowSince targetId actorId) fun r2 => lookUp actorId targetId rest { found with r2 }
  | .actorBlocks :: rest, found =>
    .call (.getBlockExists actorId targetId) fun r3 => lookUp actorId targetId rest { found with r3 }
  | .targetBlocks :: rest, found =>
    .call (.getBlockExists targetId actorId) fun r4 => lookUp actorId targetId rest { found with r4 }

/-- `Relation::from_context` of the four results, the first error first. -/
def Found.relation (found : Found) (actorId targetId : ProfileId) : Except SocialGraphError Relation := do
  let actorFollowsTargetSince ← found.r1
  let targetFollowsActorSince ← found.r2
  let actorBlocksTarget ← found.r3
  let targetBlocksActor ← found.r4
  return {
    actorId, targetId, actorFollowsTargetSince, targetFollowsActorSince, actorBlocksTarget, targetBlocksActor
    pendingEvents := [] }

theorem Found.relation_eq_ok {found : Found} {relation : Relation}
    (hl : found.relation actorId targetId = .ok relation) :
    found = ⟨.ok relation.actorFollowsTargetSince, .ok relation.targetFollowsActorSince,
        .ok relation.actorBlocksTarget, .ok relation.targetBlocksActor⟩ ∧
      relation.actorId = actorId ∧ relation.targetId = targetId ∧ relation.pendingEvents = [] := by
  obtain ⟨r1, r2, r3, r4⟩ := found
  cases r1 with
  | error => cases hl
  | ok =>
    cases r2 with
    | error => cases hl
    | ok =>
      cases r3 with
      | error => cases hl
      | ok =>
        cases r4 with
        | error => cases hl
        | ok =>
          cases hl
          exact ⟨rfl, rfl, rfl, rfl⟩

theorem Order.mem (order : Order) (lookup : Lookup) : lookup ∈ order.lookups := by
  rw [order.complete.mem_iff]
  cases lookup <;> decide

def loadRelation (actorId targetId : ProfileId) (order : Order) : Calling Relation := do
  let found ← lookUp actorId targetId order.lookups .nothing
  found.relation actorId targetId

def notSelf (actorId targetId : ProfileId) : Except SocialGraphError Unit :=
  if actorId = targetId then .error .selfInteraction else .ok ()

/-- The author-tier signal, if a boundary was crossed. -/
def announce (thresholds : TierThresholds) (profileId : ProfileId) (oldCount newCount changedAt : Int) : Calling Unit :=
  match AuthorTier.crossing oldCount newCount thresholds with
  | some newTier => quietly (.publish (.authorTierChanged profileId newTier newCount changedAt))
  | none => .ok ()

def gainFollower (thresholds : TierThresholds) (profileId : ProfileId) (changedAt : Int) : Calling Unit :=
  .call (.incrFollowersCount profileId) fun
    | .ok newCount => announce thresholds profileId (newCount - 1) newCount changedAt
    | .error _ => .ok ()

def loseFollower (thresholds : TierThresholds) (profileId : ProfileId) (changedAt : Int) : Calling Unit :=
  .call (.decrFollowersCount profileId) fun
    | .ok newCount => announce thresholds profileId (newCount + 1) newCount changedAt
    | .error _ => .ok ()

def publishAll : List DomainEvent → Calling Unit
  | [] => .ok ()
  | event :: rest => do
      quietly (.publish event)
      publishAll rest

def sever (followerId followeeId : ProfileId) : Option Int → Calling Unit
  | none => .ok ()
  | some followedAt => do
      ask (.deleteFollow followerId followeeId followedAt)
      quietly (.removeFollowing followerId followeeId)
      quietly (.decrFollowersCount followeeId)
      quietly (.decrFollowingCount followerId)

structure Setup where
  formats : Formats
  thresholds : TierThresholds

section

variable (setup : Setup) (actor target : String) (clock : Nat → Int) (order : Order)

def followProfile : Calling Unit := do
  let actorId ← setup.formats.profileId actor
  let targetId ← setup.formats.profileId target
  notSelf actorId targetId
  let relation ← loadRelation actorId targetId order
  let (relation, followedAt) ← relation.follow setup.formats (clock 0)
  ask (.persistFollow actorId targetId followedAt)
  quietly (.addFollowing actorId targetId)
  quietly (.incrFollowingCount actorId)
  gainFollower setup.thresholds targetId (clock 1)
  publishAll relation.pendingEvents

def unfollowProfile : Calling Unit := do
  let actorId ← setup.formats.profileId actor
  let targetId ← setup.formats.profileId target
  let relation ← loadRelation actorId targetId order
  let (relation, followedAt) ← relation.unfollow setup.formats (clock 0)
  ask (.deleteFollow actorId targetId followedAt)
  quietly (.removeFollowing actorId targetId)
  quietly (.decrFollowingCount actorId)
  loseFollower setup.thresholds targetId (clock 1)
  publishAll relation.pendingEvents

/-- The block row, then both severings, then the cache and the events. -/
def carryOutBlock (actorId targetId : ProfileId) (blockedAt : Int) (severed : SeveredFollows) (turns : List Bool)
    (events : List DomainEvent) : Calling Unit := do
  ask (.persistBlock actorId targetId blockedAt)
  let (r1, r2) ← Program.join (sever actorId targetId severed.actorToTarget).attempt
    (sever targetId actorId severed.targetToActor).attempt turns
  let _ ← r1
  let _ ← r2
  quietly (.addBlock actorId targetId)
  publishAll events

def blockProfile (turns : List Bool) : Calling Unit := do
  let actorId ← setup.formats.profileId actor
  let targetId ← setup.formats.profileId target
  notSelf actorId targetId
  let relation ← loadRelation actorId targetId order
  let (relation, severed) ← relation.block setup.formats (clock 0)
  carryOutBlock actorId targetId (clock 1) severed turns relation.pendingEvents

def unblockProfile : Calling Unit := do
  let actorId ← setup.formats.profileId actor
  let targetId ← setup.formats.profileId target
  let relation ← loadRelation actorId targetId order
  let _ ← relation.unblock setup.formats (clock 0)
  ask (.deleteBlock actorId targetId)
  quietly (.removeBlock actorId targetId)

end

inductive Verb where
  | follow
  | unfollow
  | block
  | unblock
  deriving DecidableEq

structure Request where
  verb : Verb
  actor : String
  target : String
  clock : Nat → Int
  order : Order
  turns : List Bool

def Request.program (setup : Setup) (request : Request) : Calling Unit :=
  match request.verb with
  | .follow => followProfile setup request.actor request.target request.clock request.order
  | .unfollow => unfollowProfile setup request.actor request.target request.clock request.order
  | .block => blockProfile setup request.actor request.target request.clock request.order request.turns
  | .unblock => unblockProfile setup request.actor request.target request.clock request.order

def host (setup : Setup) (init : World → Prop) : Host World Request Empty Op Op.Reply SocialGraphError Unit where
  init := init
  server := server
  accept w request := some (w, request.program setup)
  elapse _ event := nomatch event

abbrev Traffic := Pool World Request Op Op.Reply SocialGraphError Unit

end CorePlatform.SocialGraph
