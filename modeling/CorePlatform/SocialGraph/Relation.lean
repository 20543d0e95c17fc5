import CorePlatform.Auth.Values

/-! # Relations between two profiles

A relation is the context of two profiles as it was read from the store: who follows whom since
when, and who blocks whom. The commands check it, change their copy and note the event to publish.

The tier of an author follows from the number of followers and the two floors. -/

namespace CorePlatform.SocialGraph

open Auth (Uuid)

abbrev ProfileId := Uuid

inductive SocialGraphError where
  | storage (reason : String)
  | cache (reason : String)
  | alreadyFollowing (actorId targetId : String)
  | notFollowing (actorId targetId : String)
  | alreadyBlocked (actorId targetId : String)
  | notBlocked (actorId targetId : String)
  | selfInteraction
  | blockGateDenied (actorId targetId : String)
  | domainViolation (field message : String)
  | invalidProfileId (text : String)

structure Formats where
  parseUuid : String → Option Uuid
  hyphenated : Uuid → String

def Formats.profileId (formats : Formats) (text : String) : Except SocialGraphError ProfileId :=
  match formats.parseUuid text with
  | some id => .ok id
  | none => .error (.invalidProfileId text)

inductive AuthorTier where
  | standard
  | premium
  | vip
  deriving DecidableEq

structure TierThresholds where
  premium : Int
  vip : Int
  positive : 1 ≤ premium
  ordered : premium ≤ vip

def TierThresholds.new (premium vip : Int) : TierThresholds where
  premium := max premium 1
  vip := max vip (max premium 1)
  positive := Int.le_max_right ..
  ordered := Int.le_max_right ..

namespace AuthorTier

def fromFollowerCount (count : Int) (thresholds : TierThresholds) : AuthorTier :=
  if thresholds.vip ≤ count then .vip
  else if thresholds.premium ≤ count then .premium
  else .standard

def crossing (oldCount newCount : Int) (thresholds : TierThresholds) : Option AuthorTier :=
  let old := fromFollowerCount oldCount thresholds
  let new := fromFollowerCount newCount thresholds
  if old ≠ new then some new else none

theorem fromFollowerCount_zero (thresholds : TierThresholds) : fromFollowerCount 0 thresholds = .standard := by
  have positive := thresholds.positive
  have ordered := thresholds.ordered
  unfold fromFollowerCount
  rw [if_neg (by omega), if_neg (by omega)]

theorem crossing_getD (oldCount newCount : Int) (thresholds : TierThresholds) :
    (crossing oldCount newCount thresholds).getD (fromFollowerCount oldCount thresholds) =
      fromFollowerCount newCount thresholds := by
  unfold crossing
  by_cases eq : fromFollowerCount oldCount thresholds = fromFollowerCount newCount thresholds
  · simp [eq]
  · simp [eq]

end AuthorTier

/-- Times are in milliseconds, as the tables keep them. -/
inductive DomainEvent where
  | profileFollowed (actorId targetId : ProfileId) (followedAt : Int)
  | profileUnfollowed (actorId targetId : ProfileId) (unfollowedAt : Int)
  | profileBlocked (actorId targetId : ProfileId) (blockedAt : Int) (severedActorFollow severedTargetFollow : Bool)
  | profileUnblocked (actorId targetId : ProfileId) (unblockedAt : Int)
  | authorTierChanged (profileId : ProfileId) (newTier : AuthorTier) (followerCount : Int) (changedAt : Int)

structure SeveredFollows where
  actorToTarget : Option Int
  targetToActor : Option Int

structure Relation where
  actorId : ProfileId
  targetId : ProfileId
  actorFollowsTargetSince : Option Int
  targetFollowsActorSince : Option Int
  actorBlocksTarget : Bool
  targetBlocksActor : Bool
  pendingEvents : List DomainEvent

namespace Relation

variable (formats : Formats) (relation : Relation) (now : Int)

def follow : Except SocialGraphError (Relation × Int) :=
  if relation.actorBlocksTarget || relation.targetBlocksActor then
    .error (.blockGateDenied (formats.hyphenated relation.actorId) (formats.hyphenated relation.targetId))
  else if relation.actorFollowsTargetSince.isSome then
    .error (.alreadyFollowing (formats.hyphenated relation.actorId) (formats.hyphenated relation.targetId))
  else
    .ok ({ relation with
      actorFollowsTargetSince := some now
      pendingEvents := relation.pendingEvents ++ [.profileFollowed relation.actorId relation.targetId now] }, now)

def unfollow : Except SocialGraphError (Relation × Int) :=
  match relation.actorFollowsTargetSince with
  | none => .error (.notFollowing (formats.hyphenated relation.actorId) (formats.hyphenated relation.targetId))
  | some followedAt =>
    .ok ({ relation with
      actorFollowsTargetSince := none
      pendingEvents := relation.pendingEvents ++ [.profileUnfollowed relation.actorId relation.targetId now] },
      followedAt)

def block : Except SocialGraphError (Relation × SeveredFollows) :=
  if relation.actorBlocksTarget then
    .error (.alreadyBlocked (formats.hyphenated relation.actorId) (formats.hyphenated relation.targetId))
  else
    let severed : SeveredFollows := ⟨relation.actorFollowsTargetSince, relation.targetFollowsActorSince⟩
    .ok ({ relation with
      actorFollowsTargetSince := none
      targetFollowsActorSince := none
      actorBlocksTarget := true
      pendingEvents := relation.pendingEvents ++ [.profileBlocked relation.actorId relation.targetId now
        severed.actorToTarget.isSome severed.targetToActor.isSome] }, severed)

def unblock : Except SocialGraphError Relation :=
  if !relation.actorBlocksTarget then
    .error (.notBlocked (formats.hyphenated relation.actorId) (formats.hyphenated relation.targetId))
  else
    .ok { relation with
      actorBlocksTarget := false
      pendingEvents := relation.pendingEvents ++ [.profileUnblocked relation.actorId relation.targetId now] }

variable {formats relation now}

theorem follow_eq_ok (hd : relation.follow formats now = .ok after) :
    relation.actorBlocksTarget = false ∧ relation.targetBlocksActor = false ∧
      relation.actorFollowsTargetSince = none ∧ after.2 = now ∧
      after.1.pendingEvents = relation.pendingEvents ++ [.profileFollowed relation.actorId relation.targetId now] := by
  unfold follow at hd
  split at hd
  · cases hd
  rename_i free
  split at hd
  · cases hd
  · rename_i unfollowed
    cases hd
    simp only [Bool.or_eq_true, not_or, Bool.not_eq_true] at free
    exact ⟨free.1, free.2, by simpa using unfollowed, rfl, rfl⟩

theorem unfollow_eq_ok (hd : relation.unfollow formats now = .ok after) :
    relation.actorFollowsTargetSince = some after.2 ∧
      after.1.pendingEvents =
        relation.pendingEvents ++ [.profileUnfollowed relation.actorId relation.targetId now] := by
  unfold unfollow at hd
  split at hd
  · cases hd
  · rename_i followedAt hf
    cases hd
    exact ⟨hf, rfl⟩

theorem block_eq_ok (hd : relation.block formats now = .ok after) :
    relation.actorBlocksTarget = false ∧
      after.2 = ⟨relation.actorFollowsTargetSince, relation.targetFollowsActorSince⟩ ∧
      after.1.pendingEvents = relation.pendingEvents ++ [.profileBlocked relation.actorId relation.targetId now
        relation.actorFollowsTargetSince.isSome relation.targetFollowsActorSince.isSome] := by
  unfold block at hd
  split at hd
  · cases hd
  · rename_i free
    cases hd
    exact ⟨by simpa using free, rfl, rfl⟩

end Relation
end CorePlatform.SocialGraph
