import CorePlatform.SocialGraph.Graph

/-! # The author-tier signal

A follow and an unfollow publish the tier when the counter crosses a boundary; a block takes
followers away without a word. One command at a time, the tier that was published last is the one
of the follower count as long as no block severs the follow that a tier hangs on.
-/

namespace CorePlatform.SocialGraph

open Theory Function Server Program
open Server (allServed)

namespace World

def publishAll (w : World) : List DomainEvent → World
  | [] => w
  | event :: rest => (w.publish event).publishAll rest

def severed (w : World) (a b : ProfileId) : Option Int → World
  | none => w
  | some since =>
    let w := (w.serve (.deleteFollow a b since)).1
    let w := (w.serve (.removeFollowing a b)).1
    let w := (w.serve (.decrFollowersCount b)).1
    (w.serve (.decrFollowingCount a)).1

def relation (w : World) (a b : ProfileId) : Relation where
  actorId := a
  targetId := b
  actorFollowsTargetSince := w.tables.followStatus a b
  targetFollowsActorSince := w.tables.followStatus b a
  actorBlocksTarget := (w.tables.blocks a b).isSome
  targetBlocksActor := (w.tables.blocks b a).isSome
  pendingEvents := []

@[simp] theorem publish_tables (w : World) : (w.publish ev).tables = w.tables := by
  cases ev <;> rfl

@[simp] theorem publish_cache (w : World) : (w.publish ev).cache = w.cache := by
  cases ev <;> rfl

@[simp] theorem publishAll_tables : ∀ w : World,
    (w.publishAll events).tables = w.tables := by
  induction events with
  | nil => intro w; rfl
  | cons _ _ ih => intro w; rw [publishAll, ih, publish_tables]

@[simp] theorem publishAll_cache : ∀ w : World, (w.publishAll events).cache = w.cache := by
  induction events with
  | nil => intro w; rfl
  | cons _ _ ih => intro w; rw [publishAll, ih, publish_cache]

end World

theorem execute_publishAll (events : List DomainEvent) : ∀ w : World,
    server.execute (publishAll events) w allServed = (w.publishAll events, .ok ()) := by
  induction events with
  | nil => intro w; rfl
  | cons ev _ ih => intro w; exact ih (w.publish ev)

theorem execute_lookUp (w : World) (a b : ProfileId) : ∀ found : Found,
    server.execute (lookUp a b pending found) w allServed = (w, .ok {
      r1 := if .actorFollows ∈ pending then .ok (w.tables.followStatus a b) else found.r1
      r2 := if .targetFollows ∈ pending then .ok (w.tables.followStatus b a) else found.r2
      r3 := if .actorBlocks ∈ pending then .ok (w.tables.blocks a b).isSome else found.r3
      r4 := if .targetBlocks ∈ pending then .ok (w.tables.blocks b a).isSome else found.r4 }) := by
  induction pending with
  | nil => intro found; rfl
  | cons lookup _ ih =>
    intro found
    cases lookup with
    | _ => exact (ih _).trans (by simp)

theorem execute_loadRelation (w : World) (a b : ProfileId) (order : Order) :
    server.execute (loadRelation a b order) w allServed = (w, .ok (w.relation a b)) := by
  unfold loadRelation
  rw [execute_bind_served, execute_lookUp]
  simp only [order.mem, if_true]
  rfl

theorem execute_sever (w : World) (a b : ProfileId) (since : Option Int) :
    server.execute (sever a b since).attempt w allServed = (w.severed a b since, .ok (.ok ())) := by
  cases since with
  | none | some => rfl

/-- What severing one direction asks for. -/
def Op.severs (a b : ProfileId) : Op → Prop
  | .deleteFollow x y _ => x = a ∧ y = b
  | .removeFollowing x y => x = a ∧ y = b
  | .decrFollowersCount x => x = b
  | .decrFollowingCount x => x = a
  | _ => False

theorem confined_sever (a b : ProfileId) (since : Option Int) :
    (sever a b since).Confined (Op.severs a b) fun _ => True := by
  cases since with
  | none => trivial
  | some =>
    refine .perform ⟨rfl, rfl⟩ fun _ => ?_
    refine confined_quietly ⟨rfl, rfl⟩ fun _ => ?_
    refine confined_quietly rfl fun _ => ?_
    exact ⟨rfl, fun _ _ => trivial⟩

theorem commute_sever (ne : a ≠ b) (op op' : Op) (here : op.severs a b) (there : op'.severs b a) :
    server.Commute op op' := by
  have crossed : ¬ (a = b ∧ b = a) := fun eq => ne eq.1
  cases op with
  | deleteFollow =>
    obtain ⟨rfl, rfl⟩ := here
    cases op' with
    | deleteFollow =>
      obtain ⟨rfl, rfl⟩ := there
      refine ⟨fun w => ?_, fun _ => rfl, fun _ => rfl⟩
      simp only [server, World.serve, Tables.deleteFollow, setPair_comm crossed, Finset.erase_right_comm]
    | removeFollowing | decrFollowersCount | decrFollowingCount => exact ⟨fun _ => rfl, fun _ => rfl, fun _ => rfl⟩
    | _ => exact there.elim
  | removeFollowing =>
    cases op' with
    | removeFollowing =>
      refine ⟨fun w => ?_, fun _ => rfl, fun _ => rfl⟩
      simp only [server, World.serve, Finset.erase_right_comm]
    | deleteFollow | decrFollowersCount | decrFollowingCount => exact ⟨fun _ => rfl, fun _ => rfl, fun _ => rfl⟩
    | _ => exact there.elim
  | decrFollowersCount =>
    cases here
    cases op' with
    | decrFollowersCount =>
      cases there
      refine ⟨fun w => ?_, fun w => ?_, fun w => ?_⟩
      · simp only [server, World.serve, Cache.addFollowers, update_of_ne ne,
          update_of_ne (Ne.symm ne), update_comm ne]
      · simp only [server, World.serve, Cache.addFollowers, update_of_ne (Ne.symm ne)]
      · simp only [server, World.serve, Cache.addFollowers, update_of_ne ne]
    | deleteFollow | removeFollowing | decrFollowingCount => exact ⟨fun _ => rfl, fun _ => rfl, fun _ => rfl⟩
    | _ => exact there.elim
  | decrFollowingCount =>
    cases here
    cases op' with
    | decrFollowingCount =>
      cases there
      refine ⟨fun w => ?_, fun w => ?_, fun w => ?_⟩
      · simp only [server, World.serve, Cache.addFollowings, update_of_ne ne,
          update_of_ne (Ne.symm ne), update_comm ne]
      · rfl
      · rfl
    | deleteFollow | removeFollowing | decrFollowersCount => exact ⟨fun _ => rfl, fun _ => rfl, fun _ => rfl⟩
    | _ => exact there.elim
  | _ => exact here.elim

namespace World

variable (w : World) (a b : ProfileId)

def announced (thresholds : TierThresholds) (profileId : ProfileId) (oldCount newCount changedAt : Int) : World :=
  match AuthorTier.crossing oldCount newCount thresholds with
  | some newTier => w.publish (.authorTierChanged profileId newTier newCount changedAt)
  | none => w

def afterFollow (thresholds : TierThresholds) (clock : Nat → Int) : World :=
  let count := w.cache.followersCount b
  let w := (w.serve (.persistFollow a b (clock 0))).1
  let w := (w.serve (.addFollowing a b)).1
  let w := (w.serve (.incrFollowingCount a)).1
  let w := (w.serve (.incrFollowersCount b)).1
  (w.announced thresholds b (count + 1 - 1) (count + 1) (clock 1)).publishAll [.profileFollowed a b (clock 0)]

def afterUnfollow (thresholds : TierThresholds) (clock : Nat → Int) (since : Int) : World :=
  let count := Cache.lowered (w.cache.followersCount b)
  let w := (w.serve (.deleteFollow a b since)).1
  let w := (w.serve (.removeFollowing a b)).1
  let w := (w.serve (.decrFollowingCount a)).1
  let w := (w.serve (.decrFollowersCount b)).1
  (w.announced thresholds b (count + 1) count (clock 1)).publishAll [.profileUnfollowed a b (clock 0)]

def afterBlock (clock : Nat → Int) : World :=
  let out := w.tables.followStatus a b
  let back := w.tables.followStatus b a
  let w := (w.serve (.persistBlock a b (clock 1))).1
  let w := (w.severed a b out).severed b a back
  ((w.serve (.addBlock a b)).1).publishAll [.profileBlocked a b (clock 0) out.isSome back.isSome]

def afterUnblock : World := ((w.serve (.deleteBlock a b)).1.serve (.removeBlock a b)).1

end World

theorem execute_announce (profileId : ProfileId) (w : World) :
    server.execute (announce thresholds profileId old new changedAt) w allServed =
      (w.announced thresholds profileId old new changedAt, .ok ()) := by
  unfold announce World.announced
  cases AuthorTier.crossing old new thresholds <;> rfl

theorem execute_signal (profileId : ProfileId) (w : World) :
    server.execute (announce thresholds profileId old new changedAt >>= fun _ => publishAll events) w allServed =
      ((w.announced thresholds profileId old new changedAt).publishAll events, .ok ()) := by
  rw [execute_bind_served, execute_announce]
  exact execute_publishAll events _

theorem notSelf_ok (hc : notSelf a b = .ok ()) : a ≠ b := by
  intro eq
  rw [notSelf, if_pos eq] at hc
  cases hc

theorem followProfile_done
    (done : server.execute (followProfile setup actor target clock order) w allServed = (w', .ok ())) :
    ∃ a b, a ≠ b ∧ w.tables.followStatus a b = none ∧ w' = w.afterFollow a b setup.thresholds clock := by
  obtain ⟨a, -, done⟩ := execute_lift_ok done
  obtain ⟨b, -, done⟩ := execute_lift_ok done
  obtain ⟨_, checked, done⟩ := execute_lift_ok done
  rw [execute_bind_served, execute_loadRelation] at done
  obtain ⟨⟨_, _⟩, hd, done⟩ := execute_lift_ok done
  obtain ⟨-, -, unfollowed, rfl, events⟩ := Relation.follow_eq_ok hd
  refine ⟨a, b, notSelf_ok checked, unfollowed, ?_⟩
  have signalled := (execute_signal ..).symm.trans done
  rw [events] at signalled
  exact (congrArg Prod.fst signalled).symm

theorem unfollowProfile_done
    (done : server.execute (unfollowProfile setup actor target clock order) w allServed = (w', .ok ())) :
    ∃ a b since, w.tables.followStatus a b = some since ∧ w' = w.afterUnfollow a b setup.thresholds clock since := by
  obtain ⟨a, -, done⟩ := execute_lift_ok done
  obtain ⟨b, -, done⟩ := execute_lift_ok done
  rw [execute_bind_served, execute_loadRelation] at done
  obtain ⟨⟨_, followedAt⟩, hd, done⟩ := execute_lift_ok done
  obtain ⟨hf, events⟩ := Relation.unfollow_eq_ok hd
  refine ⟨a, b, followedAt, hf, ?_⟩
  have signalled := (execute_signal ..).symm.trans done
  rw [events] at signalled
  exact (congrArg Prod.fst signalled).symm

theorem unblockProfile_done
    (done : server.execute (unblockProfile setup actor target clock order) w allServed = (w', .ok ())) :
    ∃ a b, w' = w.afterUnblock a b := by
  obtain ⟨a, -, done⟩ := execute_lift_ok done
  obtain ⟨b, -, done⟩ := execute_lift_ok done
  rw [execute_bind_served, execute_loadRelation] at done
  obtain ⟨_, -, done⟩ := execute_lift_ok done
  exact ⟨a, b, (congrArg Prod.fst done).symm⟩

theorem execute_blockProfile (hp : setup.formats.profileId actor = .ok a)
    (parsed' : setup.formats.profileId target = .ok b) (ne : a ≠ b) (free : w.tables.blocks a b = none) :
    server.execute (blockProfile setup actor target clock order turns) w allServed =
      (w.afterBlock a b clock, .ok ()) := by
  have distinct : notSelf a b = .ok () := if_neg ne
  have hd : (w.relation a b).block setup.formats (clock 0) = .ok
      ({ w.relation a b with
          actorFollowsTargetSince := none
          targetFollowsActorSince := none
          actorBlocksTarget := true
          pendingEvents := [.profileBlocked a b (clock 0) (w.tables.followStatus a b).isSome
            (w.tables.followStatus b a).isSome] },
        ⟨w.tables.followStatus a b, w.tables.followStatus b a⟩) := by
    simp [Relation.block, World.relation, free]
  unfold blockProfile
  simp only [hp, parsed', distinct, lift_ok, ok_bind]
  rw [execute_bind_served, execute_loadRelation]
  simp only [hd, lift_ok, ok_bind]
  have joined := Server.execute_join (confined_sever a b (w.tables.followStatus a b)).attempt
    (confined_sever b a (w.tables.followStatus b a)).attempt (commute_sever ne) turns
    (w.serve (.persistBlock a b (clock 1))).1
  simp only [execute_sever] at joined
  show server.execute (Program.join _ _ turns >>= _) (w.serve (.persistBlock a b (clock 1))).1 allServed = _
  rw [execute_bind_served, joined]
  exact execute_publishAll _ _

theorem blockProfile_done
    (done : server.execute (blockProfile setup actor target clock order turns) w allServed = (w', .ok ())) :
    ∃ a b, setup.formats.profileId actor = .ok a ∧ setup.formats.profileId target = .ok b ∧ a ≠ b ∧
      w.tables.blocks a b = none ∧ w' = w.afterBlock a b clock := by
  have whole := done
  obtain ⟨a, parsed, done⟩ := execute_lift_ok done
  obtain ⟨b, parsed', done⟩ := execute_lift_ok done
  obtain ⟨_, checked, done⟩ := execute_lift_ok done
  rw [execute_bind_served, execute_loadRelation] at done
  obtain ⟨_, hd, -⟩ := execute_lift_ok done
  have ne : a ≠ b := notSelf_ok checked
  have free : w.tables.blocks a b = none := by simpa [World.relation] using (Relation.block_eq_ok hd).1
  rw [execute_blockProfile parsed parsed' ne free] at whole
  exact ⟨a, b, parsed, parsed', ne, free, (congrArg Prod.fst whole).symm⟩

def DomainEvent.tierOf (profileId : ProfileId) : DomainEvent → Option AuthorTier
  | .authorTierChanged id newTier _ _ => if id = profileId then some newTier else none
  | _ => none

/-- The tier of the last signal for the profile, `standard` if there was none. -/
def World.lastTier (w : World) (profileId : ProfileId) : AuthorTier :=
  w.published.foldl (fun tier event => (event.tierOf profileId).getD tier) .standard

namespace World

variable (w : World) (profileId : ProfileId)

theorem lastTier_publish : (w.publish ev).lastTier profileId = (ev.tierOf profileId).getD (w.lastTier profileId) := by
  cases ev <;> simp [publish, lastTier, DomainEvent.tierOf]

theorem lastTier_publishAll (hs : ∀ ev ∈ events, ev.tierOf profileId = none) :
    ∀ w : World, (w.publishAll events).lastTier profileId = w.lastTier profileId := by
  induction events with
  | nil => intro w; rfl
  | cons ev _ ih =>
    intro w
    rw [publishAll, ih fun ev mem => hs ev (.tail _ mem), lastTier_publish, hs ev (.head _)]
    rfl

theorem lastTier_announced (id : ProfileId) :
    (w.announced thresholds id old new changedAt).lastTier profileId =
      if id = profileId then (AuthorTier.crossing old new thresholds).getD (w.lastTier profileId)
      else w.lastTier profileId := by
  unfold announced
  cases AuthorTier.crossing old new thresholds with
  | none => simp
  | some =>
    simp only [lastTier_publish, DomainEvent.tierOf]
    split <;> rfl

@[simp] theorem announced_tables : (w.announced thresholds profileId old new changedAt).tables = w.tables := by
  unfold announced
  split
  · exact publish_tables ..
  · rfl

@[simp] theorem announced_cache : (w.announced thresholds profileId old new changedAt).cache = w.cache := by
  unfold announced
  split
  · exact publish_cache ..
  · rfl

end World

namespace Tables

variable {t : Tables}

theorem followerCount_persistFollow (new : (b, since, a) ∉ t.followers) (profileId : ProfileId) :
    (t.persistFollow a b since).followerCount profileId =
      if b = profileId then t.followerCount profileId + 1 else t.followerCount profileId := by
  simp only [followerCount, persistFollow, Finset.filter_insert]
  split
  · apply Finset.card_insert_of_notMem
    intro mem
    exact new (Finset.mem_filter.mp mem).1
  · rfl

theorem followerCount_deleteFollow (row : (b, since, a) ∈ t.followers) (profileId : ProfileId) :
    ((t.deleteFollow a b since).followerCount profileId : Int) =
      if b = profileId then (t.followerCount profileId : Int) - 1 else t.followerCount profileId := by
  simp only [followerCount, deleteFollow, Finset.filter_erase]
  split
  · rename_i mine
    have mem : (b, since, a) ∈ t.followers.filter fun edge => edge.1 = profileId :=
      Finset.mem_filter.mpr ⟨row, mine⟩
    have positive := Finset.card_pos.mpr ⟨_, mem⟩
    rw [Finset.card_erase_of_mem mem]
    omega
  · rename_i other
    rw [Finset.erase_eq_of_notMem]
    intro mem
    exact other (Finset.mem_filter.mp mem).2

end Tables

/-- The tables are one graph and the counters count it. -/
structure World.Accounted (w : World) : Prop where
  graph : w.tables.OneGraph
  counted : ∀ profileId, w.cache.followersCount profileId = w.tables.followerCount profileId

/-- The tier that was published last is the one of the follower count. -/
def World.Tracks (thresholds : TierThresholds) (w : World) : Prop :=
  ∀ profileId, w.lastTier profileId = .fromFollowerCount (w.tables.followerCount profileId) thresholds

namespace World

variable {w : World}

theorem Accounted.afterFollow (inv : w.Accounted) (hu : w.tables.followStatus a b = none) :
    (w.afterFollow a b thresholds clock).Accounted ∧
      (w.Tracks thresholds → (w.afterFollow a b thresholds clock).Tracks thresholds) := by
  have tables : (w.afterFollow a b thresholds clock).tables = w.tables.persistFollow a b (clock 0) := by
    simp only [World.afterFollow, publishAll_tables, announced_tables]
    rfl
  have clear : w.tables.clear a b (clock 0) = true := by
    rw [Tables.clear, hu]
    rfl
  have new : (b, clock 0, a) ∉ w.tables.followers := by
    intro row
    cases hu.symm.trans ((inv.graph a b (clock 0)).2.mpr row)
  have counts := Tables.followerCount_persistFollow new
  refine ⟨⟨?_, ?_⟩, ?_⟩
  · rw [tables]
    exact inv.graph.persistFollow clear
  · intro profileId
    rw [tables, counts]
    have cached : (w.afterFollow a b thresholds clock).cache.followersCount profileId =
        update w.cache.followersCount b (w.cache.followersCount b + 1) profileId := by
      simp only [World.afterFollow, publishAll_cache, announced_cache]
      rfl
    rw [cached]
    by_cases mine : b = profileId
    · subst mine
      rw [update_self, inv.counted, if_pos rfl]
      rfl
    · rw [update_of_ne (Ne.symm mine), inv.counted, if_neg mine]
  · intro tracks profileId
    rw [tables, counts]
    unfold World.afterFollow
    rw [lastTier_publishAll profileId (by simp [DomainEvent.tierOf]), lastTier_announced]
    have hb := tracks profileId
    by_cases mine : b = profileId
    · subst mine
      rw [if_pos rfl, if_pos rfl, inv.counted]
      simp only [Int.add_sub_cancel]
      show (AuthorTier.crossing _ _ thresholds).getD (w.lastTier b) = _
      rw [hb]
      exact AuthorTier.crossing_getD ..
    · rw [if_neg mine, if_neg mine]
      exact hb

section

variable {w' : World}

theorem Accounted.lowered (inv : w.Accounted) (hf : w.tables.followStatus a b = some since) :
    Cache.lowered (w.cache.followersCount b) = (w.tables.followerCount b : Int) - 1 := by
  have row : (b, since, a) ∈ w.tables.followers.filter fun edge => edge.1 = b :=
    Finset.mem_filter.mpr ⟨(inv.graph a b since).2.mp hf, rfl⟩
  have positive : 0 < w.tables.followerCount b := Finset.card_pos.mpr ⟨_, row⟩
  rw [Cache.lowered, inv.counted, if_neg (by omega)]

theorem Accounted.followerCount_deleted (inv : w.Accounted) (hf : w.tables.followStatus a b = some since)
    (ht : w'.tables = w.tables.deleteFollow a b since) (profileId : ProfileId) :
    (w'.tables.followerCount profileId : Int) =
      if b = profileId then (w.tables.followerCount profileId : Int) - 1 else w.tables.followerCount profileId := by
  rw [ht]
  exact Tables.followerCount_deleteFollow ((inv.graph a b since).2.mp hf) profileId

theorem Accounted.deleted (inv : w.Accounted) (hf : w.tables.followStatus a b = some since)
    (ht : w'.tables = w.tables.deleteFollow a b since)
    (hc : w'.cache.followersCount =
      update w.cache.followersCount b (Cache.lowered (w.cache.followersCount b))) : w'.Accounted := by
  have clear : w.tables.clear a b since = true := by
    rw [Tables.clear, hf]
    exact beq_self_eq_true since
  constructor
  · rw [ht]
    exact inv.graph.deleteFollow clear
  intro profileId
  rw [hc, inv.followerCount_deleted hf ht]
  by_cases mine : b = profileId
  · subst mine
    rw [update_self, inv.lowered hf, if_pos rfl]
  · rw [update_of_ne (Ne.symm mine), inv.counted, if_neg mine]

end

theorem Accounted.afterUnfollow (inv : w.Accounted) (hf : w.tables.followStatus a b = some since) :
    (w.afterUnfollow a b thresholds clock since).Accounted ∧
      (w.Tracks thresholds → (w.afterUnfollow a b thresholds clock since).Tracks thresholds) := by
  have tables : (w.afterUnfollow a b thresholds clock since).tables = w.tables.deleteFollow a b since := by
    simp only [World.afterUnfollow, publishAll_tables, announced_tables]
    rfl
  constructor
  · apply inv.deleted hf tables
    simp only [World.afterUnfollow, publishAll_cache, announced_cache]
    rfl
  intro tracks profileId
  rw [inv.followerCount_deleted hf tables]
  unfold World.afterUnfollow
  rw [lastTier_publishAll profileId (by simp [DomainEvent.tierOf]), lastTier_announced]
  have hb := tracks profileId
  by_cases mine : b = profileId
  · subst mine
    rw [if_pos rfl, if_pos rfl, inv.lowered hf]
    simp only [Int.sub_add_cancel]
    show (AuthorTier.crossing _ _ thresholds).getD (w.lastTier b) = _
    rw [hb]
    exact AuthorTier.crossing_getD ..
  · rw [if_neg mine, if_neg mine]
    exact hb

/-- Followers that one severed direction takes away. -/
def lost (since : Option Int) (b profileId : ProfileId) : Int := if b = profileId ∧ since.isSome then 1 else 0

theorem Accounted.severed (inv : w.Accounted) (stored : w.tables.followStatus a b = since) :
    (w.severed a b since).Accounted ∧ ∀ profileId, (w.severed a b since).lastTier profileId = w.lastTier profileId ∧
      ((w.severed a b since).tables.followerCount profileId : Int) =
        w.tables.followerCount profileId - lost since b profileId := by
  cases since with
  | none => exact ⟨inv, fun profileId => ⟨rfl, by simp [lost, World.severed]⟩⟩
  | some since =>
    have tables : (w.severed a b (some since)).tables = w.tables.deleteFollow a b since := rfl
    refine ⟨inv.deleted stored tables rfl, fun profileId => ⟨rfl, ?_⟩⟩
    rw [inv.followerCount_deleted stored tables, lost]
    by_cases mine : b = profileId
    · simp [mine]
    · simp [mine]

theorem severed_followStatus (w : World) (other : ¬ (x = a ∧ y = b)) :
    (w.severed a b since).tables.followStatus x y = w.tables.followStatus x y := by
  cases since with
  | none => rfl
  | some => exact setPair_of_ne other

theorem Accounted.afterBlock (inv : w.Accounted) (ne : a ≠ b) (clock : Nat → Int) :
    (w.afterBlock a b clock).Accounted ∧ ∀ profileId,
      (w.afterBlock a b clock).lastTier profileId = w.lastTier profileId ∧
      ((w.afterBlock a b clock).tables.followerCount profileId : Int) = w.tables.followerCount profileId -
        lost (w.tables.followStatus a b) b profileId - lost (w.tables.followStatus b a) a profileId := by
  have blocked : (w.serve (.persistBlock a b (clock 1))).1.Accounted := ⟨inv.graph, inv.counted⟩
  have out : (w.serve (.persistBlock a b (clock 1))).1.tables.followStatus a b = w.tables.followStatus a b := rfl
  obtain ⟨once, first⟩ := blocked.severed out
  have back : ((w.serve (.persistBlock a b (clock 1))).1.severed a b
      (w.tables.followStatus a b)).tables.followStatus b a = w.tables.followStatus b a :=
    severed_followStatus _ fun eq => ne eq.2
  obtain ⟨twice, second⟩ := once.severed back
  have tables : (w.afterBlock a b clock).tables = (((w.serve (.persistBlock a b (clock 1))).1.severed a b
      (w.tables.followStatus a b)).severed b a (w.tables.followStatus b a)).tables := by
    rfl
  refine ⟨⟨?_, ?_⟩, fun profileId => ⟨?_, ?_⟩⟩
  · exact twice.graph
  · intro profileId
    rw [tables, ← twice.counted]
    rfl
  · unfold World.afterBlock
    rw [lastTier_publishAll profileId (by simp [DomainEvent.tierOf])]
    exact (second profileId).1.trans (first profileId).1
  · rw [tables, (second profileId).2, (first profileId).2]
    rfl

end World

/-- Commands that complete, one at a time; nothing fails. -/
def oneByOne (setup : Setup) : Machine World Request where
  init w := w.Accounted ∧ w.Tracks setup.thresholds
  step w request :=
    match server.execute (request.program setup) w allServed with
    | (w', .ok _) => some w'
    | (_, .error _) => none

/-- A profile that loses a follower keeps its tier. -/
def World.Spares (w : World) (thresholds : TierThresholds) (profileId : ProfileId) : Prop :=
  AuthorTier.fromFollowerCount (w.tables.followerCount profileId - 1) thresholds =
    .fromFollowerCount (w.tables.followerCount profileId) thresholds
  deriving Decidable

/-- A block that goes through severs a follow only of a profile that keeps its tier. -/
def Sparing (setup : Setup) (w : World) (request : Request) : Prop :=
  request.verb = .block → ∀ a b, setup.formats.profileId request.actor = .ok a →
    setup.formats.profileId request.target = .ok b → a ≠ b → w.tables.blocks a b = none →
    (w.tables.followStatus a b ≠ none → w.Spares setup.thresholds b) ∧
    (w.tables.followStatus b a ≠ none → w.Spares setup.thresholds a)

instance (setup : Setup) (w : World) (request : Request) : Decidable (Sparing setup w request) :=
  match actor : setup.formats.profileId request.actor, target : setup.formats.profileId request.target with
  | .ok a, .ok b =>
    decidable_of_iff (request.verb = .block → a ≠ b → w.tables.blocks a b = none →
      (w.tables.followStatus a b ≠ none → w.Spares setup.thresholds b) ∧
      (w.tables.followStatus b a ≠ none → w.Spares setup.thresholds a))
      (by
        unfold Sparing
        simp only [actor, target, Except.ok.injEq]
        exact ⟨fun holds verb _ _ same same' => same ▸ same' ▸ holds verb, fun holds verb => holds verb a b rfl rfl⟩)
  | .error _, _ => isTrue fun _ a _ parsed => by rw [actor] at parsed; cases parsed
  | _, .error _ => isTrue fun _ _ b _ parsed => by rw [target] at parsed; cases parsed

section

variable {setup : Setup} {w : World}

theorem step_done (hs : (oneByOne setup).step w req = some next) :
    server.execute (req.program setup) w allServed = (next, .ok ()) := by
  simp only [oneByOne] at hs
  split at hs
  · rename_i w' value ran
    cases hs
    exact ran
  · cases hs

theorem accounted_step (inv : w.Accounted) (hs : (oneByOne setup).step w request = some next) : next.Accounted := by
  have done := step_done hs
  unfold Request.program at done
  split at done
  · obtain ⟨a, b, -, unfollowed, rfl⟩ := followProfile_done done
    exact (inv.afterFollow unfollowed).1
  · obtain ⟨a, b, _, hf, rfl⟩ := unfollowProfile_done done
    exact (inv.afterUnfollow hf).1
  · obtain ⟨a, b, -, -, ne, -, rfl⟩ := blockProfile_done done
    exact (inv.afterBlock ne request.clock).1
  · obtain ⟨_, _, rfl⟩ := unblockProfile_done done
    exact ⟨inv.graph, inv.counted⟩

theorem tracks_afterBlock (inv : w.Accounted) (ht : w.Tracks setup.thresholds) (ne : a ≠ b) :
    (w.afterBlock a b clock).Tracks setup.thresholds ↔
      (w.tables.followStatus a b ≠ none → w.Spares setup.thresholds b) ∧
      (w.tables.followStatus b a ≠ none → w.Spares setup.thresholds a) := by
  have effect := (inv.afterBlock ne clock).2
  have lost_self : ∀ (since : Option Int) (p : ProfileId), since ≠ none → World.lost since p p = 1 := by
    intro since p some_
    simp [World.lost, Option.isSome_iff_ne_none.mpr some_]
  have lost_other : ∀ (since : Option Int) {p q : ProfileId}, p ≠ q → World.lost since p q = 0 := by
    intro since p q hap
    simp [World.lost, hap]
  constructor
  · intro after
    constructor
    · intro severed
      have here := after b
      rw [(effect b).1, (effect b).2, ht b, lost_self _ b severed, lost_other _ ne, Int.sub_zero] at here
      exact here.symm
    · intro severed
      have here := after a
      rw [(effect a).1, (effect a).2, ht a, lost_self _ a severed, lost_other _ (Ne.symm ne), Int.sub_zero]
        at here
      exact here.symm
  · rintro ⟨sparesTarget, sparesActor⟩ profileId
    rw [(effect profileId).1, (effect profileId).2, ht profileId]
    have unlost : ∀ p : ProfileId, World.lost none p profileId = 0 := fun p => by simp [World.lost]
    by_cases target : b = profileId
    · subst target
      rw [lost_other _ ne, Int.sub_zero]
      by_cases severed : w.tables.followStatus a b = none
      · rw [severed, unlost, Int.sub_zero]
      · rw [lost_self _ b severed]
        exact (sparesTarget severed).symm
    rw [lost_other _ target, Int.sub_zero]
    by_cases actor : a = profileId
    · subst actor
      by_cases severed : w.tables.followStatus b a = none
      · rw [severed, unlost, Int.sub_zero]
      · rw [lost_self _ a severed]
        exact (sparesActor severed).symm
    · rw [lost_other _ actor, Int.sub_zero]

theorem tracks_step (inv : w.Accounted) (ht : w.Tracks setup.thresholds) (hsp : Sparing setup w request)
    (hs : (oneByOne setup).step w request = some next) : next.Tracks setup.thresholds := by
  have done := step_done hs
  unfold Request.program at done
  split at done
  · obtain ⟨a, b, -, unfollowed, rfl⟩ := followProfile_done done
    exact (inv.afterFollow unfollowed).2 ht
  · obtain ⟨a, b, _, hf, rfl⟩ := unfollowProfile_done done
    exact (inv.afterUnfollow hf).2 ht
  · rename_i verb
    obtain ⟨a, b, parsed, parsed', ne, free, rfl⟩ := blockProfile_done done
    exact (tracks_afterBlock inv ht ne).mpr (hsp verb a b parsed parsed' ne free)
  · obtain ⟨_, _, rfl⟩ := unblockProfile_done done
    exact ht

theorem not_sparing_breaks (inv : w.Accounted) (ht : w.Tracks setup.thresholds)
    (hs : ¬ Sparing setup w request) :
    ∃ next, (oneByOne setup).step w request = some next ∧ ¬ next.Tracks setup.thresholds := by
  simp only [Sparing, not_forall] at hs
  obtain ⟨verb, a, b, parsed, parsed', ne, free, loses⟩ := hs
  refine ⟨w.afterBlock a b request.clock, ?_, ?_⟩
  · simp only [oneByOne, Request.program, verb, execute_blockProfile parsed parsed' ne free]
  · intro after
    exact loses ((tracks_afterBlock inv ht ne).mp after)

end

/-- Along a run of completed commands the tier published last stays the one of the follower count
exactly if no block severs a follow whose followee drops to another tier by it. -/
theorem tier_tracked_iff_sparing (setup : Setup) (start : World) (requests : List Request)
    (begins : (oneByOne setup).init start) :
    (oneByOne setup).Always (World.Tracks setup.thresholds) start requests ↔
      (oneByOne setup).Meets (Sparing setup) start requests := by
  apply Machine.always_iff_meets World.Accounted (World.Tracks setup.thresholds)
  · intro w request next accounted stepped
    exact accounted_step accounted stepped
  · intro w request next accounted tracks sparing stepped
    exact tracks_step accounted tracks sparing stepped
  · intro w _ tracks
    exact tracks
  · intro w request accounted tracks severe
    exact not_sparing_breaks accounted tracks severe
  · exact begins.1
  · exact begins.2

namespace Pair

/-- An author is premium from the given count of followers on. -/
def premiumFrom (count : Int) : Setup := ⟨formats, .new count 100⟩

theorem begins_accounted : (oneByOne setup).init .empty := by
  constructor
  · exact ⟨Tables.oneGraph_empty, fun _ => rfl⟩
  · intro profileId
    exact (AuthorTier.fromFollowerCount_zero setup.thresholds).symm

/-- A follow makes the author premium and an unfollow takes it back; the block severs nothing. -/
theorem unfollowed_tier_tracked : (oneByOne (premiumFrom 1)).Always (World.Tracks (premiumFrom 1).thresholds) .empty
    [request .follow "a" "b" 1, request .unfollow "a" "b" 2, request .block "a" "b" 3] := by
  apply (tier_tracked_iff_sparing (premiumFrom 1) .empty _ begins_accounted).mpr
  decide +kernel

/-- An author that loses the only follower to a block is premium to everyone who listens. -/
theorem blocked_follower_leaves_tier : ∃ w, (oneByOne (premiumFrom 1)).run .empty
      [request .follow "a" "b" 1, request .block "a" "b" 2] = some w ∧
    w.tables.followerCount 2 = 0 ∧ w.lastTier 2 = .premium ∧
    AuthorTier.fromFollowerCount (w.tables.followerCount 2) (premiumFrom 1).thresholds = .standard := by
  decide +kernel

end Pair
end CorePlatform.SocialGraph
