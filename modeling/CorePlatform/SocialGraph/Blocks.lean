import CorePlatform.SocialGraph.Graph

/-! # A block and a follow

A follow checks for blocks, and a block for follows, in what they read before they write. Where the
block row finds the follows as the command read them, and a follow is written only while no block is
stored, every follow that stands beside a block is one that a command under way is bound to sever.
-/

namespace CorePlatform.SocialGraph

open Theory Function Option

abbrev Answers := List (Heard Op Op.Reply SocialGraphError)

def toldSince (a b : ProfileId) : Answers → Option (Option Int)
  | [] => none
  | ⟨.getFollowSince x y, .ok found⟩ :: rest => if x = a ∧ y = b then some found else toldSince a b rest
  | _ :: rest => toldSince a b rest

def Op.onTables : Op → Bool
  | .getFollowSince _ _ | .getBlockExists _ _ | .persistFollow _ _ _ | .deleteFollow _ _ _ | .persistBlock _ _ _
  | .deleteBlock _ _ => true
  | _ => false

/-- The store does not fail: calls to the tables are carried out and answered, and commands go on. -/
def faultless (pool : Traffic) : Move Request Empty → Bool
  | .advance id service =>
    match pool.calls id with
    | some ⟨_, .call op _, _⟩ => !op.onTables || service == .served
    | _ => true
  | .crash _ => false
  | .begin _ _ | .elapse _ => true

/-- A follow is written where no block is and none of another time; one is deleted by its own time;
and a block row finds the follows as its command read them. -/
def Tables.admits (t : Tables) (answers : Answers) : Op → Bool
  | .persistFollow a b since => t.clear a b since && (t.blocks a b).isNone && (t.blocks b a).isNone
  | .deleteFollow a b since => t.clear a b since
  | .persistBlock a b _ => toldSince a b answers == some (t.followStatus a b) &&
      toldSince b a answers == some (t.followStatus b a)
  | _ => true

def guarded (pool : Traffic) : Move Request Empty → Bool
  | .advance id _ =>
    match pool.calls id with
    | some ⟨_, .call op _, heard⟩ => pool.world.tables.admits heard op
    | _ => true
  | .begin _ _ | .crash _ | .elapse _ => true

/-- Where a block is stored, in either direction, there is no follow in either direction. -/
def Tables.Apart (t : Tables) : Prop :=
  ∀ a b, (t.blocks a b).isSome ∨ (t.blocks b a).isSome →
    t.followStatus a b = none ∧ ∀ since, (a, since, b) ∉ t.following ∧ (b, since, a) ∉ t.followers

/-- The command comes to ask for the operation, as long as the tables answer. -/
abbrev Severing (wanted : Op) (program : Calling Unit) : Prop :=
  program.BoundFor (fun op => op.onTables = true) wanted

/-- After the block row, the follows that the command was told of are severed. -/
def Severs (answers : Answers) : (op : Op) → (Except SocialGraphError op.Reply → Calling Unit) → Prop
  | .persistBlock a b _, next =>
    ∀ since, (toldSince a b answers = some (some since) → Severing (.deleteFollow a b since) (next (.ok ()))) ∧
      (toldSince b a answers = some (some since) → Severing (.deleteFollow b a since) (next (.ok ())))
  | _, _ => True

/-- The results of the lookups that were answered already are what was told. -/
def Agrees (a b : ProfileId) (pending : List Lookup) (found : Found) (answers : Answers) : Prop :=
  (.actorFollows ∉ pending → ∀ since, found.r1 = .ok since → toldSince a b answers = some since) ∧
  (.targetFollows ∉ pending → ∀ since, found.r2 = .ok since → toldSince b a answers = some since)

theorem throughout_lookUp (ne : a ≠ b)
    (ho : ∀ found answers, Agrees a b [] found answers → (f found).Throughout Severs answers) :
    ∀ (pending : List Lookup) (found : Found) (answers : Answers), Agrees a b pending found answers →
      (lookUp a b pending found >>= f).Throughout Severs answers := by
  intro pending
  induction pending with
  | nil =>
    intro found answers agrees
    exact ho found answers agrees
  | cons lookup _ ih =>
    intro found answers agrees
    cases lookup with
    | actorFollows =>
      refine ⟨trivial, fun ans => ih { found with r1 := ans } _ ⟨?_, ?_⟩⟩
      · intro _ since told
        subst told
        exact if_pos ⟨rfl, rfl⟩
      intro done since told
      have hb := agrees.2 (by simpa using done) since told
      cases ans with
      | ok => exact (if_neg fun eq => ne eq.1).trans hb
      | error => exact hb
    | targetFollows =>
      refine ⟨trivial, fun ans => ih { found with r2 := ans } _ ⟨?_, ?_⟩⟩
      · intro done since told
        have hb := agrees.1 (by simpa using done) since told
        cases ans with
        | ok => exact (if_neg fun eq => ne eq.2).trans hb
        | error => exact hb
      · intro _ since told
        subst told
        exact if_pos ⟨rfl, rfl⟩
    | actorBlocks =>
      refine ⟨trivial, fun ans => ih { found with r3 := ans } _ ⟨?_, ?_⟩⟩
      · intro done since told
        exact agrees.1 (by simpa using done) since told
      · intro done since told
        exact agrees.2 (by simpa using done) since told
    | targetBlocks =>
      refine ⟨trivial, fun ans => ih { found with r4 := ans } _ ⟨?_, ?_⟩⟩
      · intro done since told
        exact agrees.1 (by simpa using done) since told
      · intro done since told
        exact agrees.2 (by simpa using done) since told

/-- Every operation but the block row. -/
def Op.noBlock : Op → Prop
  | .persistBlock _ _ _ => False
  | _ => True

abbrev NoBlock {α : Type} (program : Calling α) : Prop := program.Confined Op.noBlock fun _ => True

theorem noBlock_quietly (fits : op.noBlock) : NoBlock (quietly op) := ⟨fits, fun _ _ => trivial⟩

theorem noBlock_lookUp : ∀ found, NoBlock (lookUp a b pending found) := by
  induction pending with
  | nil => intro found; trivial
  | cons lookup _ ih =>
    intro found
    cases lookup with
    | _ => exact ⟨trivial, fun _ _ => ih _⟩

theorem noBlock_lift {α β : Type} {res : Except SocialGraphError β} {f : β → Calling α}
    (ho : ∀ value, NoBlock (f value)) : NoBlock ((liftM res : Calling β) >>= f) :=
  .lift (fun _ _ => trivial) fun value _ => ho value

theorem noBlock_loadRelation : NoBlock (loadRelation a b order) := by
  apply (noBlock_lookUp .nothing).bind
  intro hf
  cases hf.relation a b with
  | ok | error => trivial

theorem noBlock_publishAll : NoBlock (publishAll events) := by
  induction events with
  | nil => trivial
  | cons _ _ ih =>
    apply confined_quietly trivial
    intro _
    exact ih

variable (thresholds : TierThresholds) (profileId : ProfileId)

theorem noBlock_announce (old new changedAt : Int) : NoBlock (announce thresholds profileId old new changedAt) := by
  unfold announce
  split
  · exact noBlock_quietly trivial
  · trivial

theorem noBlock_gainFollower : NoBlock (gainFollower thresholds profileId changedAt) := by
  refine ⟨trivial, fun ans _ => ?_⟩
  cases ans with
  | ok => exact noBlock_announce ..
  | error => trivial

theorem noBlock_loseFollower : NoBlock (loseFollower thresholds profileId changedAt) := by
  refine ⟨trivial, fun ans _ => ?_⟩
  cases ans with
  | ok => exact noBlock_announce ..
  | error => trivial

theorem noBlock_sever : NoBlock (sever a b severed) := by
  cases severed with
  | none => trivial
  | some =>
    apply Program.Confined.perform trivial
    intro _
    apply confined_quietly trivial
    intro _
    apply confined_quietly trivial
    intro _
    exact noBlock_quietly trivial

section

variable (setup : Setup) (actor target : String) (clock : Nat → Int) (order : Order)

theorem noBlock_followProfile : NoBlock (followProfile setup actor target clock order) := by
  apply noBlock_lift
  intro actorId
  apply noBlock_lift
  intro targetId
  apply noBlock_lift
  intro _
  apply noBlock_loadRelation.bind
  intro relation
  apply noBlock_lift
  rintro ⟨relation, followedAt⟩
  apply Program.Confined.perform trivial
  intro _
  apply confined_quietly trivial
  intro _
  apply confined_quietly trivial
  intro _
  apply (noBlock_gainFollower _ _).bind
  intro _
  exact noBlock_publishAll

theorem noBlock_unfollowProfile : NoBlock (unfollowProfile setup actor target clock order) := by
  apply noBlock_lift
  intro actorId
  apply noBlock_lift
  intro targetId
  apply noBlock_loadRelation.bind
  intro relation
  apply noBlock_lift
  rintro ⟨relation, followedAt⟩
  apply Program.Confined.perform trivial
  intro _
  apply confined_quietly trivial
  intro _
  apply confined_quietly trivial
  intro _
  apply (noBlock_loseFollower _ _).bind
  intro _
  exact noBlock_publishAll

theorem noBlock_unblockProfile : NoBlock (unblockProfile setup actor target clock order) := by
  apply noBlock_lift
  intro actorId
  apply noBlock_lift
  intro targetId
  apply noBlock_loadRelation.bind
  intro relation
  apply noBlock_lift
  intro relation
  apply Program.Confined.perform trivial
  intro _
  exact noBlock_quietly trivial

theorem NoBlock.throughout (hn : NoBlock program) : program.Throughout Severs answers := by
  apply Program.Throughout.of_confined hn
  intro heard op next fits
  cases op with
  | persistBlock => exact fits.elim
  | _ => trivial

theorem severing_sever : (sever a b (some since)).BoundFor (fun op => op.onTables = true) (.deleteFollow a b since) :=
  .inl rfl

theorem throughout_carryOutBlock (told : ∀ since, toldSince a b answers = some since → severed.actorToTarget = since)
    (told' : ∀ since, toldSince b a answers = some since → severed.targetToActor = since) :
    (carryOutBlock a b blockedAt severed turns events).Throughout Severs answers := by
  refine ⟨?_, fun ans => ?_⟩
  · intro since
    constructor
    · intro hf
      rw [told (some since) hf]
      exact (severing_sever.attempt.join_left _ turns).bind _
    · intro hf
      rw [told' (some since) hf]
      exact (severing_sever.attempt.join_right _ turns).bind _
  cases ans with
  | error => trivial
  | ok =>
    apply NoBlock.throughout
    apply (noBlock_sever.attempt.join noBlock_sever.attempt turns).bind
    rintro ⟨r1, r2⟩
    apply noBlock_lift
    intro _
    apply noBlock_lift
    intro _
    apply confined_quietly trivial
    intro _
    exact noBlock_publishAll

theorem throughout_blockProfile (answers : Answers) :
    (blockProfile setup actor target clock order turns).Throughout Severs answers := by
  apply Program.Throughout.lift
  intro a _
  apply Program.Throughout.lift
  intro b _
  apply Program.Throughout.lift
  intro _ checked
  have ne : a ≠ b := by
    intro eq
    rw [notSelf, if_pos eq] at checked
    cases checked
  unfold loadRelation
  rw [Program.bind_assoc]
  apply throughout_lookUp ne
  · intro hf answers agrees
    apply Program.Throughout.lift
    intro relation loaded
    apply Program.Throughout.lift
    rintro ⟨blocked, severed⟩ hd
    obtain ⟨rfl, -⟩ := Found.relation_eq_ok loaded
    obtain ⟨-, rfl, -⟩ := Relation.block_eq_ok hd
    apply throughout_carryOutBlock
    · intro since told
      exact some.inj ((agrees.1 (by simp) _ rfl).symm.trans told)
    · intro since told
      exact some.inj ((agrees.2 (by simp) _ rfl).symm.trans told)
  · constructor
    · intro ha
      exact absurd (order.mem _) ha
    · intro ha
      exact absurd (order.mem _) ha

end

theorem throughout_program (req : Request) : (req.program setup).Throughout Severs [] := by
  unfold Request.program
  split
  · exact (noBlock_followProfile ..).throughout
  · exact (noBlock_unfollowProfile ..).throughout
  · exact throughout_blockProfile ..
  · exact (noBlock_unblockProfile ..).throughout

def Tables.blocked (t : Tables) (a b : ProfileId) : Prop := (t.blocks a b).isSome ∨ (t.blocks b a).isSome

/-- A command under way is going to delete the follow. -/
def Traffic.Pending (pool : Traffic) (a b : ProfileId) (since : Int) : Prop :=
  ∃ id call, pool.calls id = some call ∧ Severing (.deleteFollow a b since) call.program

structure Kept (pool : Traffic) : Prop where
  graph : pool.world.tables.OneGraph
  severs : pool.Throughout Severs
  pending : ∀ a b since, pool.world.tables.blocked a b → pool.world.tables.followStatus a b = some since →
    pool.Pending a b since

section

variable {pool : Traffic}

theorem Traffic.Pending.advanced (hp : pool.Pending a b since) {id : Nat}
    (hw : pool.calls id = some ⟨req, .call op rest, answers⟩)
    (ha : op.onTables = true → ∃ reply, ans = .ok reply) (other : op ≠ .deleteFollow a b since) :
    Traffic.Pending ⟨world, update pool.calls id (some ⟨req, rest ans, ⟨op, ans⟩ :: answers⟩)⟩
      a b since := by
  obtain ⟨i, call, h, severing⟩ := hp
  by_cases same : i = id
  · subst same
    rw [hw] at h
    cases h
    cases severing with
    | inl here => exact absurd here other
    | inr hl => exact ⟨i, _, update_self .., hl ans ha⟩
  · exact ⟨i, call, (update_of_ne same ..).trans h, severing⟩

theorem Tables.fits_of_admits {t : Tables} (ha : t.admits answers op = true) : t.fits op = true := by
  cases op with
  | persistFollow =>
    simp only [Tables.admits, Bool.and_eq_true] at ha
    exact ha.1.1
  | deleteFollow => exact ha
  | _ => rfl

theorem tables_perform (he : op.onTables = false) : (server.perform w op svc).1.tables = w.tables := by
  have served : (w.serve op).1.tables = w.tables := by
    cases op with
    | publish event => cases event <;> rfl
    | addFollowing | removeFollowing | addBlock | removeBlock | incrFollowersCount | decrFollowersCount
    | incrFollowingCount | decrFollowingCount => rfl
    | _ => cases he
  cases svc with
  | served | replyLost => exact served
  | refused => rfl

theorem blocked_follow {w : World} (ha : w.tables.admits answers op = true)
    (blocked : (w.serve op).1.tables.blocked a b) (hf : (w.serve op).1.tables.followStatus a b = some since) :
    (op ≠ .deleteFollow a b since ∧ w.tables.blocked a b ∧ w.tables.followStatus a b = some since) ∨
      toldSince a b answers = some (some since) ∧
        ∃ blockedAt, op = .persistBlock a b blockedAt ∨ op = .persistBlock b a blockedAt := by
  cases op with
  | persistFollow x y =>
    simp only [Tables.admits, Bool.and_eq_true, isNone_iff_eq_none] at ha
    by_cases eq : a = x ∧ b = y
    · -- No block is stored where a follow is written.
      obtain ⟨rfl, rfl⟩ := eq
      have stored : w.tables.blocked a b := blocked
      simp [Tables.blocked, ha.1.2, ha.2] at stored
    · exact .inl ⟨nofun, blocked, (setPair_of_ne eq).symm.trans hf⟩
  | deleteFollow x y =>
    by_cases eq : a = x ∧ b = y
    · obtain ⟨rfl, rfl⟩ := eq
      cases setPair_self.symm.trans hf
    · refine .inl ⟨?_, blocked, (setPair_of_ne eq).symm.trans hf⟩
      rintro ⟨rfl, rfl⟩
      exact eq ⟨rfl, rfl⟩
  | persistBlock x y at_ =>
    simp only [Tables.admits, Bool.and_eq_true, beq_iff_eq] at ha
    by_cases eq : a = x ∧ b = y
    · obtain ⟨rfl, rfl⟩ := eq
      exact .inr ⟨ha.1.trans (congrArg some hf), at_, .inl rfl⟩
    by_cases reversed : b = x ∧ a = y
    · obtain ⟨rfl, rfl⟩ := reversed
      exact .inr ⟨ha.2.trans (congrArg some hf), at_, .inr rfl⟩
    refine .inl ⟨nofun, ?_, hf⟩
    cases blocked with
    | inl here => exact .inl ((congrArg isSome (setPair_of_ne eq)).symm.trans here)
    | inr there => exact .inr ((congrArg isSome (setPair_of_ne reversed)).symm.trans there)
  | deleteBlock x y =>
    have kept : ∀ c d, ((w.serve (.deleteBlock x y)).1.tables.blocks c d).isSome = true →
        (w.tables.blocks c d).isSome = true := by
      intro c d stored
      by_cases eq : c = x ∧ d = y
      · obtain ⟨rfl, rfl⟩ := eq
        rw [show (w.serve (.deleteBlock c d)).1.tables.blocks c d = none from setPair_self] at stored
        cases stored
      · exact (congrArg isSome (setPair_of_ne eq)).symm.trans stored
    exact .inl ⟨nofun, blocked.imp (kept a b) (kept b a), hf⟩
  | publish ev => cases ev <;> exact .inl ⟨nofun, blocked, hf⟩
  | _ => exact .inl ⟨nofun, blocked, hf⟩

theorem Kept.advanced (kept : Kept pool) {id : Nat} (hw : pool.calls id = some ⟨req, .call op rest, answers⟩)
    (hr : op.onTables = true → service = .served) (ha : pool.world.tables.admits answers op = true)
    (a b : ProfileId) (since : Int) (blocked : (server.perform pool.world op service).1.tables.blocked a b)
    (hf : (server.perform pool.world op service).1.tables.followStatus a b = some since) :
    Traffic.Pending ⟨(server.perform pool.world op service).1, update pool.calls id
      (some ⟨req, rest (server.perform pool.world op service).2,
        ⟨op, (server.perform pool.world op service).2⟩ :: answers⟩)⟩ a b since := by
  cases onTables : op.onTables with
  | false =>
    rw [tables_perform onTables] at blocked hf
    apply (kept.pending a b since blocked hf).advanced hw
    · intro reaches
      rw [onTables] at reaches
      cases reaches
    · rintro rfl
      cases onTables
  | true =>
    cases hr onTables
    rcases blocked_follow ha blocked hf with ⟨other, blocked, hf⟩ | ⟨told, blockedAt, wrote⟩
    · apply (kept.pending a b since blocked hf).advanced hw ?_ other
      intro _
      cases op <;> exact ⟨_, rfl⟩
    · -- The command has just written the block, and goes on to sever what it was told of.
      refine ⟨id, _, update_self .., ?_⟩
      rcases wrote with rfl | rfl
      · exact ((kept.severs id _ hw).1 since).1 told
      · exact ((kept.severs id _ hw).1 since).2 told

theorem Kept.step (kept : Kept pool) (hr : faultless pool move = true) (had : guarded pool move = true)
    (hs : (host setup init).Steps pool move next) : Kept next := by
  refine ⟨?_, kept.severs.step hs ?_, ?_⟩
  · apply world_step (fun w => w.tables.OneGraph) kept.graph hs
    intro op carried
    apply kept.graph.serve
    cases hs with
    | begun | crashed => cases carried
    | advanced _ hw =>
      rw [carriedOut_advance hw] at carried
      simp only [guarded, hw] at had
      split at carried
      · cases carried
        exact Tables.fits_of_admits had
      · cases carried
    | @elapsed event => exact event.elim
  · intro req world prog ha
    cases ha
    exact throughout_program req
  · cases hs with
    | @begun id _ _ _ free ha =>
      cases ha
      intro a b since blocked hf
      obtain ⟨i, call, h, severing⟩ := kept.pending a b since blocked hf
      have ne : i ≠ id := by
        rintro rfl
        rw [free] at h
        cases h
      exact ⟨i, call, (update_of_ne ne ..).trans h, severing⟩
    | advanced _ hw =>
      simp only [faultless, hw, Bool.or_eq_true, Bool.not_eq_true', beq_iff_eq] at hr
      simp only [guarded, hw] at had
      intro a b since blocked hf
      refine kept.advanced hw ?_ had a b since blocked hf
      intro onTables
      cases hr with
      | inl elsewhere => cases onTables.symm.trans elsewhere
      | inr served => exact served
    | crashed => cases hr
    | @elapsed event => exact event.elim

end

theorem Kept.apart (kept : Kept pool) (idle : pool.Idle) : pool.world.tables.Apart := by
  intro a b blocked
  have unfollowed : pool.world.tables.followStatus a b = none := by
    cases hf : pool.world.tables.followStatus a b with
    | none => rfl
    | some since =>
      obtain ⟨id, call, h, severing⟩ := kept.pending a b since blocked hf
      have he := idle id call h
      revert severing he
      cases call.program with
      | ok | error => intro severing; exact severing.elim
      | call => intro _ he; cases he
  refine ⟨unfollowed, fun since => ⟨?_, ?_⟩⟩
  · intro row
    cases unfollowed.symm.trans ((kept.graph a b since).1.mpr row)
  · intro row
    cases unfollowed.symm.trans ((kept.graph a b since).2.mpr row)

/-- Tables that are one graph, with no follow beside a block. -/
def World.Orderly (w : World) : Prop := w.tables.OneGraph ∧ w.tables.Apart

theorem kept_of_init (hb : (host setup World.Orderly).machine.init pool) : Kept pool := by
  refine ⟨hb.1.1, ?_, ?_⟩
  · intro id call h
    rw [hb.2] at h
    cases h
  · intro a b since blocked hf
    cases (hb.1.2 a b blocked).1.symm.trans hf

/-- Where the writes of the commands are guarded and the store does not fail, a block and a follow do
not coexist once no command is under way. -/
theorem guarded_writes_keep_apart (setup : Setup) (start pool : Traffic) (moves : List (Move Request Empty))
    (begins : (host setup World.Orderly).machine.init start)
    (reliable : (host setup World.Orderly).machine.Meets (fun pool move => faultless pool move = true) start moves)
    (admitted : (host setup World.Orderly).machine.Meets (fun pool move => guarded pool move = true) start moves)
    (ran : (host setup World.Orderly).machine.run start moves = some pool) (idle : pool.Idle) :
    pool.world.tables.Apart := by
  have kept : Kept pool := Host.run_keeps Kept (fun kept both stepped => kept.step both.1 both.2 stepped)
    (kept_of_init begins) (reliable.and admitted) ran
  exact kept.apart idle

namespace Pair

theorem begins_orderly : (host setup World.Orderly).machine.init start := by
  refine ⟨⟨Tables.oneGraph_empty, ?_⟩, rfl⟩
  intro a b blocked
  simp [start, World.empty, Tables.empty] at blocked

/-- A follow, then a block of the follower. -/
def severed : List (Move Request Empty) :=
  alone 0 9 (request .follow "a" "b" 1) ++ alone 1 11 (request .block "b" "a" 2)

/-- The block comes between what the follow reads and what it writes. -/
def raced : List (Move Request Empty) :=
  [.begin 0 (request .follow "a" "b" 1)] ++ advances (List.replicate 4 0) ++
    alone 1 7 (request .block "b" "a" 2) ++ advances (List.replicate 5 0)

theorem severed_apart : ∃ pool, (host setup World.Orderly).machine.run start severed = some pool ∧
    pool.world.tables.blocks 2 1 = some 2 ∧ pool.world.tables.followStatus 1 2 = none ∧
    pool.world.tables.Apart := by
  obtain ⟨pool, ran, ended, blocks, unfollowed⟩ : ∃ pool, (host setup World.Orderly).machine.run start severed =
      some pool ∧ (begunIn severed).all (fun id => (pool.calls id).all fun call => call.program.ended) = true ∧
      pool.world.tables.blocks 2 1 = some 2 ∧ pool.world.tables.followStatus 1 2 = none := by decide +kernel
  have reliable : (host setup World.Orderly).machine.Meets (fun pool move => faultless pool move = true)
      start severed := by decide +kernel
  have admitted : (host setup World.Orderly).machine.Meets (fun pool move => guarded pool move = true)
      start severed := by decide +kernel
  have idle : pool.Idle := Host.idle_of_ended ran (fun _ => rfl) ended
  exact ⟨pool, ran, blocks, unfollowed,
    guarded_writes_keep_apart setup start pool severed begins_orderly reliable admitted ran idle⟩

/-- The follow was let through before the block was there, and stands beside it for good. -/
theorem raced_follow_coexists : ∃ pool, (host setup World.Orderly).machine.run start raced = some pool ∧
    (host setup World.Orderly).machine.Meets (fun pool move => faultless pool move = true) start raced ∧
    pool.Idle ∧ pool.world.tables.blocks 2 1 = some 2 ∧ pool.world.tables.followStatus 1 2 = some 1 ∧
    (1, 1, 2) ∈ pool.world.tables.following ∧ (2, 1, 1) ∈ pool.world.tables.followers := by
  obtain ⟨pool, ran, ended, seen⟩ : ∃ pool, (host setup World.Orderly).machine.run start raced = some pool ∧
      (begunIn raced).all (fun id => (pool.calls id).all fun call => call.program.ended) = true ∧
      pool.world.tables.blocks 2 1 = some 2 ∧ pool.world.tables.followStatus 1 2 = some 1 ∧
      (1, 1, 2) ∈ pool.world.tables.following ∧ (2, 1, 1) ∈ pool.world.tables.followers := by decide +kernel
  exact ⟨pool, ran, by decide +kernel, Host.idle_of_ended ran (fun _ => rfl) ended, seen⟩

end Pair
end CorePlatform.SocialGraph
