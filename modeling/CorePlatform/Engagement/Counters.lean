import CorePlatform.Engagement.Handlers

/-! # What readers are shown of views and shares

The query reports the Redis counters as they stand. A recorded view raises the counter, and a flush
cycle sets the same counter back to zero: the report is the number of recorded views for exactly as
long as no flush finds anything to drain. -/

namespace CorePlatform.Engagement

open Theory Function Server Option

section

variable (formats : Formats) (w : World) (postId : PostId)

def Op.isRead : Op → Prop
  | .get _ _ | .hgetall _ => True
  | _ => False

theorem serve_read (read : op.isRead) (w : World) : ((server formats).serve w op).1 = w := by
  cases op with
  | get | hgetall => rfl
  | _ => cases read

theorem reads_commute (read : op.isRead) (read' : op'.isRead) : (server formats).Commute op op' :=
  Server.commute_of_reads (serve_read formats read) (serve_read formats read')

theorem confined_get (counter : Counter) : (ask (.get counter postId)).Confined Op.isRead fun _ => True :=
  Program.Passes.confined ⟨trivial, fun _ => rfl, fun _ => trivial⟩

theorem execute_reads {α : Type} (op : Op) (read : op.isRead) {reply : op.Reply} {second : Calling α} {value : α}
    (hc : second.Confined Op.isRead fun _ => True) (turns : List Bool)
    (ha : (server formats).serve w op = (w, .ok reply))
    (ran : (server formats).execute second w allServed = (w, .ok value)) :
    (server formats).execute ((ask op).join second turns) w allServed = (w, .ok (reply, value)) := by
  have first : (server formats).execute (ask op) w allServed = (w, .ok reply) :=
    ((server formats).execute_perform).trans ha
  rw [Server.execute_join (Program.Passes.op read).confined hc fun _ _ => reads_commute formats, first, ran]
  rfl

theorem execute_getPostEngagement (turns : Nat → List Bool) :
    (server formats).execute (getPostEngagement postId turns) w allServed =
      (w, .ok ⟨fun kind => w.redis.scores (postId, kind), (w.redis.counters (.views, postId)).getD 0,
        (w.redis.counters (.shares, postId)).getD 0, (w.redis.counters (.comments, postId)).getD 0⟩) := by
  have comments : (server formats).execute (ask (.get .comments postId)) w allServed =
      (w, .ok (w.redis.counters (.comments, postId))) :=
    (server formats).execute_perform
  have shares := execute_reads formats w (.get .shares postId) trivial (confined_get postId .comments) (turns 2) rfl
    comments
  have afterShares := (confined_get postId .shares).join (confined_get postId .comments) (turns 2)
  have views := execute_reads formats w (.get .views postId) trivial afterShares (turns 1) rfl shares
  have afterViews := (confined_get postId .views).join afterShares (turns 1)
  have all := execute_reads formats w (.hgetall postId) trivial afterViews (turns 0) rfl views
  unfold getPostEngagement getSnapshot
  rw [execute_bind_served, all]
  rfl

end

/-- The query shows the views and the shares that were recorded. -/
def Reports (formats : Formats) (w : World) : Prop :=
  ∀ postId turns, ∃ snapshot,
    ((server formats).execute (getPostEngagement postId turns) w Server.allServed).2 = .ok snapshot ∧
    snapshot.viewCount = w.recorded (.views, postId) ∧ snapshot.shareCount = w.recorded (.shares, postId)

/-- The counters that the flush worker drains. -/
def Counter.isDrained : Counter → Bool
  | .views | .shares => true
  | .comments => false

theorem reports_iff :
    Reports formats w ↔ ∀ counter postId, counter.isDrained = true →
      (w.redis.counters (counter, postId)).getD 0 = w.recorded (counter, postId) := by
  constructor
  · intro reports counter postId drained
    obtain ⟨_, shown, views, shares⟩ := reports postId fun _ => []
    cases shown
    cases counter with
    | views => exact views
    | shares => exact shares
    | comments => cases drained
  · intro hc postId turns
    rw [execute_getPostEngagement]
    exact ⟨_, rfl, hc .views postId rfl, hc .shares postId rfl⟩

/-- A `GETSET` of views or shares finds the counter at zero. -/
def Op.findsEmpty (w : World) : Op → Bool
  | .getsetZero counter postId => !counter.isDrained || (w.redis.counters (counter, postId)).getD 0 == 0
  | _ => true

theorem counters_forget (r : Redis) (pair : Pair) : (r.forget pair old).counters = r.counters := by
  cases old <;> rfl

theorem counters_removeScript (r : Redis) (formats : Formats) (pair : Pair) :
    (r.removeScript formats pair).1.counters = r.counters := by
  unfold Redis.removeScript
  cases r.swappedOut formats pair with
  | none => rfl
  | some old => exact counters_forget r pair

theorem counters_upsertScript (r : Redis) (formats : Formats) (pair : Pair) (newKind newWeight : String) :
    (r.upsertScript formats pair newKind newWeight).1.counters = r.counters :=
  counters_forget r pair

theorem serve_counted (hr : counter.isDrained = true) (he : op.findsEmpty w = true)
    (hc : (w.redis.counters (counter, postId)).getD 0 = w.recorded (counter, postId)) :
    (((server formats).serve w op).1.redis.counters (counter, postId)).getD 0 =
      ((server formats).serve w op).1.recorded (counter, postId) := by
  cases op with
  | upsertScript pair newKind newWeight =>
    have eq := counters_upsertScript w.redis formats pair newKind newWeight
    exact (congrArg (fun counters => (counters (counter, postId)).getD 0) eq).trans hc
  | removeScript pair =>
    have eq := counters_removeScript w.redis formats pair
    exact (congrArg (fun counters => (counters (counter, postId)).getD 0) eq).trans hc
  | incr counter' postId' =>
    simp only [server, World.serve, World.incr, Redis.incrby]
    by_cases eq : (counter, postId) = (counter', postId')
    · rw [← eq]
      simp only [update_self, getD_some, hc]
      omega
    · rw [update_of_ne eq, update_of_ne eq]
      exact hc
  | decrComments postId' =>
    have other : (counter, postId) ≠ (.comments, postId') := by
      intro eq
      cases eq
      cases hr
    simp only [server, World.serve, Redis.incrby, update_of_ne other]
    exact hc
  | getsetZero counter' postId' =>
    simp only [server, World.serve, Redis.getsetZero]
    cases stored : w.redis.counters (counter', postId') with
    | none => exact hc
    | some =>
      by_cases eq : (counter, postId) = (counter', postId')
      · obtain ⟨rfl, rfl⟩ := Prod.mk.inj eq
        have zero : (w.redis.counters (counter, postId)).getD 0 = 0 := by
          simpa [Op.findsEmpty, hr] using he
        simp only [update_self, getD_some]
        rw [← hc, zero]
      · simp only [update_of_ne eq]
        exact hc
  | _ => exact hc

theorem serve_not_counted (hf : op.findsEmpty w = false) (hc : ∀ counter postId, counter.isDrained = true →
      (w.redis.counters (counter, postId)).getD 0 = w.recorded (counter, postId)) :
    ∃ counter postId, counter.isDrained = true ∧
      (((server formats).serve w op).1.redis.counters (counter, postId)).getD 0 ≠
        ((server formats).serve w op).1.recorded (counter, postId) := by
  cases op with
  | getsetZero counter postId =>
    simp only [Op.findsEmpty, Bool.or_eq_false_iff, Bool.not_eq_false', beq_eq_false_iff_ne] at hf
    obtain ⟨reported, hf⟩ := hf
    refine ⟨counter, postId, reported, ?_⟩
    rw [hc counter postId reported] at hf
    simp only [server, World.serve, Redis.getsetZero]
    cases stored : w.redis.counters (counter, postId) with
    | none =>
      simp only [stored, getD_none]
      exact Ne.symm hf
    | some =>
      simp only [update_self, getD_some]
      exact Ne.symm hf
  | _ => cases hf

/-- A `GETSET` of views or shares that is carried out finds the counter at zero. -/
def drainsNothing (pool : Traffic) : Move Request Event → Bool
  | .advance id service =>
    match pool.calls id with
    | some ⟨_, .call op _, _⟩ => !service.reaches || op.findsEmpty pool.world
    | _ => true
  | .begin _ _ | .crash _ | .elapse _ => true

section

variable {formats : Formats} {pool next : Traffic} {move : Move Request Event}

theorem consume_counted {w : World} (hc : w.consume formats = some w') :
    w'.redis = w.redis ∧ w'.recorded = w.recorded := by
  obtain ⟨ev, -, rfl⟩ := map_eq_some_iff.mp hc
  cases ev <;> exact ⟨rfl, rfl⟩

theorem elapse_counted {w : World} (hc : w.elapse formats ev = some w') :
    w'.redis = w.redis ∧ w'.recorded = w.recorded := by
  cases ev with
  | consume => exact consume_counted hc
  | rewind =>
    simp only [World.elapse] at hc
    split at hc
    · cases hc
      exact ⟨rfl, rfl⟩
    · cases hc

theorem reports_of_same (eq : w'.redis = w.redis ∧ w'.recorded = w.recorded) (hr : Reports formats w) :
    Reports formats w' := by
  rw [reports_iff] at hr ⊢
  rw [eq.1, eq.2]
  exact hr

theorem drainsNothing_advance {id : Nat} (hw : pool.calls id = some ⟨req, .call op rest, heard⟩) :
    drainsNothing pool (.advance id service) = (!service.reaches || op.findsEmpty pool.world) := by
  simp only [drainsNothing, hw]

theorem reports_step (hr : Reports formats pool.world) (he : drainsNothing pool move = true)
    (hs : (host formats).Steps pool move next) : Reports formats next.world := by
  cases hs with
  | begun _ ha =>
    cases ha
    exact hr
  | @advanced _ _ _ _ _ svc waiting =>
    rw [drainsNothing_advance waiting] at he
    cases svc with
    | refused => exact hr
    | served | replyLost reason =>
      rw [reports_iff] at hr ⊢
      intro counter postId reported
      exact serve_counted reported he (hr counter postId reported)
  | crashed => exact hr
  | elapsed changed => exact reports_of_same (elapse_counted changed) hr

theorem not_reports_of_drain (hr : Reports formats pool.world) (hd : ¬ drainsNothing pool move = true) :
    ∃ next, (host formats).machine.step pool move = some next ∧ ¬ Reports formats next.world := by
  cases move with
  | advance _ svc =>
    simp only [drainsNothing] at hd
    split at hd
    · rename_i req op rest heard hw
      simp only [Bool.or_eq_true, Bool.not_eq_true', not_or, Bool.not_eq_false, Bool.not_eq_true] at hd
      obtain ⟨next, hs, world⟩ := (host formats).step_advance hw
      refine ⟨next, hs, fun shown => ?_⟩
      have served : next.world = ((server formats).serve pool.world op).1 := by
        rw [world]
        cases svc with
        | served | replyLost reason => rfl
        | refused => cases hd.1
      rw [served, reports_iff] at shown
      obtain ⟨counter, postId, reported, wrong⟩ := serve_not_counted hd.2 (reports_iff.mp hr)
      exact wrong (shown counter postId reported)
    · exact absurd rfl hd
  | begin | crash | elapse => exact absurd rfl hd

/-- The query shows the recorded views and shares throughout a run exactly if no flush finds
anything to drain. -/
theorem reported_counts_iff (formats : Formats) (start : Traffic) (moves : List (Move Request Event))
    (begins : (host formats).machine.init start) :
    (host formats).machine.Always (fun pool => Reports formats pool.world) start moves ↔
      (host formats).machine.Meets (fun pool move => drainsNothing pool move = true) start moves := by
  have reports : Reports formats start.world := by
    rw [reports_iff]
    intro counter postId _
    rw [begins.1.counters, begins.1.recorded]
    rfl
  apply Machine.always_iff_meets (fun _ => True) (fun pool => Reports formats pool.world) ?_ ?_ ?_ ?_ trivial reports
  · intro pool move next _ _
    trivial
  · intro pool move next _ reports empty stepped
    exact reports_step reports empty (Host.step_steps stepped)
  · intro pool _ reports
    exact reports
  · intro pool move _ reports drains
    exact not_reports_of_drain reports drains

end

namespace Viewed

open Sample

def post : PostId := 1#128

def recorded : List (Move Request Event) :=
  [.begin 0 (.recordView 0 post), .advance 0 .served, .advance 0 .served]

/-- The process that recorded the view runs its flush worker. -/
def flushed : List (Move Request Event) :=
  recorded ++ [.begin 1 (.flushCycle 0 fun _ => []), .advance 1 .served, .advance 1 .served, .advance 1 .served,
    .advance 1 .served, .advance 1 .served]

/-- A share is recorded, and the worker has drained the views of its post, of which there are none. -/
def halfFlushed : List (Move Request Event) :=
  [.begin 0 (.recordShare 0 post), .advance 0 .served, .advance 0 .served, .begin 1 (.flushCycle 0 fun _ => [true]),
    .advance 1 .served, .advance 1 .served, .advance 1 .served]

theorem share_is_reported :
    (∃ pool, (host plain).machine.run start halfFlushed = some pool ∧
      drainsNothing pool (.advance 1 .served) = false) ∧
    (host plain).machine.Always (fun pool => Reports plain pool.world) start halfFlushed :=
  ⟨by decide +kernel, (reported_counts_iff plain start halfFlushed start_init).mpr (by decide +kernel)⟩

/-- After one recorded view and one flush cycle, the query shows no view. -/
theorem flush_hides_the_view : ∃ pool snapshot, (host plain).machine.run start flushed = some pool ∧
    pool.world.recorded (.views, post) = 1 ∧
    ((server plain).execute (getPostEngagement post fun _ => []) pool.world Server.allServed).2 = .ok snapshot ∧
    snapshot.viewCount = 0 := by
  obtain ⟨pool, ran, counter, recorded⟩ : ∃ pool, (host plain).machine.run start flushed = some pool ∧
      pool.world.redis.counters (.views, post) = some 0 ∧ pool.world.recorded (.views, post) = 1 := by decide +kernel
  have shown := congrArg Prod.snd (execute_getPostEngagement plain pool.world post fun _ => [])
  rw [counter] at shown
  exact ⟨pool, _, ran, recorded, shown, rfl⟩

end Viewed
end CorePlatform.Engagement
