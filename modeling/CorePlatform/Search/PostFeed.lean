import CorePlatform.Theory.Machine
import CorePlatform.Search.Registers
import CorePlatform.Search.Decode

/-! # A post and its document

The post service writes a post and announces each write; the consumer takes the announcements in
order, some of them again, reads the post as it is by then and applies it under the revision of the
announcement. A document written under the latest revision has the caption of the moment it was
read, so what can go wrong is a caption that changes after that within the same millisecond. -/

namespace CorePlatform.Search

open Theory Option
open Audit (isBlank)

inductive PostStatus where
  | draft
  | published
  | deleted
  deriving DecidableEq

inductive PostError where
  | postAlreadyPublished (postId : String)
  | postAlreadyDeleted (postId : String)

structure Post where
  id : String
  profileId : String
  status : PostStatus
  caption : String
  createdAtMs : Int
  named : isBlank id = false
  authored : isBlank profileId = false

namespace Post

def publish (post : Post) (nowMs : Int) : Except PostError (Post × PostWireEvent) :=
  match post.status with
  | .published => .error (.postAlreadyPublished post.id)
  | .deleted => .error (.postAlreadyDeleted post.id)
  | .draft => .ok ({ post with status := .published }, .postPublished post.id post.profileId nowMs)

def update (post : Post) (caption : String) (nowMs : Int) : Except PostError (Post × PostWireEvent) :=
  if post.status = .deleted then .error (.postAlreadyDeleted post.id)
  else .ok ({ post with caption }, .postUpdated post.id post.profileId nowMs)

def delete (post : Post) (nowMs : Int) : Except PostError (Post × PostWireEvent) :=
  if post.status = .deleted then .error (.postAlreadyDeleted post.id)
  else .ok ({ post with status := .deleted }, .postDeleted post.id post.profileId nowMs)

/-- What a read of the post is answered with; a deleted post is not found. -/
def get (post : Post) : Except Status PostView :=
  if post.status = .deleted then .error ⟨.notFound, "post not found: " ++ post.id⟩
  else .ok ⟨post.id, post.profileId, post.caption, post.createdAtMs⟩

end Post

namespace PostWireEvent

def atMs : PostWireEvent → Int
  | postPublished _ _ ms | postUpdated _ _ ms | postDeleted _ _ ms => ms

def postId : PostWireEvent → String
  | postPublished id _ _ | postUpdated id _ _ | postDeleted id _ _ => id

def isContent : PostWireEvent → Bool
  | postPublished .. | postUpdated .. => true
  | postDeleted .. => false

def revision (event : PostWireEvent) : Nat := msToRevision event.atMs

end PostWireEvent

/-- An event that is being handled, with what was read for it. -/
structure Hand where
  offset : Nat
  event : SourceEvent
  now : Int

structure Feed where
  post : Post
  events : List PostWireEvent
  /-- every event before this offset was handled at least once -/
  handled : Nat
  hand : Option Hand
  engine : OpenSearch

inductive Turn where
  | publish (nowMs : Int)
  | update (caption : String) (nowMs : Int)
  | delete (nowMs : Int)
  | take (offset : Nat) (now : Int)
  | apply
  | crash

namespace Feed

def onTime (feed : Feed) (nowMs : Int) : Bool :=
  match feed.events.getLast? with
  | none => true
  | some last => decide (last.atMs ≤ nowMs)

def emit (feed : Feed) (written : Except PostError (Post × PostWireEvent)) : Option Feed :=
  match written with
  | .error _ => none
  | .ok (post, event) =>
    if feed.onTime event.atMs then some { feed with post, events := feed.events ++ [event] } else none

/-- The first half of `process`: decode, and read the content if that takes a read. -/
def read (unicode : Unicode) (feed : Feed) (event : PostWireEvent) (now : Int) :
    Option (Except SearchError SourceEvent) :=
  match mapPost event with
  | .ready event => some (.ok event)
  | .needsContent ref => some (hydratePost unicode ref feed.post.get now)
  | .ignore => none

/-- An event is taken in its turn or once more. -/
def take (unicode : Unicode) (feed : Feed) (offset : Nat) (now : Int) : Option Feed :=
  if feed.hand.isNone ∧ offset ≤ feed.handled then
    match feed.events[offset]? with
    | none => none
    | some event =>
      match feed.read unicode event now with
      | some (.ok event) => some { feed with hand := some ⟨offset, event, now⟩ }
      | _ => none
  else none

def apply (feed : Feed) : Option Feed :=
  match feed.hand with
  | none => none
  | some hand =>
    match feed.engine.applyEvent hand.event hand.now with
    | (engine, .ok _) => some { feed with engine, hand := none, handled := max feed.handled (hand.offset + 1) }
    | (engine, .error _) => some { feed with engine, hand := none }

def step (unicode : Unicode) (feed : Feed) : Turn → Option Feed
  | .publish nowMs => feed.emit (feed.post.publish nowMs)
  | .update caption nowMs => feed.emit (feed.post.update caption nowMs)
  | .delete nowMs => feed.emit (feed.post.delete nowMs)
  | .take offset now => feed.take unicode offset now
  | .apply => feed.apply
  | .crash => some { feed with hand := none }

/-- A draft that nobody has heard of. -/
structure Begins (name : String) (feed : Feed) : Prop where
  draft : feed.post.status = .draft
  silent : feed.events = []
  unhandled : feed.handled = 0
  idle : feed.hand = none
  serves : feed.engine.Serves .post name
  absent : feed.engine.document .post feed.post.id = none

def machine (unicode : Unicode) (name : String) : Machine Feed Turn where
  init := Begins name
  step := step unicode

/-- Content was read under the revision, and is stored or in hand. -/
def hasRead (feed : Feed) (revision : Nat) : Bool :=
  (match feed.engine.document .post feed.post.id with
    | some source => source "content_version" == some (.number revision)
    | none => false) ||
  (match feed.hand with
    | some ⟨_, .post (.published snapshot), _⟩ => snapshot.revision == revision
    | _ => false)

/-- An update leaves the caption as it is, or comes under a revision that nothing was read under. -/
def timely (feed : Feed) : Turn → Bool
  | .update caption nowMs => caption == feed.post.caption || !feed.hasRead (msToRevision nowMs)
  | _ => true

/-- The post was published, and every event was handled. -/
def caughtUp (feed : Feed) : Bool :=
  feed.events.any (fun event => event matches .postPublished ..) && feed.hand.isNone &&
    feed.handled == feed.events.length

end Feed

namespace OpenSearch

/-- The content of the document, with nobody hiding it. -/
structure Stores (engine : OpenSearch) (id : String) (content : Option (Stamped IndexDocument)) : Prop where
  lays : engine.Lays .post id ⟨content, fun _ => some ⟨0, true⟩⟩
  absent : content = none → engine.document .post id = none

variable {engine : OpenSearch} {id : String}

theorem stores_none (absent : engine.document .post id = none) : engine.Stores id none where
  lays := by
    unfold Lays
    rw [absent]
    exact Source.shows_start
  absent _ := absent

theorem Stores.document_isSome (hs : engine.Stores id content) :
    (engine.document .post id).isSome = content.isSome := by
  cases h : content with
  | none =>
    rw [hs.absent h]
    rfl
  | some =>
    cases stored : engine.document .post id with
    | some => rfl
    | none =>
      have ver := hs.lays.version
      rw [stored, h] at ver
      cases ver

theorem Stores.field (hs : engine.Stores id content) (h : content = some stamp)
    (stored : engine.document .post id = some source) (free : key ∉ guardFields) :
    source key = contentOf stamp.value key := by
  have lays := hs.lays
  unfold Lays at lays
  rw [stored] at lays
  exact (lays.content stamp h).2 key free

theorem Stores.version (hs : engine.Stores id content) (h : content = some stamp) :
    ∃ source, engine.document .post id = some source ∧ source "content_version" = some (.number stamp.version) := by
  have present := hs.document_isSome
  rw [h] at present
  obtain ⟨source, stored⟩ := isSome_iff_exists.mp present
  have lays := hs.lays
  unfold Lays at lays
  rw [stored, h] at lays
  exact ⟨source, stored, lays.version⟩

theorem Serves.delete (hs : engine.Serves .post name) (id : String) :
    (engine.delete .post id).1.Serves .post name ∧ (engine.delete .post id).1.document .post id = none := by
  obtain ⟨index, h⟩ := isSome_iff_exists.mp hs.exists_
  have hw : engine.behind (engine.writeAlias .post) = some (name, index) := by
    simp [behind, hs.writes, h]
  have eq : (engine.delete .post id).1 = engine.setDocument name index id none := by
    simp only [OpenSearch.delete, hw]
  rw [eq]
  refine ⟨⟨hs.reads, hs.writes, ?_⟩, ?_⟩
  · simp [setDocument]
  · simp [setDocument, document, behind, hs.reads]

theorem applyEvent_deleted (hs : engine.Serves .post name) (hn : isBlank id = false) (now : Int) :
    ∃ after, engine.applyEvent (.post (.deleted id)) now = (after, .ok .deleted) ∧ after.Serves .post name ∧
      after.Stores id none := by
  have deletes := hs.delete id
  refine ⟨(engine.delete .post id).1, ?_, deletes.1, stores_none deletes.2⟩
  have hp : project (.post (.deleted id)) now = .ok (.delete .post id) := by
    simp [project, projectPost, nonEmptyId, hn, bind, Except.bind, pure, Except.pure]
  obtain ⟨_, h⟩ := isSome_iff_exists.mp hs.exists_
  simp [OpenSearch.applyEvent, hp, OpenSearch.apply, OpenSearch.delete, behind, hs.writes, h, Except.map]

theorem applyEvent_published (hs : engine.Serves .post name) (hst : engine.Stores id content)
    (eq : snap.postId = id) (hn : isBlank id = false) (authored : isBlank snap.authorId = false)
    (now : Int) :
    ∃ after outcome doc, engine.applyEvent (.post (.published snap)) now = (after, .ok outcome) ∧
      after.Serves .post name ∧ after.Stores id (Stamped.offer content ⟨snap.revision, .post doc⟩) ∧
      doc.caption = snap.caption := by
  subst eq
  obtain ⟨doc, built, ver, kept, caption, visible⟩ : ∃ doc, postDoc snap now = .ok doc ∧
      doc.version = snap.revision ∧ doc.postId = snap.postId ∧ doc.caption = snap.caption ∧
      doc.searchable = .visible := by
    simp [postDoc, nonEmpty, hn, AuthorId.new, authored, bind, Except.bind, pure, Except.pure]
  have hp : project (.post (.published snap)) now = .ok (.upsert (.post doc)) := by
    simp [project, projectPost, built, bind, Except.bind, pure, Except.pure]
  have mine : (IndexMutation.upsert (.post doc)).Writes .post snap.postId := ⟨rfl, kept, visible⟩
  obtain ⟨index, h⟩ := isSome_iff_exists.mp hs.exists_
  have behind : engine.behind (engine.writeAlias .post) = some (name, index) := by
    simp [behind, hs.writes, h]
  have applied : ∃ outcome, (engine.apply (.upsert (.post doc))).2 = .ok outcome := by
    simp only [OpenSearch.apply, OpenSearch.upsert, OpenSearch.scriptedUpdate, IndexDocument.kind, behind]
    split <;> exact ⟨_, rfl⟩
  obtain ⟨outcome, done⟩ := applied
  refine ⟨(engine.apply (.upsert (.post doc))).1, outcome, doc, ?_, (hs.apply mine).1, ⟨?_, ?_⟩, caption⟩
  · rw [OpenSearch.applyEvent, hp, ← done]
  · rw [← ver]
    exact hst.lays.apply hs mine
  intro none_
  have some_ := Stamped.offer_isSome content ⟨snap.revision, .post doc⟩
  rw [none_] at some_
  cases some_

end OpenSearch

namespace Feed

def revision (feed : Feed) : Nat := (feed.events.getLast?.map PostWireEvent.revision).getD 0

/-- Content under the latest revision is the content of the post. -/
def Current (feed : Feed) (revision : Nat) (caption : Option Value) : Prop :=
  revision ≤ feed.revision ∧ (revision = feed.revision → caption = some (.text feed.post.caption))

/-- What is in hand was read for its event: the post, or that it is gone. -/
def Holds (feed : Feed) (hand : Hand) : Prop :=
  hand.offset ≤ feed.handled ∧ ∃ event, feed.events[hand.offset]? = some event ∧
    ((hand.event = .post (.deleted feed.post.id) ∧ feed.post.status = .deleted) ∨
      ∃ snapshot, hand.event = .post (.published snapshot) ∧ snapshot.postId = feed.post.id ∧
        snapshot.authorId = feed.post.profileId ∧ event.isContent = true ∧ snapshot.revision = event.revision)

structure Live (feed : Feed) (content : Option (Stamped IndexDocument)) : Prop where
  events : ∀ event ∈ feed.events, event.isContent = true ∧ event.revision ≤ feed.revision
  stored : ∀ stamp, content = some stamp → feed.Current stamp.version (contentOf stamp.value "caption")
  read : ∀ hand snapshot, feed.hand = some hand → hand.event = .post (.published snapshot) →
    feed.Current snapshot.revision (some (.text snapshot.caption))
  handled : ∀ offset < feed.handled, ∀ event, feed.events[offset]? = some event →
    ∃ stamp, content = some stamp ∧ event.revision ≤ stamp.version

structure Gone (feed : Feed) (content : Option (Stamped IndexDocument)) : Prop where
  last : ∃ event, feed.events.getLast? = some event ∧ event.isContent = false
  done : feed.handled = feed.events.length → content = none ∧
    ∀ hand, feed.hand = some hand → hand.event = .post (.deleted feed.post.id)

structure Kept (name : String) (feed : Feed) (content : Option (Stamped IndexDocument)) : Prop where
  serves : feed.engine.Serves .post name
  stores : feed.engine.Stores feed.post.id content
  named : ∀ event ∈ feed.events, event.postId = feed.post.id
  within : feed.handled ≤ feed.events.length
  holds : ∀ hand, feed.hand = some hand → feed.Holds hand
  live : feed.post.status ≠ .deleted → feed.Live content
  gone : feed.post.status = .deleted → feed.Gone content

theorem kept_of_begins (hb : Begins name feed) : feed.Kept name none where
  serves := hb.serves
  stores := OpenSearch.stores_none hb.absent
  named event inside := by
    rw [hb.silent] at inside
    cases inside
  within := by rw [hb.unhandled]; exact Nat.zero_le _
  holds hand held := by
    rw [hb.idle] at held
    cases held
  live _ := {
    events := fun event inside => by
      rw [hb.silent] at inside
      cases inside
    stored := nofun
    read := fun hand snap held => by
      rw [hb.idle] at held
      cases held
    handled := fun offset below => by
      rw [hb.unhandled] at below
      exact absurd below (Nat.not_lt_zero _) }
  gone deleted := by
    rw [hb.draft] at deleted
    cases deleted

section

variable {feed : Feed} {post : Post}
variable {event : PostWireEvent}

theorem emit_eq_some (hs : feed.emit written = some next) :
    ∃ post event, written = .ok (post, event) ∧ feed.onTime event.atMs = true ∧
      next = { feed with post, events := feed.events ++ [event] } := by
  unfold emit at hs
  split at hs
  · cases hs
  rename_i post event
  split at hs
  · rename_i timely
    exact ⟨post, event, rfl, timely, (some.inj hs).symm⟩
  · cases hs

theorem revision_le_of_onTime (ht : feed.onTime event.atMs = true) : feed.revision ≤ event.revision := by
  unfold onTime at ht
  unfold revision
  cases last : feed.events.getLast? with
  | none => exact Nat.zero_le _
  | some =>
    rw [last] at ht
    exact msToRevision_mono (of_decide_eq_true ht)

theorem Holds.emit {hand : Hand} (hp : feed.Holds hand) (eq : post.id = feed.post.id)
    (author : post.profileId = feed.post.profileId)
    (hs : feed.post.status = .deleted → post.status = .deleted) :
    Holds { feed with post, events := feed.events ++ [event] } hand := by
  obtain ⟨within, announced, at_, what⟩ := hp
  refine ⟨within, announced, ?_, ?_⟩
  · have hi : hand.offset < feed.events.length := (List.getElem?_eq_some_iff.mp at_).1
    rw [List.getElem?_append_left hi]
    exact at_
  cases what with
  | inl gone => exact .inl ⟨by rw [eq]; exact gone.1, hs gone.2⟩
  | inr content =>
    obtain ⟨snap, read, kept, kept', rest⟩ := content
    exact .inr ⟨snap, read, kept.trans eq.symm, kept'.trans author.symm, rest⟩

@[simp] theorem revision_emit :
    Feed.revision { feed with post, events := feed.events ++ [event] } = event.revision := by
  simp [revision]

theorem Current.emit {revision : Nat} (hc : feed.Current revision caption)
    (ht : feed.onTime event.atMs = true) (fits : post.caption = feed.post.caption ∨ revision ≠ event.revision) :
    Current { feed with post, events := feed.events ++ [event] } revision caption := by
  have hl := revision_le_of_onTime ht
  have bound := hc.1
  constructor
  · rw [revision_emit]
    exact Nat.le_trans bound hl
  rw [revision_emit]
  intro eq
  cases fits with
  | inl unchanged =>
    rw [unchanged]
    exact hc.2 (by omega)
  | inr apart => exact absurd eq apart

theorem Kept.emit (kept : feed.Kept name content) (eq : post.id = feed.post.id)
    (author : post.profileId = feed.post.profileId) (ha : event.postId = feed.post.id)
    (hf : feed.post.status = .deleted → post.status = .deleted)
    (live : post.status ≠ .deleted → Live { feed with post, events := feed.events ++ [event] } content)
    (gone : post.status = .deleted → Gone { feed with post, events := feed.events ++ [event] } content) :
    Kept name { feed with post, events := feed.events ++ [event] } content := by
  refine ⟨kept.serves, ?_, ?_, ?_, fun hand h => (kept.holds hand h).emit eq author hf, live, gone⟩
  · rw [eq]
    exact kept.stores
  · intro other hi
    rw [eq]
    rcases List.mem_append.mp hi with hb | new
    · exact kept.named other hb
    · rw [List.mem_singleton.mp new]
      exact ha
  · have within := kept.within
    simp only [List.length_append]
    omega

theorem Kept.emitContent (kept : feed.Kept name content) (ha : feed.post.status ≠ .deleted)
    (alive' : post.status ≠ .deleted) (eq : post.id = feed.post.id) (author : post.profileId = feed.post.profileId)
    (han : event.postId = feed.post.id) (his : event.isContent = true)
    (ht : feed.onTime event.atMs = true)
    (fits : post.caption = feed.post.caption ∨ feed.hasRead event.revision = false) :
    Kept name { feed with post, events := feed.events ++ [event] } content := by
  have live := kept.live ha
  refine kept.emit eq author han (fun gone => absurd gone ha) (fun _ => ?_) fun gone => absurd gone alive'
  constructor
  · intro other hi
    rw [revision_emit]
    rcases List.mem_append.mp hi with hb | new
    · obtain ⟨contentful, bound⟩ := live.events other hb
      exact ⟨contentful, Nat.le_trans bound (revision_le_of_onTime ht)⟩
    · rw [List.mem_singleton.mp new]
      exact ⟨his, Nat.le_refl _⟩
  · intro stamp h
    apply (live.stored stamp h).emit ht
    apply fits.imp_right
    intro unread eq
    obtain ⟨_, stored, ver⟩ := kept.stores.version h
    simp [hasRead, stored, ver, eq] at unread
  · intro hand snap h read
    apply (live.read hand snap h read).emit ht
    apply fits.imp_right
    intro unread eq
    obtain ⟨offset, _, _⟩ := hand
    cases read
    simp [hasRead, show feed.hand = _ from h, eq] at unread
  · intro offset below other at_
    have hi : offset < feed.events.length := Nat.lt_of_lt_of_le below kept.within
    rw [List.getElem?_append_left hi] at at_
    exact live.handled offset below other at_

theorem Kept.emitDeletion (kept : feed.Kept name content) (gone : post.status = .deleted)
    (eq : post.id = feed.post.id) (author : post.profileId = feed.post.profileId)
    (ha : event.postId = feed.post.id) (hd : event.isContent = false) :
    Kept name { feed with post, events := feed.events ++ [event] } content := by
  refine kept.emit eq author ha (fun _ => gone) (fun alive => absurd gone alive) fun _ => ?_
  constructor
  · exact ⟨event, by simp, hd⟩
  · intro all
    have within := kept.within
    simp only [List.length_append, List.length_singleton] at all
    omega

end

section

variable {feed : Feed}

theorem take_eq_some (hs : feed.take unicode offset now = some next) :
    offset ≤ feed.handled ∧ ∃ event taken, feed.events[offset]? = some event ∧
      feed.read unicode event now = some (.ok taken) ∧ next = { feed with hand := some ⟨offset, taken, now⟩ } := by
  unfold take at hs
  split at hs
  · rename_i free
    split at hs
    · cases hs
    rename_i event at_
    split at hs
    · rename_i taken read
      exact ⟨free.2, event, taken, at_, read, (some.inj hs).symm⟩
    · cases hs
  · cases hs

theorem read_ok (read : feed.read unicode event now = some (.ok taken)) (mine : event.postId = feed.post.id) :
    (taken = .post (.deleted feed.post.id) ∧ (event.isContent = true → feed.post.status = .deleted)) ∨
      (feed.post.status ≠ .deleted ∧ event.isContent = true ∧ ∃ snap, taken = .post (.published snap) ∧
        snap.postId = feed.post.id ∧ snap.authorId = feed.post.profileId ∧
        snap.revision = event.revision ∧ snap.caption = feed.post.caption) := by
  have hydrated : ∀ ref : ContentRef, ref.id = feed.post.id → hydratePost unicode ref feed.post.get now = .ok taken →
      (taken = .post (.deleted feed.post.id) ∧ feed.post.status = .deleted) ∨
        (feed.post.status ≠ .deleted ∧ ∃ snap, taken = .post (.published snap) ∧
          snap.postId = feed.post.id ∧ snap.authorId = feed.post.profileId ∧
          snap.revision = ref.revision ∧ snap.caption = feed.post.caption) := by
    intro ref hn done
    by_cases gone : feed.post.status = .deleted
    · simp only [Post.get, gone, if_true, hydratePost, hydrationFailed, Except.ok.injEq, hn] at done
      exact .inl ⟨done.symm, gone⟩
    · simp only [Post.get, gone, if_false, hydratePost, Except.ok.injEq] at done
      exact .inr ⟨gone, _, done.symm, rfl, rfl, rfl, rfl⟩
  cases event with
  | postPublished id author ms | postUpdated id author ms =>
    rcases hydrated _ mine (some.inj read) with ⟨eq, gone⟩ | ⟨alive, snap, rest⟩
    · exact .inl ⟨eq, fun _ => gone⟩
    · exact .inr ⟨alive, rfl, snap, rest⟩
  | postDeleted id =>
    have eq : SourceEvent.post (.deleted id) = taken := Except.ok.inj (some.inj read)
    subst eq
    exact .inl ⟨congrArg (fun id => SourceEvent.post (.deleted id)) mine, nofun⟩

section

variable (kept : feed.Kept name content)

include kept

theorem Kept.take (hs : feed.take unicode offset now = some next) : next.Kept name content := by
  obtain ⟨within, event, _, at_, read, rfl⟩ := take_eq_some hs
  have hi : event ∈ feed.events := List.mem_of_getElem? at_
  have brought := read_ok read (kept.named event hi)
  constructor
  · exact kept.serves
  · exact kept.stores
  · exact kept.named
  · exact kept.within
  · intro hand h
    cases h
    refine ⟨within, event, at_, ?_⟩
    rcases brought with ⟨eq, gone⟩ | ⟨-, isContent, snap, eq, id, author, revision, -⟩
    · refine .inl ⟨eq, ?_⟩
      by_contra alive
      exact alive (gone ((kept.live alive).events event hi).1)
    · exact .inr ⟨snap, eq, id, author, isContent, revision⟩
  · intro alive
    have live := kept.live alive
    constructor
    · exact live.events
    · exact live.stored
    · intro hand snap h eq
      cases h
      subst eq
      rcases brought with ⟨other, -⟩ | ⟨-, -, other, read, -, -, revision, caption⟩
      · cases other
      · cases read
        have bound := (live.events event hi).2
        rw [← revision] at bound
        exact ⟨bound, fun _ => by rw [caption]⟩
    · exact live.handled
  · intro gone
    have hb := kept.gone gone
    refine ⟨hb.last, ?_⟩
    intro all
    refine ⟨(hb.done all).1, ?_⟩
    intro hand h
    cases h
    rcases brought with ⟨eq, -⟩ | ⟨alive, -⟩
    · exact eq
    · exact absurd gone alive

theorem Kept.crash : Kept name { feed with hand := none } content where
  serves := kept.serves
  stores := kept.stores
  named := kept.named
  within := kept.within
  holds := nofun
  live alive := ⟨(kept.live alive).events, (kept.live alive).stored, nofun, (kept.live alive).handled⟩
  gone gone := ⟨(kept.gone gone).last, fun all => ⟨((kept.gone gone).done all).1, nofun⟩⟩

theorem Kept.applyDeleted {hand : Hand} (h : feed.hand = some hand)
    (deleted : hand.event = .post (.deleted feed.post.id)) (gone : feed.post.status = .deleted)
    (hs : feed.apply = some next) : next.Kept name none := by
  obtain ⟨-, _, at_, -⟩ := kept.holds hand h
  have hi := (List.getElem?_eq_some_iff.mp at_).1
  have within := kept.within
  obtain ⟨_, applied, serves, stores⟩ := OpenSearch.applyEvent_deleted kept.serves feed.post.named hand.now
  simp only [Feed.apply, h, deleted, applied, some.injEq] at hs
  subst hs
  refine ⟨serves, stores, kept.named, ?_, nofun, fun alive => absurd gone alive, fun _ => ?_⟩
  · exact Nat.max_le.mpr ⟨within, hi⟩
  · exact ⟨(kept.gone gone).last, fun _ => ⟨rfl, nofun⟩⟩

theorem Kept.applyPublished {hand : Hand} (h : feed.hand = some hand)
    (at_ : feed.events[hand.offset]? = some event) (hp : hand.event = .post (.published snap))
    (id : snap.postId = feed.post.id) (author : snap.authorId = feed.post.profileId)
    (his : event.isContent = true) (hr : snap.revision = event.revision)
    (hs : feed.apply = some next) : ∃ content, next.Kept name content := by
  have hi := (List.getElem?_eq_some_iff.mp at_).1
  have within := kept.within
  have ht := (kept.holds hand h).1
  obtain ⟨after, out, doc, applied, serves, stores, caption⟩ :=
    OpenSearch.applyEvent_published kept.serves kept.stores id feed.post.named (author ▸ feed.post.authored) hand.now
  simp only [Feed.apply, h, hp, applied, some.injEq] at hs
  subst hs
  refine ⟨_, serves, stores, kept.named, Nat.max_le.mpr ⟨within, hi⟩, nofun, ?_, ?_⟩
  · intro alive
    have live := kept.live alive
    constructor
    · exact live.events
    · intro stamp settled
      rcases (Stamped.offer_newest settled).1 with hb | new
      · exact live.stored stamp hb
      · have current := live.read hand snap h hp
        rw [← caption] at current
        rw [new]
        exact current
    · nofun
    · intro offset below other at_other
      obtain ⟨stamp, settled⟩ := isSome_iff_exists.mp (Stamped.offer_isSome content ⟨snap.revision, .post doc⟩)
      obtain ⟨-, newer, above⟩ := Stamped.offer_newest settled
      refine ⟨stamp, settled, ?_⟩
      by_cases early : offset < feed.handled
      · obtain ⟨old, was, bound⟩ := live.handled offset early other at_other
        exact Nat.le_trans bound (above old was)
      have here : offset = hand.offset := by
        have below : offset < max feed.handled (hand.offset + 1) := below
        omega
      rw [here, show feed.events[hand.offset]? = _ from at_] at at_other
      cases at_other
      rw [← hr]
      exact newer
  · intro gone
    have hb := kept.gone gone
    obtain ⟨last, ends, deletion⟩ := hb.last
    refine ⟨hb.last, fun all => ?_⟩
    -- the last event is the deletion, and content in hand belongs to an earlier one
    have all : max feed.handled (hand.offset + 1) = feed.events.length := all
    by_cases done : feed.handled = feed.events.length
    · have other := (hb.done done).2 hand h
      rw [hp] at other
      cases other
    have ending : hand.offset = feed.events.length - 1 := by omega
    rw [List.getLast?_eq_getElem?, ← ending, at_] at ends
    cases ends
    rw [his] at deletion
    cases deletion

theorem Kept.apply (hs : feed.apply = some next) : ∃ content, next.Kept name content := by
  cases h : feed.hand with
  | none =>
    simp only [Feed.apply, h] at hs
    cases hs
  | some hand =>
    obtain ⟨-, _, at_, what⟩ := kept.holds hand h
    rcases what with ⟨deleted, gone⟩ | ⟨snap, hp, id, author, isContent, revision⟩
    · exact ⟨none, kept.applyDeleted h deleted gone hs⟩
    · exact kept.applyPublished h at_ hp id author isContent revision hs

end
end

variable {unicode : Unicode} {name : String} {feed next : Feed}

theorem kept_step (kept : ∃ content, feed.Kept name content) (ht : feed.timely turn = true)
    (hs : feed.step unicode turn = some next) : ∃ content, next.Kept name content := by
  obtain ⟨content, kept⟩ := kept
  cases turn with
  | publish _ =>
    obtain ⟨post, event, hw, onTime, rfl⟩ := emit_eq_some hs
    unfold Post.publish at hw
    split at hw
    · cases hw
    · cases hw
    · rename_i draft
      cases hw
      have alive : feed.post.status ≠ .deleted := by rw [draft]; decide
      exact ⟨content, kept.emitContent alive nofun rfl rfl rfl rfl onTime (.inl rfl)⟩
  | update _ _ =>
    obtain ⟨post, event, hw, onTime, rfl⟩ := emit_eq_some hs
    unfold Post.update at hw
    split at hw
    · cases hw
    · rename_i alive
      cases hw
      refine ⟨content, kept.emitContent alive alive rfl rfl rfl rfl onTime ?_⟩
      simpa [Feed.timely, PostWireEvent.revision, PostWireEvent.atMs] using ht
  | delete =>
    obtain ⟨_, _, hw, _, rfl⟩ := emit_eq_some hs
    unfold Post.delete at hw
    split at hw
    · cases hw
    · cases hw
      exact ⟨content, kept.emitDeletion rfl rfl rfl rfl rfl⟩
  | take => exact ⟨content, kept.take hs⟩
  | apply => exact kept.apply hs
  | crash =>
    cases hs
    exact ⟨content, kept.crash⟩

theorem Kept.converged (kept : feed.Kept name content) (hc : feed.caughtUp = true) :
    ((feed.engine.document .post feed.post.id).isSome ↔ feed.post.status ≠ .deleted) ∧
      ∀ source, feed.engine.document .post feed.post.id = some source →
        source "caption" = some (.text feed.post.caption) := by
  simp only [Feed.caughtUp, Bool.and_eq_true, beq_iff_eq, List.any_eq_true] at hc
  obtain ⟨⟨⟨_, hi, -⟩, -⟩, all⟩ := hc
  rw [kept.stores.document_isSome]
  by_cases gone : feed.post.status = .deleted
  · have none_ := ((kept.gone gone).done all).1
    subst none_
    refine ⟨⟨nofun, fun alive => absurd gone alive⟩, fun source stored => ?_⟩
    rw [kept.stores.absent rfl] at stored
    cases stored
  have live := kept.live gone
  have nonempty : feed.events ≠ [] := List.ne_nil_of_mem hi
  have length := List.length_pos_iff.mpr nonempty
  obtain ⟨last, ends⟩ := ne_none_iff_exists'.mp (mt List.getLast?_eq_none_iff.mp nonempty)
  have at_ : feed.events[feed.events.length - 1]? = some last := by
    rw [← List.getLast?_eq_getElem?]
    exact ends
  obtain ⟨stamp, h, _⟩ := live.handled (feed.events.length - 1) (by omega) last at_
  have latest : feed.revision = last.revision := by simp [Feed.revision, ends]
  obtain ⟨_, caption⟩ := live.stored stamp h
  refine ⟨⟨fun _ => gone, fun _ => by rw [h]; rfl⟩, fun source stored => ?_⟩
  rw [kept.stores.field h stored (by decide)]
  exact caption (by omega)

/-- Once a published post is caught up with, its document is in the index exactly if the post is
there, and has its caption, provided that no update changes a caption read under the update's own
revision. -/
theorem timely_updates_converge (unicode : Unicode) (name : String) (start feed : Feed) (turns : List Turn)
    (begins : (machine unicode name).init start)
    (timely : (machine unicode name).Meets (fun feed turn => feed.timely turn = true) start turns)
    (ran : (machine unicode name).run start turns = some feed) (caughtUp : feed.caughtUp = true) :
    ((feed.engine.document .post feed.post.id).isSome ↔ feed.post.status ≠ .deleted) ∧
      ∀ source, feed.engine.document .post feed.post.id = some source →
        source "caption" = some (.text feed.post.caption) := by
  have keeps : ∀ (s : Feed) (turn : Turn) (next : Feed), (∃ content, s.Kept name content) → s.timely turn = true →
      (machine unicode name).step s turn = some next → ∃ content, next.Kept name content :=
    fun s turn next kept fits stepped => kept_step kept fits stepped
  obtain ⟨_, kept⟩ := Machine.run_keeps keeps ⟨none, kept_of_begins begins⟩ timely ran
  exact kept.converged caughtUp

namespace Sample

def draft : Post := ⟨"post-2", "profile-2", .draft, "first", 0, by decide, by decide⟩

def start : Feed := ⟨draft, [], 0, none, Search.Sample.engine⟩

def ascii : Unicode := ⟨Char.isAlphanum, List.map Char.toLower⟩

theorem begins : (machine ascii "search-posts-v1").init start := ⟨rfl, rfl, rfl, rfl, ⟨rfl, rfl, rfl⟩, rfl⟩

/-- A publication and an update, with events taken again and a crash on the way. -/
def edited (ms : Int) : List Turn :=
  [.publish 5, .take 0 0, .apply, .update "second" ms, .take 0 0, .crash, .take 1 0, .apply, .take 1 0, .apply]

theorem edited_later_converges : ∃ feed, (machine ascii "search-posts-v1").run start (edited 6) = some feed ∧
    feed.caughtUp = true ∧ ∀ source, feed.engine.document .post "post-2" = some source →
      source "caption" = some (.text "second") := by
  obtain ⟨feed, ran, caughtUp, id, caption⟩ : ∃ feed, (machine ascii "search-posts-v1").run start (edited 6) =
      some feed ∧ feed.caughtUp = true ∧ feed.post.id = "post-2" ∧ feed.post.caption = "second" := by decide +kernel
  have timely : (machine ascii "search-posts-v1").Meets (fun feed turn => feed.timely turn = true) start
      (edited 6) := by
    decide +kernel
  have converged := (timely_updates_converge ascii "search-posts-v1" start feed (edited 6) begins timely ran caughtUp).2
  rw [id, caption] at converged
  exact ⟨feed, ran, caughtUp, converged⟩

/-- An update in the millisecond of the publication is turned away as stale. -/
theorem edited_at_once_stays_stale :
    ∃ feed, (machine ascii "search-posts-v1").run start (edited 5) = some feed ∧ feed.caughtUp = true ∧
      feed.post.caption = "second" ∧ ∃ source, feed.engine.document .post "post-2" = some source ∧
        source "caption" = some (.text "first") := by
  decide +kernel

end Sample
end Feed
end CorePlatform.Search
