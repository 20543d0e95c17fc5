import CorePlatform.Search.Index

/-! # From wire events to the index

The services announce their changes in thin events. A message is decoded to a change of the index,
to a reference whose content has yet to be read from its service, or to nothing. What was read is
projected and applied.

The revision of a document is the millisecond of the event, whenever its content was read. -/

namespace CorePlatform.Search

inductive PostWireEvent where
  | postPublished (postId profileId : String) (publishedAtMs : Int)
  | postUpdated (postId profileId : String) (updatedAtMs : Int)
  | postDeleted (postId profileId : String) (deletedAtMs : Int)

structure SubjectWire where
  entityType : String
  entityId : String

structure EnforcementWire where
  subject : SubjectWire
  action : Option String
  occurredAt : Int

inductive ModerationWireEvent where
  | enforcementApplied (event : EnforcementWire)
  | enforcementReversed (event : EnforcementWire)
  | other

structure ContentRef where
  kind : EntityKind
  id : String
  authorId : String
  revision : Nat

inductive Decoded where
  | ready (event : SourceEvent)
  | needsContent (ref : ContentRef)
  | ignore

def msToRevision (ms : Int) : Nat := if ms < 0 then 0 else ms.toNat

/-- An instant that the calendar does not have is read as the present one. -/
def msToDt (ms now : Int) : Int :=
  match Audit.DateTime.fromTimestampMillis ms with
  | some _ => ms * 1000000
  | none => now

theorem msToRevision_mono (ho : earlier ≤ later) : msToRevision earlier ≤ msToRevision later := by
  unfold msToRevision
  split <;> split <;> omega

def mapPost : PostWireEvent → Decoded
  | .postPublished postId profileId publishedAtMs =>
    .needsContent ⟨.post, postId, profileId, msToRevision publishedAtMs⟩
  | .postUpdated postId profileId updatedAtMs => .needsContent ⟨.post, postId, profileId, msToRevision updatedAtMs⟩
  | .postDeleted postId _ _ => .ready (.post (.deleted postId))

def mapEntity (entityType : String) : Option EntityKind :=
  if entityType = "Post" then some .post
  else if entityType = "Profile" then some .profile
  else none

def isContentAction (action : Option String) : Bool :=
  action == some "RemoveContent" || action == some "VisibilityLimit"

def mapModeration : ModerationWireEvent → Decoded
  | .enforcementApplied e =>
    if isContentAction e.action then
      .ready (.moderation (.visibilityRevoked ⟨mapEntity e.subject.entityType, e.subject.entityId, e.occurredAt⟩))
    else .ignore
  | .enforcementReversed e =>
    match mapEntity e.subject.entityType with
    | some kind => .ready (.moderation (.visibilityRestored ⟨some kind, e.subject.entityId, e.occurredAt⟩))
    | none => .ignore
  | .other => .ignore

/-- What the status of a failed read says. -/
inductive Code where
  | notFound
  | unavailable
  | deadlineExceeded
  | resourceExhausted
  | aborted
  | other
  deriving DecidableEq

structure Status where
  code : Code
  display : String

def isTransient : Code → Bool
  | .unavailable | .deadlineExceeded | .resourceExhausted | .aborted => true
  | .notFound | .other => false

/-- What the standard library knows of characters. -/
structure Unicode where
  isAlphanumeric : Char → Bool
  toLowercase : List Char → List Char

/-- The marked words of a caption, sorted and each of them once. -/
def extractHashtags (unicode : Unicode) (caption : String) : List String :=
  let words := caption.toList.splitOnP Audit.isWhitespace
  let marked := words.filterMap fun
    | '#' :: tag => some tag
    | _ => none
  let bare (tag : List Char) : List Char :=
    ((tag.dropWhile fun c => !unicode.isAlphanumeric c).reverse.dropWhile fun c => !unicode.isAlphanumeric c).reverse
  let tags := (marked.map fun tag => unicode.toLowercase (bare tag)).filter fun tag => !tag.isEmpty
  ((tags.map String.ofList).mergeSort fun a b => decide (a ≤ b)).eraseReps

structure PostView where
  postId : String
  profileId : String
  caption : String
  createdAtMs : Int

/-- The errors of a read: a missing entity is to be removed, a fault of the moment to be tried again. -/
def hydrationFailed (call : String) (deleted : SourceEvent) (status : Status) : Except SearchError SourceEvent :=
  if status.code = .notFound then .ok deleted
  else if isTransient status.code then .error .engineUnavailable
  else .error (.unmappedSource (call ++ " failed: " ++ status.display))

def hydratePost (unicode : Unicode) (ref : ContentRef) (reply : Except Status PostView) (now : Int) :
    Except SearchError SourceEvent :=
  match reply with
  | .error status => hydrationFailed "get_post" (.post (.deleted ref.id)) status
  | .ok view => .ok (.post (.published {
      postId := view.postId
      authorId := view.profileId
      authorHandle := ""
      hashtags := extractHashtags unicode view.caption
      caption := view.caption
      thumbnailKey := ""
      createdAt := msToDt view.createdAtMs now
      revision := ref.revision }))

/-- `ProjectionHandler::apply`. -/
def OpenSearch.applyEvent (engine : OpenSearch) (event : SourceEvent) (now : Int) :
    OpenSearch × Except SearchError ApplyOutcome :=
  match project event now with
  | .error e => (engine, .error e)
  | .ok mutation => engine.apply mutation

end CorePlatform.Search
