import CorePlatform.Auth.Values

/-! # Documents and their projection

What the search index holds is projected from events of the services that own the content. The
projector is pure: an event and the instant of indexing give one mutation. A document carries the
version of its content, a change of visibility the version of its authority's own.

Instants are nanoseconds. -/

namespace CorePlatform.Search

open Audit (isBlank)

inductive SearchError where
  | missingProjectionField (field : String)
  | engineUnavailable
  | indexNotFound (index : String)
  | reindexFailed (reason : String)
  | aliasSwapFailed (reason : String)
  | unmappedSource (reason : String)
  | invalidIdentifier (field : String)

inductive EntityKind where
  | profile
  | post
  | hashtag
  deriving DecidableEq

def EntityKind.asStr : EntityKind → String
  | profile => "profile"
  | post => "post"
  | hashtag => "hashtag"

abbrev DocVersion := Nat

def timestampMillis (instant : Int) : Int := instant / 1000000

def DocVersion.fromEventTime (occurredAt : Int) : DocVersion :=
  let millis := timestampMillis occurredAt
  if millis < 0 then 0 else millis.toNat

structure Searchable where
  isVisible : Bool
  deriving DecidableEq

namespace Searchable

def visible : Searchable := ⟨true⟩
def hidden : Searchable := ⟨false⟩

end Searchable

/-- Who may take a document out of the results. -/
inductive VisibilityAuthority where
  | moderation
  | owner
  deriving DecidableEq

namespace VisibilityAuthority

def flagField : VisibilityAuthority → String
  | moderation => "moderation_searchable"
  | owner => "owner_searchable"

def versionField : VisibilityAuthority → String
  | moderation => "moderation_visibility_version"
  | owner => "owner_visibility_version"

end VisibilityAuthority

abbrev AuthorId := { text : String // isBlank text = false }

def AuthorId.new (value : String) : Except SearchError AuthorId :=
  if named : isBlank value = false then .ok ⟨value, named⟩ else .error (.invalidIdentifier "author_id")

/-- A ranking signal; the projector knows zero only. -/
abbrev PopularityScore := Nat

structure ProfileDoc where
  profileId : String
  authorId : AuthorId
  handle : String
  displayName : String
  bio : String
  avatarKey : String
  verified : Bool
  searchable : Searchable
  popularity : PopularityScore
  createdAt : Int
  indexedAt : Int
  version : DocVersion
  deriving DecidableEq

structure PostDoc where
  postId : String
  authorId : AuthorId
  authorHandle : String
  caption : String
  hashtags : List String
  thumbnailKey : String
  searchable : Searchable
  popularity : PopularityScore
  createdAt : Int
  indexedAt : Int
  version : DocVersion
  deriving DecidableEq

structure HashtagDoc where
  tag : String
  postCount : Int
  searchable : Searchable
  popularity : PopularityScore
  indexedAt : Int
  version : DocVersion
  deriving DecidableEq

inductive IndexDocument where
  | profile (doc : ProfileDoc)
  | post (doc : PostDoc)
  | hashtag (doc : HashtagDoc)
  deriving DecidableEq

namespace IndexDocument

def kind : IndexDocument → EntityKind
  | profile _ => .profile
  | post _ => .post
  | hashtag _ => .hashtag

def id : IndexDocument → String
  | profile doc => doc.profileId
  | post doc => doc.postId
  | hashtag doc => doc.tag

def version : IndexDocument → DocVersion
  | profile doc => doc.version
  | post doc => doc.version
  | hashtag doc => doc.version

def searchable : IndexDocument → Searchable
  | profile doc => doc.searchable
  | post doc => doc.searchable
  | hashtag doc => doc.searchable

end IndexDocument

inductive SkipReason where
  | notIndexable

inductive IndexMutation where
  | upsert (document : IndexDocument)
  | setSearchable (authority : VisibilityAuthority) (kind : EntityKind) (id : String) (searchable : Searchable)
      (version : DocVersion)
  | delete (kind : EntityKind) (id : String)
  | purgeByAuthor (authorId : AuthorId)
  | skip (reason : SkipReason)

structure PostSnapshot where
  postId : String
  authorId : String
  authorHandle : String
  caption : String
  hashtags : List String
  thumbnailKey : String
  createdAt : Int
  revision : Nat
  deriving DecidableEq

structure ProfileSnapshot where
  profileId : String
  handle : String
  displayName : String
  bio : String
  avatarKey : String
  verified : Bool
  createdAt : Int
  revision : Nat
  deriving DecidableEq

structure HashtagSnapshot where
  tag : String
  postCount : Int
  revision : Nat
  deriving DecidableEq

inductive PostEvent where
  | published (snapshot : PostSnapshot)
  | updated (snapshot : PostSnapshot)
  | deleted (id : String)
  deriving DecidableEq

inductive ProfileEvent where
  | upserted (snapshot : ProfileSnapshot)
  | deleted (id : String)
  | ownerHidden (profileId : String) (occurredAt : Int)
  | ownerRestored (profileId : String) (occurredAt : Int)
  deriving DecidableEq

/-- A moderated entity, of no kind if it is not one that is indexed. -/
structure VisibilityChange where
  kind : Option EntityKind
  id : String
  occurredAt : Int
  deriving DecidableEq

inductive ModerationEvent where
  | visibilityRevoked (change : VisibilityChange)
  | visibilityRestored (change : VisibilityChange)
  deriving DecidableEq

inductive SourceEvent where
  | post (event : PostEvent)
  | profile (event : ProfileEvent)
  | hashtagObserved (snapshot : HashtagSnapshot)
  | moderation (event : ModerationEvent)
  | actorPurged (authorId : String)
  deriving DecidableEq

def nonEmpty (value field : String) : Except SearchError String :=
  if isBlank value then .error (.missingProjectionField field) else .ok value

def nonEmptyId (value : String) : Except SearchError String :=
  if isBlank value then .error (.invalidIdentifier "id") else .ok value

def postDoc (s : PostSnapshot) (now : Int) : Except SearchError PostDoc := do
  let postId ← nonEmpty s.postId "post_id"
  let authorId ← AuthorId.new s.authorId
  return {
    postId, authorId
    authorHandle := s.authorHandle
    caption := s.caption
    hashtags := s.hashtags
    thumbnailKey := s.thumbnailKey
    searchable := .visible
    popularity := 0
    createdAt := s.createdAt
    indexedAt := now
    version := s.revision }

def profileDoc (s : ProfileSnapshot) (now : Int) : Except SearchError ProfileDoc := do
  let profileId ← nonEmpty s.profileId "profile_id"
  -- a profile is its own author
  let authorId ← AuthorId.new profileId
  return {
    profileId, authorId
    handle := s.handle
    displayName := s.displayName
    bio := s.bio
    avatarKey := s.avatarKey
    verified := s.verified
    searchable := .visible
    popularity := 0
    createdAt := s.createdAt
    indexedAt := now
    version := s.revision }

def projectPost (event : PostEvent) (now : Int) : Except SearchError IndexMutation :=
  match event with
  | .published s | .updated s => do
      let doc ← postDoc s now
      return .upsert (.post doc)
  | .deleted id => do
      let id ← nonEmptyId id
      return .delete .post id

def ownerVisibility (profileId : String) (occurredAt : Int) (searchable : Searchable) :
    Except SearchError IndexMutation := do
  let id ← nonEmptyId profileId
  return .setSearchable .owner .profile id searchable (.fromEventTime occurredAt)

def projectProfile (event : ProfileEvent) (now : Int) : Except SearchError IndexMutation :=
  match event with
  | .upserted s => do
      let doc ← profileDoc s now
      return .upsert (.profile doc)
  | .deleted id => do
      let id ← nonEmptyId id
      return .delete .profile id
  | .ownerHidden profileId occurredAt => ownerVisibility profileId occurredAt .hidden
  | .ownerRestored profileId occurredAt => ownerVisibility profileId occurredAt .visible

def projectHashtag (s : HashtagSnapshot) (now : Int) : Except SearchError IndexMutation := do
  let tag ← nonEmpty s.tag "tag"
  return .upsert (.hashtag {
    tag
    postCount := s.postCount
    searchable := .visible
    popularity := 0
    indexedAt := now
    version := s.revision })

def visibility (change : VisibilityChange) (searchable : Searchable) : IndexMutation :=
  match change.kind with
  | some kind => .setSearchable .moderation kind change.id searchable (.fromEventTime change.occurredAt)
  | none => .skip .notIndexable

def projectModeration : ModerationEvent → IndexMutation
  | .visibilityRevoked change => visibility change .hidden
  | .visibilityRestored change => visibility change .visible

def project (event : SourceEvent) (now : Int) : Except SearchError IndexMutation :=
  match event with
  | .post event => projectPost event now
  | .profile event => projectProfile event now
  | .hashtagObserved snapshot => projectHashtag snapshot now
  | .moderation event => .ok (projectModeration event)
  | .actorPurged authorId => do
      let authorId ← AuthorId.new authorId
      return .purgeByAuthor authorId

end CorePlatform.Search
