import CorePlatform.Auth.Values

/-! # Conversations, participants and messages

A conversation is private or public. When it is published, a message id is minted as its
watermark, and the audience may read messages from that id on. Message ids are version 7 UUIDs:
the millisecond in front, so that the order of the bytes is the order of time.
-/

namespace CorePlatform.Chat

open Theory

abbrev ConversationId := Auth.Uuid
abbrev ProfileId := Auth.Uuid
abbrev MessageId := Auth.Uuid

inductive ChatError where
  | scylla (reason : String)
  | redis (reason : String)
  | conversationNotFound (conversationId : ConversationId)
  | conversationAlreadyPublic (conversationId : ConversationId)
  | conversationAlreadyPrivate (conversationId : ConversationId)
  | notAuthorized (profileId : ProfileId) (conversationId : ConversationId)
  | memberLimitExceeded (conversationId : ConversationId) (limit : Nat)
  | alreadyMember (profileId : ProfileId) (conversationId : ConversationId)
  | notAMember (profileId : ProfileId) (conversationId : ConversationId)
  | emptyMessage
  | messageTooLong (max got : Nat)
  | mediaReferenceMissing
  | invalidParticipantRole (role : String)
  | invalidPageToken (token : String)
  | eventPublishFailed (message : String)
  deriving DecidableEq

/-- A place in a history: the time and the id of a message. -/
abbrev Cursor := Int × MessageId

/-- The random bits of a version 7 UUID. -/
structure Entropy where
  a : BitVec 12
  b : BitVec 62
  deriving DecidableEq

/-- `Uuid::now_v7` at a millisecond. -/
def nowV7 (ms : Int) (entropy : Entropy) : Auth.Uuid :=
  BitVec.ofInt 48 ms ++ 7#4 ++ entropy.a ++ 2#2 ++ entropy.b

/-- A clock reading and random bits from which an id was made. -/
structure Minting where
  ms : Int
  entropy : Entropy

namespace Minting

def id (minting : Minting) : MessageId := nowV7 minting.ms minting.entropy

/-- In the order of the readings, and of the random bits within one millisecond. -/
def before (a b : Minting) : Bool :=
  decide (a.ms < b.ms) || decide (a.ms = b.ms) && (decide (a.entropy.a < b.entropy.a) ||
    decide (a.entropy.a = b.entropy.a) && decide (a.entropy.b < b.entropy.b))

end Minting

/-- How identifiers and numbers are read and written, and what counts as white space. -/
structure Formats where
  isWhitespace : Char → Bool
  parseUuid : String → Option Auth.Uuid
  hyphenated : Auth.Uuid → String
  parseI64 : String → Option Int
  /-- The time in a UUID of another version than 7, if it has one. -/
  gregorianMs : Auth.Uuid → Option Int
  parseUuid_hyphenated : ∀ id, parseUuid (hyphenated id) = some id
  parseI64_toString : ∀ n : Int, -2 ^ 63 ≤ n → n < 2 ^ 63 → parseI64 (toString n) = some n

namespace Formats

variable (formats : Formats)

def timestampMs (id : MessageId) : Option Int :=
  if id.extractLsb' 76 4 = 7#4 then some (id.extractLsb' 80 48).toNat else formats.gregorianMs id

def decodeCursor (token : String) : Except ChatError Cursor :=
  match splitOnce '_' token with
  | none => .error (.invalidPageToken token)
  | some (tsStr, idStr) =>
    match formats.parseI64 tsStr, formats.parseUuid idStr with
    | some ts, some id => .ok (ts, id)
    | _, _ => .error (.invalidPageToken token)

def encodeCursor (cursor : Cursor) : String := toString cursor.1 ++ "_" ++ formats.hyphenated cursor.2

end Formats

inductive Visibility where
  | private_
  | public_
  deriving DecidableEq

def Visibility.isPublic : Visibility → Bool
  | .public_ => true
  | .private_ => false

inductive Role where
  | owner
  | admin
  | member
  | subscriber
  | guest
  deriving DecidableEq

namespace Role

def asStr : Role → String
  | owner => "owner"
  | admin => "admin"
  | member => "member"
  | subscriber => "subscriber"
  | guest => "guest"

def isMemberPlane : Role → Bool
  | owner | admin | member => true
  | subscriber | guest => false

def canAdminister : Role → Bool
  | owner | admin => true
  | member | subscriber | guest => false

def canWrite (role : Role) : Bool := role.isMemberPlane

end Role

inductive ConversationKind where
  | group
  | channel
  deriving DecidableEq

def ConversationKind.maxMembers : ConversationKind → Nat
  | .group => 500
  | .channel => 200

inductive DomainEvent where
  | conversationPublished (conversationId : ConversationId) (publicSince : MessageId) (publishedAtMs : Int)
  | conversationUnpublished (conversationId : ConversationId) (unpublishedAtMs : Int)
  | memberJoined (conversationId : ConversationId) (profileId : ProfileId) (role : Role) (joinedAtMs : Int)
  deriving DecidableEq

structure Conversation where
  id : ConversationId
  kind : ConversationKind
  visibility : Visibility
  ownerId : ProfileId
  memberCount : Nat
  publicSince : Option MessageId
  createdAt : Int
  updatedAt : Int
  pendingEvents : List DomainEvent
  deriving DecidableEq

namespace Conversation

variable (c : Conversation)

def maxMembers : Nat := c.kind.maxMembers

def publish (now : Int) (watermark : MessageId) : Except ChatError Conversation :=
  if c.visibility.isPublic then .error (.conversationAlreadyPublic c.id)
  else .ok { c with
    visibility := .public_
    publicSince := some watermark
    updatedAt := now
    pendingEvents := c.pendingEvents ++ [.conversationPublished c.id watermark now] }

def unpublish (now : Int) : Except ChatError Conversation :=
  if c.visibility.isPublic then .ok { c with
    visibility := .private_
    publicSince := none
    updatedAt := now
    pendingEvents := c.pendingEvents ++ [.conversationUnpublished c.id now] }
  else .error (.conversationAlreadyPrivate c.id)

def admitMember (profileId : ProfileId) (role : Role) (now : Int) : Except ChatError Conversation :=
  if !role.isMemberPlane then .error (.invalidParticipantRole role.asStr)
  else if c.maxMembers ≤ c.memberCount then .error (.memberLimitExceeded c.id c.maxMembers)
  else .ok { c with
    memberCount := c.memberCount + 1
    updatedAt := now
    pendingEvents := c.pendingEvents ++ [.memberJoined c.id profileId role now] }

/-- Message ids are ordered by their bytes. -/
def isVisibleToAudience (messageId : MessageId) : Bool :=
  match c.publicSince with
  | some watermark => decide (watermark ≤ messageId)
  | none => false

end Conversation

structure Participant where
  profileId : ProfileId
  role : Role
  joinedAt : Int
  lastRead : Option MessageId
  deriving DecidableEq

namespace Participant

def new (profileId : ProfileId) (role : Role) (now : Int) : Except ChatError Participant :=
  if role.isMemberPlane then .ok ⟨profileId, role, now, none⟩
  else .error (.invalidParticipantRole role.asStr)

def canAdminister (p : Participant) : Bool := p.role.canAdminister

def canWrite (p : Participant) : Bool := p.role.canWrite

end Participant

inductive ContentType where
  | text
  | media
  | system
  deriving DecidableEq

structure Message where
  id : MessageId
  conversationId : ConversationId
  senderId : ProfileId
  contentType : ContentType
  content : String
  mediaRef : Option String
  replyTo : Option MessageId
  createdAt : Int
  deriving DecidableEq

namespace Message

def maxChars : Nat := 4096

/-- What the sender wrote, apart from what the service adds. -/
structure Draft where
  conversationId : ConversationId
  senderId : ProfileId
  contentType : ContentType
  body : String
  mediaRef : Option String
  replyTo : Option MessageId
  deriving DecidableEq

def checkContent (formats : Formats) (draft : Draft) : Except ChatError Unit :=
  let blank (text : String) : Bool := text.toList.all formats.isWhitespace
  if maxChars < draft.body.length then .error (.messageTooLong maxChars draft.body.length)
  else match draft.contentType with
    | .text => if blank draft.body then .error .emptyMessage else .ok ()
    | .media => if (draft.mediaRef.map blank).getD true then .error .mediaReferenceMissing else .ok ()
    | .system => .ok ()

def create (formats : Formats) (id : MessageId) (draft : Draft) (now : Int) : Except ChatError Message := do
  checkContent formats draft
  return ⟨id, draft.conversationId, draft.senderId, draft.contentType, draft.body, draft.mediaRef, draft.replyTo, now⟩

end Message
end CorePlatform.Chat
