import Mathlib.Data.List.Sort
import CorePlatform.Theory.Server
import CorePlatform.Chat.Values

/-! # The tables of the chat service and its clock

A conversation has one row, a roster of participants and a log of messages. An update of the row
writes its four mutable columns, whatever is stored by then. The log is spread over partitions by
time; within a partition the rows stand newest first.

Clock readings are calls, so that others can come in between two of them. -/

namespace CorePlatform.Chat

open Theory Function

structure MessageRow where
  createdAt : Int
  messageId : MessageId
  senderId : ProfileId
  contentType : ContentType
  body : String
  mediaRef : Option String
  replyTo : Option MessageId
  deriving DecidableEq

def MessageRow.key (row : MessageRow) : Cursor := (row.createdAt, row.messageId)

def Message.row (m : Message) : MessageRow :=
  ⟨m.createdAt, m.id, m.senderId, m.contentType, m.content, m.mediaRef, m.replyTo⟩

def maxBucketWalk : Nat := 90

/-- A number of the 64-bit arithmetic, cast to 32 bits. -/
def asI32 (n : Int) : Int := n.bmod (2 ^ 32)

def messageBucket (createdAtMs : Int) (bucketHours : Nat) : Int :=
  asI32 (max createdAtMs 0 / (max bucketHours 1 * 3600000 : Nat))

/-- `(created_at, message_id) < (?, ?)`. -/
def Cursor.before (a b : Cursor) : Bool := decide (a.1 < b.1) || decide (a.1 = b.1) && decide (a.2 < b.2)

/-- The clustering order of a partition: newest first, and among rows of one time by id, downwards or upwards. -/
inductive IdOrder where
  | descending
  | ascending

def IdOrder.clustered (order : IdOrder) (a b : MessageRow) : Bool :=
  match order with
  | .descending => !a.key.before b.key
  | .ascending =>
    decide (b.createdAt < a.createdAt) || decide (a.createdAt = b.createdAt) && decide (a.messageId ≤ b.messageId)

structure Config where
  maxPageSize : Int
  bucketHours : Nat
  idOrder : IdOrder

/-- `SELECT` from one partition. -/
def selectBucket (config : Config) (log : List MessageRow) (bucket : Int) (limit : Nat) (cursor : Option Cursor)
    (floorMs : Option Int) : List MessageRow :=
  let rows := log.filter fun row =>
    decide (messageBucket row.createdAt config.bucketHours = bucket) &&
      (cursor.all fun c => row.key.before c) && floorMs.all fun floor => decide (floor ≤ row.createdAt)
  (rows.insertionSort fun a b => config.idOrder.clustered a b = true).take limit

structure World where
  conversations : ConversationId → Option Conversation
  members : ConversationId → ProfileId → Option Participant
  messages : ConversationId → List MessageRow
  clock : Int
  published : List DomainEvent
  sent : List Message
  /-- No store keeps these three. The rows that a conversation has had, in order, -/
  rows : ConversationId → List Conversation
  /-- what the updates of toggle commands wrote, in order, -/
  toggles : ConversationId → List (Visibility × Option MessageId)
  /-- and how ids were minted. -/
  minted : List Minting

inductive Op where
  | now
  | mint (entropy : Entropy)
  | findConversation (id : ConversationId)
  | updateConversation (conversation : Conversation)
  | findMember (conversationId : ConversationId) (memberId : ProfileId)
  | insertMember (conversationId : ConversationId) (participant : Participant)
  | insertMessage (message : Message)
  | fetchBucket (conversationId : ConversationId) (bucket : Int) (limit : Nat) (cursor : Option Cursor)
      (floorMs : Option Int)
  | publishConversation (event : DomainEvent)
  | publishMessage (message : Message)
  deriving DecidableEq

abbrev Op.Reply : Op → Type
  | .now => Int
  | .mint _ => MessageId
  | .findConversation _ => Option Conversation
  | .findMember _ _ => Option Participant
  | .fetchBucket _ _ _ _ _ => List MessageRow
  | _ => Unit

instance : (op : Op) → DecidableEq op.Reply
  | .now => inferInstanceAs (DecidableEq Int)
  | .mint _ => inferInstanceAs (DecidableEq MessageId)
  | .findConversation _ => inferInstanceAs (DecidableEq (Option Conversation))
  | .findMember _ _ => inferInstanceAs (DecidableEq (Option Participant))
  | .fetchBucket _ _ _ _ _ => inferInstanceAs (DecidableEq (List MessageRow))
  | .updateConversation _ | .insertMember _ _ | .insertMessage _ | .publishConversation _ | .publishMessage _ =>
    inferInstanceAs (DecidableEq Unit)

/-- What was changed is the visibility. -/
def Conversation.isToggle (c : Conversation) : Bool :=
  c.pendingEvents.any fun event =>
    match event with
    | .conversationPublished _ _ _ | .conversationUnpublished _ _ => true
    | .memberJoined _ _ _ _ => false

/-- The four mutable columns are rewritten; a found row has no event pending. -/
def Conversation.overwrite (stored written : Conversation) : Conversation :=
  { stored with
    visibility := written.visibility
    publicSince := written.publicSince
    memberCount := written.memberCount
    updatedAt := written.updatedAt }

namespace World

variable (w : World)

def updateConversation (c : Conversation) : World :=
  match w.conversations c.id with
  | none => w
  | some stored =>
    { w with
      conversations := update w.conversations c.id (some (stored.overwrite c))
      rows := update w.rows c.id (w.rows c.id ++ [stored.overwrite c])
      toggles := update w.toggles c.id
        (w.toggles c.id ++ if c.isToggle then [(c.visibility, c.publicSince)] else []) }

def insertMember (conversationId : ConversationId) (p : Participant) : World :=
  { w with
    members := update w.members conversationId (update (w.members conversationId) p.profileId (some p)) }

def insertMessage (m : Message) : World :=
  { w with
    messages := update w.messages m.conversationId
      ((w.messages m.conversationId).filter (fun row => row.key ≠ m.row.key) ++ [m.row]) }

def serve (config : Config) : (op : Op) → World × Except ChatError op.Reply
  | .now => (w, .ok w.clock)
  | .mint entropy => ({ w with minted := ⟨w.clock, entropy⟩ :: w.minted }, .ok (nowV7 w.clock entropy))
  | .findConversation id => (w, .ok (w.conversations id))
  | .updateConversation c => (w.updateConversation c, .ok ())
  | .findMember conversationId memberId => (w, .ok (w.members conversationId memberId))
  | .insertMember conversationId p => (w.insertMember conversationId p, .ok ())
  | .insertMessage m => (w.insertMessage m, .ok ())
  | .fetchBucket conversationId bucket limit cursor floorMs =>
    (w, .ok (selectBucket config (w.messages conversationId) bucket limit cursor floorMs))
  | .publishConversation event => ({ w with published := w.published ++ [event] }, .ok ())
  | .publishMessage m => ({ w with sent := w.sent ++ [m] }, .ok ())

end World

def Op.failure (reason : String) : Op → ChatError
  | .publishConversation _ | .publishMessage _ => .eventPublishFailed reason
  | _ => .scylla reason

def server (config : Config) : Server World Op Op.Reply ChatError where
  serve w op := w.serve config op
  failure op reason := op.failure reason

end CorePlatform.Chat
