import CorePlatform.Theory.Interleaving
import CorePlatform.Chat.Stores

/-! # The handlers of the chat service

A command on a conversation finds its row, decides on that copy and writes it back. A message gets
its id when the request comes in and its time when it is built, after the roster lookup. A page of
history is read partition by partition, from the cursor's time backwards. -/

namespace CorePlatform.Chat

open Theory

abbrev Calling (α : Type) := Program Op Op.Reply ChatError α

abbrev ask (op : Op) : Calling op.Reply := Program.perform op

def loadConversation (id : ConversationId) : Calling Conversation := do
  match ← ask (.findConversation id) with
  | some conversation => return conversation
  | none => .error (.conversationNotFound id)

def publishAll : List DomainEvent → Calling Unit
  | [] => .ok ()
  | event :: rest => do
      ask (.publishConversation event)
      publishAll rest

def joinAsMember (conversationId : ConversationId) (profileId : ProfileId) : Calling Unit := do
  let conversation ← loadConversation conversationId
  match ← ask (.findMember conversationId profileId) with
  | some _ => .error (.alreadyMember profileId conversationId)
  | none => do
      let now ← ask .now
      let conversation ← conversation.admitMember profileId .member now
      let joinedAt ← ask .now
      let participant ← Participant.new profileId .member joinedAt
      ask (.insertMember conversationId participant)
      ask (.updateConversation conversation)
      publishAll conversation.pendingEvents

/-- The change of a toggle, with the clock readings that it takes. -/
def toggle (conversation : Conversation) (makePublic : Bool) (entropy : Entropy) : Calling Conversation := do
  let now ← ask .now
  if makePublic then do
    let watermark ← ask (.mint entropy)
    conversation.publish now watermark
  else conversation.unpublish now

def toggleVisibility (conversationId : ConversationId) (actorId : ProfileId) (makePublic : Bool) (entropy : Entropy) :
    Calling Unit := do
  let conversation ← loadConversation conversationId
  match ← ask (.findMember conversationId actorId) with
  | none => .error (.notAMember actorId conversationId)
  | some actor =>
    if actor.canAdminister then do
      let conversation ← toggle conversation makePublic entropy
      ask (.updateConversation conversation)
      publishAll conversation.pendingEvents
    else .error (.notAuthorized actorId conversationId)

section

variable (formats : Formats)

def sendMessage (draft : Message.Draft) (entropy : Entropy) : Calling Unit := do
  let messageId ← ask (.mint entropy)
  match ← ask (.findMember draft.conversationId draft.senderId) with
  | none => .error (.notAMember draft.senderId draft.conversationId)
  | some member =>
    if member.canWrite then do
      let now ← ask .now
      let message ← Message.create formats messageId draft now
      ask (.insertMessage message)
      ask (.publishMessage message)
    else .error (.notAuthorized draft.senderId draft.conversationId)

structure GetHistoryQuery where
  conversationId : ConversationId
  requesterId : ProfileId
  limit : Int
  pageToken : Option String
  deriving DecidableEq

structure MessagePage where
  messages : List MessageRow
  nextPageToken : Option String
  deriving DecidableEq

section

variable (conversationId : ConversationId) (target : Nat) (cursor : Option Cursor) (floorMs : Option Int)
  (minBucket : Int)

/-- The loop over the partitions; the number is how many may still be walked. -/
def walk : Nat → Int → Bool → List MessageRow → Calling (List MessageRow)
  | 0, _, _, out => .ok out
  | left + 1, bucket, first, out =>
    if out.length < target ∧ minBucket ≤ bucket then do
      let rows ← ask
        (.fetchBucket conversationId bucket (target - out.length) (if first then cursor else none) floorMs)
      walk left (bucket - 1) false (out ++ rows)
    else .ok out

end

def startMs : Option Cursor → Calling Int
  | some (ts, _) => .ok ts
  | none => ask .now

def listHistory (config : Config) (conversationId : ConversationId) (limit : Int) (cursor : Option Cursor)
    (floorMs : Option Int) : Calling (List MessageRow × Option Cursor) := do
  let target := (max limit 0).toNat
  if target = 0 then return ([], none)
  else do
    let startMs ← startMs cursor
    let bucket := messageBucket startMs config.bucketHours
    let minBucket := (floorMs.map fun ms => messageBucket ms config.bucketHours).getD (bucket - maxBucketWalk)
    let out ← walk conversationId target cursor floorMs minBucket maxBucketWalk bucket true []
    return (out, if out.length = target then out.getLast?.map MessageRow.key else none)

def readPage (config : Config) (q : GetHistoryQuery) (cursor : Option Cursor) (floorMs : Option Int) :
    Calling MessagePage := do
  let limit := max (min q.limit config.maxPageSize) 1
  let (messages, nextCursor) ← listHistory config q.conversationId limit cursor floorMs
  return ⟨messages, nextCursor.map formats.encodeCursor⟩

def decodeToken : Option String → Except ChatError (Option Cursor)
  | none => .ok none
  | some token => (formats.decodeCursor token).map some

def Conversation.floorMs (c : Conversation) : Option Int := c.publicSince.bind formats.timestampMs

def getHistory (config : Config) (q : GetHistoryQuery) : Calling MessagePage := do
  let cursor ← decodeToken formats q.pageToken
  let conversation ← loadConversation q.conversationId
  match ← ask (.findMember q.conversationId q.requesterId) with
  | some _ => readPage formats config q cursor none
  | none =>
    if conversation.visibility.isPublic then
      match conversation.floorMs formats with
      | some ms => readPage formats config q cursor (some ms)
      | none => return ⟨[], none⟩
    else .error (.notAuthorized q.requesterId q.conversationId)

end

inductive Request where
  | joinAsMember (conversationId : ConversationId) (profileId : ProfileId)
  | toggleVisibility (conversationId : ConversationId) (actorId : ProfileId) (makePublic : Bool) (entropy : Entropy)
  | sendMessage (draft : Message.Draft) (entropy : Entropy)
  | getHistory (query : GetHistoryQuery)
  deriving DecidableEq

inductive Outcome where
  | done
  | page (page : MessagePage)
  deriving DecidableEq

def completed (program : Calling Unit) : Calling Outcome := do
  program
  return .done

def Request.program (formats : Formats) (config : Config) : Request → Calling Outcome
  | .joinAsMember conversationId profileId => completed (Chat.joinAsMember conversationId profileId)
  | .toggleVisibility conversationId actorId makePublic entropy =>
    completed (Chat.toggleVisibility conversationId actorId makePublic entropy)
  | .sendMessage draft entropy => completed (Chat.sendMessage formats draft entropy)
  | .getHistory query => do
      let page ← Chat.getHistory formats config query
      return .page page

/-- The clock comes to show another time. -/
inductive Event where
  | tick (clock : Int)

def World.elapse (w : World) : Event → Option World
  | .tick clock => some { w with clock }

def host (formats : Formats) (config : Config) (init : World → Prop) :
    Host World Request Event Op Op.Reply ChatError Outcome where
  init
  server := server config
  accept w request := some (w, request.program formats config)
  elapse := World.elapse

abbrev Traffic := Pool World Request Op Op.Reply ChatError Outcome

namespace Sample

def plain : Formats where
  isWhitespace c := c == ' '
  parseUuid text := some (BitVec.ofNat 128 (readNat text))
  hyphenated id := toString id.toNat
  parseI64 text := some (readInt text)
  gregorianMs _ := none
  parseUuid_hyphenated id := by
    rw [readNat_toString]
    simp
  parseI64_toString n _ _ := by rw [readInt_toString]

def group : Conversation := ⟨1, .group, .private_, 1, 2, none, 0, 0, []⟩

def settled : World where
  conversations id := if id = 1 then some group else none
  members id profile :=
    if id = 1 then
      if profile = 1 then some ⟨1, .owner, 0, none⟩ else if profile = 2 then some ⟨2, .member, 0, none⟩ else none
    else none
  messages _ := []
  clock := 1000
  published := []
  sent := []
  rows id := if id = 1 then [group] else []
  toggles _ := []
  minted := []

def start : Traffic := ⟨settled, fun _ => none⟩

end Sample
end CorePlatform.Chat
