import CorePlatform.Theory.Interleaving
import CorePlatform.Theory.Join
import CorePlatform.Engagement.Stores

/-! # Commands, queries and workers of the engagement service

A reaction command runs one script and publishes what the script did. A recorded view or share
raises a counter and marks its post; a flush cycle takes the marked posts, sets their counters to
zero and adds what it found there to the durable totals.

The write-behind worker takes the published events in order. It commits its position when the ledger
is written, and after a restart goes back to an earlier one. -/

namespace CorePlatform.Engagement

open Theory

abbrev Calling (α : Type) := Program Op Op.Reply EngagementError α

abbrev ask (op : Op) : Calling op.Reply := Program.perform op

section

variable (formats : Formats)

/-- What the array that a script returned says. -/
def readReturned : Option (String × String) → Except EngagementError (Option (ReactionKind × Int))
  | none => .ok none
  | some (kind, weight) => do
      let kind ← ReactionKind.fromRedisKey kind
      match formats.readI64 weight with
      | some weight => .ok (some (kind, weight))
      | none => .error .scriptReturnInvalid

def atomicUpsertReaction (pair : Pair) (newKind : ReactionKind) (newWeight : Int) :
    Calling (Option (ReactionKind × Int)) := do
  let result ← ask (.upsertScript pair newKind.asRedisKey (toString newWeight))
  readReturned formats result

def atomicRemoveReaction (pair : Pair) : Calling (Option (ReactionKind × Int)) := do
  let result ← ask (.removeScript pair)
  readReturned formats result

def upsertReaction (weights : ReactionWeightsConfig) (pair : Pair) (kind now : Int) : Calling Unit := do
  let kind ← ReactionKind.fromProto kind
  let weight := weights.weightOf kind
  let oldReaction ← atomicUpsertReaction formats pair kind weight
  ask (.publish (.upserted (buildUpsertedEvent pair kind weight oldReaction now)))

def removeReaction (pair : Pair) (now : Int) : Calling Unit := do
  let removed ← atomicRemoveReaction formats pair
  match removed with
  | none => .error (.reactionNotFound pair.1 pair.2)
  | some (kind, weight) => ask (.publish (.removed (buildRemovedEvent pair kind weight now)))

def process : ReactionKafkaEvent → Calling Unit
  | .upserted e => ask (.ledgerUpsert (e.postId, e.profileId) e.newKind e.newWeight e.eventAtMs)
  | .removed e => ask (.ledgerRemove (e.postId, e.profileId))

end

def incrView (pod : Nat) (postId : PostId) : Calling Unit := do
  ask (.incr .views postId)
  ask (.mark pod postId)

def incrShare (pod : Nat) (postId : PostId) : Calling Unit := do
  ask (.incr .shares postId)
  ask (.mark pod postId)

def incrComment (postId : PostId) : Calling Unit := ask (.incr .comments postId)

def decrComment (postId : PostId) : Calling Unit := ask (.decrComments postId)

/-- One of the three updates, which are left out for a delta of zero. -/
def applyDelta (counter : Counter) (postId : PostId) (delta : Int) : Calling Unit :=
  if delta = 0 then .ok () else ask (.addTotal counter postId delta)

def applyInteractionDelta (postId : PostId) (viewDelta shareDelta commentDelta : Int) : Calling Unit := do
  applyDelta .views postId viewDelta
  applyDelta .shares postId shareDelta
  applyDelta .comments postId commentDelta

def countComment (delta : Int) (postId : PostId) : Calling Unit :=
  if 0 < delta then incrComment postId else decrComment postId

def applyComment (delta : Int) (postId : PostId) : Calling Unit := do
  countComment delta postId
  applyInteractionDelta postId 0 0 delta

structure PostEngagementSnapshot where
  reactionScores : String → Option Int
  viewCount : Int
  shareCount : Int
  commentCount : Int

/-- Four reads side by side; the turns say in which order they are answered. -/
def getSnapshot (postId : PostId) (turns : Nat → List Bool) : Calling PostEngagementSnapshot := do
  let (scores, views, shares, comments) ←
    (ask (.hgetall postId)).join
      ((ask (.get .views postId)).join
        ((ask (.get .shares postId)).join (ask (.get .comments postId)) (turns 2)) (turns 1)) (turns 0)
  return ⟨scores, views.getD 0, shares.getD 0, comments.getD 0⟩

def getPostEngagement (postId : PostId) (turns : Nat → List Bool) : Calling PostEngagementSnapshot :=
  getSnapshot postId turns

def flushPost (postId : PostId) (turns : List Bool) : Calling Unit := do
  let (viewDelta, shareDelta) ← (ask (.getsetZero .views postId)).join (ask (.getsetZero .shares postId)) turns
  if viewDelta = 0 ∧ shareDelta = 0 then .ok ()
  else applyInteractionDelta postId viewDelta shareDelta 0

def unmarkAll (pod : Nat) : List PostId → Calling Unit
  | [] => .ok ()
  | postId :: rest => do
      ask (.unmark pod postId)
      unmarkAll pod rest

/-- The marked posts are listed first and then taken off one by one. -/
def drainAll (pod : Nat) : Calling (List PostId) := do
  let ids ← ask (.dirtyIds pod)
  unmarkAll pod ids
  return ids

def flushAll (pod : Nat) (turns : PostId → List Bool) : List PostId → Calling Unit
  | [] => .ok ()
  | postId :: rest => do
      match ← (flushPost postId (turns postId)).attempt with
      | .ok () => flushAll pod turns rest
      | .error _ => do
          ask (.mark pod postId)
          flushAll pod turns rest

def flushCycle (pod : Nat) (turns : PostId → List Bool) : Calling Unit := do
  let dirty ← drainAll pod
  flushAll pod turns dirty

inductive Request where
  | upsertReaction (weights : ReactionWeightsConfig) (pair : Pair) (kind now : Int)
  | removeReaction (pair : Pair) (now : Int)
  | recordView (pod : Nat) (postId : PostId)
  | recordShare (pod : Nat) (postId : PostId)
  | comment (delta : Int) (postId : PostId)
  | getPostEngagement (postId : PostId) (turns : Nat → List Bool)
  | flushCycle (pod : Nat) (turns : PostId → List Bool)

inductive Outcome where
  | done
  | snapshot (snapshot : PostEngagementSnapshot)

def completed (program : Calling Unit) : Calling Outcome := do
  program
  return .done

def Request.program (formats : Formats) : Request → Calling Outcome
  | .upsertReaction weights pair kind now => completed (Engagement.upsertReaction formats weights pair kind now)
  | .removeReaction pair now => completed (Engagement.removeReaction formats pair now)
  | .recordView pod postId => completed (incrView pod postId)
  | .recordShare pod postId => completed (incrShare pod postId)
  | .comment delta postId => completed (applyComment delta postId)
  | .getPostEngagement postId turns => do
      let snapshot ← Engagement.getPostEngagement postId turns
      return .snapshot snapshot
  | .flushCycle pod turns => completed (Engagement.flushCycle pod turns)

/-- The write-behind worker takes the next event, or goes back to an earlier one. -/
inductive Event where
  | consume
  | rewind (position : Nat)

namespace World

variable (formats : Formats) (w : World)

def consume : Option World :=
  w.topic[w.consumed]?.map fun event =>
    { ((server formats).execute (process event) w Server.allServed).1 with consumed := w.consumed + 1 }

def elapse : Event → Option World
  | .consume => w.consume formats
  | .rewind position => if position ≤ w.consumed then some { w with consumed := position } else none

/-- The ledger's row of a pair is the reaction that Redis holds, or both have none. -/
def Agrees (pair : Pair) : Prop :=
  ∃ reaction : Option (ReactionKind × Nat),
    w.redis.reactions pair = reaction.map (fun r => (r.1.asRedisKey, toString r.2)) ∧
    (w.ledger pair).map (fun row => (row.kind, row.weight.toInt)) = reaction.map fun r => (r.1.asTinyint, (r.2 : Int))

/-- Nothing has happened yet: nothing counted, nothing published, the ledger has what Redis has. -/
structure Fresh : Prop where
  counters : ∀ key, (w.redis.counters key).getD 0 = 0
  recorded : ∀ key, w.recorded key = 0
  topic : w.topic = []
  consumed : w.consumed = 0
  swaps : w.swaps = []
  agrees : ∀ pair, w.Agrees pair

end World

def host (formats : Formats) : Host World Request Event Op Op.Reply EngagementError Outcome where
  init := World.Fresh
  server := server formats
  accept w request := some (w, request.program formats)
  elapse := World.elapse formats

abbrev Traffic := Pool World Request Op Op.Reply EngagementError Outcome

namespace Sample

def plain : Formats where
  readI64 text := some (readNat text)
  tonumber text := readNat text
  tostring n := toString n
  takes n := decide (n.natAbs < 10 ^ 17)
  readI64_toString n _ := by rw [readNat_toString]
  tonumber_toString n _ := by rw [readNat_toString]
  tostring_eq n _ := rfl
  takes_small n small := decide_eq_true small

def empty : World where
  redis := ⟨fun _ => none, fun _ => none, fun _ => none⟩
  dirty _ := []
  ledger _ := none
  totals _ := 0
  topic := []
  consumed := 0
  recorded _ := 0
  swaps := []

theorem empty_fresh : empty.Fresh := by
  refine ⟨fun _ => rfl, fun _ => rfl, rfl, rfl, rfl, fun pair => ⟨none, rfl, rfl⟩⟩

def start : Traffic := ⟨empty, fun _ => none⟩

theorem start_init : (host plain).machine.init start := ⟨empty_fresh, rfl⟩

end Sample
end CorePlatform.Engagement
