import CorePlatform.Auth.Values
import CorePlatform.Theory.Server

/-! # Reactions, counters and the stores that keep them

A reaction stands in a hash in Redis, beside the scores of its post. The scripts swap it there and
tell what it replaced; the event of the swap is published afterwards, and a worker writes the ledger
from the events.

Views and shares are counted in Redis. The counter of a post is both what readers are shown and what
the flush worker drains into the durable totals. -/

namespace CorePlatform.Engagement

open Theory Function

abbrev PostId := Auth.Uuid
abbrev ProfileId := Auth.Uuid

/-- A profile's place under a post. -/
abbrev Pair := PostId × ProfileId

inductive EngagementError where
  | scylla (reason : String)
  | redis (reason : String)
  | reactionNotFound (postId : PostId) (profileId : ProfileId)
  | unknownReactionKind (kind : String)
  | eventPublishFailed (message : String)
  | scriptReturnInvalid

inductive ReactionKind where
  | heart
  | fire
  | rocket
  | clap
  | sad

namespace ReactionKind

def asRedisKey : ReactionKind → String
  | heart => "heart"
  | fire => "fire"
  | rocket => "rocket"
  | clap => "clap"
  | sad => "sad"

def fromRedisKey (text : String) : Except EngagementError ReactionKind :=
  if text = "heart" then .ok heart
  else if text = "fire" then .ok fire
  else if text = "rocket" then .ok rocket
  else if text = "clap" then .ok clap
  else if text = "sad" then .ok sad
  else .error (.unknownReactionKind text)

def asTinyint : ReactionKind → Int
  | heart => 1
  | fire => 2
  | rocket => 3
  | clap => 4
  | sad => 5

def fromProto (v : Int) : Except EngagementError ReactionKind :=
  if v = 1 then .ok heart
  else if v = 2 then .ok fire
  else if v = 3 then .ok rocket
  else if v = 4 then .ok clap
  else if v = 5 then .ok sad
  else .error (.unknownReactionKind (toString v))

@[simp] theorem fromRedisKey_asRedisKey (kind : ReactionKind) : fromRedisKey kind.asRedisKey = .ok kind := by
  cases kind <;> rfl

theorem asRedisKey_injective : Injective asRedisKey := by
  intro a b eq
  have read := congrArg fromRedisKey eq
  simpa using read

end ReactionKind

/-- How numbers are read and written. The scripts know only whole numbers here: `tonumber` rounds
beyond `2^53`, `tostring` writes fourteen digits. -/
structure Formats where
  readI64 : String → Option Int
  tonumber : String → Int
  tostring : Int → String
  /-- The numbers that `HINCRBY` takes from a script: `redis.call` writes large ones with an exponent, in
  older versions of Redis from eighteen digits on. -/
  takes : Int → Bool
  readI64_toString : ∀ n : Nat, n < 2 ^ 63 → readI64 (toString n) = some (n : Int)
  tonumber_toString : ∀ n : Nat, n ≤ 2 ^ 53 → tonumber (toString n) = n
  tostring_eq : ∀ n : Nat, n < 10 ^ 14 → tostring n = toString n
  takes_small : ∀ n : Int, n.natAbs < 10 ^ 17 → takes n = true

/-- The weight of each kind, as it was configured when the service started. -/
structure ReactionWeightsConfig where
  weightOf : ReactionKind → Int
  positive : ∀ kind, 0 < weightOf kind

structure ReactionUpsertedEvent where
  postId : PostId
  profileId : ProfileId
  newKind : ReactionKind
  newWeight : Int
  oldKind : Option ReactionKind
  oldWeight : Option Int
  eventAtMs : Int

structure ReactionRemovedEvent where
  postId : PostId
  profileId : ProfileId
  kind : ReactionKind
  weight : Int
  eventAtMs : Int

inductive ReactionKafkaEvent where
  | upserted (event : ReactionUpsertedEvent)
  | removed (event : ReactionRemovedEvent)

def buildUpsertedEvent (pair : Pair) (newKind : ReactionKind) (newWeight : Int)
    (oldReaction : Option (ReactionKind × Int)) (now : Int) : ReactionUpsertedEvent where
  postId := pair.1
  profileId := pair.2
  newKind
  newWeight
  oldKind := oldReaction.map Prod.fst
  oldWeight := oldReaction.map Prod.snd
  eventAtMs := now

def buildRemovedEvent (pair : Pair) (kind : ReactionKind) (weight now : Int) : ReactionRemovedEvent where
  postId := pair.1
  profileId := pair.2
  kind
  weight
  eventAtMs := now

def ReactionKafkaEvent.pair : ReactionKafkaEvent → Pair
  | .upserted event => (event.postId, event.profileId)
  | .removed event => (event.postId, event.profileId)

inductive Counter where
  | views
  | shares
  | comments
  deriving DecidableEq

structure Redis where
  /-- The `kind` and the `weight` field of a reaction's hash. -/
  reactions : Pair → Option (String × String)
  scores : PostId × String → Option Int
  counters : Counter × PostId → Option Int

namespace Redis

def hincrby (r : Redis) (postId : PostId) (kind : String) (amount : Int) : Redis :=
  { r with scores := update r.scores (postId, kind) (some ((r.scores (postId, kind)).getD 0 + amount)) }

def incrby (r : Redis) (counter : Counter) (postId : PostId) (amount : Int) : Redis :=
  { r with
    counters := update r.counters (counter, postId) (some ((r.counters (counter, postId)).getD 0 + amount)) }

section

variable (formats : Formats) (r : Redis) (pair : Pair)

/-- What the scripts read of a reaction's hash: its kind and the number of its weight. -/
def swappedOut : Option (String × Int) :=
  (r.reactions pair).map fun hash => (hash.1, formats.tonumber hash.2)

def forget (old : Option (String × Int)) : Redis :=
  match old with
  | some (kind, weight) => r.hincrby pair.1 kind (-weight)
  | none => r

/-- The two entries of the array that a script returns, if it returns any. -/
def returned (old : Option (String × Int)) : Option (String × String) :=
  old.map fun hash => (hash.1, formats.tostring hash.2)

def upsertScript (newKind newWeight : String) : Redis × Option (String × String) :=
  let weight := formats.tonumber newWeight
  let old := r.swappedOut formats pair
  let r := r.forget pair old
  let r := { r with reactions := update r.reactions pair (some (newKind, formats.tostring weight)) }
  (r.hincrby pair.1 newKind weight, returned formats old)

def removeScript : Redis × Option (String × String) :=
  let old := r.swappedOut formats pair
  match old with
  | none => (r, none)
  | some _ =>
    let r := r.forget pair old
    ({ r with reactions := update r.reactions pair none }, returned formats old)

def getsetZero (counter : Counter) (postId : PostId) : Redis × Int :=
  match r.counters (counter, postId) with
  | some value => ({ r with counters := update r.counters (counter, postId) (some 0) }, value)
  | none => (r, 0)

end
end Redis

/-- A row of the ledger; the weight column has 32 bits. -/
structure LedgerRow where
  kind : Int
  weight : BitVec 32
  reactedAt : Int

structure World where
  redis : Redis
  /-- The posts that each process has marked for its flush worker. -/
  dirty : Nat → List PostId
  ledger : Pair → Option LedgerRow
  totals : Counter × PostId → Int
  /-- What was published, in order, and how far the write-behind worker has come. -/
  topic : List ReactionKafkaEvent
  consumed : Nat
  /-- No store keeps these two. How often each counter was raised: -/
  recorded : Counter × PostId → Nat
  /-- and what each script that changed a reaction left in its hash, in order. -/
  swaps : List (Pair × Option (String × String))

inductive Op where
  | upsertScript (pair : Pair) (newKind newWeight : String)
  | removeScript (pair : Pair)
  | incr (counter : Counter) (postId : PostId)
  | decrComments (postId : PostId)
  | getsetZero (counter : Counter) (postId : PostId)
  | get (counter : Counter) (postId : PostId)
  | hgetall (postId : PostId)
  | mark (pod : Nat) (postId : PostId)
  | dirtyIds (pod : Nat)
  | unmark (pod : Nat) (postId : PostId)
  | ledgerUpsert (pair : Pair) (kind : ReactionKind) (weight eventAtMs : Int)
  | ledgerRemove (pair : Pair)
  | addTotal (counter : Counter) (postId : PostId) (delta : Int)
  | publish (event : ReactionKafkaEvent)

abbrev Op.Reply : Op → Type
  | .upsertScript _ _ _ | .removeScript _ => Option (String × String)
  | .getsetZero _ _ => Int
  | .get _ _ => Option Int
  | .hgetall _ => String → Option Int
  | .dirtyIds _ => List PostId
  | _ => Unit

namespace World

variable (formats : Formats) (w : World)

def upsertScript (pair : Pair) (newKind newWeight : String) : World × Option (String × String) :=
  let result := w.redis.upsertScript formats pair newKind newWeight
  ({ w with redis := result.1, swaps := w.swaps ++ [(pair, result.1.reactions pair)] }, result.2)

def removeScript (pair : Pair) : World × Option (String × String) :=
  let result := w.redis.removeScript formats pair
  ({ w with
     redis := result.1
     swaps := if result.2.isSome then w.swaps ++ [(pair, result.1.reactions pair)] else w.swaps }, result.2)

def incr (counter : Counter) (postId : PostId) : World :=
  { w with
    redis := w.redis.incrby counter postId 1
    recorded := update w.recorded (counter, postId) (w.recorded (counter, postId) + 1) }

def mark (pod : Nat) (postId : PostId) : World :=
  { w with
    dirty := update w.dirty pod (if (w.dirty pod).contains postId then w.dirty pod else w.dirty pod ++ [postId]) }

def unmark (pod : Nat) (postId : PostId) : World :=
  { w with dirty := update w.dirty pod ((w.dirty pod).erase postId) }

/-- `INSERT`, with the weight cast to the column's width. -/
def ledgerUpsert (pair : Pair) (kind : ReactionKind) (weight eventAtMs : Int) : World :=
  { w with
    ledger := update w.ledger pair (some ⟨kind.asTinyint, BitVec.ofInt 32 weight, eventAtMs⟩) }

def ledgerRemove (pair : Pair) : World := { w with ledger := update w.ledger pair none }

def addTotal (counter : Counter) (postId : PostId) (delta : Int) : World :=
  { w with totals := update w.totals (counter, postId) (w.totals (counter, postId) + delta) }

def serve : (op : Op) → World × Except EngagementError op.Reply
  | .upsertScript pair newKind newWeight =>
    let result := w.upsertScript formats pair newKind newWeight
    (result.1, .ok result.2)
  | .removeScript pair =>
    let result := w.removeScript formats pair
    (result.1, .ok result.2)
  | .incr counter postId => (w.incr counter postId, .ok ())
  | .decrComments postId => ({ w with redis := w.redis.incrby .comments postId (-1) }, .ok ())
  | .getsetZero counter postId =>
    let result := w.redis.getsetZero counter postId
    ({ w with redis := result.1 }, .ok result.2)
  | .get counter postId => (w, .ok (w.redis.counters (counter, postId)))
  | .hgetall postId => (w, .ok fun kind => w.redis.scores (postId, kind))
  | .mark pod postId => (w.mark pod postId, .ok ())
  | .dirtyIds pod => (w, .ok (w.dirty pod))
  | .unmark pod postId => (w.unmark pod postId, .ok ())
  | .ledgerUpsert pair kind weight eventAtMs => (w.ledgerUpsert pair kind weight eventAtMs, .ok ())
  | .ledgerRemove pair => (w.ledgerRemove pair, .ok ())
  | .addTotal counter postId delta => (w.addTotal counter postId delta, .ok ())
  | .publish event => ({ w with topic := w.topic ++ [event] }, .ok ())

end World

def Op.failure (reason : String) : Op → EngagementError
  | .ledgerUpsert _ _ _ _ | .ledgerRemove _ | .addTotal _ _ _ => .scylla reason
  | .publish _ => .eventPublishFailed reason
  | _ => .redis reason

def server (formats : Formats) : Server World Op Op.Reply EngagementError where
  serve := World.serve formats
  failure op reason := op.failure reason

end CorePlatform.Engagement
