import CorePlatform.Theory.KeyedList
import CorePlatform.Theory.Machine
import CorePlatform.Realtime.Connection

/-! # The connection registry and the fan-out over it

The registry keeps one hash per user in Redis, a field per connection. A bind writes its field and
sets the time to live of the whole hash anew; an evict deletes one field. The connections of all
nodes bind when they open, and their heartbeats go to the connection alone. -/

namespace CorePlatform.Realtime

open Theory

structure PlacementValue where
  deviceId : String
  nodeId : String

/-- The JSON of a placement, as the bind writes it and the resolve reads it. -/
structure PlacementJson where
  toText : PlacementValue → String
  ofText : String → Option PlacementValue
  ofText_toText : ∀ value, ofText (toText value) = some value

structure ConnectionLocation where
  userId : UserId
  deviceId : DeviceId
  connectionId : ConnectionId
  nodeId : NodeId

structure RegistryConfig where
  /-- The time to live that a bind sets, in nanoseconds. -/
  ttl : Int
  heartbeatTimeout : Int
  subscriptionCap : Nat
  json : PlacementJson

structure PresenceHash where
  fields : List (String × String)
  expiresAt : Int

namespace ConnectionRegistry

def presenceKey (userId : UserId) : String := "rt:presence:\x7b" ++ userId.val ++ "\x7d"

theorem presenceKey_injective (eq : presenceKey a = presenceKey b) : a = b := by
  apply Subtype.ext
  simpa [presenceKey, String.ext_iff] using eq

abbrev Presence := String → Option PresenceHash

/-- The fields of a key at an instant; an expired hash has none. -/
def hgetall (presence : Presence) (now : Int) (key : String) : List (String × String) :=
  match presence key with
  | none => []
  | some hash => if now < hash.expiresAt then hash.fields else []

variable (config : RegistryConfig) (presence : Presence) (now : Int)

def bind (location : ConnectionLocation) : Presence :=
  let key := presenceKey location.userId
  let value := config.json.toText ⟨location.deviceId.val, location.nodeId.val⟩
  Function.update presence key
    (some ⟨KeyedList.upsert location.connectionId.val (fun _ => value) (hgetall presence now key), now + config.ttl⟩)

def evict (userId : UserId) (connectionId : ConnectionId) : Presence :=
  let key := presenceKey userId
  Function.update presence key ((presence key).map fun hash =>
    { hash with fields := hash.fields.filter fun field => field.1 != connectionId.val })

/-- One field of the hash; a malformed one is skipped. -/
def location (userId : UserId) (field : String × String) : Option ConnectionLocation := do
  let value ← config.json.ofText field.2
  let deviceId ← (DeviceId.new value.deviceId).toOption
  let nodeId ← (NodeId.new value.nodeId).toOption
  let connectionId ← (ConnectionId.new field.1).toOption
  return ⟨userId, deviceId, connectionId, nodeId⟩

def resolve (userId : UserId) : List ConnectionLocation :=
  (hgetall presence now (presenceKey userId)).filterMap (location config userId)

theorem location_bound (bound : ConnectionLocation) :
    location config bound.userId (bound.connectionId.val, config.json.toText ⟨bound.deviceId.val, bound.nodeId.val⟩) =
      some bound := by
  simp [location, config.json.ofText_toText, DeviceId.new, NodeId.new, ConnectionId.new, named_val, Except.toOption]

end ConnectionRegistry

structure FanOutOutcome where
  nodesPublished : Nat
  offline : Bool
  broadcast : Bool
  deriving DecidableEq

namespace FanOutHandler

/-- Publish once to each node, in the order of the placements. -/
def publishAll (publish : NodeId → Except RealtimeError Unit) :
    List NodeId → List ConnectionLocation → Except RealtimeError (List NodeId)
  | publishedNodes, [] => .ok publishedNodes
  | publishedNodes, loc :: rest =>
    if publishedNodes.contains loc.nodeId then publishAll publish publishedNodes rest
    else
      match publish loc.nodeId with
      | .error e => .error e
      | .ok () => publishAll publish (loc.nodeId :: publishedNodes) rest

/-- The placements an event goes to: those of one device if it names one. -/
def targets (event : DeliverableEvent) (locations : List ConnectionLocation) : List ConnectionLocation :=
  locations.filter fun loc => event.deviceId.all (loc.deviceId == ·)

def fanOut (resolve : UserId → Except RealtimeError (List ConnectionLocation))
    (broadcast : Except RealtimeError Unit) (publish : NodeId → Except RealtimeError Unit) (event : DeliverableEvent) :
    Except RealtimeError FanOutOutcome :=
  match event.recipient with
  | none => broadcast.map fun _ => ⟨0, false, true⟩
  | some recipient => do
      let locations ← resolve recipient
      let publishedNodes ← publishAll publish [] (targets event locations)
      if publishedNodes.isEmpty then return ⟨0, true, false⟩
      return ⟨publishedNodes.length, false, false⟩

theorem publishAll_length :
    ∀ {before after : List NodeId}, publishAll publish before locations = .ok after → before.length ≤ after.length := by
  induction locations with
  | nil =>
    intro before after hp
    cases hp
    exact Nat.le_refl _
  | cons _ _ ih =>
    intro before after hp
    simp only [publishAll] at hp
    split at hp
    · exact ih hp
    split at hp
    · cases hp
    · have grows := ih hp
      simp only [List.length_cons] at grows
      omega

theorem publishAll_nonempty (hp : publishAll publish [] (loc :: rest) = .ok after) : after ≠ [] := by
  simp only [publishAll, List.contains_nil, Bool.false_eq_true, if_false] at hp
  split at hp
  · cases hp
  · have grows := publishAll_length hp
    intro empty
    simp [empty] at grows

theorem offline_iff (targeted : ev.recipient = some recipient) (resolved : resolve recipient = .ok locations)
    (hf : fanOut resolve broadcast publish ev = .ok outcome) :
    outcome.offline = true ↔ targets ev locations = [] := by
  simp only [fanOut, targeted, resolved, bind, Except.bind] at hf
  split at hf
  · cases hf
  rename_i after hp
  cases fits : targets ev locations with
  | nil =>
    rw [fits] at hp
    cases hp
    cases hf
    simp
  | cons =>
    rw [fits] at hp
    have some_ : after.isEmpty = false := by
      cases after with
      | nil => exact absurd rfl (publishAll_nonempty hp)
      | cons => rfl
    rw [some_] at hf
    cases hf
    simp

end FanOutHandler

/-- An open connection. Whether it met every heartbeat deadline so far is noted beside it. -/
structure OpenConnection where
  connection : Connection
  punctual : Bool

structure Fabric where
  now : Int
  presence : ConnectionRegistry.Presence
  connections : List OpenConnection
  /-- When each user's hash was bound. -/
  binds : List (UserId × Int)

namespace Fabric

def empty (now : Int) : Fabric := ⟨now, fun _ => none, [], []⟩

inductive Label where
  /-- A handshake with a valid token. When the answer of the bind is lost, the socket is rejected. -/
  | connect (connectionId : ConnectionId) (nodeId : NodeId) (session : Session) (answered : Bool)
  | heartbeat (i : Nat)
  /-- The connection ends; its evict may fail. -/
  | disconnect (i : Nat) (evicted : Bool)
  /-- The ticker of a connection: one that missed its deadline is reaped. -/
  | tick (i : Nat) (evicted : Bool)
  | elapse (time : Nat)

def placement (connection : Connection) : ConnectionLocation :=
  ⟨connection.session.userId, connection.session.deviceId, connection.id, connection.nodeId⟩

def fresh (connectionId : ConnectionId) (connections : List OpenConnection) : Bool :=
  connections.all fun other => other.connection.id != connectionId

variable (config : RegistryConfig)

def tearDown (s : Fabric) (i : Nat) (closing : OpenConnection) (evicted : Bool) : Fabric :=
  { s with
    connections := s.connections.eraseIdx i
    presence :=
      if evicted then ConnectionRegistry.evict s.presence closing.connection.session.userId closing.connection.id
      else s.presence }

/-- What the passing of time makes of a connection's record. -/
def observe (now : Int) (open_ : OpenConnection) : OpenConnection :=
  { open_ with punctual := open_.punctual && ! open_.connection.shouldReap now config.heartbeatTimeout }

def step (s : Fabric) : Label → Option Fabric
  | .connect connectionId nodeId session answered =>
    if fresh connectionId s.connections then
      let connection := Connection.open_ connectionId nodeId session config.subscriptionCap s.now
      let opened := if answered then [observe config s.now ⟨connection, true⟩] else []
      some { s with
        presence := ConnectionRegistry.bind config s.presence s.now (placement connection)
        connections := s.connections ++ opened
        binds := s.binds ++ [(session.userId, s.now)] }
    else none
  | .heartbeat i =>
    match s.connections[i]? with
    | none => none
    | some beating =>
      some { s with connections :=
        s.connections.set i { beating with connection := beating.connection.heartbeat s.now } }
  | .disconnect i evicted =>
    match s.connections[i]? with
    | none => none
    | some closing => some (s.tearDown i closing evicted)
  | .tick i evicted =>
    match s.connections[i]? with
    | none => none
    | some ticking =>
      if ticking.connection.shouldReap s.now config.heartbeatTimeout then some (s.tearDown i ticking evicted)
      else some s
  | .elapse time =>
    let later := s.now + time
    some { s with now := later, connections := s.connections.map (observe config later) }

def machine : Machine Fabric Label where
  init s := ∃ now, s = empty now
  step := step config

def resolve (s : Fabric) (userId : UserId) : List ConnectionLocation :=
  ConnectionRegistry.resolve config s.presence s.now userId

end Fabric
end CorePlatform.Realtime
