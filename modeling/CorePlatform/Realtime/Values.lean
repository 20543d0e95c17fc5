import CorePlatform.Audit.Values

/-! # The values of the realtime plane

Identifiers and channel keys are texts that are not blank, and carry the proof of it. Instants
are nanoseconds.
-/

namespace CorePlatform.Realtime

open Audit (isBlank DateTime)

inductive RealtimeError where
  | malformedFrame (reason : String)
  | sequenceViolation (reason : String)
  | channelForbidden (channel : String)
  | subscriptionLimitExceeded
  | notSubscribed (channel : String)
  | connectionDraining
  | domainViolation (field message : String)
  | invalidIdentifier (field : String)
  deriving DecidableEq

namespace RealtimeError

def errorCode : RealtimeError → String
  | malformedFrame _ => "RTM-2001"
  | sequenceViolation _ => "RTM-2004"
  | channelForbidden _ => "RTM-3001"
  | subscriptionLimitExceeded => "RTM-3002"
  | notSubscribed _ => "RTM-3003"
  | connectionDraining => "RTM-5003"
  | domainViolation _ _ => "RTM-9001"
  | invalidIdentifier _ => "RTM-9002"

def display : RealtimeError → String
  | malformedFrame reason => "malformed transport frame: " ++ reason
  | sequenceViolation reason => "resume/ack sequence out of range: " ++ reason
  | channelForbidden channel => "subscription to channel '" ++ channel ++ "' is forbidden for this identity"
  | subscriptionLimitExceeded => "per-connection subscription limit exceeded"
  | notSubscribed channel => "not subscribed to channel '" ++ channel ++ "'"
  | connectionDraining => "connection draining; reconnect with backoff"
  | domainViolation field message => "domain invariant violated on '" ++ field ++ "': " ++ message
  | invalidIdentifier field => "invalid identifier: '" ++ field ++ "'"

end RealtimeError

/-- A text that is not blank. -/
abbrev Named := { text : String // isBlank text = false }

/-- The constructor shared by the identifier types. -/
def named (field value : String) : Except RealtimeError Named :=
  if blank : isBlank value = false then .ok ⟨value, blank⟩ else .error (.invalidIdentifier field)

abbrev UserId := Named
abbrev DeviceId := Named
abbrev ConnectionId := Named
abbrev NodeId := Named
abbrev ChannelKey := Named

def UserId.new : String → Except RealtimeError UserId := named "user_id"
def DeviceId.new : String → Except RealtimeError DeviceId := named "device_id"
def ConnectionId.new : String → Except RealtimeError ConnectionId := named "connection_id"
def NodeId.new : String → Except RealtimeError NodeId := named "node_id"
def ChannelKey.new : String → Except RealtimeError ChannelKey := named "channel_key"

theorem named_val : named field name.val = .ok name := by
  simp [named, name.property]

inductive ChannelClass where
  | dm
  | notification
  | presence
  | counter
  | feed
  deriving DecidableEq

namespace ChannelClass

def asStr : ChannelClass → String
  | dm => "dm"
  | notification => "notif"
  | presence => "presence"
  | counter => "counter"
  | feed => "feed"

def isIdentityScoped : ChannelClass → Bool
  | dm | notification | presence => true
  | counter | feed => false

def ackRequired : ChannelClass → Bool
  | dm | notification => true
  | presence | counter | feed => false

end ChannelClass

structure ChannelRef where
  class_ : ChannelClass
  key : ChannelKey
  deriving DecidableEq

def ChannelRef.display (channel : ChannelRef) : String := channel.class_.asStr ++ ":" ++ channel.key.val

/-- The pinned identity of an authenticated connection. -/
structure Session where
  userId : UserId
  deviceId : DeviceId
  expiresAt : Int

namespace Session

def isExpired (session : Session) (now : Int) : Bool := decide (session.expiresAt ≤ now)

def authorize (session : Session) (channel : ChannelRef) : Except RealtimeError Unit :=
  if channel.class_.isIdentityScoped && channel.key.val != session.userId.val then
    .error (.channelForbidden channel.display)
  else .ok ()

theorem key_of_authorize {sess : Session} (ha : sess.authorize channel = .ok ())
    (hi : channel.class_.isIdentityScoped = true) : channel.key = sess.userId := by
  unfold authorize at ha
  split at ha
  · cases ha
  · rename_i own
    apply Subtype.ext
    simpa [hi] using own

end Session

structure DeliverableEvent where
  /-- The user of a targeted event; a broadcast has none. -/
  recipient : Option UserId
  deviceId : Option DeviceId
  channel : ChannelRef
  payload : List UInt8
  eventType : String
  emittedAt : DateTime
  idempotencyKey : String

def DeliverableEvent.isBroadcast (event : DeliverableEvent) : Bool := event.recipient.isNone

end CorePlatform.Realtime
