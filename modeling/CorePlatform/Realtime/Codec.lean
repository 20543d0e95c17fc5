import CorePlatform.Realtime.Connection

/-! # The wire types of the realtime plane and their mapping

`Pb` holds the messages as the generated types have them: a class is a number, a message field
may be absent. What a client sends and what the dispatcher publishes is checked on the way in;
an envelope that the dispatcher made comes out as the event it was made from, unless that is dated in
a leap second that no minute ends with.
-/

namespace CorePlatform.Realtime

open Audit (isBlank DateTime)

namespace Pb

structure ChannelRef where
  class_ : Int
  key : String

structure ChannelCursor where
  channel : Option ChannelRef
  streamSeq : Nat

structure Timestamp where
  seconds : Int
  nanos : Int

inductive ClientBody where
  | subscribe (channels : List ChannelRef)
  | unsubscribe (channels : List ChannelRef)
  | ack (channel : Option ChannelRef) (streamSeq : Nat)
  | pong (nonce : Nat)
  | authRefresh (edgeToken : String)
  | resume (cursors : List ChannelCursor)

structure ClientFrame where
  body : Option ClientBody

inductive ServerControl where
  | subscribed
  | unsubscribed
  | reauthRequired
  | reconnect
  | error

structure Event where
  channel : Option ChannelRef
  streamSeq : Nat
  ackRequired : Bool
  payload : List UInt8
  eventType : String
  emittedAt : Option Timestamp

structure Control where
  control : ServerControl
  channel : Option ChannelRef
  code : String
  message : String
  reconnectAfterMs : Nat

inductive ServerFrame where
  | event (body : Event)
  | ping (nonce : Nat)
  | control (body : Control)

structure DeliverEnvelope where
  recipientUserId : String
  recipientDeviceId : String
  channel : Option ChannelRef
  ackRequired : Bool
  payload : List UInt8
  eventType : String
  emittedAt : Option Timestamp
  idempotencyKey : String
  broadcast : Bool

end Pb

namespace Codec

def tsToPb (dt : DateTime) : Pb.Timestamp := ⟨dt.secs, dt.nanos⟩

def tsFromPb (ts : Pb.Timestamp) : DateTime := (DateTime.fromTimestamp ts.seconds (max ts.nanos 0).toNat).getD .epoch

def channelClassToPb : ChannelClass → Int
  | .dm => 1
  | .notification => 2
  | .presence => 3
  | .counter => 4
  | .feed => 5

def channelClassFromPb (value : Int) : Except RealtimeError ChannelClass :=
  if value = 1 then .ok .dm
  else if value = 2 then .ok .notification
  else if value = 3 then .ok .presence
  else if value = 4 then .ok .counter
  else if value = 5 then .ok .feed
  else .error (.malformedFrame ("unknown channel class " ++ toString value))

def channelToPb (channel : ChannelRef) : Pb.ChannelRef := ⟨channelClassToPb channel.class_, channel.key.val⟩

def channelFromPb (channel : Pb.ChannelRef) : Except RealtimeError ChannelRef := do
  let class_ ← channelClassFromPb channel.class_
  let key ← ChannelKey.new channel.key
  return ⟨class_, key⟩

def channelsFromPb (channels : List Pb.ChannelRef) : Except RealtimeError (List ChannelRef) :=
  channels.mapM channelFromPb

def eventFrame (channel : ChannelRef) (streamSeq : Nat) (event : DeliverableEvent) : Pb.ServerFrame :=
  .event {
    channel := some (channelToPb channel)
    streamSeq
    ackRequired := channel.class_.ackRequired
    payload := event.payload
    eventType := event.eventType
    emittedAt := some (tsToPb event.emittedAt) }

def control (kind : Pb.ServerControl) (channel : Option ChannelRef) (code message : String)
    (reconnectAfterMs : Nat) : Pb.Control :=
  ⟨kind, channel.map channelToPb, code, message, reconnectAfterMs⟩

inductive ClientIntent where
  | subscribe (channels : List ChannelRef)
  | unsubscribe (channels : List ChannelRef)
  | ack (channel : ChannelRef) (streamSeq : Nat)
  | pong (nonce : Nat)
  | authRefresh (edgeToken : String)
  | resume (cursors : List (ChannelRef × Nat))

def require {α : Type} (field : Option α) (name : String) : Except RealtimeError α :=
  match field with
  | some value => .ok value
  | none => .error (.malformedFrame ("missing required field '" ++ name ++ "'"))

def cursorFromPb (cursor : Pb.ChannelCursor) : Except RealtimeError (ChannelRef × Nat) := do
  let channel ← channelFromPb (← require cursor.channel "resume.channel")
  return (channel, cursor.streamSeq)

def decodeClientFrame (frame : Pb.ClientFrame) : Except RealtimeError ClientIntent :=
  match frame.body with
  | none => .error (.malformedFrame "client frame has no body")
  | some (.subscribe channels) => do return .subscribe (← channelsFromPb channels)
  | some (.unsubscribe channels) => do return .unsubscribe (← channelsFromPb channels)
  | some (.ack channel streamSeq) => do
      return .ack (← channelFromPb (← require channel "ack.channel")) streamSeq
  | some (.pong nonce) => .ok (.pong nonce)
  | some (.authRefresh edgeToken) => .ok (.authRefresh edgeToken)
  | some (.resume cursors) => do return .resume (← cursors.mapM cursorFromPb)

def envelopeToPb (event : DeliverableEvent) : Pb.DeliverEnvelope where
  recipientUserId := event.recipient.elim "" (·.val)
  recipientDeviceId := event.deviceId.elim "" (·.val)
  channel := some (channelToPb event.channel)
  ackRequired := event.channel.class_.ackRequired
  payload := event.payload
  eventType := event.eventType
  emittedAt := some (tsToPb event.emittedAt)
  idempotencyKey := event.idempotencyKey
  broadcast := event.isBroadcast

def envelopeFromPb (env : Pb.DeliverEnvelope) : Except RealtimeError DeliverableEvent := do
  let channel ← channelFromPb (← require env.channel "envelope.channel")
  let deviceId ←
    if env.recipientDeviceId.isEmpty then pure none
    else some <$> DeviceId.new env.recipientDeviceId
  -- A broadcast, or an empty recipient, has no targeted user.
  let recipient ←
    if env.broadcast || env.recipientUserId.isEmpty then pure none
    else some <$> UserId.new env.recipientUserId
  return {
    recipient
    deviceId
    channel
    payload := env.payload
    eventType := env.eventType
    emittedAt := env.emittedAt.elim .epoch tsFromPb
    idempotencyKey := env.idempotencyKey }

theorem channelFromPb_channelToPb (channel : ChannelRef) : channelFromPb (channelToPb channel) = .ok channel := by
  obtain ⟨class_, key⟩ := channel
  have known : channelClassFromPb (channelClassToPb class_) = .ok class_ := by cases class_ <;> rfl
  simp only [channelFromPb, channelToPb, known, ChannelKey.new, named_val]
  rfl

theorem tsFromPb_tsToPb_eq_iff : tsFromPb (tsToPb dt) = dt ↔ dt.Regular := by
  have whole : (max (dt.nanos : Int) 0).toNat = dt.nanos := by omega
  simp only [tsFromPb, tsToPb, whole, DateTime.fromTimestamp_secs_nanos]
  split
  · simpa
  · rename_i irregular
    simp only [irregular, iff_false]
    rintro rfl
    exact irregular DateTime.epoch_regular

theorem named_isEmpty (name : Named) : name.val.isEmpty = false := by
  have blank : isBlank "" = true := rfl
  grind [String.isEmpty_iff]

theorem envelopeFromPb_envelopeToPb (event : DeliverableEvent) :
    envelopeFromPb (envelopeToPb event) = .ok { event with emittedAt := tsFromPb (tsToPb event.emittedAt) } := by
  obtain ⟨recipient, device, channel, _, _, _, _⟩ := event
  simp only [envelopeFromPb, envelopeToPb, require, DeliverableEvent.isBroadcast, Option.elim_some, bind, Except.bind,
    channelFromPb_channelToPb]
  cases device <;> cases recipient <;> simp [named_isEmpty, DeviceId.new, UserId.new, named_val] <;> rfl

/-- A node reads the event that the dispatcher published, exactly if its time is one that
`from_timestamp` takes. -/
theorem envelope_round_trips_iff (event : DeliverableEvent) :
    envelopeFromPb (envelopeToPb event) = .ok event ↔ event.emittedAt.Regular := by
  rw [envelopeFromPb_envelopeToPb, ← tsFromPb_tsToPb_eq_iff]
  obtain ⟨_, _, _, _, _, emittedAt, _⟩ := event
  simp

def targeted : DeliverableEvent :=
  { recipient := some ⟨"u-1", by decide⟩, deviceId := some ⟨"d-1", by decide⟩, channel := ⟨.dm, ⟨"u-1", by decide⟩⟩,
    payload := [1, 2, 3], eventType := "chat.message.sent", emittedAt := ⟨1750000000, 999999999, by decide, by decide⟩,
    idempotencyKey := "key-1" }

theorem targeted_round_trips : envelopeFromPb (envelopeToPb targeted) = .ok targeted :=
  (envelope_round_trips_iff targeted).mpr (by decide)

end Codec
end CorePlatform.Realtime
