import Mathlib.Data.List.Nodup
import CorePlatform.Realtime.Values

/-! # A connection and its subscriptions

The subscriptions are a map from channels to sequence states. The only way a channel gets into
it is through the check of the pinned session, so a connection carries the proof that each of
its channels passes it.
-/

namespace CorePlatform.Realtime

open List

structure SequenceState where
  next : Nat
  ackWatermark : Nat

namespace SequenceState

def new : SequenceState := ⟨1, 0⟩

def lastIssued (state : SequenceState) : Nat := state.next - 1

def issue (state : SequenceState) : Nat × SequenceState := (state.next, { state with next := state.next + 1 })

def ack (state : SequenceState) (seq : Nat) : Except RealtimeError SequenceState :=
  if state.lastIssued < seq then
    .error (.sequenceViolation ("ack " ++ toString seq ++ " exceeds last issued " ++ toString state.lastIssued))
  else if state.ackWatermark < seq then .ok { state with ackWatermark := seq }
  else .ok state

end SequenceState

structure SubscriptionSet where
  entries : List (ChannelRef × SequenceState)
  cap : Nat
  distinct : (entries.map Prod.fst).Nodup

namespace SubscriptionSet

def new (cap : Nat) : SubscriptionSet := ⟨[], cap, List.nodup_nil⟩

def channels (set : SubscriptionSet) : List ChannelRef := set.entries.map Prod.fst

def isSubscribed (set : SubscriptionSet) (channel : ChannelRef) : Bool := set.channels.contains channel

def get (set : SubscriptionSet) (channel : ChannelRef) : Option SequenceState :=
  (set.entries.find? fun entry => entry.1 == channel).map Prod.snd

def put (set : SubscriptionSet) (channel : ChannelRef) (state : SequenceState) : SubscriptionSet where
  entries := set.entries.map fun entry => if entry.1 = channel then (entry.1, state) else entry
  cap := set.cap
  distinct := by
    have keys : ((fun entry => if entry.1 = channel then (entry.1, state) else entry) :
        ChannelRef × SequenceState → _) = fun entry => (entry.1, if entry.1 = channel then state else entry.2) := by
      funext entry
      split <;> rfl
    rw [keys, List.map_map]
    exact set.distinct

def subscribe (set : SubscriptionSet) (channel : ChannelRef) : Except RealtimeError (SubscriptionSet × Bool) :=
  if present : channel ∈ set.entries.map Prod.fst then .ok (set, false)
  else if set.cap ≤ set.entries.length then .error .subscriptionLimitExceeded
  else .ok (⟨(channel, .new) :: set.entries, set.cap, List.nodup_cons.mpr ⟨present, set.distinct⟩⟩, true)

def unsubscribe (set : SubscriptionSet) (channel : ChannelRef) : Except RealtimeError SubscriptionSet :=
  if set.isSubscribed channel then
    .ok ⟨set.entries.filter fun entry => entry.1 != channel, set.cap,
      (List.filter_sublist.map Prod.fst).nodup set.distinct⟩
  else .error (.notSubscribed channel.display)

def issueSeq (set : SubscriptionSet) (channel : ChannelRef) : Except RealtimeError (SubscriptionSet × Nat) :=
  match set.get channel with
  | some state => .ok (set.put channel state.issue.2, state.issue.1)
  | none => .error (.notSubscribed channel.display)

def ack (set : SubscriptionSet) (channel : ChannelRef) (seq : Nat) : Except RealtimeError SubscriptionSet :=
  match set.get channel with
  | some state => (state.ack seq).map (set.put channel)
  | none => .error (.notSubscribed channel.display)

@[simp] theorem channels_put (set : SubscriptionSet) : (set.put channel state).channels = set.channels := by
  simp only [channels, put, map_map]
  apply map_congr_left
  intro entry _
  simp only [Function.comp]
  split <;> rfl

variable {set : SubscriptionSet}

theorem mem_of_subscribe (hs : set.subscribe channel = .ok (set', added)) (mem : other ∈ set'.channels) :
    other = channel ∨ other ∈ set.channels := by
  unfold subscribe at hs
  split at hs
  · cases hs
    exact .inr mem
  · split at hs
    · cases hs
    · cases hs
      exact mem_cons.mp mem

theorem subset_of_unsubscribe (left : set.unsubscribe channel = .ok set') : set'.channels ⊆ set.channels := by
  unfold unsubscribe at left
  split at left
  · cases left
    exact (filter_sublist.map Prod.fst).subset
  · cases left

theorem channels_of_issueSeq (hi : set.issueSeq channel = .ok (set', seq)) : set'.channels = set.channels := by
  unfold issueSeq at hi
  split at hi
  · cases hi
    exact channels_put ..
  · cases hi

theorem channels_of_ack (ha : set.ack channel seq = .ok set') : set'.channels = set.channels := by
  unfold ack at ha
  split at ha
  · rename_i state _
    cases hm : state.ack seq with
    | error =>
      rw [hm] at ha
      cases ha
    | ok =>
      rw [hm] at ha
      cases ha
      exact channels_put ..
  · cases ha

end SubscriptionSet

inductive ConnectionState where
  | active
  | draining
  | closed
  deriving DecidableEq

structure Connection where
  id : ConnectionId
  nodeId : NodeId
  session : Session
  subscriptions : SubscriptionSet
  state : ConnectionState
  lastHeartbeat : Int
  authorized : ∀ channel ∈ subscriptions.channels, session.authorize channel = .ok ()

namespace Connection

def open_ (id : ConnectionId) (nodeId : NodeId) (session : Session) (subscriptionCap : Nat) (now : Int) :
    Connection where
  id := id
  nodeId := nodeId
  session := session
  subscriptions := .new subscriptionCap
  state := .active
  lastHeartbeat := now
  authorized := nofun

variable (connection : Connection)

def isSubscribed (channel : ChannelRef) : Bool := connection.subscriptions.isSubscribed channel

def subscribedChannels : List ChannelRef := connection.subscriptions.channels

/-- The channel is checked against the session, then added. -/
def admitChannel (channel : ChannelRef) : Except RealtimeError (Connection × Bool) :=
  match allowed : connection.session.authorize channel with
  | .error e => .error e
  | .ok () =>
    match subscribed : connection.subscriptions.subscribe channel with
    | .error e => .error e
    | .ok (subscriptions, added) =>
      .ok ({ connection with
        subscriptions
        authorized := fun other member => by
          rcases SubscriptionSet.mem_of_subscribe subscribed member with rfl | old
          · exact allowed
          · exact connection.authorized other old }, added)

def subscribe (channel : ChannelRef) : Except RealtimeError (Connection × Bool) :=
  match connection.state with
  | .draining => .error .connectionDraining
  | .closed => .error (.domainViolation "connection_state" "cannot subscribe on a closed connection")
  | .active => connection.admitChannel channel

def unsubscribe (channel : ChannelRef) : Except RealtimeError Connection :=
  if connection.state = .closed then
    .error (.domainViolation "connection_state" "cannot unsubscribe on a closed connection")
  else
    match left : connection.subscriptions.unsubscribe channel with
    | .error e => .error e
    | .ok subscriptions =>
      .ok { connection with
        subscriptions
        authorized := fun other member =>
          connection.authorized other (SubscriptionSet.subset_of_unsubscribe left member) }

def issueSeq (channel : ChannelRef) : Except RealtimeError (Connection × Nat) :=
  if connection.state = .closed then
    .error (.domainViolation "connection_state" "cannot deliver to a closed connection")
  else
    match issued : connection.subscriptions.issueSeq channel with
    | .error e => .error e
    | .ok (subscriptions, seq) =>
      .ok ({ connection with
        subscriptions
        authorized := fun other member =>
          connection.authorized other (SubscriptionSet.channels_of_issueSeq issued ▸ member) }, seq)

def ack (channel : ChannelRef) (seq : Nat) : Except RealtimeError Connection :=
  match acked : connection.subscriptions.ack channel seq with
  | .error e => .error e
  | .ok subscriptions =>
    .ok { connection with
      subscriptions
      authorized := fun other member =>
        connection.authorized other (SubscriptionSet.channels_of_ack acked ▸ member) }

def heartbeat (now : Int) : Connection :=
  if connection.state = .closed then connection else { connection with lastHeartbeat := now }

def shouldReap (now timeout : Int) : Bool :=
  decide (connection.state ≠ .closed) && decide (timeout < now - connection.lastHeartbeat)

def needsReauth (now : Int) : Bool := connection.session.isExpired now

def beginDrain : Except RealtimeError Connection :=
  match connection.state with
  | .active | .draining => .ok { connection with state := .draining }
  | .closed => .error (.domainViolation "connection_state" "cannot drain a closed connection")

end Connection
end CorePlatform.Realtime
