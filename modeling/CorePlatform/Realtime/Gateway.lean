import CorePlatform.Theory.KeyedList
import CorePlatform.Theory.Machine
import CorePlatform.Realtime.Codec

/-! # A gateway node

Each socket has a task that reads its frames, a writer that empties its send queue, and a connection
behind a lock. The subscriber of the node delivers one envelope after another, taking the locks of
the connections in turn. A step is what happens without another task getting in between: one change
of the connection table, one offer to a send queue, one stretch under a lock that is given back at
once. A task that holds a lock between steps says so in its socket, and keeps the subscriber out. -/

namespace CorePlatform.Realtime

open Theory List

/-- The node-local handle of a live connection. The source's lock and sender are references to one
socket; here they are its number. -/
structure ConnHandle where
  connectionId : ConnectionId
  deviceId : DeviceId
  socket : Nat

abbrev HandleIndex := List (String × List ConnHandle)

namespace HandleIndex

/-- Drop one connection from an entry, and the entry when it empties. -/
def leave (key : String) (connectionId : ConnectionId) (index : HandleIndex) : HandleIndex :=
  (index.map fun entry =>
    if entry.1 = key then (entry.1, entry.2.filter fun handle => handle.connectionId != connectionId) else entry).filter
    fun entry => ! (entry.1 == key && entry.2.isEmpty)

def Every (p : ConnHandle → Prop) (index : HandleIndex) : Prop := ∀ entry ∈ index, ∀ handle ∈ entry.2, p handle

theorem Every.mono (hi : ∀ handle, p handle → q handle) (he : Every p index) : Every q index :=
  fun entry mem handle h => hi handle (he entry mem handle h)

theorem Every.find (he : Every p index) (hf : KeyedList.find key index = some handles) :
    ∀ handle ∈ handles, p handle := by
  induction index with
  | nil => cases hf
  | cons entry _ ih =>
    by_cases same : entry.1 = key
    · simp only [KeyedList.find, if_pos same, Option.some.injEq] at hf
      subst hf
      exact he entry mem_cons_self
    · simp only [KeyedList.find, if_neg same] at hf
      exact ih (fun entry mem => he entry (.tail _ mem)) hf

theorem Every.upsert (he : Every p index)
    (hc : ∀ held, (∀ handle ∈ held.getD [], p handle) → ∀ handle ∈ change held, p handle) :
    Every p (KeyedList.upsert key change index) := by
  induction index with
  | nil =>
    intro entry mem
    rw [mem_singleton.mp mem]
    exact hc none nofun
  | cons entry rest ih =>
    have here : ∀ handle ∈ entry.2, p handle := he entry mem_cons_self
    have hl : Every p rest := fun entry mem => he entry (mem_cons_of_mem _ mem)
    unfold KeyedList.upsert
    split
    · intro entry' mem
      rcases mem_cons.mp mem with rfl | old
      · exact hc (some entry.2) here
      · exact hl entry' old
    · intro entry' mem
      rcases mem_cons.mp mem with rfl | old
      · exact here
      · exact ih hl entry' old

theorem Every.leave (he : Every p index) : Every p (leave key connectionId index) := by
  intro entry' mem handle h
  obtain ⟨entry, old, rfl⟩ := mem_map.mp (mem_of_mem_filter mem)
  split at h
  · exact he entry old handle (mem_of_mem_filter h)
  · exact he entry old handle h

end HandleIndex

structure ConnectionTable where
  byUser : HandleIndex
  byChannel : HandleIndex

namespace ConnectionTable

def new : ConnectionTable := ⟨[], []⟩

variable (table : ConnectionTable)

def insert (userId : String) (handle : ConnHandle) : ConnectionTable :=
  { table with byUser := KeyedList.upsert userId (fun held => held.getD [] ++ [handle]) table.byUser }

def remove (userId : String) (connectionId : ConnectionId) : ConnectionTable :=
  { table with byUser := table.byUser.leave userId connectionId }

/-- Idempotent on the connection id. -/
def indexed (handle : ConnHandle) (held : List ConnHandle) : List ConnHandle :=
  if held.any fun other => other.connectionId == handle.connectionId then held else held ++ [handle]

def subscribeChannel (channel : String) (handle : ConnHandle) : ConnectionTable :=
  { table with byChannel := KeyedList.upsert channel (fun held => indexed handle (held.getD [])) table.byChannel }

def unsubscribeChannel (channel : String) (connectionId : ConnectionId) : ConnectionTable :=
  { table with byChannel := table.byChannel.leave channel connectionId }

/-- The handles an event goes to, and the device it is limited to. -/
def targets (event : DeliverableEvent) : List ConnHandle × Option DeviceId :=
  match event.recipient with
  | none => ((KeyedList.find event.channel.display table.byChannel).getD [], none)
  | some recipient => ((KeyedList.find recipient.val table.byUser).getD [], event.deviceId)

end ConnectionTable

/-- What the task of a socket still has to do before it waits for its next event. -/
inductive Act where
  | insert
  /-- Subscribe, under the lock, and index the connection. A resume sends no answer. -/
  | subscribe (channel : ChannelRef) (answers : Bool)
  | unsubscribe (channel : ChannelRef)
  | send (control : Pb.Control)
  | ping
  /-- Drop the connection from the index of a channel it held. -/
  | unindex (channel : ChannelRef)
  | unlock
  | remove
  /-- Stop the writer. -/
  | abort

structure Socket where
  connection : Connection
  todo : List Act
  /-- The socket's own task holds the lock of the connection. -/
  locked : Bool
  reading : Bool
  nonce : Nat
  queue : List Pb.ServerFrame
  writing : Bool

namespace Socket

def new (connection : Connection) : Socket where
  connection := connection
  todo := [.insert]
  locked := false
  reading := true
  nonce := 0
  queue := []
  writing := true

variable (socket : Socket)

def waiting : Bool := socket.reading && socket.todo.isEmpty

/-- `try_send`: refused by a full queue and by one nobody receives from. -/
def accepts (sendQueueCap : Nat) : Bool := socket.writing && decide (socket.queue.length < sendQueueCap)

def push (sendQueueCap : Nat) (frame : Pb.ServerFrame) : Socket :=
  if socket.accepts sendQueueCap then { socket with queue := socket.queue ++ [frame] } else socket

def heartbeat (now : Int) : Socket := { socket with connection := socket.connection.heartbeat now }

/-- Take the lock and work through a list under it. -/
def underLock (acts : List Act) : Socket := { socket with todo := acts ++ [.unlock], locked := true }

def handleClientFrame (decoded : Except String Pb.ClientFrame) (now : Int) : Socket :=
  match decoded with
  | .error _ => socket
  | .ok frame =>
    match Codec.decodeClientFrame frame with
    | .error _ => socket
    | .ok (.subscribe channels) => socket.underLock (channels.map fun channel => .subscribe channel true)
    | .ok (.unsubscribe channels) => socket.underLock (channels.map .unsubscribe)
    | .ok (.ack channel streamSeq) =>
      match socket.connection.ack channel streamSeq with
      | .ok connection => { socket with connection }
      | .error _ => socket
    | .ok (.pong _) => socket.heartbeat now
    | .ok (.authRefresh _) => socket
    | .ok (.resume cursors) => socket.underLock (cursors.map fun cursor => .subscribe cursor.1 false)

/-- Leave the loop: the lock is held until the channels are dropped from the index. -/
def tearDown : Socket :=
  { socket with
    reading := false
    locked := true
    todo := socket.connection.subscribedChannels.map .unindex ++ [.unlock, .remove, .abort] }

def reauthRequired : Pb.Control :=
  Codec.control .reauthRequired none "RTM-1002" "edge token expired; refresh and re-handshake" 0

def tick (timeout now : Int) : Socket :=
  if socket.connection.shouldReap now timeout then socket.tearDown
  else if socket.connection.needsReauth now then { socket with todo := [.send reauthRequired, .ping] }
  else { socket with todo := [.ping] }

end Socket

/-- The loop of the subscriber over the handles of one event. -/
structure Delivery where
  event : DeliverableEvent
  deviceFilter : Option DeviceId
  handles : List ConnHandle
  /-- The socket and the sequence number of the frame that is offered next. -/
  pending : Option (Nat × Nat)

structure Drain where
  reconnectAfterMs : Nat
  handles : List ConnHandle
  /-- The socket that is marked and not yet signalled. -/
  pending : Option Nat

/-- An event whose frame a send queue took. -/
structure Queued where
  socket : Nat
  event : DeliverableEvent
  streamSeq : Nat

structure GatewayConfig where
  nodeId : NodeId
  subscriptionCap : Nat
  sendQueueCap : Nat
  heartbeatTimeout : Int

structure Node where
  sockets : List Socket
  table : ConnectionTable
  delivery : Option Delivery
  drain : Option Drain
  /-- Every event that was ever queued on a socket. -/
  queued : List Queued

inductive Label where
  /-- A handshake that was accepted: the token names the session. -/
  | connect (connectionId : ConnectionId) (session : Session) (now : Int)
  /-- A binary message; the bytes decode to a frame or do not. -/
  | binary (socket : Nat) (decoded : Except String Pb.ClientFrame) (now : Int)
  | pong (socket : Nat) (now : Int)
  /-- A close message, an error or the end of the stream. -/
  | hangUp (socket : Nat)
  | tick (socket : Nat) (now : Int)
  /-- The task of a socket goes on with what it has to do. -/
  | advance (socket : Nat)
  | write (socket : Nat) (sent : Bool)
  /-- The subscriber takes a message that decodes to an envelope; it skips any other. -/
  | receive (envelope : Pb.DeliverEnvelope)
  | deliver
  | offer
  | beginDrain (reconnectAfterMs : Nat)
  | drain
  | signal

namespace Node

def empty : Node := ⟨[], .new, none, none, []⟩

variable (s : Node)

def put (i : Nat) (socket : Socket) : Node := { s with sockets := s.sockets.set i socket }

def handle (i : Nat) (socket : Socket) : ConnHandle :=
  ⟨socket.connection.id, socket.connection.session.deviceId, i⟩

/-- The task of a socket does what is next; `socket` has it taken off its list. -/
def perform (config : GatewayConfig) (i : Nat) (socket : Socket) : Act → Node
  | .insert => { s.put i socket with
      table := s.table.insert socket.connection.session.userId.val (handle i socket) }
  | .subscribe channel answers =>
    match socket.connection.subscribe channel with
    | .ok (connection, _) =>
      let answer := Codec.control .subscribed (some channel) "" "" 0
      { s.put i { socket with
            connection
            todo := (if answers then [.send answer] else []) ++ socket.todo } with
        table := s.table.subscribeChannel channel.display (handle i socket) }
    | .error e =>
      let answer := Codec.control .error (some channel) e.errorCode e.display 0
      s.put i { socket with todo := (if answers then [.send answer] else []) ++ socket.todo }
  | .unsubscribe channel =>
    match socket.connection.unsubscribe channel with
    | .ok connection =>
      let answer := Codec.control .unsubscribed (some channel) "" "" 0
      { s.put i { socket with connection, todo := .send answer :: socket.todo } with
        table := s.table.unsubscribeChannel channel.display socket.connection.id }
    | .error _ => s.put i socket
  | .send control => s.put i (socket.push config.sendQueueCap (.control control))
  | .ping => s.put i ({ socket with nonce := socket.nonce + 1 }.push config.sendQueueCap (.ping (socket.nonce + 1)))
  | .unindex channel => { s.put i socket with
      table := s.table.unsubscribeChannel channel.display socket.connection.id }
  | .unlock => s.put i { socket with locked := false }
  | .remove => { s.put i socket with
      table := s.table.remove socket.connection.session.userId.val socket.connection.id }
  | .abort => s.put i { socket with writing := false, queue := [] }

/-- The stretch of the delivery loop under the lock of one connection. -/
def deliverTo (delivery : Delivery) (i : Nat) (socket : Socket) : Node :=
  if socket.connection.isSubscribed delivery.event.channel then
    match socket.connection.issueSeq delivery.event.channel with
    | .ok (connection, streamSeq) =>
      { s.put i { socket with connection } with
        delivery := some { delivery with pending := some (i, streamSeq) } }
    | .error _ => { s with delivery := some delivery }
  else { s with delivery := some delivery }

/-- The delivery loop takes its next handle. -/
def deliver (delivery : Delivery) : Option Node :=
  match delivery.pending, delivery.handles with
  | some _, _ => none
  | none, [] => some { s with delivery := none }
  | none, handle :: handles =>
    let delivery := { delivery with handles }
    if delivery.deviceFilter.any (· != handle.deviceId) then some { s with delivery := some delivery }
    else
      match s.sockets[handle.socket]? with
      | none => none
      | some socket => if socket.locked then none else some (s.deliverTo delivery handle.socket socket)

/-- The frame that was made under the lock is offered to the queue of its socket. -/
def offer (config : GatewayConfig) (delivery : Delivery) : Option Node :=
  match delivery.pending with
  | none => none
  | some (i, streamSeq) =>
    match s.sockets[i]? with
    | none => none
    | some socket =>
      let delivery' := { delivery with pending := none }
      if socket.accepts config.sendQueueCap then
        let frame := Codec.eventFrame delivery.event.channel streamSeq delivery.event
        some { s.put i { socket with queue := socket.queue ++ [frame] } with
          delivery := some delivery'
          queued := s.queued ++ [⟨i, delivery.event, streamSeq⟩] }
      else some { s with delivery := some delivery' }

/-- The drain marks the connection of its next handle. -/
def mark (drain : Drain) : Option Node :=
  match drain.pending, drain.handles with
  | some _, _ => none
  | none, [] => some { s with drain := none }
  | none, handle :: handles =>
    match s.sockets[handle.socket]? with
    | none => none
    | some socket =>
      if socket.locked then none
      else
        let connection := socket.connection.beginDrain.toOption.getD socket.connection
        some { s.put handle.socket { socket with connection } with
          drain := some { drain with handles, pending := some handle.socket } }

def reconnect (reconnectAfterMs : Nat) : Pb.Control :=
  Codec.control .reconnect none "RTM-5003" "node draining; reconnect with backoff" reconnectAfterMs

def signal (config : GatewayConfig) (drain : Drain) : Option Node :=
  match drain.pending with
  | none => none
  | some i =>
    match s.sockets[i]? with
    | none => none
    | some socket =>
      some { s.put i (socket.push config.sendQueueCap (.control (reconnect drain.reconnectAfterMs))) with
        drain := some { drain with pending := none } }

/-- An event of a waiting socket. -/
def onWaiting (i : Nat) (change : Socket → Socket) : Option Node :=
  match s.sockets[i]? with
  | none => none
  | some socket => if socket.waiting then some (s.put i (change socket)) else none

def step (config : GatewayConfig) (s : Node) : Label → Option Node
  | .connect connectionId session now =>
    some { s with sockets := s.sockets ++
      [.new (.open_ connectionId config.nodeId session config.subscriptionCap now)] }
  | .binary i decoded now => s.onWaiting i fun socket => (socket.heartbeat now).handleClientFrame decoded now
  | .pong i now => s.onWaiting i fun socket => socket.heartbeat now
  | .hangUp i => s.onWaiting i fun socket => socket.tearDown
  | .tick i now => s.onWaiting i fun socket => socket.tick config.heartbeatTimeout now
  | .advance i =>
    match s.sockets[i]? with
    | none => none
    | some socket =>
      match socket.todo with
      | [] => none
      | act :: todo => some (s.perform config i { socket with todo } act)
  | .write i sent =>
    match s.sockets[i]? with
    | none => none
    | some socket =>
      match socket.queue with
      | [] => none
      | _ :: queue =>
        if sent then some (s.put i { socket with queue })
        else some (s.put i { socket with queue := [], writing := false })
  | .receive envelope =>
    match s.delivery, Codec.envelopeFromPb envelope with
    | none, .ok event =>
      some { s with delivery := some ⟨event, (s.table.targets event).2, (s.table.targets event).1, none⟩ }
    | none, .error _ => some s
    | some _, _ => none
  | .deliver => s.delivery.bind s.deliver
  | .offer => s.delivery.bind (s.offer config)
  | .beginDrain reconnectAfterMs =>
    if s.drain.isNone then
      some { s with drain := some ⟨reconnectAfterMs, s.table.byUser.flatMap Prod.snd, none⟩ }
    else none
  | .drain => s.drain.bind s.mark
  | .signal => s.drain.bind (s.signal config)

def machine (config : GatewayConfig) : Machine Node Label where
  init := (· = empty)
  step := step config

end Node
end CorePlatform.Realtime
