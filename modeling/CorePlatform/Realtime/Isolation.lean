import CorePlatform.Theory.Rows
import CorePlatform.Realtime.Gateway

/-! # Stream isolation

A connection's session is pinned: no step changes it, and no channel is added without its check. So
what the subscriber finds subscribed under the lock stays allowed after the lock is given back,
whatever happens before the frame is queued; and a handle carries the device of its session,
wherever in the table or in a running loop it is. -/

namespace CorePlatform.Realtime

open Theory Option

namespace Connection

variable {connection : Connection}

theorem session_of_subscribe (hs : connection.subscribe channel = .ok (connection', added)) :
    connection'.session = connection.session := by
  unfold subscribe at hs
  split at hs
  · cases hs
  · cases hs
  · unfold admitChannel at hs
    split at hs
    · cases hs
    · split at hs <;> cases hs
      rfl

theorem session_of_unsubscribe (left : connection.unsubscribe channel = .ok connection') :
    connection'.session = connection.session := by
  unfold unsubscribe at left
  split at left
  · cases left
  · split at left <;> cases left
    rfl

theorem session_of_issueSeq (hi : connection.issueSeq channel = .ok (connection', seq)) :
    connection'.session = connection.session := by
  unfold issueSeq at hi
  split at hi
  · cases hi
  · split at hi <;> cases hi
    rfl

theorem session_of_ack (ha : connection.ack channel seq = .ok connection') :
    connection'.session = connection.session := by
  unfold ack at ha
  split at ha <;> cases ha
  rfl

theorem session_heartbeat : (connection.heartbeat now).session = connection.session := by
  unfold heartbeat
  split <;> rfl

theorem session_beginDrain : (connection.beginDrain.toOption.getD connection).session = connection.session := by
  unfold beginDrain
  split <;> rfl

theorem authorize_of_isSubscribed (hs : connection.isSubscribed channel = true) :
    connection.session.authorize channel = .ok () := by
  apply connection.authorized
  simpa [isSubscribed, SubscriptionSet.isSubscribed] using hs

end Connection

/-- The same session, and no event frame in the queue that was not there. -/
structure Socket.Follows (old new : Socket) : Prop where
  session : new.connection.session = old.connection.session
  queue : ∀ body, .event body ∈ new.queue → .event body ∈ old.queue

namespace Socket.Follows

variable {socket new : Socket}

theorem trans (first : socket.Follows middle) (second : middle.Follows new) : socket.Follows new :=
  ⟨second.session.trans first.session, fun body mem => first.queue body (second.queue body mem)⟩

theorem work (eq : new.connection = socket.connection) (hq : new.queue = socket.queue) : socket.Follows new :=
  ⟨by rw [eq], fun body mem => hq ▸ mem⟩

theorem heartbeat : socket.Follows (socket.heartbeat now) :=
  ⟨Connection.session_heartbeat, fun _ mem => mem⟩

theorem push (other : ∀ body, frame ≠ .event body) : socket.Follows (socket.push cap frame) := by
  unfold Socket.push
  split
  · refine ⟨rfl, fun body mem => ?_⟩
    rcases List.mem_append.mp mem with old | new
    · exact old
    · exact absurd (List.mem_singleton.mp new).symm (other body)
  · exact work rfl rfl

theorem handleClientFrame : socket.Follows (socket.handleClientFrame decoded now) := by
  unfold Socket.handleClientFrame
  split
  · exact work rfl rfl
  split
  case h_4 channel streamSeq _ =>
    split
    · rename_i acked
      exact ⟨Connection.session_of_ack acked, fun _ mem => mem⟩
    · exact work rfl rfl
  case h_5 => exact heartbeat
  all_goals exact work rfl rfl

theorem tick : socket.Follows (socket.tick timeout now) := by
  unfold Socket.tick
  split
  · exact work rfl rfl
  · split <;> exact work rfl rfl

end Socket.Follows

namespace Node

variable {s : Node} {i : Nat}

def sessions (s : Node) : List Session := s.sockets.map fun socket => socket.connection.session

/-- The session of the socket may have the event: its channel passes the check, and a targeted event
for one device is for the session's. -/
def Permits (sessions : List Session) (i : Nat) (event : DeliverableEvent) : Prop :=
  ∃ session, sessions[i]? = some session ∧ session.authorize event.channel = .ok () ∧
    ∀ device, event.recipient.isSome → event.deviceId = some device → session.deviceId = device

/-- The handle names the device of its socket's session. -/
def Known (sessions : List Session) (handle : ConnHandle) : Prop :=
  ∃ session, sessions[handle.socket]? = some session ∧ session.deviceId = handle.deviceId

/-- What the loop over an event holds on to. -/
structure DeliverySound (sessions : List Session) (delivery : Delivery) : Prop where
  handles : ∀ handle ∈ delivery.handles, Known sessions handle
  filter : delivery.event.recipient.isSome → delivery.deviceFilter = delivery.event.deviceId
  pending : ∀ i streamSeq, delivery.pending = some (i, streamSeq) → Permits sessions i delivery.event

structure Sound (s : Node) : Prop where
  byUser : s.table.byUser.Every (Known s.sessions)
  byChannel : s.table.byChannel.Every (Known s.sessions)
  delivery : ∀ delivery, s.delivery = some delivery → DeliverySound s.sessions delivery
  queued : ∀ entry ∈ s.queued, Permits s.sessions entry.socket entry.event
  logged : ∀ i socket, s.sockets[i]? = some socket → ∀ body, .event body ∈ socket.queue →
    ∃ entry ∈ s.queued, entry.socket = i ∧
      .event body = Codec.eventFrame entry.event.channel entry.streamSeq entry.event

theorem sessions_put (h : s.sockets[i]? = some old) (eq : new.connection.session = old.connection.session) :
    (s.put i new).sessions = s.sessions := by
  exact Rows.map_set h eq

theorem getElem?_sessions (h : s.sockets[i]? = some socket) : s.sessions[i]? = some socket.connection.session := by
  simp [sessions, h]

theorem known_handle (h : s.sockets[i]? = some socket) : Known s.sessions (handle i socket) :=
  ⟨_, getElem?_sessions h, rfl⟩

namespace Sound

section

variable (sound : s.Sound)

include sound

theorem put (h : s.sockets[i]? = some old) (hfo : old.Follows new) : (s.put i new).Sound := by
  have eq := sessions_put h hfo.session
  constructor
  case byUser => rw [eq]; exact sound.byUser
  case byChannel => rw [eq]; exact sound.byChannel
  case delivery => rw [eq]; exact sound.delivery
  case queued => rw [eq]; exact sound.queued
  case logged =>
    intro j socket hf body mem
    simp only [Node.put, List.getElem?_set] at hf
    split at hf
    · rename_i here
      subst here
      split at hf <;> cases hf
      exact sound.logged i old h body (hfo.queue body mem)
    · exact sound.logged j socket hf body mem

theorem withTable {table : ConnectionTable} (byUser : table.byUser.Every (Known s.sessions))
    (byChannel : table.byChannel.Every (Known s.sessions)) : { s with table }.Sound :=
  { sound with byUser, byChannel }

theorem withDelivery {delivery : Option Delivery}
    (fits : ∀ held, delivery = some held → DeliverySound s.sessions held) : { s with delivery }.Sound :=
  { sound with delivery := fits }

theorem withDrain {drain : Option Drain} : { s with drain }.Sound := { sound with }

theorem connect (hq : socket.queue = []) : { s with sockets := s.sockets ++ [socket] }.Sound := by
  have grows : ∀ {j : Nat} {session : Session}, s.sessions[j]? = some session →
      (sessions { s with sockets := s.sockets ++ [socket] })[j]? = some session := by
    intro j session hf
    simp only [sessions, List.map_append] at hf ⊢
    rw [List.getElem?_append_left (List.getElem?_eq_some_iff.mp hf).1]
    exact hf
  have hk : ∀ handle, Known s.sessions handle →
      Known (sessions { s with sockets := s.sockets ++ [socket] }) handle :=
    fun _ ⟨session, hf, device⟩ => ⟨session, grows hf, device⟩
  have permits : ∀ {j event}, Permits s.sessions j event →
      Permits (sessions { s with sockets := s.sockets ++ [socket] }) j event :=
    fun ⟨session, hf, rest⟩ => ⟨session, grows hf, rest⟩
  constructor
  case byUser => exact sound.byUser.mono hk
  case byChannel => exact sound.byChannel.mono hk
  case delivery =>
    intro delivery h
    have fits := sound.delivery delivery h
    exact ⟨fun handle mem => hk handle (fits.handles handle mem), fits.filter,
      fun j streamSeq pending => permits (fits.pending j streamSeq pending)⟩
  case queued => exact fun entry mem => permits (sound.queued entry mem)
  case logged =>
    intro j other hf body mem
    rcases List.mem_append.mp (List.mem_of_getElem? hf) with old | new
    · by_cases within : j < s.sockets.length
      · rw [List.getElem?_append_left within] at hf
        exact sound.logged j other hf body mem
      · rw [List.getElem?_append_right (by omega)] at hf
        rw [List.mem_singleton.mp (List.mem_of_getElem? hf), hq] at mem
        cases mem
    · rw [List.mem_singleton.mp new, hq] at mem
      cases mem

theorem perform (h : s.sockets[i]? = some socket) : (s.perform config i { socket with todo } act).Sound := by
  have hk := known_handle h
  have eq {new : Socket} (hf : socket.Follows new) : (s.put i new).sessions = s.sessions :=
    sessions_put h hf.session
  cases act with
  | insert =>
    have hf : socket.Follows { socket with todo } := .work rfl rfl
    refine (sound.put h hf).withTable ?_ ?_ <;> rw [eq hf]
    · refine sound.byUser.upsert fun old every handle mem => ?_
      rcases List.mem_append.mp mem with hb | new
      · exact every handle hb
      · rw [List.mem_singleton.mp new]
        exact hk
    · exact sound.byChannel
  | subscribe channel answers =>
    simp only [Node.perform]
    split
    · rename_i connection added subscribed
      have hf : socket.Follows { socket with
          connection
          todo := (if answers then [.send (Codec.control .subscribed (some channel) "" "" 0)] else []) ++ todo } :=
        ⟨Connection.session_of_subscribe subscribed, fun _ mem => mem⟩
      refine (sound.put h hf).withTable ?_ ?_ <;> rw [eq hf]
      · exact sound.byUser
      refine sound.byChannel.upsert fun old every handle mem => ?_
      unfold ConnectionTable.indexed at mem
      split at mem
      · exact every handle mem
      · rcases List.mem_append.mp mem with hb | new
        · exact every handle hb
        · rw [List.mem_singleton.mp new]
          exact hk
    · exact sound.put h (.work rfl rfl)
  | unsubscribe channel =>
    simp only [Node.perform]
    split
    · rename_i connection left
      have hf : socket.Follows { socket with
          connection, todo := .send (Codec.control .unsubscribed (some channel) "" "" 0) :: todo } :=
        ⟨Connection.session_of_unsubscribe left, fun _ mem => mem⟩
      refine (sound.put h hf).withTable ?_ ?_ <;> rw [eq hf]
      · exact sound.byUser
      · exact sound.byChannel.leave
    · exact sound.put h (.work rfl rfl)
  | send =>
    have hf : socket.Follows { socket with todo } := .work rfl rfl
    exact sound.put h (hf.trans (.push fun _ => Pb.ServerFrame.noConfusion))
  | ping =>
    have hf : socket.Follows { socket with todo, nonce := socket.nonce + 1 } := .work rfl rfl
    exact sound.put h (hf.trans (.push fun _ => Pb.ServerFrame.noConfusion))
  | unindex =>
    have hf : socket.Follows { socket with todo } := .work rfl rfl
    refine (sound.put h hf).withTable ?_ ?_ <;> rw [eq hf]
    · exact sound.byUser
    · exact sound.byChannel.leave
  | unlock => exact sound.put h (.work rfl rfl)
  | remove =>
    have hf : socket.Follows { socket with todo } := .work rfl rfl
    refine (sound.put h hf).withTable ?_ ?_ <;> rw [eq hf]
    · exact sound.byUser.leave
    · exact sound.byChannel
  | abort => exact sound.put h ⟨rfl, nofun⟩

theorem receive (ev : DeliverableEvent) :
    { s with delivery := some ⟨ev, (s.table.targets ev).2, (s.table.targets ev).1, none⟩ }.Sound := by
  apply sound.withDelivery
  rintro delivery ⟨⟩
  constructor
  case handles =>
    intro handle mem
    simp only [ConnectionTable.targets] at mem
    split at mem
    · cases hf : KeyedList.find ev.channel.display s.table.byChannel with
      | none => simp [hf] at mem
      | some => exact sound.byChannel.find hf handle (by simpa [hf] using mem)
    · rename_i recipient _
      cases hf : KeyedList.find recipient.val s.table.byUser with
      | none => simp [hf] at mem
      | some => exact sound.byUser.find hf handle (by simpa [hf] using mem)
  case filter =>
    intro targeted
    obtain ⟨recipient, addressed⟩ : ∃ recipient, ev.recipient = some recipient :=
      isSome_iff_exists.mp targeted
    simp [ConnectionTable.targets, addressed]
  case pending =>
    intro i streamSeq pending
    cases pending

end

section

variable (sound : s.Sound)

include sound

theorem deliver {delivery : Delivery} (h : s.delivery = some delivery) (hd : s.deliver delivery = some next) :
    next.Sound := by
  have fits := sound.delivery delivery h
  unfold Node.deliver at hd
  split at hd
  · cases hd
  · cases hd
    exact sound.withDelivery (by simp)
  · rename_i handle handles quiet hl
    have rest : DeliverySound s.sessions { delivery with handles } :=
      ⟨fun other mem => fits.handles other (hl ▸ .tail _ mem), fits.filter, fits.pending⟩
    have skips : { s with delivery := some { delivery with handles } }.Sound :=
      sound.withDelivery fun _ eq => some.inj eq ▸ rest
    simp only at hd
    split at hd
    · cases hd
      exact skips
    rename_i passes
    split at hd
    · cases hd
    rename_i socket hf
    split at hd <;> cases hd
    unfold deliverTo
    split
    · rename_i subscribed
      split
      · rename_i connection streamSeq issued
        have hfo : socket.Follows { socket with connection } :=
          ⟨Connection.session_of_issueSeq issued, fun _ mem => mem⟩
        have eq := sessions_put hf hfo.session
        apply (sound.put hf hfo).withDelivery
        rintro _ ⟨⟩
        rw [eq]
        refine ⟨rest.handles, rest.filter, ?_⟩
        rintro i seq ⟨⟩
        refine ⟨_, getElem?_sessions hf, Connection.authorize_of_isSubscribed subscribed, ?_⟩
        intro device targeted limited
        obtain ⟨_, at_, device_⟩ := fits.handles handle (hl ▸ .head _)
        rw [getElem?_sessions hf] at at_
        cases at_
        have filter : delivery.deviceFilter = some device := (fits.filter targeted).trans limited
        have own : device = handle.deviceId := by simpa [filter] using passes
        exact device_.trans own.symm
      · exact skips
    · exact skips

theorem offer {delivery : Delivery} (h : s.delivery = some delivery)
    (ho : s.offer config delivery = some next) : next.Sound := by
  have fits := sound.delivery delivery h
  unfold Node.offer at ho
  split at ho
  · cases ho
  · rename_i i streamSeq pending
    have hp := fits.pending i streamSeq pending
    have rest : DeliverySound s.sessions { delivery with pending := none } := ⟨fits.handles, fits.filter, nofun⟩
    split at ho
    · cases ho
    · rename_i socket hf
      split at ho <;> cases ho
      · have eq : (s.put i { socket with queue := socket.queue ++
            [Codec.eventFrame delivery.event.channel streamSeq delivery.event] }).sessions = s.sessions :=
          sessions_put hf rfl
        constructor
        case byUser => exact eq ▸ sound.byUser
        case byChannel => exact eq ▸ sound.byChannel
        case delivery =>
          rintro _ ⟨⟩
          exact eq ▸ rest
        case queued =>
          intro entry mem
          rcases List.mem_append.mp mem with old | new
          · exact eq ▸ sound.queued entry old
          · rw [List.mem_singleton.mp new]
            exact eq ▸ hp
        case logged =>
          intro j other found' body mem
          simp only [Node.put, List.getElem?_set] at found'
          split at found'
          · rename_i here
            subst here
            split at found' <;> cases found'
            rcases List.mem_append.mp mem with old | new
            · obtain ⟨entry, logged, at_, frame⟩ := sound.logged i socket hf body old
              exact ⟨entry, List.mem_append_left _ logged, at_, frame⟩
            · exact ⟨_, List.mem_append_right _ (List.mem_singleton_self _), rfl, List.mem_singleton.mp new⟩
          · obtain ⟨entry, logged, at_, frame⟩ := sound.logged j other found' body mem
            exact ⟨entry, List.mem_append_left _ logged, at_, frame⟩
      · exact sound.withDelivery fun _ eq => some.inj eq ▸ rest

theorem mark {drain : Drain} (hm : s.mark drain = some next) : next.Sound := by
  unfold Node.mark at hm
  split at hm
  · cases hm
  · cases hm
    exact sound.withDrain
  · split at hm
    · cases hm
    rename_i socket hf
    split at hm <;> cases hm
    have hfo : socket.Follows { socket with
        connection := socket.connection.beginDrain.toOption.getD socket.connection } :=
      ⟨Connection.session_beginDrain, fun _ mem => mem⟩
    exact (sound.put hf hfo).withDrain

theorem signal {drain : Drain} (hs : s.signal config drain = some next) : next.Sound := by
  unfold Node.signal at hs
  split at hs
  · cases hs
  · split at hs <;> cases hs
    rename_i socket hf
    exact (sound.put hf (.push fun _ => Pb.ServerFrame.noConfusion)).withDrain

theorem onWaiting (hfo : ∀ socket : Socket, socket.Follows (change socket))
    (hm : s.onWaiting i change = some next) : next.Sound := by
  unfold Node.onWaiting at hm
  split at hm
  · cases hm
  · rename_i socket hf
    split at hm <;> cases hm
    exact sound.put hf (hfo socket)

theorem write (hs : step config s (.write i sent) = some next) : next.Sound := by
  simp only [step] at hs
  split at hs
  · cases hs
  rename_i socket hf
  split at hs
  · cases hs
  · rename_i frame queue hw
    split at hs <;> cases hs
    · exact sound.put hf ⟨rfl, fun body mem => hw ▸ .tail _ mem⟩
    · exact sound.put hf ⟨rfl, nofun⟩

theorem step {label : Label} (hs : Node.step config s label = some next) : next.Sound := by
  cases label with
  | connect =>
    cases hs
    exact sound.connect rfl
  | binary _ decoded now =>
    exact sound.onWaiting (fun _ => .trans (.heartbeat) (.handleClientFrame)) hs
  | pong _ now => exact sound.onWaiting (fun _ => .heartbeat) hs
  | hangUp =>
    have leaves (socket : Socket) : socket.Follows socket.tearDown := .work rfl rfl
    exact sound.onWaiting leaves hs
  | tick => exact sound.onWaiting (fun _ => .tick) hs
  | advance _ =>
    simp only [Node.step] at hs
    split at hs
    · cases hs
    · rename_i hf
      split at hs <;> cases hs
      exact sound.perform hf
  | write => exact sound.write hs
  | receive =>
    simp only [Node.step] at hs
    split at hs <;> cases hs
    · exact sound.receive _
    · exact sound
  | deliver =>
    obtain ⟨dlv, h, delivered⟩ := bind_eq_some_iff.mp hs
    exact sound.deliver h delivered
  | offer =>
    obtain ⟨_, h, offered⟩ := bind_eq_some_iff.mp hs
    exact sound.offer h offered
  | beginDrain =>
    simp only [Node.step] at hs
    split at hs <;> cases hs
    exact sound.withDrain
  | drain =>
    obtain ⟨drain, -, marked⟩ := bind_eq_some_iff.mp hs
    exact sound.mark marked
  | signal =>
    obtain ⟨_, -, signalled⟩ := bind_eq_some_iff.mp hs
    exact sound.signal signalled

end

theorem start : Node.empty.Sound where
  byUser := nofun
  byChannel := nofun
  delivery := by simp [Node.empty]
  queued := by simp [Node.empty]
  logged := nofun

end Sound

/-- Streams are kept apart. Every event queued on a socket is its user's own if its channel is
identity-scoped, and meant for its device if targeted at one; and every event frame in a queue is
one of these. -/
structure Isolated (s : Node) : Prop where
  ownStream : ∀ entry ∈ s.queued, entry.event.channel.class_.isIdentityScoped = true →
    ∃ socket, s.sockets[entry.socket]? = some socket ∧ entry.event.channel.key = socket.connection.session.userId
  ownDevice : ∀ entry ∈ s.queued, entry.event.recipient.isSome → ∀ device, entry.event.deviceId = some device →
    ∃ socket, s.sockets[entry.socket]? = some socket ∧ socket.connection.session.deviceId = device
  logged : ∀ i socket, s.sockets[i]? = some socket → ∀ body, .event body ∈ socket.queue →
    ∃ entry ∈ s.queued, entry.socket = i ∧
      .event body = Codec.eventFrame entry.event.channel entry.streamSeq entry.event

theorem Sound.isolated (sound : s.Sound) : s.Isolated := by
  have socketOf {i : Nat} {session : Session} (hf : s.sessions[i]? = some session) :
      ∃ socket, s.sockets[i]? = some socket ∧ socket.connection.session = session := by
    simpa [sessions] using hf
  constructor
  case ownStream =>
    intro entry mem identity
    obtain ⟨session, hf, allowed, -⟩ := sound.queued entry mem
    obtain ⟨socket, at_, rfl⟩ := socketOf hf
    exact ⟨socket, at_, Session.key_of_authorize allowed identity⟩
  case ownDevice =>
    intro entry mem targeted device limited
    obtain ⟨_, hf, -, own⟩ := sound.queued entry mem
    obtain ⟨socket, at_, rfl⟩ := socketOf hf
    exact ⟨socket, at_, own device targeted limited⟩
  case logged => exact sound.logged

/-- Whatever clients send and whatever envelopes arrive, in any interleaving: no stream reaches a
socket it is not for. -/
theorem stream_isolation (config : GatewayConfig) (trace : List Label) :
    (machine config).Always Isolated empty trace := by
  apply Machine.always_of_keeps Sound (fun _ _ _ sound _ stepped => sound.step stepped)
    (fun _ sound => sound.isolated) Sound.start (Machine.meets_true empty)

end Node
end CorePlatform.Realtime
