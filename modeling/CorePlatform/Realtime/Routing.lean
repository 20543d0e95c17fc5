import CorePlatform.Theory.Rows
import CorePlatform.Realtime.Registry

/-! # Is a live connection routable?

Only a bind sets the time to live of a user's hash, and a connection binds once, when it opens. One
that answers every ping outlives its entry, and the fan-out then reports its user offline. It stays
routable exactly as long as some connection of the user opens again and again within the time to
live. -/

namespace CorePlatform.Realtime.Fabric

open Theory ConnectionRegistry Function Option

/-- Every open connection that met its deadlines is resolved, and an event for its user that may go
to its device is not reported offline, however publishing goes. -/
def Routable (config : RegistryConfig) (s : Fabric) : Prop :=
  ∀ live ∈ s.connections, live.punctual = true →
    placement live.connection ∈ s.resolve config live.connection.session.userId ∧
    ∀ broadcast publish event outcome, event.recipient = some live.connection.session.userId →
      event.deviceId.all (live.connection.session.deviceId == ·) = true →
      FanOutHandler.fanOut (fun userId => .ok (s.resolve config userId)) broadcast publish event = .ok outcome →
      outcome.offline = false

/-- Time passes only as long as, for each connection that stays punctual, its user's hash was bound
less than the time to live ago; and there is a time to live when a connection opens. -/
def Refreshed (config : RegistryConfig) (s : Fabric) : Label → Prop
  | .connect connectionId _ _ answered =>
    fresh connectionId s.connections = true → answered = true → 0 ≤ config.heartbeatTimeout → 0 < config.ttl
  | .elapse time =>
    ∀ live ∈ s.connections, (observe config (s.now + time) live).punctual = true →
      ∃ boundAt, (live.connection.session.userId, boundAt) ∈ s.binds ∧ s.now + time < boundAt + config.ttl
  | .heartbeat _ | .disconnect _ _ | .tick _ _ => True

section

variable {config : RegistryConfig} {s : Fabric} {connections : List OpenConnection}

/-- What the registry's hashes and the record of the binds have to do with each other. -/
structure Recorded (config : RegistryConfig) (s : Fabric) : Prop where
  hash : ∀ userId hash, s.presence (presenceKey userId) = some hash →
    ∃ boundAt, (userId, boundAt) ∈ s.binds ∧ hash.expiresAt = boundAt + config.ttl ∧
      ∀ earlier, (userId, earlier) ∈ s.binds → earlier ≤ boundAt
  bound : ∀ userId boundAt, (userId, boundAt) ∈ s.binds → ∃ hash, s.presence (presenceKey userId) = some hash
  past : ∀ bind ∈ s.binds, bind.2 ≤ s.now
  distinct : (s.connections.map fun live => live.connection.id).Nodup

/-- The field of a location is in its user's hash, and the hash has not expired. -/
def Held (config : RegistryConfig) (s : Fabric) (location : ConnectionLocation) : Prop :=
  ∃ hash, s.presence (presenceKey location.userId) = some hash ∧ s.now < hash.expiresAt ∧
    (location.connectionId.val, config.json.toText ⟨location.deviceId.val, location.nodeId.val⟩) ∈ hash.fields

theorem mem_resolve_of_held {location : ConnectionLocation} (h : Held config s location) :
    location ∈ s.resolve config location.userId := by
  obtain ⟨_, stored, alive, mem⟩ := h
  simp only [resolve, ConnectionRegistry.resolve, hgetall, stored, if_pos alive]
  exact List.mem_filterMap.mpr ⟨_, mem, location_bound config location⟩

theorem resolve_of_stale (inv : Recorded config s)
    (hs : ∀ boundAt, (userId, boundAt) ∈ s.binds → boundAt + config.ttl ≤ s.now) : s.resolve config userId = [] := by
  unfold resolve ConnectionRegistry.resolve hgetall
  cases stored : s.presence (presenceKey userId) with
  | none => rfl
  | some hash =>
    obtain ⟨boundAt, mem, _, -⟩ := inv.hash userId hash stored
    have over_ := hs boundAt mem
    have dead : ¬ s.now < hash.expiresAt := by omega
    simp [dead]

theorem heartbeat_kept (now : Int) :
    (connection.heartbeat now).id = connection.id ∧ placement (connection.heartbeat now) = placement connection := by
  unfold Connection.heartbeat
  split <;> exact ⟨rfl, rfl⟩

theorem recorded_bind (conn : Connection) (inv : Recorded config s)
    (distinct : ((s.connections ++ opened).map fun live => live.connection.id).Nodup) :
    Recorded config { s with
      presence := bind config s.presence s.now (placement conn)
      connections := s.connections ++ opened
      binds := s.binds ++ [(conn.session.userId, s.now)] } := by
  constructor
  case hash =>
    intro userId hash stored
    rcases update_cases stored with ⟨here, new⟩ | ⟨elsewhere, old⟩
    · cases new
      cases presenceKey_injective here
      refine ⟨s.now, List.mem_append_right _ (List.mem_singleton_self _), rfl, ?_⟩
      intro he mem
      rcases List.mem_append.mp mem with hb | this
      · exact inv.past _ hb
      · cases List.mem_singleton.mp this
        exact Int.le_refl _
    · obtain ⟨boundAt, mem, expires, last⟩ := inv.hash userId hash old
      refine ⟨boundAt, List.mem_append_left _ mem, expires, ?_⟩
      intro he mem
      rcases List.mem_append.mp mem with hb | this
      · exact last he hb
      · cases List.mem_singleton.mp this
        exact absurd rfl elsewhere
  case bound =>
    intro userId boundAt mem
    by_cases eq : presenceKey userId = presenceKey conn.session.userId
    · exact ⟨_, by rw [eq]; exact update_self ..⟩
    rcases List.mem_append.mp mem with hb | this
    · obtain ⟨hash, stored⟩ := inv.bound userId boundAt hb
      exact ⟨hash, by rw [← stored]; exact update_of_ne eq ..⟩
    · cases List.mem_singleton.mp this
      exact absurd rfl eq
  case past =>
    intro bind_ mem
    rcases List.mem_append.mp mem with hb | this
    · exact inv.past bind_ hb
    · cases List.mem_singleton.mp this
      exact Int.le_refl _
  case distinct => exact distinct

theorem recorded_evict (inv : Recorded config s) (userId : UserId) (connectionId : ConnectionId) :
    Recorded config { s with presence := evict s.presence userId connectionId } := by
  constructor
  case hash =>
    intro other hash stored
    rcases update_cases stored with ⟨here, new⟩ | ⟨-, old⟩
    · obtain ⟨hb, h, rfl⟩ := map_eq_some_iff.mp new
      exact inv.hash other hb (here ▸ h)
    · exact inv.hash other hash old
  case bound =>
    intro other boundAt mem
    obtain ⟨hash, stored⟩ := inv.bound other boundAt mem
    by_cases same : presenceKey other = presenceKey userId
    · refine ⟨{ hash with fields := hash.fields.filter fun field => field.1 != connectionId.val }, ?_⟩
      simp only [evict, update_self, ← same, stored, map_some]
    · exact ⟨hash, by rw [← stored]; exact update_of_ne same ..⟩
  case past => exact inv.past
  case distinct => exact inv.distinct

theorem recorded_tearDown (inv : Recorded config s) : Recorded config (s.tearDown i closing evicted) := by
  have fewer : ((s.connections.eraseIdx i).map fun live => live.connection.id).Nodup :=
    ((List.eraseIdx_sublist s.connections i).map _).nodup inv.distinct
  cases evicted with
  | true =>
    have evicts := recorded_evict inv closing.connection.session.userId closing.connection.id
    exact { evicts with distinct := fewer }
  | false => exact { inv with distinct := fewer }

theorem nodup_opened (conn : Connection) (answered : Bool) (inv : Recorded config s)
    (new : fresh conn.id s.connections = true) :
    ((s.connections ++ if answered then [observe config s.now ⟨conn, true⟩] else []).map
      fun live => live.connection.id).Nodup := by
  cases answered with
  | false => simpa using inv.distinct
  | true =>
    rw [List.map_append]
    refine List.nodup_append.mpr ⟨inv.distinct, List.pairwise_singleton _ _, ?_⟩
    intro id mem other single
    obtain ⟨live, h, rfl⟩ := List.mem_map.mp mem
    cases List.mem_singleton.mp single
    have ne := List.all_eq_true.mp new live h
    exact bne_iff_ne.mp ne

theorem recorded_step (inv : Recorded config s) (hs : step config s label = some next) : Recorded config next := by
  cases label with
  | connect _ _ _ answered =>
    simp only [step] at hs
    split at hs <;> cases hs
    rename_i new
    exact recorded_bind _ inv (nodup_opened _ answered inv new)
  | heartbeat i =>
    simp only [step] at hs
    split at hs <;> cases hs
    rename_i beating at_
    have eq : (s.connections.set i { beating with connection := beating.connection.heartbeat s.now }).map
        (fun live => live.connection.id) = s.connections.map fun live => live.connection.id :=
      Rows.map_set at_ (heartbeat_kept s.now).1
    exact { inv with distinct := eq ▸ inv.distinct }
  | disconnect =>
    simp only [step] at hs
    split at hs <;> cases hs
    exact recorded_tearDown inv
  | tick =>
    simp only [step] at hs
    split at hs
    · cases hs
    · split at hs <;> cases hs
      · exact recorded_tearDown inv
      · exact inv
  | elapse =>
    cases hs
    refine ⟨inv.hash, inv.bound, ?_, ?_⟩
    · intro bind_ mem
      have hb := inv.past bind_ mem
      simp only
      omega
    · simpa [observe, Function.comp_def] using inv.distinct

/-- Every open connection that met its deadlines has its field in a hash that is alive. -/
def AllHeld (config : RegistryConfig) (s : Fabric) : Prop :=
  ∀ live ∈ s.connections, live.punctual = true → Held config s (placement live.connection)

theorem held_bind {location : ConnectionLocation} {binds : List (UserId × Int)} (inv : Recorded config s)
    (other : location.connectionId ≠ new.connectionId) (h : Held config s location) :
    Held config { s with presence := bind config s.presence s.now new, connections, binds } location := by
  obtain ⟨hash, stored, alive, mem⟩ := h
  by_cases eq : presenceKey location.userId = presenceKey new.userId
  · refine ⟨_, by rw [eq]; exact update_self .., ?_, ?_⟩
    · -- A hash that is alive was bound in the past, so there is a time to live.
      obtain ⟨_, bound, _, -⟩ := inv.hash _ hash stored
      have hb := inv.past _ bound
      simp only at hb ⊢
      omega
    · apply KeyedList.mem_upsert_of_ne (fun clash => other (Subtype.ext clash))
      simp only [hgetall, ← eq, stored, if_pos alive]
      exact mem
  · exact ⟨hash, by rw [← stored]; exact update_of_ne eq .., alive, mem⟩

theorem held_bound {binds : List (UserId × Int)} (hl : 0 < config.ttl) :
    Held config { s with presence := bind config s.presence s.now new, connections, binds } new := by
  refine ⟨_, update_self .., ?_, KeyedList.mem_upsert⟩
  simp only
  omega

theorem held_evict {location : ConnectionLocation} (other : location.connectionId ≠ connectionId)
    (h : Held config s location) :
    Held config { s with presence := evict s.presence userId connectionId, connections } location := by
  obtain ⟨hash, stored, alive, mem⟩ := h
  by_cases same : presenceKey location.userId = presenceKey userId
  · refine ⟨{ hash with fields := hash.fields.filter fun field => field.1 != connectionId.val }, ?_, alive, ?_⟩
    · simp only [evict, update_self, ← same, stored, map_some]
    · exact List.mem_filter.mpr ⟨mem, by simpa using fun clash => other (Subtype.ext clash)⟩
  · exact ⟨hash, by rw [← stored]; exact update_of_ne same .., alive, mem⟩

theorem allHeld_tearDown (inv : Recorded config s) (h : AllHeld config s)
    (at_ : s.connections[i]? = some closing) : AllHeld config (s.tearDown i closing evicted) := by
  intro live mem punctual
  have was : live ∈ s.connections := (List.eraseIdx_sublist s.connections i).subset mem
  have kept := h live was punctual
  cases evicted with
  | false => exact kept
  | true =>
    exact held_evict (Rows.ne_of_mem_eraseIdx inv.distinct at_ mem) kept

theorem allHeld_connect (inv : Recorded config s) (h : AllHeld config s)
    (new : fresh conn.id s.connections = true)
    (hl : answered = true → conn.shouldReap s.now config.heartbeatTimeout = false → 0 < config.ttl) :
    AllHeld config { s with
      presence := bind config s.presence s.now (placement conn)
      connections := s.connections ++ if answered then [observe config s.now ⟨conn, true⟩] else []
      binds := s.binds ++ [(conn.session.userId, s.now)] } := by
  intro live mem punctual
  rcases List.mem_append.mp mem with old | ho
  · have ne : live.connection.id ≠ conn.id := bne_iff_ne.mp (List.all_eq_true.mp new live old)
    exact held_bind inv ne (h live old punctual)
  cases answered with
  | false => cases ho
  | true =>
    cases List.mem_singleton.mp ho
    exact held_bound (hl rfl (by simpa [observe] using punctual))

theorem allHeld_step (inv : Recorded config s) (h : AllHeld config s) (hr : Refreshed config s label)
    (hs : step config s label = some next) : AllHeld config next := by
  cases label with
  | connect _ _ _ _ =>
    simp only [step] at hs
    split at hs <;> cases hs
    rename_i new
    refine allHeld_connect inv h new fun opens punctual => hr new opens ?_
    simpa [Connection.shouldReap, Connection.open_] using punctual
  | heartbeat _ =>
    simp only [step] at hs
    split at hs <;> cases hs
    rename_i beating at_
    intro live mem punctual
    rcases List.mem_or_eq_of_mem_set mem with old | rfl
    · exact h live old punctual
    · simp only [(heartbeat_kept s.now).2]
      exact h beating (List.mem_of_getElem? at_) punctual
  | disconnect _ _ =>
    simp only [step] at hs
    split at hs <;> cases hs
    rename_i at_
    exact allHeld_tearDown inv h at_
  | tick _ _ =>
    simp only [step] at hs
    split at hs
    · cases hs
    · rename_i at_
      split at hs <;> cases hs
      · exact allHeld_tearDown inv h at_
      · exact h
  | elapse =>
    cases hs
    intro live' mem punctual
    obtain ⟨live, old, rfl⟩ := List.mem_map.mp mem
    have was : live.punctual = true := (Bool.and_eq_true_iff.mp punctual).1
    obtain ⟨boundAt, bound, _⟩ := hr live old punctual
    obtain ⟨hash, stored, -, field⟩ := h live old was
    obtain ⟨_, -, _, latest⟩ := inv.hash _ hash stored
    refine ⟨hash, stored, ?_, field⟩
    have hl := latest boundAt bound
    simp only
    omega

theorem routable_of_allHeld (h : AllHeld config s) : Routable config s := by
  intro live mem punctual
  have resolved := mem_resolve_of_held (h live mem punctual)
  refine ⟨resolved, ?_⟩
  intro broadcast publish ev out targeted device fanned
  have fits : placement live.connection ∈
      FanOutHandler.targets ev (s.resolve config live.connection.session.userId) :=
    List.mem_filter.mpr ⟨resolved, device⟩
  have offline := FanOutHandler.offline_iff targeted rfl fanned
  cases reported : out.offline with
  | false => rfl
  | true =>
    rw [offline.mp reported] at fits
    cases fits

theorem not_routable_of_stale (inv : Recorded config s) (mem : live ∈ s.connections)
    (hp : live.punctual = true)
    (hs : ∀ boundAt, (live.connection.session.userId, boundAt) ∈ s.binds → boundAt + config.ttl ≤ s.now) :
    ¬ Routable config s := by
  intro routable
  have resolved := (routable live mem hp).1
  rw [resolve_of_stale inv hs] at resolved
  cases resolved

theorem unroutable_of_not_refreshed (inv : Recorded config s) (hb : ¬ Refreshed config s label) :
    ∃ next, step config s label = some next ∧ ¬ Routable config next := by
  cases label with
  | connect connectionId nodeId session =>
    simp only [Refreshed, not_forall] at hb
    obtain ⟨new, rfl, patient, _⟩ := hb
    let conn := Connection.open_ connectionId nodeId session config.subscriptionCap s.now
    have recorded' := recorded_bind conn inv (nodup_opened conn true inv new)
    refine ⟨_, if_pos new, not_routable_of_stale recorded'
      (List.mem_append_right _ (List.mem_singleton_self _)) ?_ ?_⟩
    · simpa [observe, Connection.shouldReap, Connection.open_] using patient
    intro boundAt bound
    have past := recorded'.past _ bound
    simp only at past ⊢
    omega
  | elapse time =>
    simp only [Refreshed, not_forall, not_exists, not_and] at hb
    obtain ⟨_, mem, punctual, stale⟩ := hb
    have recorded' := recorded_step inv (rfl : step config s (.elapse time) = some _)
    refine ⟨_, rfl, not_routable_of_stale recorded' (List.mem_map_of_mem mem) punctual ?_⟩
    intro boundAt bound
    exact Int.not_lt.mp (stale boundAt bound)
  | heartbeat | disconnect | tick => exact absurd trivial hb

theorem recorded_empty (now : Int) : Recorded config (empty now) where
  hash := nofun
  bound := nofun
  past := nofun
  distinct := List.nodup_nil

end

/-- Live connections stay routable in exactly the runs that never let the time to live pass since
the last bind of a punctual connection's user. -/
theorem always_routable_iff (config : RegistryConfig) (now : Int) (trace : List Label) :
    (machine config).Always (Routable config) (empty now) trace ↔
      (machine config).Meets (Refreshed config) (empty now) trace :=
  Machine.always_iff_meets (Recorded config) (AllHeld config)
    (fun _ _ _ recorded stepped => recorded_step recorded stepped)
    (fun _ _ _ recorded held refreshed stepped => allHeld_step recorded held refreshed stepped)
    (fun _ _ held => routable_of_allHeld held)
    (fun _ _ recorded _ broken => unroutable_of_not_refreshed recorded broken)
    (recorded_empty now) nofun

namespace Sample

/-- A placement as its two texts, the first with its length before it. -/
def json : PlacementJson where
  toText value := String.ofList (List.replicate value.deviceId.toList.length 'l' ++
    '|' :: value.deviceId.toList ++ value.nodeId.toList)
  ofText text :=
    let size := (text.toList.takeWhile (· == 'l')).length
    let rest := text.toList.drop (size + 1)
    some ⟨String.ofList (rest.take size), String.ofList (rest.drop size)⟩
  ofText_toText value := by
    simp only [String.toList_ofList]
    rw [List.append_assoc, List.takeWhile_append_of_pos (by simp)]
    simp [List.drop_append]

def seconds (n : Nat) : Int := n * 1000000000

/-- The defaults: a time to live of two minutes, a heartbeat timeout of ninety seconds. -/
def defaults : RegistryConfig := ⟨seconds 120, seconds 90, 64, json⟩

def dana : Named := ⟨"dana", by decide⟩
def tablet : Named := ⟨"tablet", by decide⟩

def message : DeliverableEvent := ⟨some dana, none, ⟨.dm, dana⟩, [7], "chat.message", .epoch, "evt-1"⟩

/-- One connection that answers a ping every thirty seconds. -/
def trace : List Label :=
  .connect ⟨"conn-9", by decide⟩ ⟨"node-3", by decide⟩ ⟨dana, tablet, seconds 3600⟩ true ::
    (List.replicate 4 [Label.elapse 30000000000, Label.heartbeat 0]).flatten

/-- Two minutes after it opened, the connection has met every deadline, and its user is reported
offline. -/
theorem live_connection_offline : ∃ s, (machine defaults).run (empty 0) trace = some s ∧
    (∃ live ∈ s.connections, live.punctual = true ∧ live.connection.session.userId = dana) ∧
    s.resolve defaults dana = [] ∧
    FanOutHandler.fanOut (fun userId => .ok (s.resolve defaults userId)) (.ok ()) (fun _ => .ok ()) message =
      .ok ⟨0, true, false⟩ := by
  decide +kernel

end Sample
end CorePlatform.Realtime.Fabric
