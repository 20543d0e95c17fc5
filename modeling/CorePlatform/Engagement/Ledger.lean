import CorePlatform.Theory.Protocol
import CorePlatform.Engagement.Handlers

/-! # The ledger of reactions against the live ones

A script changes the live reaction of a pair, and later its event is published. The ledger follows
the order of the events and the live reaction that of the scripts, with no version to tell. While
the events of a pair are published in the order of its scripts, the ledger comes to what Redis
holds; a command overtaken between its script and its event leaves the two apart for good. -/

namespace CorePlatform.Engagement

open Theory Function Option

/-- A reaction whose weight fits the ledger's column. -/
abbrev Stored := ReactionKind × { n : Nat // n < 2 ^ 31 }

def Stored.hash (r : Stored) : String × String := (r.1.asRedisKey, toString r.2.1)

def Stored.row (r : Stored) : Int × Int := (r.1.asTinyint, r.2.1)

section

variable (formats : Formats)

theorem tostring_tonumber (fits : n < 2 ^ 31) : formats.tostring (formats.tonumber (toString n)) = toString n := by
  rw [formats.tonumber_toString n (by omega), formats.tostring_eq n (by omega)]

theorem returned_swappedOut {r : Redis} {reaction : Option Stored}
    (hp : r.reactions pair = reaction.map Stored.hash) :
    Redis.returned formats (r.swappedOut formats pair) = reaction.map Stored.hash := by
  unfold Redis.returned Redis.swappedOut
  rw [hp]
  cases reaction with
  | none => rfl
  | some stored => exact congrArg (fun text => some (_, text)) (tostring_tonumber formats stored.2.2)

theorem readReturned_some (read : readReturned formats (some old) = .ok res) : ∃ found, res = some found := by
  simp only [readReturned, bind, Except.bind] at read
  split at read
  · cases read
  · split at read
    · cases read
      exact ⟨_, rfl⟩
    · cases read

theorem readReturned_hash (reaction : Option Stored) :
    readReturned formats (reaction.map Stored.hash) = .ok (reaction.map fun r => (r.1, (r.2.1 : Int))) := by
  cases reaction with
  | none => rfl
  | some stored =>
    have read := formats.readI64_toString stored.2.1 (by have := stored.2.2; omega)
    simp only [map_some, Stored.hash, readReturned, ReactionKind.fromRedisKey_asRedisKey, bind, Except.bind, read]

end

/-- What the script of an event left in the hash. -/
def ReactionKafkaEvent.left : ReactionKafkaEvent → Option (String × String)
  | .upserted e => some (e.newKind.asRedisKey, toString e.newWeight)
  | .removed _ => none

def ReactionKafkaEvent.row : ReactionKafkaEvent → Option (Int × Int)
  | .upserted e => some (e.newKind.asTinyint, e.newWeight)
  | .removed _ => none

/-- What the scripts left in the pair's hash, in order. -/
def World.swapsOf (w : World) (pair : Pair) : List (Option (String × String)) :=
  (w.swaps.filter fun swap => swap.1 = pair).map Prod.snd

def eventsOf (topic : List ReactionKafkaEvent) (pair : Pair) : List ReactionKafkaEvent :=
  topic.filter fun event => event.pair = pair

/-- An event of the pair is that of the oldest script whose event has not been published. -/
def Op.inTurn (pair : Pair) (w : World) : Op → Bool
  | .publish event =>
    event.pair != pair || (w.swapsOf pair)[(eventsOf w.topic pair).length]? == some event.left
  | _ => true

/-- A reaction to be stored for the pair has a weight that the ledger's column can hold. -/
def Request.fits (pair : Pair) : Request → Bool
  | .upsertReaction weights pair' kind _ =>
    pair' != pair || match ReactionKind.fromProto kind with
      | .ok kind => weights.weightOf kind < 2 ^ 31
      | .error _ => true
  | _ => true

/-- Every command on the pair has a weight that fits, and its events are published in the order of
its scripts. -/
def inTurn (pair : Pair) (pool : Traffic) : Move Request Event → Bool
  | .begin _ request => request.fits pair
  | .advance id _ =>
    match pool.calls id with
    | some ⟨_, .call op _, _⟩ => op.inTurn pair pool.world
    | _ => true
  | .crash _ | .elapse _ => true

/-- What a script returns is a reaction that fits. -/
def Op.Told (pair : Pair) : (op : Op) → op.Reply → Prop
  | .upsertScript pair' _ _, old => pair' = pair → ∃ reaction : Option Stored, old = reaction.map Stored.hash
  | .removeScript pair', old => pair' = pair → ∃ reaction : Option Stored, old = reaction.map Stored.hash
  | _, _ => True

def Truthful (pair : Pair) (op : Op) (answer : Except EngagementError op.Reply) : Prop :=
  ∃ reply, answer = .ok reply ∧ op.Told pair reply

/-- The event tells of a reaction that fits. -/
def ReactionKafkaEvent.Plain (event : ReactionKafkaEvent) : Prop :=
  ∃ reaction : Option Stored, event.left = reaction.map Stored.hash ∧ event.row = reaction.map Stored.row

/-- A command that ran a script of the pair has in hand what the script left, until it has published it. -/
def announcing (pair : Pair) : Protocol Op Op.Reply EngagementError (Option (Option (String × String))) where
  fits hand op :=
    match op with
    | .upsertScript pair' kind weight =>
      pair' = pair → hand = none ∧ ∃ stored : Stored, (kind, weight) = stored.hash
    | .removeScript pair' => pair' = pair → hand = none
    | .publish event => event.pair = pair → hand = some event.left ∧ event.Plain
    | .ledgerUpsert _ _ _ _ | .ledgerRemove _ => False
    | _ => True
  moved hand op answer :=
    match op, answer with
    | .upsertScript pair' kind weight, .ok _ => if pair' = pair then some (some (kind, weight)) else hand
    | .removeScript pair', .ok (some _) => if pair' = pair then some none else hand
    | .publish event, .ok _ => if event.pair = pair then none else hand
    | _, _ => hand

def Settled {α : Type} (hand : Option (Option (String × String))) (_ : Except EngagementError α) : Prop := hand = none

abbrev Announces {α : Type} (pair : Pair) (hand : Option (Option (String × String))) (program : Calling α) : Prop :=
  (announcing pair).Follows (Truthful pair) Settled hand program

section

variable (formats : Formats) {pair : Pair}

theorem truthful_error : ¬ Truthful pair op (.error e) := by
  intro told
  obtain ⟨_, eq, -⟩ := told
  cases eq

theorem truthful_ok (told : Truthful pair op (.ok reply)) : op.Told pair reply := by
  obtain ⟨_, eq, told⟩ := told
  cases eq
  exact told

theorem announces_completed {prog : Calling Unit} (ha : Announces pair none prog) :
    Announces pair none (completed prog) :=
  ha.bind (fun _ _ settled => settled) fun _ _ settled => settled

/-- What is in hand when a script has answered: the command owes its event if the pair is this one,
and then the answer could be read. -/
def Swapped {α : Type} (pair pair' : Pair) (left : Option (String × String)) (hand : Option (Option (String × String)))
    (result : Except EngagementError α) : Prop :=
  hand = (if pair' = pair then some left else none) ∧ ∀ e, result = .error e → pair' ≠ pair

theorem swapped_result (told : pair' = pair → ∃ reaction : Option Stored, old = reaction.map Stored.hash) :
    Swapped pair pair' left (if pair' = pair then some left else none) (readReturned formats old) := by
  refine ⟨rfl, fun e hf eq => ?_⟩
  obtain ⟨_, rfl⟩ := told eq
  rw [readReturned_hash] at hf
  cases hf

theorem follows_atomicUpsertReaction
    (fits : pair' = pair → ∃ stored : Stored, (kind.asRedisKey, toString weight) = stored.hash) :
    (announcing pair).Follows (Truthful pair) (Swapped pair pair' (some (kind.asRedisKey, toString weight))) none
      (atomicUpsertReaction formats pair' kind weight) := by
  apply Protocol.Follows.perform (fun eq => ⟨rfl, fits eq⟩)
  · intro reply told
    exact .result (swapped_result formats (truthful_ok told))
  · intro e told
    exact absurd told truthful_error

theorem announces_publish (hp : event.pair = pair → event.Plain) :
    Announces pair (if event.pair = pair then some event.left else none) (ask (.publish event)) := by
  refine ⟨fun eq => ⟨if_pos eq, hp eq⟩, fun ans told => ?_⟩
  obtain ⟨_, rfl, -⟩ := told
  show (if event.pair = pair then none else if event.pair = pair then some event.left else none) = none
  by_cases eq : event.pair = pair
  · rw [if_pos eq]
  · rw [if_neg eq, if_neg eq]

theorem announces_upsertReaction {weights : ReactionWeightsConfig}
    (fits : (Request.upsertReaction weights pair' kind now).fits pair = true) :
    Announces pair none (upsertReaction formats weights pair' kind now) := by
  apply Protocol.Follows.lift _ fun _ _ => rfl
  intro kind' parsed
  have stored : pair' = pair → ∃ stored : Stored, (kind'.asRedisKey, toString (weights.weightOf kind')) = stored.hash ∧
      stored.row = (kind'.asTinyint, weights.weightOf kind') := by
    intro eq
    simp only [Request.fits, eq, bne_self_eq_false, Bool.false_or, parsed, decide_eq_true_eq] at fits
    obtain ⟨n, weight⟩ := Int.eq_ofNat_of_zero_le (Int.le_of_lt (weights.positive kind'))
    rw [weight] at fits ⊢
    exact ⟨(kind', ⟨n, by omega⟩), rfl, rfl⟩
  apply (follows_atomicUpsertReaction formats fun eq => (stored eq).imp fun _ found => found.1).bind
  · intro hand old swapped
    rw [swapped.1]
    apply announces_publish
    intro eq
    obtain ⟨found, hash, row⟩ := stored eq
    exact ⟨some found, congrArg some hash, congrArg some row.symm⟩
  · intro hand e swapped
    rw [Settled, swapped.1, if_neg (swapped.2 e rfl)]

theorem announces_removeReaction (pair' : Pair) (now : Int) :
    Announces pair none (removeReaction formats pair' now) := by
  unfold removeReaction atomicRemoveReaction
  rw [Program.bind_assoc]
  apply Protocol.Follows.perform fun _ => rfl
  · intro reply told
    have told := truthful_ok told
    cases reply with
    | none => exact rfl
    | some =>
      have swapped : Swapped pair pair' none _ _ := swapped_result formats told
      apply Protocol.Follows.lift
      · intro removed read
        obtain ⟨_, rfl⟩ := readReturned_some formats read
        exact announces_publish fun _ => ⟨none, rfl, rfl⟩
      · intro e hf
        exact if_neg (swapped.2 e hf)
  · intro e told
    exact absurd told truthful_error

/-! The other requests run no script, publish nothing and leave the ledger alone. -/

def Op.isAside : Op → Prop
  | .upsertScript _ _ _ | .removeScript _ | .publish _ | .ledgerUpsert _ _ _ _ | .ledgerRemove _ => False
  | _ => True

section

open Program

abbrev Aside {α : Type} (program : Calling α) : Prop := program.Confined Op.isAside fun _ => True

theorem aside_ask {op : Op} (fits : op.isAside) : Aside (ask op) := (Passes.op fits).confined

theorem aside_completed {prog : Calling Unit} (ha : Aside prog) : Aside (completed prog) :=
  ha.bind fun _ => trivial

theorem aside_applyDelta : Aside (applyDelta counter postId delta) := by
  unfold applyDelta
  split
  · trivial
  · exact aside_ask trivial

theorem aside_applyInteractionDelta : Aside (applyInteractionDelta postId viewDelta shareDelta commentDelta) := by
  apply aside_applyDelta.bind
  intro _
  apply aside_applyDelta.bind
  intro _
  exact aside_applyDelta

theorem aside_applyComment : Aside (applyComment delta postId) := by
  have hc : Aside (countComment delta postId) := by
    unfold countComment
    split
    · exact aside_ask trivial
    · exact aside_ask trivial
  exact hc.bind fun _ => aside_applyInteractionDelta

theorem aside_getPostEngagement : Aside (getPostEngagement postId turns) := by
  have get : ∀ counter, Aside (ask (.get counter postId)) := fun _ => aside_ask trivial
  have scores : Aside (ask (.hgetall postId)) := aside_ask trivial
  have shares := (get .shares).join (get .comments) (turns 2)
  have views := (get .views).join shares (turns 1)
  exact (scores.join views (turns 0)).bind fun _ => trivial

theorem aside_flushPost : Aside (flushPost postId turns) := by
  have drain : ∀ counter, Aside (ask (.getsetZero counter postId)) := fun _ => aside_ask trivial
  apply ((drain .views).join (drain .shares) turns).bind
  intro deltas
  obtain ⟨viewDelta, shareDelta⟩ := deltas
  simp only
  split
  · trivial
  · exact aside_applyInteractionDelta

theorem aside_flushAll : Aside (flushAll pod turns posts) := by
  induction posts with
  | nil => trivial
  | cons postId _ ih =>
    apply aside_flushPost.attempt.bind
    intro res
    cases res with
    | ok => exact ih
    | error => exact Confined.perform trivial fun _ => ih

theorem aside_flushCycle : Aside (flushCycle pod turns) := by
  have unmark : ∀ ids, Aside (unmarkAll pod ids) := by
    intro ids
    induction ids with
    | nil => trivial
    | cons _ _ ih => exact Confined.perform trivial fun _ => ih
  have drain : Aside (drainAll pod) := Confined.perform trivial fun ids => (unmark ids).bind fun _ => trivial
  exact drain.bind fun dirty => aside_flushAll

end

theorem announces_aside {α : Type} {program : Calling α} (ha : Aside program) : Announces pair none program := by
  apply Protocol.Follows.of_confined ha
  · intro op fits
    cases op <;> trivial
  · intro op ans fits
    cases op <;> first | rfl | cases fits
  · intro res
    exact rfl

theorem announces_program {req : Request} (fits : req.fits pair = true) :
    Announces pair none (req.program formats) := by
  cases req with
  | upsertReaction => exact announces_completed (announces_upsertReaction formats fits)
  | removeReaction pair' now => exact announces_completed (announces_removeReaction formats pair' now)
  | recordView | recordShare =>
    exact announces_aside (aside_completed (Program.Confined.perform trivial fun _ => aside_ask trivial))
  | comment delta postId => exact announces_aside (aside_completed aside_applyComment)
  | getPostEngagement postId turns =>
    exact announces_aside (aside_getPostEngagement.bind fun _ => trivial)
  | flushCycle pod turns => exact announces_aside (aside_completed aside_flushCycle)

end

section

variable {pair : Pair} {w : World}

/-- What matters of the world for the pair, the published events apart. -/
structure World.SameFor (pair : Pair) (w w' : World) : Prop where
  reaction : w'.redis.reactions pair = w.redis.reactions pair
  swaps : w'.swapsOf pair = w.swapsOf pair
  ledger : w'.ledger pair = w.ledger pair
  consumed : w'.consumed = w.consumed

theorem reactions_forget (r : Redis) : (r.forget pair' old).reactions = r.reactions := by
  cases old <;> rfl

theorem reactions_getsetZero (r : Redis) (counter : Counter) (postId : PostId) :
    (r.getsetZero counter postId).1.reactions = r.reactions := by
  unfold Redis.getsetZero
  split <;> rfl

theorem swapsOf_append (swap : Pair × Option (String × String)) :
    World.swapsOf { w with swaps := w.swaps ++ [swap] } pair =
      w.swapsOf pair ++ if swap.1 = pair then [swap.2] else [] := by
  unfold World.swapsOf
  by_cases eq : swap.1 = pair <;> simp [List.filter_append, eq]

theorem eventsOf_append :
    eventsOf (topic ++ [ev]) pair = eventsOf topic pair ++ if ev.pair = pair then [ev] else [] := by
  unfold eventsOf
  by_cases eq : ev.pair = pair <;> simp [List.filter_append, eq]

/-- What one operation of a command does for the pair: it swaps the reaction, it publishes an event
of the pair, or neither. -/
inductive Does (pair : Pair) (op : Op) (w w' : World) (hand : Option (Option (String × String))) :
    Option (Option (String × String)) → Prop where
  | swapped (reaction : Option Stored) (free : hand = none)
      (left : w'.redis.reactions pair = reaction.map Stored.hash)
      (swaps : w'.swapsOf pair = w.swapsOf pair ++ [reaction.map Stored.hash]) (ledger : w'.ledger pair = w.ledger pair)
      (topic : w'.topic = w.topic) (consumed : w'.consumed = w.consumed) :
      Does pair op w w' hand (some (reaction.map Stored.hash))
  | published (event : ReactionKafkaEvent) (ofPair : event.pair = pair) (owed : hand = some event.left)
      (plain : event.Plain) (same : w.SameFor pair w') (topic : w'.topic = w.topic ++ [event])
      (turn : op.inTurn pair w = true → (w.swapsOf pair)[(eventsOf w.topic pair).length]? = some event.left) :
      Does pair op w w' hand none
  | neither (same : w.SameFor pair w') (topic : ∃ more, w'.topic = w.topic ++ more ∧ eventsOf more pair = []) :
      Does pair op w w' hand hand

theorem does_upsertScript (fits : (announcing pair).fits hand (.upsertScript pair' kind weight)) :
    Does pair (.upsertScript pair' kind weight) w (w.upsertScript formats pair' kind weight).1 hand
      (if pair' = pair then some (some (kind, weight)) else hand) := by
  have reactions : (w.redis.upsertScript formats pair' kind weight).1.reactions =
      update w.redis.reactions pair' (some (kind, formats.tostring (formats.tonumber weight))) :=
    congrArg (update · pair' _) (reactions_forget w.redis)
  by_cases same : pair' = pair
  · subst same
    obtain ⟨free, stored, hash⟩ := fits rfl
    obtain ⟨rfl, rfl⟩ := Prod.mk.inj hash
    have left : (w.redis.upsertScript formats pair' stored.1.asRedisKey (toString stored.2.1)).1.reactions pair' =
        some stored.hash := by
      rw [reactions, update_self, tostring_tonumber formats stored.2.2]
      rfl
    rw [if_pos rfl]
    refine .swapped (some stored) free left ?_ rfl rfl rfl
    exact (swapsOf_append _).trans (congrArg (w.swapsOf pair' ++ ·) ((if_pos rfl).trans (congrArg ([·]) left)))
  rw [if_neg same]
  refine .neither ⟨?_, ?_, rfl, rfl⟩ ⟨[], (List.append_nil _).symm, rfl⟩
  · exact (congrFun reactions pair).trans (update_of_ne (Ne.symm same) ..)
  · exact (swapsOf_append _).trans ((congrArg (w.swapsOf pair ++ ·) (if_neg same)).trans (List.append_nil _))

theorem does_removeScript (fits : (announcing pair).fits hand (.removeScript pair')) :
    Does pair (.removeScript pair') w (w.removeScript formats pair').1 hand
      ((announcing pair).moved hand (.removeScript pair') (.ok (w.removeScript formats pair').2)) := by
  unfold World.removeScript Redis.removeScript
  cases hf : w.redis.swappedOut formats pair' with
  | none => exact .neither ⟨rfl, rfl, rfl, rfl⟩ ⟨[], (List.append_nil _).symm, rfl⟩
  | some old =>
    show Does pair _ w _ hand (if pair' = pair then some none else hand)
    have reactions : (w.redis.forget pair' (some old)).reactions = w.redis.reactions := reactions_forget ..
    by_cases same : pair' = pair
    · subst same
      rw [if_pos rfl]
      have left : update (w.redis.forget pair' (some old)).reactions pair' none pair' = none :=
        update_self ..
      refine .swapped none (fits rfl) left ?_ rfl rfl rfl
      exact (swapsOf_append _).trans (congrArg (w.swapsOf pair' ++ ·) ((if_pos rfl).trans (congrArg ([·]) left)))
    rw [if_neg same]
    refine .neither ⟨?_, ?_, rfl, rfl⟩ ⟨[], (List.append_nil _).symm, rfl⟩
    · exact (update_of_ne (Ne.symm same) ..).trans (congrFun reactions pair)
    · exact (swapsOf_append _).trans ((congrArg (w.swapsOf pair ++ ·) (if_neg same)).trans (List.append_nil _))

theorem does_publish (fits : (announcing pair).fits hand (.publish ev)) :
    Does pair (.publish ev) w { w with topic := w.topic ++ [ev] } hand (if ev.pair = pair then none else hand) := by
  by_cases eq : ev.pair = pair
  · rw [if_pos eq]
    obtain ⟨owed, plain⟩ := fits eq
    refine .published ev eq owed plain ⟨rfl, rfl, rfl, rfl⟩ rfl fun turn => ?_
    simpa [Op.inTurn, eq] using turn
  · rw [if_neg eq]
    exact .neither ⟨rfl, rfl, rfl, rfl⟩ ⟨[ev], rfl, by simp [eventsOf, eq]⟩

theorem does_serve (formats : Formats) (w : World) (fits : (announcing pair).fits hand op) :
    Does pair op w ((server formats).serve w op).1 hand
      ((announcing pair).moved hand op ((server formats).serve w op).2) := by
  cases op with
  | upsertScript => exact does_upsertScript fits
  | removeScript => exact does_removeScript fits
  | publish => exact does_publish fits
  | ledgerUpsert | ledgerRemove => cases fits
  | getsetZero counter postId =>
    have eq := congrFun (reactions_getsetZero w.redis counter postId) pair
    exact .neither ⟨eq, rfl, rfl, rfl⟩ ⟨[], (List.append_nil _).symm, rfl⟩
  | _ => exact .neither ⟨rfl, rfl, rfl, rfl⟩ ⟨[], (List.append_nil _).symm, rfl⟩

theorem removeScript_returned (r : Redis) : (r.removeScript formats pair).2 =
    Redis.returned formats (r.swappedOut formats pair) := by
  unfold Redis.removeScript
  cases r.swappedOut formats pair <;> rfl

theorem truthful_serve {op : Op} {reaction : Option Stored}
    (hp : w.redis.reactions pair = reaction.map Stored.hash) :
    Truthful pair op ((server formats).serve w op).2 := by
  have hr := returned_swappedOut formats hp
  cases op with
  | upsertScript =>
    refine ⟨_, rfl, fun eq => ?_⟩
    subst eq
    exact ⟨reaction, hr⟩
  | removeScript =>
    refine ⟨_, rfl, fun eq => ?_⟩
    subst eq
    exact ⟨reaction, (removeScript_returned w.redis).trans hr⟩
  | _ => exact ⟨_, rfl, trivial⟩

end

def World.row (w : World) (pair : Pair) : Option (Int × Int) :=
  (w.ledger pair).map fun row => (row.kind, row.weight.toInt)

/-- The last of some reactions, or the one before all of them. -/
def latest {α : Type} (before : Option α) (later : List (Option α)) : Option α := later.getLast?.getD before

theorem latest_append {α : Type} (before : Option α) (later : List (Option α)) (last : Option α) :
    latest before (later ++ [last]) = last := by
  simp [latest]

def ReactionKafkaEvent.ledgerRow : ReactionKafkaEvent → Option LedgerRow
  | .upserted e => some ⟨e.newKind.asTinyint, BitVec.ofInt 32 e.newWeight, e.eventAtMs⟩
  | .removed _ => none

theorem consume_cases {w : World} (consumed : w.consume formats = some w') :
    ∃ ev, w.topic[w.consumed]? = some ev ∧ w' =
      { w with ledger := update w.ledger ev.pair ev.ledgerRow, consumed := w.consumed + 1 } := by
  obtain ⟨ev, here, rfl⟩ := map_eq_some_iff.mp consumed
  refine ⟨ev, here, ?_⟩
  cases ev <;> rfl

theorem ledgerRow_plain {ev : ReactionKafkaEvent} (hp : ev.Plain) :
    ev.ledgerRow.map (fun row => (row.kind, row.weight.toInt)) = ev.row := by
  obtain ⟨_, -, row⟩ := hp
  cases ev with
  | removed => rfl
  | upserted e =>
    obtain ⟨stored, -, row⟩ := map_eq_some_iff.mp row.symm
    have weight : ((stored.2.1 : Nat) : Int) = e.newWeight := (Prod.mk.inj row).2
    have fits := stored.2.2
    have cast : (BitVec.ofInt 32 e.newWeight).toInt = e.newWeight := by
      rw [BitVec.toInt_ofInt, Int.bmod_def]
      omega
    simp only [ReactionKafkaEvent.ledgerRow, ReactionKafkaEvent.row, map_some, cast]

/-- How a pair stands that held `reaction` in the beginning, while so many of its events are owed. -/
structure World.Kept (pair : Pair) (reaction : Option Stored) (w : World) (owed : Nat) : Prop where
  stored : ∃ now : Option Stored, w.redis.reactions pair = now.map Stored.hash
  live : w.redis.reactions pair = latest (reaction.map Stored.hash) (w.swapsOf pair)
  inOrder : (eventsOf w.topic pair).map ReactionKafkaEvent.left = (w.swapsOf pair).take (eventsOf w.topic pair).length
  counted : (w.swapsOf pair).length = (eventsOf w.topic pair).length + owed
  plain : ∀ event ∈ eventsOf w.topic pair, event.Plain
  durable : ∃ position, w.consumed ≤ position ∧ position ≤ w.topic.length ∧
    w.row pair = latest (reaction.map Stored.row) ((eventsOf (w.topic.take position) pair).map ReactionKafkaEvent.row)

namespace World.Kept

variable {w w' : World}

theorem durable_of (kept : w.Kept pair reaction owed) (hl : w'.ledger pair = w.ledger pair)
    (hc : w'.consumed = w.consumed) (topic : w'.topic = w.topic ++ more) :
    ∃ position, w'.consumed ≤ position ∧ position ≤ w'.topic.length ∧
      w'.row pair = latest (reaction.map Stored.row)
        ((eventsOf (w'.topic.take position) pair).map ReactionKafkaEvent.row) := by
  obtain ⟨position, _, within, row⟩ := kept.durable
  refine ⟨position, by rwa [hc], by rw [topic, List.length_append]; omega, ?_⟩
  rw [topic, List.take_append_of_le_length within, ← row, World.row, World.row, hl]

theorem swapped (kept : w.Kept pair reaction owed) {left : Option Stored}
    (hp : w'.redis.reactions pair = left.map Stored.hash)
    (swaps : w'.swapsOf pair = w.swapsOf pair ++ [left.map Stored.hash]) (hl : w'.ledger pair = w.ledger pair)
    (topic : w'.topic = w.topic) (hc : w'.consumed = w.consumed) : w'.Kept pair reaction (owed + 1) where
  stored := ⟨left, hp⟩
  live := by rw [swaps, latest_append, hp]
  inOrder := by
    have within : (eventsOf w.topic pair).length ≤ (w.swapsOf pair).length := by
      have := kept.counted
      omega
    rw [topic, swaps, List.take_append_of_le_length within]
    exact kept.inOrder
  counted := by
    have := kept.counted
    rw [topic, swaps, List.length_append, List.length_singleton]
    omega
  plain := by rw [topic]; exact kept.plain
  durable := kept.durable_of hl hc (topic.trans (List.append_nil _).symm)

theorem published (kept : w.Kept pair reaction (owed + 1)) {ev : ReactionKafkaEvent} (ho : ev.pair = pair)
    (hp : ev.Plain) (eq : w.SameFor pair w') (topic : w'.topic = w.topic ++ [ev])
    (turn : (w.swapsOf pair)[(eventsOf w.topic pair).length]? = some ev.left) : w'.Kept pair reaction owed := by
  have events : eventsOf w'.topic pair = eventsOf w.topic pair ++ [ev] := by
    rw [topic, eventsOf_append, if_pos ho]
  refine ⟨?_, ?_, ?_, ?_, ?_, kept.durable_of eq.ledger eq.consumed topic⟩
  · rw [eq.reaction]
    exact kept.stored
  · rw [eq.reaction, eq.swaps]
    exact kept.live
  · rw [events, eq.swaps, List.map_append, List.length_append, kept.inOrder, List.length_singleton,
      List.take_add_one, turn]
    rfl
  · rw [events, eq.swaps, List.length_append, List.length_singleton, kept.counted]
    omega
  · intro hf mem
    rw [events, List.mem_append, List.mem_singleton] at mem
    rcases mem with old | rfl
    · exact kept.plain hf old
    · exact hp

section

variable (kept : w.Kept pair reaction owed)

include kept

theorem neither (eq : w.SameFor pair w') (topic : w'.topic = w.topic ++ more) (none_ : eventsOf more pair = []) :
    w'.Kept pair reaction owed := by
  have events : eventsOf w'.topic pair = eventsOf w.topic pair := by
    rw [topic]
    unfold eventsOf at none_ ⊢
    rw [List.filter_append, none_, List.append_nil]
  refine ⟨?_, ?_, ?_, ?_, ?_, kept.durable_of eq.ledger eq.consumed topic⟩
  · rw [eq.reaction]
    exact kept.stored
  · rw [eq.reaction, eq.swaps]
    exact kept.live
  · rw [events, eq.swaps]
    exact kept.inOrder
  · rw [events, eq.swaps]
    exact kept.counted
  · rw [events]
    exact kept.plain

theorem serve {op : Op} (fits : (announcing pair).fits hand op) (turn : op.inTurn pair w = true)
    (hm : (announcing pair).moved hand op ((server formats).serve w op).2 = hand')
    (count : owed' + hand.isSome.toNat = owed + hand'.isSome.toNat) :
    ((server formats).serve w op).1.Kept pair reaction owed' := by
  have does := does_serve formats w fits
  rw [hm] at does
  cases does with
  | swapped _ free holds swaps ledger topic consumed =>
    subst free
    have : owed' = owed + 1 := by simpa using count
    subst this
    exact kept.swapped holds swaps ledger topic consumed
  | published _ ofPair owing plain same topic onTurn =>
    subst owing
    have : owed = owed' + 1 := by simpa using count.symm
    subst this
    exact kept.published ofPair plain same topic (onTurn turn)
  | neither same topic =>
    obtain ⟨_, topic, none_⟩ := topic
    have : owed' = owed := by omega
    subst this
    exact kept.neither same topic none_

theorem consume (consumed : w.consume formats = some w') : w'.Kept pair reaction owed := by
  obtain ⟨ev, here, rfl⟩ := consume_cases consumed
  refine { kept with durable := ?_ }
  have within : w.consumed + 1 ≤ w.topic.length := (List.getElem?_eq_some_iff.mp here).1
  have ht : eventsOf (w.topic.take (w.consumed + 1)) pair =
      eventsOf (w.topic.take w.consumed) pair ++ if ev.pair = pair then [ev] else [] := by
    rw [List.take_add_one, here]
    exact eventsOf_append
  by_cases same : ev.pair = pair
  · refine ⟨w.consumed + 1, Nat.le_refl _, within, ?_⟩
    have plain : ev.Plain := by
      apply kept.plain
      exact List.mem_filter.mpr ⟨List.mem_of_getElem? here, decide_eq_true same⟩
    have hw : update w.ledger ev.pair ev.ledgerRow pair = ev.ledgerRow := by
      rw [← same, update_self]
    rw [ht, if_pos same, List.map_append, List.map_singleton, latest_append]
    exact (congrArg (Option.map _) hw).trans (ledgerRow_plain plain)
  obtain ⟨position, _, within', row⟩ := kept.durable
  have unchanged : World.row { w with
      ledger := update w.ledger ev.pair ev.ledgerRow, consumed := w.consumed + 1 } pair = w.row pair :=
    congrArg (Option.map _) (update_of_ne (Ne.symm same) ..)
  rw [if_neg same, List.append_nil] at ht
  by_cases first : position = w.consumed
  · refine ⟨w.consumed + 1, Nat.le_refl _, within, ?_⟩
    rw [ht, ← first, ← row]
    exact unchanged
  · exact ⟨position, by simp only; omega, within', unchanged.trans row⟩

theorem elapse {ev : Event} (hc : w.elapse formats ev = some w') : w'.Kept pair reaction owed := by
  cases ev with
  | consume => exact kept.consume hc
  | rewind _ =>
    simp only [World.elapse] at hc
    split at hc
    · rename_i he
      cases hc
      obtain ⟨hr, hl, within, row⟩ := kept.durable
      exact { kept with durable := ⟨hr, Nat.le_trans he hl, within, row⟩ }
    · cases hc

end
end World.Kept

/-- The commands keep to the protocol, and owe the events that the world waits for. -/
abbrev Kept (pair : Pair) (reaction : Option Stored) (pool : Traffic) : Prop :=
  pool.Balanced (announcing pair) (Truthful pair) (fun _ => none) Settled Option.isSome (World.Kept pair reaction)

section

variable {formats : Formats} {pair : Pair} {reaction : Option Stored} {pool : Traffic} {move : Move Request Event}

theorem kept_step (kept : Kept pair reaction pool) (hr : move.faultless = true)
    (turn : inTurn pair pool move = true) (hs : (host formats).Steps pool move next) :
    Kept pair reaction next := by
  apply kept.step hs hr
  · intro owed op kept'
    obtain ⟨_, hp⟩ := kept'.stored
    exact truthful_serve hp
  · intro id req world prog hm ha
    subst hm
    cases ha
    exact ⟨announces_program formats turn, rfl, rfl⟩
  · intro id req op rest heard owed owed' hm hw hand fits count kept'
    subst hm
    simp only [inTurn, hw] at turn
    exact kept'.serve fits turn rfl count
  · intro ev world owed hm hc kept'
    exact kept'.elapse hc

theorem agrees_of_stored {w : World} {now : Option Stored} (hash : w.redis.reactions pair = now.map Stored.hash)
    (row : w.row pair = now.map Stored.row) : w.Agrees pair := by
  refine ⟨now.map fun stored => (stored.1, stored.2.1), ?_, ?_⟩
  · rw [hash, map_map]
    rfl
  · rw [map_map]
    exact row

theorem agrees_of_kept (kept : Kept pair reaction pool) (idle : pool.Idle)
    (hc : pool.world.consumed = pool.world.topic.length) : pool.world.Agrees pair := by
  have done : pool.world.Kept pair reaction 0 := kept.settled idle fun hand _ settled => settled ▸ rfl
  have swaps : (eventsOf pool.world.topic pair).map ReactionKafkaEvent.left = pool.world.swapsOf pair := by
    rw [done.inOrder, List.take_of_length_le]
    exact Nat.le_of_eq done.counted
  have live := done.live
  obtain ⟨position, _, _, row⟩ := done.durable
  have whole : position = pool.world.topic.length := by omega
  rw [whole, List.take_length] at row
  rw [← swaps] at live
  cases last : (eventsOf pool.world.topic pair).getLast? with
  | none =>
    rw [List.getLast?_eq_none_iff] at last
    rw [last] at row live
    exact agrees_of_stored live row
  | some ev =>
    obtain ⟨_, left, said⟩ := done.plain ev (List.mem_of_getLast? last)
    simp only [latest, List.getLast?_map, last, map_some, getD_some] at row live
    exact agrees_of_stored (live.trans left) (row.trans said)

theorem stored_of_agrees {w : World} (ha : w.Agrees pair) :
    ∃ now : Option Stored, w.redis.reactions pair = now.map Stored.hash ∧ w.row pair = now.map Stored.row := by
  obtain ⟨hf, hash, row⟩ := ha
  cases hf with
  | none => exact ⟨none, hash, row⟩
  | some r =>
    obtain ⟨stored, -, eq⟩ := map_eq_some_iff.mp row
    have weight : stored.weight.toInt = (r.2 : Int) := (Prod.mk.inj eq).2
    have fits : r.2 < 2 ^ 31 := by
      have := stored.weight.toInt_lt
      omega
    exact ⟨some (r.1, ⟨r.2, fits⟩), hash, row⟩

theorem kept_start {start : Traffic} (hb : (host formats).machine.init start) :
    ∃ reaction, Kept pair reaction start := by
  obtain ⟨hf, empty⟩ := hb
  obtain ⟨reaction, hash, row⟩ := stored_of_agrees (hf.agrees pair)
  have swaps : start.world.swapsOf pair = [] := by rw [World.swapsOf, hf.swaps]; rfl
  have events : eventsOf start.world.topic pair = [] := by rw [hf.topic]; rfl
  refine ⟨reaction, .of_empty empty ?_⟩
  constructor
  · exact ⟨reaction, hash⟩
  · rw [swaps]
    exact hash
  · rw [swaps, events]
    rfl
  · rw [swaps, events]
    rfl
  · rw [events]
    intro ev mem
    cases mem
  · exact ⟨0, Nat.le_of_eq hf.consumed, Nat.zero_le _, row⟩

/-- Once all commands have returned and all events are consumed, the ledger has the pair's live
reaction, in every run in which its events are published in the order of its scripts and its weights
fit the ledger. -/
theorem ordered_events_keep_the_ledger (formats : Formats) (pair : Pair) (start pool : Traffic)
    (moves : List (Move Request Event)) (begins : (host formats).machine.init start)
    (reliable : ∀ move ∈ moves, move.faultless = true)
    (ordered : (host formats).machine.Meets (fun pool move => inTurn pair pool move = true) start moves)
    (ran : (host formats).machine.run start moves = some pool) (idle : pool.Idle)
    (consumed : pool.world.consumed = pool.world.topic.length) : pool.world.Agrees pair := by
  obtain ⟨reaction, kept⟩ := kept_start begins
  have kept := Host.run_keeps (Kept pair reaction) (fun kept met stepped => kept_step kept met.1 met.2 stepped) kept
    (ordered.only reliable) ran
  exact agrees_of_kept kept idle consumed

end

namespace Overtaken

open Sample

def weights : ReactionWeightsConfig where
  weightOf
    | .fire => 2
    | .rocket => 5
    | .heart | .clap | .sad => 1
  positive kind := by cases kind <;> decide

def pair : Pair := (1#128, 2#128)

def heart : Request := .upsertReaction weights pair 1 1
def fire : Request := .upsertReaction weights pair 2 2

/-- One command after the other; the worker takes the first event twice. -/
def inSequence : List (Move Request Event) :=
  [.begin 0 heart, .advance 0 .served, .advance 0 .served, .elapse .consume, .begin 1 fire, .advance 1 .served,
    .elapse (.rewind 0), .advance 1 .served, .elapse .consume, .elapse .consume]

/-- The script of the first command runs first and its event comes last. -/
def overtaken : List (Move Request Event) :=
  [.begin 0 heart, .begin 1 fire, .advance 0 .served, .advance 1 .served, .advance 1 .served, .advance 0 .served,
    .elapse .consume, .elapse .consume]

theorem inSequence_agrees : ∃ pool, (host plain).machine.run start inSequence = some pool ∧ pool.world.Agrees pair := by
  obtain ⟨pool, ran, ended, consumed⟩ : ∃ pool, (host plain).machine.run start inSequence = some pool ∧
      (begunIn inSequence).all (fun id => (pool.calls id).all fun call => call.program.ended) = true ∧
      pool.world.consumed = pool.world.topic.length := by decide +kernel
  exact ⟨pool, ran, ordered_events_keep_the_ledger plain pair start pool inSequence start_init (by decide)
    (by decide +kernel) ran (Host.idle_of_ended ran (fun _ => rfl) ended) consumed⟩

/-- Redis holds the second reaction, the ledger the first one, with nothing left to be done. -/
theorem overtaken_event_splits_the_stores : ∃ pool, (host plain).machine.run start overtaken = some pool ∧
    (∀ move ∈ overtaken, move.faultless = true) ∧ pool.Idle ∧ pool.world.consumed = pool.world.topic.length ∧
    pool.world.redis.reactions pair = some ("fire", "2") ∧ pool.world.row pair = some (1, 1) ∧
    ¬ pool.world.Agrees pair := by
  obtain ⟨pool, ran, ended, consumed, hash, row⟩ : ∃ pool, (host plain).machine.run start overtaken = some pool ∧
      (begunIn overtaken).all (fun id => (pool.calls id).all fun call => call.program.ended) = true ∧
      pool.world.consumed = pool.world.topic.length ∧ pool.world.redis.reactions pair = some ("fire", "2") ∧
      pool.world.row pair = some (1, 1) := by decide +kernel
  refine ⟨pool, ran, by decide, Host.idle_of_ended ran (fun _ => rfl) ended, consumed, hash, row, ?_⟩
  intro agrees
  obtain ⟨_, same, same'⟩ := stored_of_agrees agrees
  rw [hash] at same
  rw [row] at same'
  obtain ⟨stored, rfl, kind⟩ := Option.map_eq_some_iff.mp same.symm
  have isFire : stored.1 = .fire := ReactionKind.asRedisKey_injective (Prod.mk.inj kind).1
  have tinyint := (Prod.mk.inj (Option.some.inj same')).1
  rw [isFire] at tinyint
  cases tinyint

end Overtaken
end CorePlatform.Engagement
