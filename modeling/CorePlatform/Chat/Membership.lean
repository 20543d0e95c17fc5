import Mathlib.Data.FinEnum
import Mathlib.Data.Set.Card
import CorePlatform.Theory.Protocol
import CorePlatform.Chat.Handlers

/-! # Commands on one conversation at the same time

A join and a toggle each find the row of the conversation, change their copy and write all of it
back. As long as commands write to the row they have found, the row shows the last toggle and counts
the roster. A command that is overtaken in between takes back what the other one wrote. -/

namespace CorePlatform.Chat

open Theory

def World.roster (w : World) (id : ConversationId) : Set ProfileId := { profile | (w.members id profile).isSome = true }

/-- Where a command stands: it has found the row, a join has added its member, the row is written.
Others stand aside. -/
inductive Hand where
  | aside
  | fresh
  | found (row : Conversation)
  | inserted (row : Conversation)
  | updated

def Hand.row : Hand → Option Conversation
  | .found row | .inserted row => some row
  | .aside | .fresh | .updated => none

structure Conversation.Joined (c c' : Conversation) : Prop where
  id : c'.id = c.id
  visibility : c'.visibility = c.visibility
  publicSince : c'.publicSince = c.publicSince
  memberCount : c'.memberCount = c.memberCount + 1
  room : c.memberCount < c.maxMembers
  event : c'.isToggle = false

structure Conversation.Toggled (c c' : Conversation) : Prop where
  id : c'.id = c.id
  memberCount : c'.memberCount = c.memberCount
  event : c'.isToggle = true

/-- The row is found first; a join writes the roster and then the row, a toggle the row alone. -/
def writing : Protocol Op Op.Reply ChatError Hand where
  fits hand op :=
    match op with
    | .insertMember conversationId _ => ∃ c, hand = .found c ∧ c.id = conversationId
    | .updateConversation c' => (∃ c, hand = .inserted c ∧ c.Joined c') ∨ ∃ c, hand = .found c ∧ c.Toggled c'
    | _ => True
  moved hand op answer :=
    match hand, op, answer with
    | .fresh, .findConversation _, .ok (some c) => .found c
    | .found c, .insertMember _ _, .ok _ => .inserted c
    | .fresh, .updateConversation _, .ok _ | .found _, .updateConversation _, .ok _
    | .inserted _, .updateConversation _, .ok _ => .updated
    | hand, _, _ => hand

def Request.hand : Request → Hand
  | .joinAsMember _ _ | .toggleVisibility _ _ _ _ => .fresh
  | .sendMessage _ _ | .getHistory _ => .aside

/-- A command ends well if and only if it has written the row, and never between roster and row. -/
def Finished {α : Type} : Hand → Except ChatError α → Prop
  | .aside, _ => True
  | .fresh, result | .found _, result => ∃ e, result = .error e
  | .inserted _, _ => False
  | .updated, result => ∃ value, result = .ok value

/-- A row is found under its id, with no events of its own. -/
def Op.Told : (op : Op) → op.Reply → Prop
  | .findConversation id, some c => c.id = id ∧ c.pendingEvents = []
  | _, _ => True

def Truthful (op : Op) (answer : Except ChatError op.Reply) : Prop := ∃ reply, answer = .ok reply ∧ op.Told reply

abbrev Keeps {α : Type} (hand : Hand) (program : Calling α) : Prop := writing.Follows Truthful Finished hand program

section

theorem truthful_error : ¬ Truthful op (.error e) := by
  intro told
  obtain ⟨_, eq, -⟩ := told
  cases eq

theorem truthful_ok (told : Truthful op (.ok reply)) : op.Told reply := by
  obtain ⟨_, eq, told⟩ := told
  cases eq
  exact told

theorem keeps_ask {α : Type} {f : op.Reply → Calling α} (fits : writing.fits hand op)
    (hm : ∀ reply, op.Told reply → writing.moved hand op (.ok reply) = hand')
    (ho : ∀ reply, op.Told reply → Keeps hand' (f reply)) : Keeps hand (ask op >>= f) := by
  apply Protocol.Follows.perform fits
  · intro reply told
    rw [hm reply (truthful_ok told)]
    exact ho reply (truthful_ok told)
  · intro e told
    exact absurd told truthful_error

theorem keeps_loadConversation {α : Type} {id : ConversationId} {f : Conversation → Calling α}
    (ho : ∀ c : Conversation, c.id = id → c.pendingEvents = [] → Keeps (.found c) (f c)) :
    Keeps .fresh (loadConversation id >>= f) := by
  unfold loadConversation
  rw [Program.bind_assoc]
  apply Protocol.Follows.perform trivial
  · intro found told
    cases found with
    | none => exact ⟨_, rfl⟩
    | some c => exact ho c (truthful_ok told).1 (truthful_ok told).2
  · intro e told
    exact absurd told truthful_error

theorem keeps_publishAll : Keeps .updated (publishAll events) := by
  induction events with
  | nil => exact ⟨(), rfl⟩
  | cons _ _ ih => exact keeps_ask trivial (fun _ _ => rfl) fun _ _ => ih

variable {c : Conversation}

theorem joined_admitMember (hf : c.pendingEvents = []) (ha : c.admitMember profileId .member now = .ok c') :
    c.Joined c' := by
  simp only [Conversation.admitMember] at ha
  split at ha
  · cases ha
  split at ha
  · cases ha
  · rename_i room
    cases ha
    refine ⟨rfl, rfl, rfl, rfl, Nat.lt_of_not_le room, ?_⟩
    simp [Conversation.isToggle, hf]

theorem keeps_joinAsMember : Keeps .fresh (joinAsMember conversationId profileId) := by
  apply keeps_loadConversation
  intro c eq hf
  refine keeps_ask trivial (fun _ _ => rfl) fun mem _ => ?_
  cases mem with
  | some => exact ⟨_, rfl⟩
  | none =>
    refine keeps_ask trivial (fun _ _ => rfl) fun now _ => ?_
    apply Protocol.Follows.lift _ fun e _ => ⟨e, rfl⟩
    intro c' admitted
    refine keeps_ask trivial (fun _ _ => rfl) fun joinedAt _ => ?_
    apply Protocol.Follows.lift _ fun e _ => ⟨e, rfl⟩
    intro participant _
    refine keeps_ask ⟨c, rfl, eq⟩ (fun _ _ => rfl) fun _ _ => ?_
    refine keeps_ask (.inl ⟨c, rfl, joined_admitMember hf admitted⟩) (fun _ _ => rfl) fun _ _ => ?_
    exact keeps_publishAll

theorem toggled_publish (hp : c.publish now watermark = .ok c') : c.Toggled c' := by
  simp only [Conversation.publish] at hp
  split at hp
  · cases hp
  · cases hp
    exact ⟨rfl, rfl, by simp [Conversation.isToggle]⟩

theorem toggled_unpublish (hu : c.unpublish now = .ok c') : c.Toggled c' := by
  simp only [Conversation.unpublish] at hu
  split at hu
  · cases hu
    exact ⟨rfl, rfl, by simp [Conversation.isToggle]⟩
  · cases hu

theorem follows_toggle :
    writing.Follows Truthful (fun hand res => hand = .found c ∧ ∀ c', res = .ok c' → c.Toggled c') (.found c)
      (toggle c makePublic entropy) := by
  apply Protocol.Follows.perform trivial
  · intro now _
    cases makePublic with
    | true =>
      apply Protocol.Follows.perform trivial
      · intro watermark _
        exact .result ⟨rfl, fun _ => toggled_publish⟩
      · intro e told
        exact absurd told truthful_error
    | false => exact .result ⟨rfl, fun _ => toggled_unpublish⟩
  · intro e told
    exact absurd told truthful_error

theorem keeps_toggleVisibility (makePublic : Bool) :
    Keeps .fresh (toggleVisibility conversationId actorId makePublic entropy) := by
  apply keeps_loadConversation
  intro c eq hf
  refine keeps_ask trivial (fun _ _ => rfl) fun mem _ => ?_
  cases mem with
  | none => exact ⟨_, rfl⟩
  | some =>
    simp only
    split
    · apply follows_toggle.bind
      · intro hand c' toggled
        rw [toggled.1]
        refine keeps_ask (.inr ⟨c, rfl, toggled.2 c' rfl⟩) (fun _ _ => rfl) fun _ _ => ?_
        exact keeps_publishAll
      · intro hand e toggled
        rw [toggled.1]
        exact ⟨e, rfl⟩
    · exact ⟨_, rfl⟩

/-! The other requests touch neither the roster nor the row. -/

def Op.isAside : Op → Prop
  | .insertMember _ _ | .updateConversation _ => False
  | _ => True

abbrev Aside {α : Type} (program : Calling α) : Prop := program.Confined Op.isAside fun _ => True

theorem aside_sendMessage (entropy : Entropy) : Aside (sendMessage formats draft entropy) := by
  apply Program.Confined.perform trivial
  intro messageId
  apply Program.Confined.perform trivial
  intro mem
  cases mem with
  | none => trivial
  | some =>
    simp only
    split
    · apply Program.Confined.perform trivial
      intro now
      apply Program.Confined.lift (fun _ _ => trivial)
      intro message _
      apply Program.Confined.perform trivial
      intro _
      exact (Program.Passes.op trivial).confined
    · trivial

theorem aside_walk : Aside (walk conversationId target cursor floorMs minBucket left bucket first out) := by
  induction left generalizing bucket first out with
  | zero => trivial
  | succ _ ih =>
    unfold walk
    split
    · exact .perform trivial fun _ => ih
    · trivial

theorem aside_readPage : Aside (readPage formats cfg q cursor floorMs) := by
  have start : Aside (startMs cursor) := by
    cases cursor with
    | none => exact (Program.Passes.op trivial).confined
    | some => trivial
  have list : ∀ limit, Aside (listHistory cfg q.conversationId limit cursor floorMs) := by
    intro limit
    simp only [listHistory]
    split
    · trivial
    · apply start.bind
      intro startMs
      exact aside_walk.bind fun _ => trivial
  exact (list _).bind fun _ => trivial

theorem aside_getHistory (q : GetHistoryQuery) : Aside (getHistory formats config q) := by
  apply Program.Confined.lift (fun _ _ => trivial)
  intro cursor _
  have load : Aside (loadConversation q.conversationId) := by
    apply Program.Confined.perform trivial
    intro found
    cases found <;> trivial
  apply load.bind
  intro c
  apply Program.Confined.perform trivial
  intro mem
  cases mem with
  | some => exact aside_readPage
  | none =>
    simp only
    split
    · split
      · exact aside_readPage
      · trivial
    · trivial

theorem keeps_aside {α : Type} {program : Calling α} (ha : Aside program) : Keeps .aside program := by
  apply Protocol.Follows.of_confined ha
  · intro op fits
    cases op <;> trivial
  · intro op ans _
    rfl
  · intro res
    trivial

theorem keeps_program (req : Request) : Keeps req.hand (req.program formats config) := by
  have completed_ : ∀ {prog : Calling Unit}, Keeps .fresh prog → Keeps .fresh (completed prog) := by
    intro prog keeps
    apply keeps.bind
    · intro hand value finished
      cases hand with
      | aside => trivial
      | fresh | found => exact absurd finished (by simp [Finished])
      | inserted => exact finished
      | updated => exact ⟨.done, rfl⟩
    intro hand e finished
    cases hand with
    | updated => exact absurd finished (by simp [Finished])
    | aside => trivial
    | inserted => exact finished
    | fresh | found => exact ⟨e, rfl⟩
  cases req with
  | joinAsMember conversationId profileId => exact completed_ keeps_joinAsMember
  | toggleVisibility conversationId actorId makePublic entropy =>
    exact completed_ (keeps_toggleVisibility makePublic)
  | sendMessage draft entropy => exact keeps_aside ((aside_sendMessage entropy).bind fun _ => trivial)
  | getHistory q => exact keeps_aside ((aside_getHistory q).bind fun _ => trivial)

end

/-- A member is added, and the row is written, only where the row is the one the command has found;
and the member is not on the roster yet. -/
def Op.exclusive (id : ConversationId) (w : World) (hand : Hand) : Op → Bool
  | .insertMember conversationId p =>
    conversationId != id || w.conversations id == hand.row && (w.members id p.profileId).isNone
  | .updateConversation c => c.id != id || w.conversations id == hand.row
  | _ => true

def exclusive (id : ConversationId) (pool : Traffic) : Move Request Event → Bool
  | .advance n _ =>
    match pool.calls n with
    | some ⟨request, .call op rest, heard⟩ =>
      op.exclusive id pool.world (writing.inHand Request.hand (⟨request, .call op rest, heard⟩ :
        Call Request Op Op.Reply ChatError Outcome))
    | _ => true
  | .begin _ _ | .crash _ | .elapse _ => true

def Hand.owes (id : ConversationId) : Hand → Bool
  | .inserted c => c.id = id
  | .aside | .fresh | .found _ | .updated => false

/-- Rows stand under their ids; the row of the conversation counts the roster but for the members
still to be counted, within its limit, and shows the last toggle. -/
structure World.Kept (id : ConversationId) (before : Visibility × Option MessageId) (w : World) (owed : Nat) :
    Prop where
  sound : ∀ id c, w.conversations id = some c → c.id = id ∧ c.pendingEvents = []
  row : ∃ c, w.conversations id = some c ∧ c.memberCount ≤ c.maxMembers ∧
    c.memberCount + owed = (w.roster id).ncard ∧
    (c.visibility, c.publicSince) = (w.toggles id).getLast?.getD before

namespace World.Kept

variable {id : ConversationId} {w : World}

theorem insertMember (kept : w.Kept id before owed) (ha : (w.members id p.profileId).isNone = true) :
    (w.insertMember id p).Kept id before (owed + 1) := by
  obtain ⟨c, stored, room, _, shown⟩ := kept.row
  refine ⟨kept.sound, c, stored, room, ?_, shown⟩
  have hg : (w.insertMember id p).roster id = insert p.profileId (w.roster id) := by
    ext profile
    by_cases eq : profile = p.profileId
    · simp [World.roster, World.insertMember, eq]
    · simp [World.roster, World.insertMember, eq]
  have new : p.profileId ∉ w.roster id := by
    simpa [World.roster] using ha
  rw [hg, Set.ncard_insert_of_notMem new (Set.toFinite _)]
  omega

theorem elsewhere {w' : World} (kept : w.Kept id before owed)
    (inv : ∀ id c, w'.conversations id = some c → c.id = id ∧ c.pendingEvents = [])
    (hc : w'.conversations id = w.conversations id) (hm : w'.members id = w.members id)
    (toggles : w'.toggles id = w.toggles id) : w'.Kept id before owed := by
  refine ⟨inv, ?_⟩
  rw [hc, toggles, World.roster, hm]
  exact kept.row

theorem sound_updateConversation (kept : w.Kept id before owed) (c : Conversation) :
    ∀ id row, (w.updateConversation c).conversations id = some row → row.id = id ∧ row.pendingEvents = [] := by
  intro other row h
  unfold World.updateConversation at h
  cases found : w.conversations c.id with
  | none =>
    rw [found] at h
    exact kept.sound other row h
  | some stored =>
    rw [found] at h
    cases update_cases h with
    | inl new =>
      obtain ⟨rfl, hw⟩ := new
      cases hw
      exact kept.sound _ stored found
    | inr old => exact kept.sound other row old.2

theorem updated (stored : w.conversations c'.id = some c) :
    (w.updateConversation c').conversations c'.id = some (c.overwrite c') ∧
      (w.updateConversation c').members = w.members ∧
      (w.updateConversation c').toggles c'.id =
        w.toggles c'.id ++ if c'.isToggle then [(c'.visibility, c'.publicSince)] else [] := by
  simp [World.updateConversation, stored]

theorem joined (kept : w.Kept id before (owed + 1)) (stored : w.conversations id = some c) (joined : c.Joined c')
    (eq : c'.id = id) : (w.updateConversation c').Kept id before owed := by
  subst eq
  obtain ⟨_, stored', _, hc, shown⟩ := kept.row
  cases stored.symm.trans stored'
  obtain ⟨row, members, toggles⟩ := updated stored
  refine ⟨kept.sound_updateConversation c', c.overwrite c', row, ?_, ?_, ?_⟩
  · have := joined.room
    show c'.memberCount ≤ c.maxMembers
    rw [joined.memberCount]
    omega
  · show c'.memberCount + owed = _
    rw [joined.memberCount, World.roster, members]
    have := hc
    rw [World.roster] at this
    omega
  · show (c'.visibility, c'.publicSince) = _
    rw [toggles, joined.event, if_neg Bool.false_ne_true, List.append_nil, joined.visibility, joined.publicSince]
    exact shown

theorem toggled (kept : w.Kept id before owed) (stored : w.conversations id = some c) (toggled : c.Toggled c')
    (eq : c'.id = id) : (w.updateConversation c').Kept id before owed := by
  subst eq
  obtain ⟨_, stored', room, hc, _⟩ := kept.row
  cases stored.symm.trans stored'
  obtain ⟨row, members, toggles⟩ := updated stored
  refine ⟨kept.sound_updateConversation c', c.overwrite c', row, ?_, ?_, ?_⟩
  · show c'.memberCount ≤ c.maxMembers
    rw [toggled.memberCount]
    exact room
  · show c'.memberCount + owed = _
    rw [toggled.memberCount, World.roster, members]
    exact hc
  · show (c'.visibility, c'.publicSince) = _
    rw [toggles, toggled.event, if_pos rfl]
    simp

theorem updateElsewhere (kept : w.Kept id before owed) {c : Conversation} (other : c.id ≠ id) :
    (w.updateConversation c).Kept id before owed := by
  apply kept.elsewhere (kept.sound_updateConversation c)
  all_goals
    unfold World.updateConversation
    split
    · rfl
    · simp [Ne.symm other]

theorem owes_moved (aside : op.isAside) : (writing.moved hand op ans).owes id = hand.owes id := by
  cases op with
  | insertMember | updateConversation => cases aside
  | findConversation =>
    cases hand with
    | fresh =>
      cases ans with
      | error => rfl
      | ok found => cases found <;> rfl
    | _ => rfl
  | _ => cases hand <;> rfl

theorem serve {op : Op} (kept : w.Kept id before owed) (fits : writing.fits hand op)
    (he : op.exclusive id w hand = true)
    (count : owed' + (hand.owes id).toNat = owed + ((writing.moved hand op (w.serve config op).2).owes id).toNat) :
    (w.serve config op).1.Kept id before owed' := by
  have still : op.isAside → owed' = owed := by
    intro aside
    rw [owes_moved aside] at count
    omega
  cases op with
  | insertMember =>
    obtain ⟨c, rfl, rfl⟩ := fits
    simp only [Op.exclusive, Bool.or_eq_true, Bool.and_eq_true, bne_iff_ne, beq_iff_eq] at he
    replace count : owed' = owed + (decide (c.id = id)).toNat := count
    by_cases here : c.id = id
    · subst here
      rw [decide_eq_true rfl] at count
      subst count
      exact kept.insertMember (he.resolve_left fun other => other rfl).2
    · rw [decide_eq_false here] at count
      subst count
      exact kept.elsewhere kept.sound rfl (Function.update_of_ne (Ne.symm here) ..) rfl
  | updateConversation c' =>
    simp only [Op.exclusive, Bool.or_eq_true, bne_iff_ne, beq_iff_eq] at he
    cases fits with
    | inl join =>
      obtain ⟨c, rfl, joined⟩ := join
      replace count : owed' + (decide (c.id = id)).toNat = owed := count
      by_cases here : c'.id = id
      · rw [decide_eq_true (joined.id.symm.trans here)] at count
        subst count
        exact kept.joined (he.resolve_left fun other => other here) joined here
      · rw [decide_eq_false (joined.id ▸ here)] at count
        subst count
        exact kept.updateElsewhere here
    | inr toggle =>
      obtain ⟨_, rfl, toggled⟩ := toggle
      subst count
      by_cases here : c'.id = id
      · exact kept.toggled (he.resolve_left fun other => other here) toggled here
      · exact kept.updateElsewhere here
  | _ =>
    rw [still trivial]
    exact kept.elsewhere kept.sound rfl rfl rfl

theorem truthful (kept : w.Kept id before owed) (op : Op) : Truthful op (w.serve config op).2 := by
  cases op with
  | findConversation id' =>
    refine ⟨w.conversations id', rfl, ?_⟩
    cases found : w.conversations id' with
    | none => trivial
    | some c => exact kept.sound id' c found
  | _ => exact ⟨_, rfl, trivial⟩

end World.Kept

theorem moved_updated (command : hand ≠ .aside) (entry : Heard Op Op.Reply ChatError) :
    writing.moved hand entry.1 entry.2 ≠ .aside ∧
      (writing.moved hand entry.1 entry.2 = .updated ↔
        hand = .updated ∨ ∃ c, entry = ⟨.updateConversation c, .ok ()⟩) := by
  obtain ⟨op, ans⟩ := entry
  cases hand with
  | aside => exact absurd rfl command
  | updated => exact ⟨Hand.noConfusion, fun _ => .inl rfl, fun _ => rfl⟩
  | fresh =>
    cases op with
    | updateConversation => cases ans <;> simp [writing]
    | findConversation =>
      cases ans with
      | error => simp [writing]
      | ok found => cases found <;> simp [writing]
    | _ => simp [writing]
  | found =>
    cases op with
    | updateConversation | insertMember => cases ans <;> simp [writing]
    | _ => simp [writing]
  | inserted =>
    cases op with
    | updateConversation => cases ans <;> simp [writing]
    | _ => simp [writing]

theorem updated_iff {call : Call Request Op Op.Reply ChatError Outcome} (command : call.request.hand = .fresh) :
    writing.inHand Request.hand call ≠ .aside ∧
      (writing.inHand Request.hand call = .updated ↔ ∃ c, ⟨.updateConversation c, .ok ()⟩ ∈ call.heard) := by
  have fold : ∀ heard : List (Heard Op Op.Reply ChatError),
      heard.foldr (fun entry hand => writing.moved hand entry.1 entry.2) .fresh ≠ .aside ∧
        (heard.foldr (fun entry hand => writing.moved hand entry.1 entry.2) .fresh = .updated ↔
          ∃ c, ⟨.updateConversation c, .ok ()⟩ ∈ heard) := by
    intro heard
    induction heard with
    | nil => simp
    | cons entry _ ih =>
      obtain ⟨aside, updated⟩ := moved_updated ih.1 entry
      refine ⟨aside, updated.trans ?_⟩
      rw [ih.2, ← exists_or]
      simp only [List.mem_cons, eq_comm, or_comm]
  rw [Protocol.inHand, command]
  exact fold call.heard

theorem Finished.updated_iff {α : Type} {res : Except ChatError α} (hf : Finished hand res)
    (command : hand ≠ .aside) : (∃ value, res = .ok value) ↔ hand = .updated := by
  cases hand with
  | aside => exact absurd rfl command
  | fresh =>
    obtain ⟨e, rfl⟩ := hf
    simp
  | found =>
    obtain ⟨_, rfl⟩ := hf
    simp
  | inserted => cases hf
  | updated => exact ⟨fun _ => rfl, fun _ => hf⟩

theorem Finished.owes {α : Type} {res : Except ChatError α} (hf : Finished hand res) (id : ConversationId) :
    hand.owes id = false := by
  cases hand with
  | inserted => cases hf
  | _ => rfl

/-- The commands keep to the protocol, and owe the members that the world waits for. -/
abbrev Kept (id : ConversationId) (before : Visibility × Option MessageId) (pool : Traffic) : Prop :=
  pool.Balanced writing Truthful Request.hand Finished (Hand.owes id) (World.Kept id before)

section

variable {id : ConversationId}

theorem kept_step (kept : Kept id before pool) (hr : move.faultless = true)
    (hal : exclusive id pool move = true) (hs : (host formats config init).Steps pool move next) :
    Kept id before next := by
  apply Pool.Balanced.step kept hs hr
  · intro owed op kept'
    exact kept'.truthful op
  · intro n req world prog hm ha
    cases ha
    exact ⟨keeps_program req, by cases req <;> rfl, rfl⟩
  · intro n req op rest heard owed owed' hm hw hand fits count kept'
    subst hm
    simp only [exclusive, hw] at hal
    exact kept'.serve fits hal count
  · intro ev world owed hm hc kept'
    cases hc
    exact kept'.elsewhere kept'.sound rfl rfl rfl

end

/-- Where no command is under way: the row counts the roster within its limit, and no toggle is on
record. -/
structure World.Settled (id : ConversationId) (w : World) : Prop where
  sound : ∀ id c, w.conversations id = some c → c.id = id ∧ c.pendingEvents = []
  row : ∃ c, w.conversations id = some c ∧ c.memberCount = (w.roster id).ncard ∧ c.memberCount ≤ c.maxMembers
  toggles : w.toggles id = []

/-- Once all commands have returned, the row shows what the last toggle wrote and counts the roster
within the limit, in every run in which a command writes only to the row it has found. A command has
returned well if and only if it has written the row. -/
theorem commands_keep_the_conversation (formats : Formats) (config : Config) (id : ConversationId)
    {start pool : Traffic} {moves : List (Move Request Event)}
    (begins : (host formats config (World.Settled id)).machine.init start)
    (reliable : ∀ move ∈ moves, move.faultless = true)
    (alone : (host formats config (World.Settled id)).machine.Meets
      (fun pool move => exclusive id pool move = true) start moves)
    (ran : (host formats config (World.Settled id)).machine.run start moves = some pool) (idle : pool.Idle) :
    (∃ first last, start.world.conversations id = some first ∧ pool.world.conversations id = some last ∧
      (last.visibility, last.publicSince) =
        (pool.world.toggles id).getLast?.getD (first.visibility, first.publicSince) ∧
      last.memberCount = (pool.world.roster id).ncard ∧ last.memberCount ≤ last.maxMembers) ∧
    ∀ n call, pool.calls n = some call → call.request.hand = .fresh →
      ((∃ outcome, call.returned = some outcome) ↔ ∃ c, ⟨.updateConversation c, .ok ()⟩ ∈ call.heard) := by
  obtain ⟨settled, empty⟩ := begins
  obtain ⟨first, stored, counted, room⟩ := settled.row
  have initially : Kept id (first.visibility, first.publicSince) start := by
    refine .of_empty empty ⟨settled.sound, first, stored, room, counted, ?_⟩
    rw [settled.toggles]
    rfl
  have kept : Kept id (first.visibility, first.publicSince) pool :=
    Host.run_keeps _ (fun kept met stepped => kept_step kept met.1 met.2 stepped) initially (alone.only reliable) ran
  constructor
  · have world := kept.settled idle fun hand result finished => finished.owes id
    obtain ⟨last, stored', room', counted', shown⟩ := world.row
    exact ⟨first, last, stored, stored', shown, counted', room'⟩
  intro n call held command
  obtain ⟨notAside, wrote⟩ := updated_iff command
  have follows := kept.following n call held
  have ended := idle n call held
  rw [← wrote, Call.returned]
  generalize call.program = program at follows ended ⊢
  cases program with
  | ok | error => simpa using Finished.updated_iff follows notAside
  | call => cases ended

namespace Overlapping

def config : Config := ⟨100, 24, .descending⟩

def served (id times : Nat) : List (Move Request Event) := List.replicate times (.advance id .served)

def join (profileId : ProfileId) : Request := .joinAsMember 1 profileId

def publish : Request := .toggleVisibility 1 1 true ⟨0, 0⟩

def inTurn : List (Move Request Event) :=
  [.begin 0 (join 7)] ++ served 0 7 ++ [.begin 1 publish] ++ served 1 6 ++ [.begin 2 (join 8)] ++ served 2 7

/-- The first join has found the row when the other two commands come and go. -/
def overtaken : List (Move Request Event) :=
  [.begin 0 (join 7)] ++ served 0 1 ++ [.begin 2 (join 8)] ++ served 2 7 ++ [.begin 1 publish] ++ served 1 6 ++
    served 0 6

theorem roster_settled : Sample.settled.roster 1 = {1, 2} := by
  ext profile
  by_cases owner : profile = 1#128
  · simp [World.roster, Sample.settled, owner]
  · by_cases mem : profile = 2#128
    · simp [World.roster, Sample.settled, mem]
    · simp [World.roster, Sample.settled, owner, mem]

theorem settled_settled : Sample.settled.Settled 1 := by
  refine ⟨?_, ⟨Sample.group, rfl, ?_, by decide⟩, rfl⟩
  · intro id c h
    simp only [Sample.settled] at h
    split at h
    · rename_i eq
      cases h
      exact ⟨eq.symm, rfl⟩
    · cases h
  · rw [roster_settled, Set.ncard_pair (by decide)]
    rfl

theorem start_init : (host Sample.plain config (World.Settled 1)).machine.init Sample.start := ⟨settled_settled, rfl⟩

def watermark : MessageId := nowV7 1000 ⟨0, 0⟩

theorem inTurn_keeps_the_group : ∃ pool,
    (host Sample.plain config (World.Settled 1)).machine.run Sample.start inTurn = some pool ∧
    ∃ first last, Sample.start.world.conversations 1 = some first ∧ pool.world.conversations 1 = some last ∧
      (last.visibility, last.publicSince) =
        (pool.world.toggles 1).getLast?.getD (first.visibility, first.publicSince) ∧
      last.memberCount = (pool.world.roster 1).ncard ∧ last.memberCount ≤ last.maxMembers := by
  obtain ⟨pool, ran, ended⟩ : ∃ pool, (host Sample.plain config (World.Settled 1)).machine.run Sample.start inTurn =
      some pool ∧ (begunIn inTurn).all (fun id => (pool.calls id).all fun call => call.program.ended) = true := by
    decide +kernel
  have idle : pool.Idle := Host.idle_of_ended ran (fun _ => rfl) ended
  have kept := commands_keep_the_conversation Sample.plain config 1 start_init (by decide) (by decide +kernel) ran idle
  exact ⟨pool, ran, kept.1⟩

/-- The conversation is private though the only toggle published it, and one of its four members is
not counted. -/
theorem overtaken_join_takes_back_the_toggle : ∃ pool last,
    (host Sample.plain config (World.Settled 1)).machine.run Sample.start overtaken = some pool ∧
    (∀ move ∈ overtaken, move.faultless = true) ∧ pool.Idle ∧ pool.world.conversations 1 = some last ∧
    (last.visibility, last.publicSince) = (.private_, none) ∧
    pool.world.toggles 1 = [(.public_, some watermark)] ∧
    last.memberCount < (pool.world.roster 1).ncard := by
  obtain ⟨pool, ran, ended, toggles, members, last, stored, private_, three⟩ : ∃ pool,
      (host Sample.plain config (World.Settled 1)).machine.run Sample.start overtaken = some pool ∧
      (begunIn overtaken).all (fun id => (pool.calls id).all fun call => call.program.ended) = true ∧
      pool.world.toggles 1 = [(.public_, some watermark)] ∧
      [1, 2, 7, 8].all (fun profile => (pool.world.members 1 profile).isSome) = true ∧
      ∃ last, pool.world.conversations 1 = some last ∧ (last.visibility, last.publicSince) = (.private_, none) ∧
        last.memberCount = 3 := by decide +kernel
  refine ⟨pool, last, ran, by decide, Host.idle_of_ended ran (fun _ => rfl) ended, stored, private_, toggles, ?_⟩
  have four : (([1, 2, 7, 8] : List ProfileId).toFinset : Set ProfileId) ⊆ pool.world.roster 1 := by
    intro profile listed
    exact List.all_eq_true.mp members profile listed
  have counted := Set.ncard_le_ncard four (Set.toFinite _)
  rw [Set.ncard_coe_finset, List.toFinset_card_of_nodup (by decide)] at counted
  rw [three]
  exact counted

end Overlapping
end CorePlatform.Chat
