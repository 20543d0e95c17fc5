import CorePlatform.Theory.Conformance
import CorePlatform.Chat.Handlers

/-! # What a guest reads of a conversation's history

The rule for the audience is about ids: a message is visible from the watermark on. The query
enforces it on times, by the millisecond in the watermark. A message has its id from one clock
reading and its time from a later one, so the rules part where a publication falls between the two,
or into the same millisecond. -/

namespace CorePlatform.Chat

open Theory Function Program.Conforms

abbrev Answers := List (Heard Op Op.Reply ChatError)

theorem append_toNat {m n : Nat} (x : BitVec m) (y : BitVec n) : (x ++ y).toNat = x.toNat * 2 ^ n + y.toNat := by
  rw [BitVec.toNat_append, ← Nat.shiftLeft_add_eq_or_of_lt y.isLt, Nat.shiftLeft_eq]

namespace Minting

variable {a b : Minting}

/-- The time of the reading can be written into an id. -/
def Fits (minting : Minting) : Prop := 0 ≤ minting.ms ∧ minting.ms < 2 ^ 48

theorem Fits.toNat_id (fits : a.Fits) : a.id.toNat =
    (((a.ms.toNat * 2 ^ 4 + 7) * 2 ^ 12 + a.entropy.a.toNat) * 2 ^ 2 + 2) * 2 ^ 62 + a.entropy.b.toNat := by
  obtain ⟨low, high⟩ := fits
  have ms : (BitVec.ofInt 48 a.ms).toNat = a.ms.toNat := by
    rw [BitVec.toNat_ofInt]
    congr 1
    exact Int.emod_eq_of_lt low (by exact_mod_cast high)
  simp only [Minting.id, nowV7, append_toNat, ms]
  rfl

theorem le_id_of_not_before (fa : a.Fits) (fb : b.Fits) (h : a.before b = false) : b.id ≤ a.id := by
  rw [BitVec.le_def, fa.toNat_id, fb.toNat_id]
  obtain ⟨la, ha⟩ := fa
  obtain ⟨lb, hb⟩ := fb
  have bounds := a.entropy.a.isLt
  have bounds' := b.entropy.a.isLt
  have rest := a.entropy.b.isLt
  have rest' := b.entropy.b.isLt
  simp only [before, Bool.or_eq_false_iff, Bool.and_eq_false_iff, decide_eq_false_iff_not, BitVec.lt_def,
    ← BitVec.toNat_inj] at h
  omega

theorem Fits.timestampMs_id (fits : a.Fits) (formats : Formats) : formats.timestampMs a.id = some a.ms := by
  have num := fits.toNat_id
  obtain ⟨low, high⟩ := fits
  have bounds := a.entropy.a.isLt
  have rest := a.entropy.b.isLt
  have version : a.id.extractLsb' 76 4 = 7#4 := by
    apply BitVec.eq_of_toNat_eq
    rw [BitVec.extractLsb'_toNat, num, Nat.shiftRight_eq_div_pow]
    simp only [BitVec.toNat_ofNat]
    omega
  have time : (a.id.extractLsb' 80 48).toNat = a.ms.toNat := by
    rw [BitVec.extractLsb'_toNat, num, Nat.shiftRight_eq_div_pow]
    omega
  simp only [Formats.timestampMs, version, if_true, time]
  congr 1
  omega

end Minting

/-- A message that some partition returned, read with the floor. -/
def Fetched (conversationId : ConversationId) (floorMs : Option Int) (heard : Answers)
    (m : MessageRow) : Prop :=
  ∃ bucket limit cursor rows, ⟨.fetchBucket conversationId bucket limit cursor floorMs, .ok rows⟩ ∈ heard ∧ m ∈ rows

theorem Fetched.later (hfe : Fetched conversationId floorMs heard m) (entry : Heard Op Op.Reply ChatError) :
    Fetched conversationId floorMs (entry :: heard) m := by
  obtain ⟨bucket, limit, cursor, rows, hf, mem⟩ := hfe
  exact ⟨bucket, limit, cursor, rows, .tail entry hf, mem⟩

def Obtained (heard : Answers) (id : MessageId) : Prop :=
  (∃ entropy, ⟨.mint entropy, .ok id⟩ ∈ heard) ∨
    ∃ asked c, ⟨.findConversation asked, .ok (some c)⟩ ∈ heard ∧ c.publicSince = some id

/-- A call stores no id and no watermark but those that it got. -/
def Draws (heard : Answers) : Op → Prop
  | .insertMessage m => Obtained heard m.id
  | .updateConversation c => ∀ mark, c.publicSince = some mark → Obtained heard mark
  | _ => True

/-- The program stores what it got, and ends as said. -/
abbrev EndsWith {α : Type} (ends : Answers → α → Prop) (program : Calling α)
    (heard : Answers) : Prop := program.Conforms Draws ends heard

section

variable {formats : Formats} {heard : Answers}

theorem endsWith_walk (so : ∀ m ∈ out, Fetched conversationId floorMs heard m) :
    EndsWith (fun heard out => ∀ m ∈ out, Fetched conversationId floorMs heard m)
      (walk conversationId target cursor floorMs minBucket left bucket first out) heard := by
  induction left generalizing bucket first out heard with
  | zero => exact so
  | succ _ ih =>
    unfold walk
    split
    · apply perform trivial
      intro rows
      apply ih
      intro m mem
      rcases List.mem_append.mp mem with old | new
      · exact (so m old).later _
      · exact ⟨bucket, _, _, rows, .head _, new⟩
    · exact so

theorem endsWith_startMs : EndsWith (fun _ _ => True) (startMs cursor) heard := by
  cases cursor with
  | some => trivial
  | none => exact ⟨trivial, fun ans => by cases ans <;> trivial⟩

theorem endsWith_listHistory :
    EndsWith (fun heard res => ∀ m ∈ res.1, Fetched conversationId floorMs heard m)
      (listHistory config conversationId limit cursor floorMs) heard := by
  simp only [listHistory]
  split
  · intro m mem
    cases mem
  apply endsWith_startMs.bind
  intro heard startMs _
  apply bind (endsWith_walk ?_)
  · intro heard out fetched
    exact fetched
  · intro m mem
    cases mem

theorem endsWith_readPage : EndsWith (fun heard page => ∀ m ∈ page.messages, Fetched q.conversationId floorMs heard m)
    (readPage formats config q cursor floorMs) heard :=
  endsWith_listHistory.bind fun _ _ fetched => fetched

/-- What a request has read of the conversation and of the requester's membership, and where the
messages of its page come from if they are no member. -/
def Read (formats : Formats) (q : GetHistoryQuery) (heard : Answers) (page : MessagePage) :
    Prop :=
  ∃ c member, ⟨.findConversation q.conversationId, .ok (some c)⟩ ∈ heard ∧
    ⟨.findMember q.conversationId q.requesterId, .ok member⟩ ∈ heard ∧
    (member = none → ∀ m ∈ page.messages, ∃ ms, c.floorMs formats = some ms ∧
      Fetched q.conversationId (some ms) heard m)

theorem endsWith_loadConversation {id : ConversationId} :
    EndsWith (fun heard c => ⟨.findConversation id, .ok (some c)⟩ ∈ heard) (loadConversation id) heard := by
  apply perform trivial
  intro hf
  cases hf with
  | none => trivial
  | some => exact .head _

theorem endsWith_getHistory : EndsWith (Read formats q) (getHistory formats config q) heard := by
  apply lift
  intro cursor _
  apply endsWith_loadConversation.bind
  intro heard c loaded
  apply perform trivial
  intro mem
  have fetchedBy : ∀ {floorMs : Option Int}, (mem = none → ∃ ms, floorMs = some ms ∧ c.floorMs formats = some ms) →
      EndsWith (Read formats q) (readPage formats config q cursor floorMs)
        (⟨.findMember q.conversationId q.requesterId, .ok mem⟩ :: heard) := by
    intro floorMs floor
    apply (endsWith_readPage.remember (List.suffix_refl _)).mono
    intro hl page ends
    obtain ⟨fetched, since⟩ := ends
    refine ⟨c, mem, since.subset (.tail _ loaded), since.subset (.head _), ?_⟩
    intro guest m hli
    obtain ⟨ms, rfl, here⟩ := floor guest
    exact ⟨ms, here, fetched m hli⟩
  cases mem with
  | some => exact fetchedBy nofun
  | none =>
    simp only
    split
    · split
      · rename_i ms floor
        exact fetchedBy fun _ => ⟨ms, rfl, floor⟩
      · refine ⟨c, none, .tail _ loaded, .head _, fun _ m hli => ?_⟩
        cases hli
    · trivial

theorem endsWith_publishAll : EndsWith (fun _ _ => True) (publishAll events) heard := by
  induction events generalizing heard with
  | nil => trivial
  | cons _ _ ih => exact perform trivial fun _ => ih

theorem endsWith_sendMessage : EndsWith (fun _ _ => True) (sendMessage formats draft entropy) heard := by
  refine perform trivial fun messageId => perform trivial fun member => ?_
  cases member with
  | none => trivial
  | some member =>
    simp only
    split
    · refine perform trivial fun now => lift fun message made => ?_
      have same : message.id = messageId := by
        unfold Message.create at made
        cases checked : Message.checkContent formats draft <;> rw [checked] at made <;> cases made
        rfl
      refine perform ?_ fun _ => ⟨trivial, fun ans => by cases ans <;> trivial⟩
      exact .inl ⟨entropy, by simp [same]⟩
    · trivial

theorem endsWith_joinAsMember : EndsWith (fun _ _ => True) (joinAsMember conversationId profileId) heard := by
  apply endsWith_loadConversation.bind
  intro heard c loaded
  refine perform trivial fun member => ?_
  cases member with
  | some => trivial
  | none =>
    refine perform trivial fun now => lift fun c' admitted => ?_
    refine perform trivial fun joinedAt => lift fun p _ => ?_
    refine perform trivial fun _ => perform ?_ fun _ => endsWith_publishAll
    intro mark eq
    have kept : c'.publicSince = c.publicSince := by
      unfold Conversation.admitMember at admitted
      split at admitted
      · cases admitted
      · split at admitted <;> cases admitted
        rfl
    exact .inr ⟨conversationId, c, by simp [loaded], kept ▸ eq⟩

theorem endsWith_toggle : EndsWith (fun heard c' => ∀ mark, c'.publicSince = some mark → Obtained heard mark)
    (toggle c makePublic entropy) heard := by
  refine perform trivial fun now => ?_
  cases makePublic with
  | true =>
    refine perform trivial fun watermark => ?_
    show EndsWith _ (Program.ofExcept (c.publish now watermark)) _
    unfold Conversation.publish
    split
    · trivial
    · intro mark eq
      cases eq
      exact .inl ⟨entropy, .head _⟩
  | false =>
    show EndsWith _ (Program.ofExcept (c.unpublish now)) _
    unfold Conversation.unpublish
    split
    · intro mark eq
      cases eq
    · trivial

theorem endsWith_toggleVisibility :
    EndsWith (fun _ _ => True) (toggleVisibility conversationId actorId makePublic entropy) heard := by
  apply endsWith_loadConversation.bind
  intro heard c _
  refine perform trivial fun actor => ?_
  cases actor with
  | none => trivial
  | some actor =>
    simp only
    split
    · apply endsWith_toggle.bind
      intro heard c' drawn
      exact perform drawn fun _ => endsWith_publishAll
    · trivial

end

/-- The message is older than the conversation's floor, or visible. -/
def Conversation.shields (formats : Formats) (c : Conversation) (m : MessageRow) : Bool :=
  match c.floorMs formats with
  | some ms => decide (m.createdAt < ms) || c.isVisibleToAudience m.messageId
  | none => true

/-- By the clock, the watermark was minted after the message's id, and no later than the millisecond
that the message has as its time. -/
def World.crosses (w : World) (c : Conversation) (m : MessageRow) : Bool :=
  w.minted.any fun mark => decide (c.publicSince = some mark.id) && decide (mark.ms ≤ m.createdAt) &&
    w.minted.any fun minting => decide (minting.id = m.messageId) && minting.before mark

/-- A message is stored that no row so far crosses, or a row that crosses no message so far; and the
clock can be written into ids. -/
def Op.timely (w : World) : Op → Bool
  | .insertMessage m => (w.rows m.conversationId).all fun c => !w.crosses c m.row
  | .updateConversation c => (w.messages c.id).all fun m => !w.crosses c m
  | .mint _ => decide (0 ≤ w.clock) && decide (w.clock < 2 ^ 48)
  | _ => true

def timely (pool : Traffic) : Move Request Event → Bool
  | .advance id service =>
    match pool.calls id with
    | some ⟨_, .call op _, _⟩ => !service.reaches || op.timely pool.world
    | _ => true
  | .begin _ _ | .crash _ | .elapse _ => true

structure World.Minted (w : World) : Prop where
  known : ∀ id c, w.conversations id = some c → c ∈ w.rows id
  fits : ∀ minting ∈ w.minted, minting.Fits
  marks : ∀ id, ∀ c ∈ w.rows id, ∀ mark, c.publicSince = some mark → mark ∈ w.minted.map Minting.id
  ids : ∀ id, ∀ m ∈ w.messages id, m.messageId ∈ w.minted.map Minting.id

/-- No row crosses a message. -/
structure World.Timed (w : World) : Prop extends w.Minted where
  uncrossed : ∀ id, ∀ c ∈ w.rows id, ∀ m ∈ w.messages id, w.crosses c m = false

structure World.Shielded (formats : Formats) (w : World) : Prop extends w.Minted where
  shielded : ∀ id, ∀ c ∈ w.rows id, ∀ m ∈ w.messages id, c.shields formats m = true

section

variable {w : World}

theorem shields_congr {c : Conversation} (eq : m.key = m'.key) : c.shields formats m = c.shields formats m' := by
  obtain ⟨time, id⟩ := Prod.mk.inj eq
  unfold Conversation.shields
  rw [time, id]

theorem World.Minted.shields {c : Conversation} {m : MessageRow} (minted : w.Minted)
    (marks : ∀ mark, c.publicSince = some mark → mark ∈ w.minted.map Minting.id)
    (id : m.messageId ∈ w.minted.map Minting.id) (uncrossed : w.crosses c m = false) : c.shields formats m = true := by
  unfold Conversation.shields Conversation.floorMs Conversation.isVisibleToAudience
  cases since : c.publicSince with
  | none => rfl
  | some watermark =>
    obtain ⟨mark, ofMark, rfl⟩ := List.mem_map.mp (marks watermark since)
    obtain ⟨minting, ofId, made⟩ := List.mem_map.mp id
    have apart := List.any_eq_false.mp uncrossed mark ofMark
    simp only [since, decide_true, Bool.true_and, Bool.and_eq_true, decide_eq_true_eq, List.any_eq_true,
      not_and, not_exists] at apart
    simp only [Option.bind_some, (minted.fits mark ofMark).timestampMs_id, Bool.or_eq_true, decide_eq_true_eq]
    by_cases old : m.createdAt < mark.ms
    · exact .inl old
    · have order := apart (by omega) minting ofId made
      rw [← made]
      exact .inr (Minting.le_id_of_not_before (minted.fits minting ofId) (minted.fits mark ofMark) (by simpa using order))

theorem World.Timed.shielded (timed : w.Timed) : w.Shielded formats :=
  { timed.toMinted with
    shielded := fun id c h m ht =>
      timed.toMinted.shields (timed.marks id c h) (timed.ids id m ht) (timed.uncrossed id c h m ht) }

/-- The ids that an operation stores were minted. -/
def Op.Sourced (w : World) : Op → Prop
  | .insertMessage m => m.id ∈ w.minted.map Minting.id
  | .updateConversation c => ∀ mark, c.publicSince = some mark → mark ∈ w.minted.map Minting.id
  | _ => True

theorem shielded_updateConversation (kept : w.Shielded formats) (sourced : (Op.updateConversation c).Sourced w)
    (ht : (Op.updateConversation c).timely w = true) : (w.updateConversation c).Shielded formats := by
  unfold World.updateConversation
  cases hf : w.conversations c.id with
  | none => exact kept
  | some stored =>
    have rows : ∀ {id row}, row ∈ update w.rows c.id (w.rows c.id ++ [stored.overwrite c]) id →
        row ∈ w.rows id ∨ id = c.id ∧ row = stored.overwrite c := by
      intro id row h
      by_cases same : id = c.id
      · subst same
        simpa using h
      · rw [update_of_ne same] at h
        exact .inl h
    refine ⟨⟨?_, kept.fits, ?_, kept.ids⟩, ?_⟩
    · intro id row h
      cases update_cases h with
      | inl new =>
        obtain ⟨rfl, hw⟩ := new
        cases hw
        simp
      | inr old =>
        show row ∈ update w.rows c.id _ id
        rw [update_of_ne old.1]
        exact kept.known id row old.2
    · intro id row h
      rcases rows h with old | ⟨-, rfl⟩
      · exact kept.marks id row old
      · exact sourced
    · intro id row h m mem
      rcases rows h with old | ⟨rfl, rfl⟩
      · exact kept.shielded id row old m mem
      · have apart : w.crosses c m = false := by simpa using List.all_eq_true.mp ht m mem
        exact kept.toMinted.shields sourced (kept.ids _ m mem) apart

theorem shielded_insertMessage (kept : w.Shielded formats) (sourced : (Op.insertMessage m).Sourced w)
    (ht : (Op.insertMessage m).timely w = true) : (w.insertMessage m).Shielded formats := by
  have messages : ∀ {id row}, row ∈ (w.insertMessage m).messages id →
      row ∈ w.messages id ∨ id = m.conversationId ∧ row = m.row := by
    intro id row h
    by_cases same : id = m.conversationId
    · subst same
      simp only [World.insertMessage, update_self, List.mem_append, List.mem_singleton] at h
      exact h.imp List.mem_of_mem_filter fun new => ⟨rfl, new⟩
    · simp only [World.insertMessage, update_of_ne same] at h
      exact .inl h
  refine ⟨⟨kept.known, kept.fits, kept.marks, ?_⟩, ?_⟩
  · intro id row h
    rcases messages h with old | ⟨-, rfl⟩
    · exact kept.ids id row old
    · exact sourced
  · intro id c h row mem
    rcases messages mem with old | ⟨rfl, rfl⟩
    · exact kept.shielded id c h row old
    · have apart := List.all_eq_true.mp ht c h
      exact kept.toMinted.shields (kept.marks _ c h) sourced (by simpa using apart)

theorem shielded_mint (kept : w.Shielded formats) (ht : (Op.mint entropy).timely w = true) :
    (w.serve config (.mint entropy)).1.Shielded formats := by
  simp only [Op.timely, Bool.and_eq_true, decide_eq_true_eq] at ht
  refine ⟨⟨kept.known, List.forall_mem_cons.mpr ⟨ht, kept.fits⟩, ?_, ?_⟩, kept.shielded⟩
  · intro id c h mark eq
    exact .tail _ (kept.marks id c h mark eq)
  · intro id m h
    exact .tail _ (kept.ids id m h)

theorem shielded_serve (kept : w.Shielded formats) (sourced : op.Sourced w) (ht : op.timely w = true) :
    (w.serve config op).1.Shielded formats := by
  cases op with
  | updateConversation => exact shielded_updateConversation kept sourced ht
  | insertMessage => exact shielded_insertMessage kept sourced ht
  | mint => exact shielded_mint kept ht
  | _ => exact { kept with }

/-- A row that was found is on record, as is how an id was minted, and a message read with a floor is
not older than it. -/
def Told (w : World) : Heard Op Op.Reply ChatError → Prop
  | ⟨.mint _, .ok id⟩ => id ∈ w.minted.map Minting.id
  | ⟨.findConversation id, .ok (some c)⟩ => c ∈ w.rows id
  | ⟨.fetchBucket id _ _ _ (some ms), .ok rows⟩ =>
    ∀ m ∈ rows, ms ≤ m.createdAt ∧ ∃ stored ∈ w.messages id, stored.key = m.key
  | _ => True

structure World.Extends (w w' : World) : Prop where
  minted : ∀ minting ∈ w.minted, minting ∈ w'.minted
  rows : ∀ id, ∀ c ∈ w.rows id, c ∈ w'.rows id
  messages : ∀ id, ∀ m ∈ w.messages id, ∃ m' ∈ w'.messages id, m'.key = m.key

theorem extends_rfl : w.Extends w := ⟨fun _ h => h, fun _ _ h => h, fun _ m ht => ⟨m, ht, rfl⟩⟩

theorem extends_updateConversation : w.Extends (w.updateConversation c) := by
  unfold World.updateConversation
  split
  · exact extends_rfl
  refine ⟨fun _ h => h, fun id row h => ?_, fun _ m ht => ⟨m, ht, rfl⟩⟩
  by_cases eq : id = c.id
  · subst eq
    simp [h]
  · simpa [eq] using h

theorem extends_insertMessage : w.Extends (w.insertMessage m) := by
  refine ⟨fun _ h => h, fun _ _ h => h, fun id stored ht => ?_⟩
  by_cases eq : id = m.conversationId
  · subst eq
    by_cases replaced : stored.key = m.row.key
    · exact ⟨m.row, by simp [World.insertMessage], replaced.symm⟩
    · exact ⟨stored, by simp [World.insertMessage, ht, replaced], rfl⟩
  · exact ⟨stored, by simpa [World.insertMessage, eq] using ht, rfl⟩

theorem extends_serve : w.Extends (w.serve config op).1 := by
  cases op with
  | updateConversation c => exact extends_updateConversation
  | insertMessage m => exact extends_insertMessage
  | mint => exact ⟨fun _ h => .tail _ h, fun _ _ h => h, fun _ m ht => ⟨m, ht, rfl⟩⟩
  | _ => exact ⟨fun _ h => h, fun _ _ h => h, fun _ m ht => ⟨m, ht, rfl⟩⟩

theorem Told.later (told : Told w entry) (hl : w.Extends w') : Told w' entry := by
  unfold Told at told ⊢
  split
  · obtain ⟨minting, mem, rfl⟩ := List.mem_map.mp told
    exact List.mem_map_of_mem (hl.minted minting mem)
  · exact hl.rows _ _ told
  · intro m hli
    obtain ⟨floor, stored, ht, eq⟩ := told m hli
    obtain ⟨stored', stands', same'⟩ := hl.messages _ stored ht
    exact ⟨floor, stored', stands', same'.trans eq⟩
  · trivial

theorem mem_selectBucket (hl : m ∈ selectBucket config log bucket limit cursor floorMs) :
    m ∈ log ∧ floorMs.all (fun floor => decide (floor ≤ m.createdAt)) = true := by
  have selected := (List.mem_insertionSort _).mp (List.mem_of_mem_take hl)
  simp only [List.mem_filter, Bool.and_eq_true] at selected
  exact ⟨selected.1, selected.2.2⟩

theorem told_serve (kept : w.Shielded formats) (op : Op) : Told (w.serve config op).1 ⟨op, (w.serve config op).2⟩ := by
  cases op with
  | findConversation id =>
    show Told w ⟨.findConversation id, .ok (w.conversations id)⟩
    cases hf : w.conversations id with
    | none => trivial
    | some c => exact kept.known id c hf
  | fetchBucket _ _ _ _ floorMs =>
    cases floorMs with
    | none => trivial
    | some =>
      intro m hl
      obtain ⟨ht, floor⟩ := mem_selectBucket hl
      exact ⟨by simpa using floor, m, ht, rfl⟩
  | mint => exact .head _
  | _ => trivial

theorem told_perform (kept : w.Shielded formats) :
    Told ((server config).perform w op svc).1 ⟨op, ((server config).perform w op svc).2⟩ := by
  have hf : ∀ w' e, Told w' ⟨op, .error e⟩ := by
    intro w' e
    cases op with
    | fetchBucket _ _ _ _ floorMs => cases floorMs <;> trivial
    | _ => trivial
  cases svc with
  | served => exact told_serve kept op
  | refused | replyLost => exact hf _ _

theorem later_perform (kept : w.Shielded formats) (sourced : op.Sourced w)
    (ht : (!service.reaches || op.timely w) = true) :
    ((server config).perform w op service).1.Shielded formats ∧
      w.Extends ((server config).perform w op service).1 := by
  cases service with
  | served | replyLost => exact ⟨shielded_serve kept sourced ht, extends_serve⟩
  | refused => exact ⟨kept, extends_rfl⟩

end

section

variable {formats : Formats} {pool : Traffic}

/-- What a request has read by the end, where it is about history. -/
def Request.Reads (formats : Formats) : Request → Answers → Outcome → Prop
  | .getHistory q, heard, .page page => Read formats q heard page
  | .getHistory _, _, .done => False
  | _, _, _ => True

theorem reads_program (req : Request) : EndsWith (req.Reads formats) (req.program formats config) [] := by
  cases req with
  | getHistory => exact endsWith_getHistory.bind fun _ _ read => read
  | joinAsMember => exact endsWith_joinAsMember.bind fun _ _ _ => trivial
  | toggleVisibility => exact endsWith_toggleVisibility.bind fun _ _ _ => trivial
  | sendMessage => exact endsWith_sendMessage.bind fun _ _ _ => trivial

structure Guarded (formats : Formats) (pool : Traffic) : Prop where
  shielded : pool.world.Shielded formats
  reads : pool.Conforming (fun _ => Draws) (Request.Reads formats)
  told : pool.Attested fun _ => Told

theorem Draws.sourced (draws : Draws heard op) (kept : w.Shielded formats) (told : ∀ entry ∈ heard, Told w entry) :
    op.Sourced w := by
  have minted : ∀ {id}, Obtained heard id → id ∈ w.minted.map Minting.id := by
    rintro id (⟨_, mem⟩ | ⟨asked, c, mem, eq⟩)
    · exact told _ mem
    · exact kept.marks asked c (told _ mem) id eq
  cases op with
  | insertMessage => exact minted draws
  | updateConversation => exact fun mark eq => minted (draws mark eq)
  | _ => trivial

theorem Guarded.step (hg : Guarded formats pool) (met : timely pool move = true)
    (hs : (host formats config init).Steps pool move next) : Guarded formats next := by
  have hl : next.world.Shielded formats ∧ pool.world.Extends next.world := by
    cases hs with
    | begun _ ha =>
      cases ha
      exact ⟨hg.shielded, extends_rfl⟩
    | advanced _ hw =>
      simp only [timely, hw] at met
      have draws := (hg.reads _ _ hw).1
      exact later_perform hg.shielded (draws.sourced hg.shielded (hg.told _ _ hw)) met
    | crashed => exact ⟨hg.shielded, extends_rfl⟩
    | elapsed hc =>
      rename_i ev world
      cases hc
      exact ⟨{ hg.shielded with }, ⟨fun _ h => h, fun _ _ h => h, fun _ m ht => ⟨m, ht, rfl⟩⟩⟩
  refine ⟨hl.1, ?_, ?_⟩
  · apply hg.reads.step hs
    intro id req world prog _ ha
    cases ha
    exact reads_program req
  · exact hg.told.step hs (fun _ _ told => told.later hl.2) fun _ _ => told_perform hg.shielded

theorem Read.visible (read : Read formats q heard page) (kept : w.Shielded formats)
    (told : ∀ entry ∈ heard, Told w entry) :
    ∃ c member, ⟨.findConversation q.conversationId, .ok (some c)⟩ ∈ heard ∧
      ⟨.findMember q.conversationId q.requesterId, .ok member⟩ ∈ heard ∧
      (member = none → ∀ m ∈ page.messages, c.isVisibleToAudience m.messageId = true) := by
  obtain ⟨c, member, loaded, looked, fetched⟩ := read
  refine ⟨c, member, loaded, looked, fun guest m hl => ?_⟩
  obtain ⟨ms, floor, _, _, _, _, ha, among⟩ := fetched guest m hl
  obtain ⟨young, stored, ht, eq⟩ :
      ms ≤ m.createdAt ∧ ∃ stored ∈ w.messages q.conversationId, stored.key = m.key := told _ ha m among
  have onRecord : c ∈ w.rows q.conversationId := told _ loaded
  have shielded := kept.shielded _ c onRecord stored ht
  rw [shields_congr eq, Conversation.shields, floor] at shielded
  simp only [Bool.or_eq_true, decide_eq_true_eq] at shielded
  exact shielded.resolve_left (by omega)

end

namespace Straddling

def config : Config := ⟨100, 24, .descending⟩

def served (id times : Nat) : List (Move Request Event) := List.replicate times (.advance id .served)

def send (body : String) : Request := .sendMessage ⟨1, 2, .text, body, none, none⟩ ⟨0, 0⟩

def publish : Request := .toggleVisibility 1 1 true ⟨0, 0⟩

def read : Request := .getHistory ⟨1, 9, 50, none⟩

/-- One message is stored before the publication, another one is begun a millisecond after it. -/
def apart : List (Move Request Event) :=
  [.begin 0 (send "before")] ++ served 0 5 ++ [.elapse (.tick 1001), .begin 1 publish] ++ served 1 6 ++
    [.elapse (.tick 1002), .begin 2 (send "after")] ++ served 2 5 ++ [.begin 3 read] ++ served 3 4

theorem start_init : (host Sample.plain config World.Timed).machine.init Sample.start := by
  refine ⟨⟨⟨?_, nofun, ?_, nofun⟩, nofun⟩, rfl⟩
  · intro id c h
    simp only [Sample.start, Sample.settled] at h ⊢
    split at h
    · simp_all
    · cases h
  · intro id c h mark eq
    simp only [Sample.start, Sample.settled] at h
    split at h
    · cases List.mem_singleton.mp h
      cases eq
    · cases h

def opened : Conversation :=
  { Sample.group with visibility := .public_, publicSince := some (nowV7 1001 ⟨0, 0⟩), updatedAt := 1001 }

def late : MessageRow := ⟨1002, nowV7 1002 ⟨0, 0⟩, 2, .text, "after", none, none⟩

def early : MessageRow := ⟨1001, nowV7 1000 ⟨0, 0⟩, 2, .text, "before", none, none⟩

end Straddling
end CorePlatform.Chat
