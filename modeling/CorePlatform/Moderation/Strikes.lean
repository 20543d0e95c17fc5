import CorePlatform.Theory.Protocol
import CorePlatform.Moderation.Requests

/-! # Strikes under concurrent commands

An enforcement is saved, and later the ledger of its actor is loaded and saved with one more strike,
which the handler owes in between. The strikes owed and those added make up for the enforcements as
long as every save finds the version that was loaded; and no handler returns while it owes one. -/

namespace CorePlatform.Moderation.Strikes

open Theory Function Option
open Auth (Uuid)

structure Tab where
  failed : Bool
  /-- An enforcement of the handler's own is saved. -/
  applied : Bool
  /-- The actor whose strike is due. -/
  owes : Option ActorId
  read : Option (ActorId × PenaltyLedger)

def Tab.blank : Tab := ⟨false, false, none, none⟩

def tab : Answers → Tab
  | [] => .blank
  | ⟨_, .error _⟩ :: rest => { tab rest with failed := true }
  | ⟨.saveEnforcement enforcement, .ok _⟩ :: rest =>
    { tab rest with applied := true, owes := some enforcement.actorId }
  | ⟨.loadLedger actorId, .ok ledger⟩ :: rest => { tab rest with read := some (actorId, ledger) }
  | ⟨.saveLedger _, .ok _⟩ :: rest => { tab rest with owes := none }
  | _ :: rest => tab rest

/-- The enforcement that a request may bring about. -/
def enforcementId : Timed → Option EnforcementId
  | ⟨.decideCase _ _ _ enforcementId, _⟩ | ⟨.screen _ _ _ enforcementId, _⟩ => some enforcementId
  | _ => none

def Asks (timed : Timed) (answers : Answers) (op : Op) : Prop :=
  (tab answers).failed = false ∧
    match op with
    | .saveEnforcement enforcement =>
      (tab answers).applied = false ∧ (tab answers).owes = none ∧ enforcementId timed = some enforcement.id
    | .saveLedger ledger =>
      ∃ actorId found strike, (tab answers).owes = some actorId ∧ (tab answers).read = some (actorId, found) ∧
        ledger = { found with strikes := found.strikes ++ [strike], version := found.version + 1 }
    | _ => True

def Ends (answers : Answers) : Prop := (tab answers).failed = false ∧ (tab answers).owes = none

def counts : Op → Bool
  | .saveEnforcement _ | .loadLedger _ | .saveLedger _ => true
  | _ => false

/-- The program has nothing to do with enforcements and ledgers. -/
abbrev Still {α : Type} (program : Calling α) : Prop := Within (fun op => counts op = false) program

section

variable {α β : Type} {ends : Answers → α → Prop}

theorem asks_still (hs : counts op = false) (hc : (tab answers).failed = false) : Asks timed answers op := by
  refine ⟨hc, ?_⟩
  cases op <;> trivial

theorem tab_still (hs : counts op = false) : tab (⟨op, .ok reply⟩ :: answers) = tab answers := by
  cases op <;> first | rfl | cases hs

theorem Still.conforms (hs : Still first) (hk : tab answers = state) (hc : state.failed = false)
    (ho : ∀ later value, tab later = state → (f value).Conforms (Asks timed) ends later) :
    (first >>= f).Conforms (Asks timed) ends answers := by
  have halfway : first.Conforms (Asks timed) (fun later _ => tab later = state) answers := by
    refine .of_passes hs (fun later => tab later = state) ?_ ?_ ?_ hk
    · intro later op eq hs
      exact asks_still hs (by rw [eq, hc])
    · intro later op reply eq hs
      exact (tab_still hs).trans eq
    · intro later value eq
      exact eq
  exact halfway.bind ho

theorem Still.of_aside (ha : Aside program) : Still program :=
  ha.mono fun op aside => by cases op <;> first | rfl | cases aside

theorem strike_conforms (hb : PenaltyLedger → Calling Unit) {f : Unit → Calling α}
    (hs : ∀ ledger, Still (hb ledger)) (hc : (tab answers).failed = false)
    (owed : (tab answers).owes = some actorId)
    (ho : ∀ later, Ends later → (f ()).Conforms (Asks timed) ends later) :
    (Program.perform (Op.loadLedger actorId) >>= fun ledger =>
      hb (ledger.recordStrike category now policy) >>= fun _ =>
      Program.perform (Op.saveLedger (ledger.recordStrike category now policy)) >>= f).Conforms
      (Asks timed) ends answers := by
  refine .perform ⟨hc, trivial⟩ fun ledger => ?_
  refine Still.conforms (hs _) rfl hc fun later _ eq => ?_
  have cleanLater : (tab later).failed = false := by
    rw [eq]
    exact hc
  have due : (tab later).owes = some actorId ∧ (tab later).read = some (actorId, ledger) := by
    rw [eq]
    exact ⟨owed, rfl⟩
  refine .perform ⟨cleanLater, actorId, ledger, _, due.1, due.2, rfl⟩ fun _ => ?_
  exact ho _ ⟨cleanLater, rfl⟩

theorem saveEnforcement_conforms {f : Unit → Calling α} (hk : tab answers = .blank)
    (drew : enforcementId timed = some enforcement.id)
    (ho : ∀ later, (tab later).failed = false → (tab later).owes = some enforcement.actorId →
      (f ()).Conforms (Asks timed) ends later) :
    (Program.perform (Op.saveEnforcement enforcement) >>= f).Conforms (Asks timed) ends answers := by
  have clean : (tab answers).failed = false := by
    rw [hk]
    rfl
  refine .perform ⟨clean, ?_, ?_, drew⟩ fun _ => ho _ clean rfl
  · rw [hk]
    rfl
  · rw [hk]
    rfl

theorem Ends.still (he : Ends answers) (hs : Still first)
    (ho : ∀ later value, Ends later → (f value).Conforms (Asks timed) ends later) :
    (first >>= f).Conforms (Asks timed) ends answers := by
  refine Still.conforms hs rfl he.1 fun later value eq => ho later value ?_
  unfold Ends
  rw [eq]
  exact he

theorem enforce_conforms {decision : Decision} (hk : tab answers = .blank) (drew : enforcementId timed = some mine) :
    (enforce setup decision category correlationId mine now).Conforms (Asks timed) (fun later _ => Ends later)
      answers := by
  refine Still.conforms (.op rfl) hk rfl fun _ ver eq => .lift fun enf made => ?_
  obtain ⟨rfl, -⟩ := EnforcementAction.apply_ok made
  refine saveEnforcement_conforms eq drew fun hv clean owed => ?_
  refine Still.conforms (.of_aside aside_flagActor) rfl clean fun flagged _ same' => ?_
  rw [← same'] at clean owed
  unfold strike
  rw [Program.bind_assoc]
  refine strike_conforms (fun _ => pure ()) (fun _ => trivial) clean owed fun later he => ?_
  exact he.still (.of_aside aside_publishAll) fun _ _ he => he

theorem enforceUnlessDismissed_conforms (hk : tab answers = .blank) (drew : enforcementId timed = some mine) :
    (enforceUnlessDismissed setup decision category correlationId mine now).Conforms (Asks timed)
      (fun later _ => Ends later) answers := by
  unfold enforceUnlessDismissed
  split
  · exact (enforce_conforms hk drew).bind fun _ _ he => he
  · show Ends answers
    unfold Ends
    rw [hk]
    exact ⟨rfl, rfl⟩

theorem decideCase_conforms (drew : enforcementId timed = some mine) :
    (decideCase setup cmd correlationId decisionId mine now).Conforms (Asks timed) (fun later _ => Ends later) [] := by
  refine Still.conforms (.op rfl) rfl rfl fun _ stored eq => .lift fun case _ => .lift fun policyVersion _ => ?_
  refine Still.conforms (.of_aside aside_checkActor) eq rfl fun _ _ eq => .lift fun decision _ => ?_
  refine Still.conforms (.of_aside aside_appendDecision) eq rfl fun _ _ eq => ?_
  refine (enforceUnlessDismissed_conforms eq drew).bind fun _ enf he => .lift fun case _ => ?_
  exact he.still (.op rfl) fun _ _ he => he.still (.of_aside aside_publishAll) fun _ _ he => he

theorem screen_conforms (drew : enforcementId timed = some mine) :
    (screen setup cmd correlationId decisionId mine now).Conforms (Asks timed) (fun later _ => Ends later) [] := by
  refine Still.conforms (.op rfl) rfl rfl fun later hit eq => ?_
  cases hit with
  | none =>
    show Ends later
    unfold Ends
    rw [eq]
    exact ⟨rfl, rfl⟩
  | some =>
    refine .lift fun decision _ => Still.conforms (.of_aside aside_appendDecision) eq rfl fun _ _ eq => ?_
    refine Still.conforms (.op rfl) eq rfl fun _ ver eq => .lift fun enf made => ?_
    obtain ⟨rfl, -⟩ := EnforcementAction.apply_ok made
    refine saveEnforcement_conforms eq drew fun hv clean owed => ?_
    refine Still.conforms (.of_aside aside_publishAll) rfl clean fun hp _ same' => ?_
    rw [← same'] at clean owed
    simp only [screenStrike, Program.bind_assoc]
    exact strike_conforms (fun ledger => flagOffender setup ledger cmd.subject.actorId ver now)
      (fun ledger => .of_aside (aside_flagOffender setup)) clean owed fun later he => he

theorem program_conforms (strikes : (enforcementId timed).isSome) :
    (timed.request.program setup timed.now).Conforms (Asks timed) (fun later _ => Ends later) [] := by
  obtain ⟨req, now⟩ := timed
  cases req with
  | decideCase cmd correlationId decisionId mine =>
    exact (decideCase_conforms rfl).bind fun _ _ he => he
  | screen cmd correlationId decisionId mine =>
    exact (screen_conforms rfl).bind fun _ _ he => he
  | _ => cases strikes

end

def ledgerOf (w : World) (actorId : ActorId) : PenaltyLedger := (w.ledgers actorId).getD (.empty actorId)

/-- A save finds the version of the ledger that was loaded. -/
def undisturbed (answers : Answers) (w : World) : Op → Bool
  | .saveLedger ledger =>
    decide ((tab answers).read.map (fun read => read.2.version) = some (ledgerOf w ledger.actorId).version)
  | _ => true

/-- The calls that are carried out are undisturbed. -/
def locked (pool : Traffic) : Move Timed Happening → Bool
  | .advance id service =>
    match pool.calls id with
    | some ⟨_, .call op _, answers⟩ => ! service.reaches || undisturbed answers pool.world op
    | _ => true
  | _ => true

/-- Commands that may strike are taken up, and none of them breaks off. -/
def commands : Move Timed Happening → Bool
  | .begin _ timed => (enforcementId timed).isSome
  | .crash _ => false
  | _ => true

/-- Ledgers stay, or have a higher version. -/
def Raises (w w' : World) : Prop :=
  ∀ actorId, ledgerOf w' actorId = ledgerOf w actorId ∨ (ledgerOf w actorId).version < (ledgerOf w' actorId).version

theorem Raises.of_same (eq : w'.ledgers = w.ledgers) : Raises w w' := by
  intro actorId
  unfold ledgerOf
  rw [eq]
  exact .inl rfl

/-- What a loaded ledger says, for as long as no save is disturbed. -/
def Fact (w : World) : Answer → Prop
  | ⟨.loadLedger actorId, .ok ledger⟩ =>
    ledger.actorId = actorId ∧ Reading PenaltyLedger.version ledger (ledgerOf w actorId)
  | _ => True

theorem Fact.raises (fact : Fact w entry) (hr : Raises w w') : Fact w' entry := by
  unfold Fact at fact ⊢
  split
  · rename_i actorId ledger
    refine ⟨fact.1, ?_⟩
    cases hr actorId with
    | inl eq =>
      rw [eq]
      exact fact.2
    | inr raised => exact fact.2.newer raised
  · trivial

theorem fact_error : Fact w ⟨op, .error e⟩ := by
  cases op <;> trivial

theorem mem_of_read (hk : (tab answers).read = some (actorId, ledger)) :
    ⟨.loadLedger actorId, .ok ledger⟩ ∈ answers := by
  fun_induction tab answers with
  | case1 => cases hk
  | case2 _ _ _ _ ih | case3 _ _ _ _ ih => exact .tail _ (ih hk)
  | case4 =>
    cases hk
    exact .head _
  | case5 _ _ _ _ ih | case6 _ _ _ _ _ _ ih => exact .tail _ (ih hk)

structure Orderly (pool : Traffic) : Prop where
  keyed : ∀ actorId ledger, pool.world.ledgers actorId = some ledger → ledger.actorId = actorId
  rows : ∀ row ∈ pool.world.enforcements.rows, row.id ∈ pool.world.drawn
  drew : ∀ id timed, pool.requests id = some timed → ∃ mine, enforcementId timed = some mine ∧ mine ∈ pool.world.drawn
  apart : ∀ i j first second, i ≠ j → pool.requests i = some first → pool.requests j = some second →
    enforcementId first ≠ enforcementId second
  /-- The enforcement that a call has yet to save is not there. -/
  unused : ∀ id call, pool.calls id = some call → (tab call.heard).applied = false → (tab call.heard).failed = false →
    ∀ row ∈ pool.world.enforcements.rows, enforcementId call.request ≠ some row.id

structure Accounted (pool : Traffic) : Prop extends Orderly pool where
  conforming : pool.Conforming Asks (fun _ answers _ => Ends answers)
  attested : pool.Attested (fun _ => Fact)

section

variable {pool : Traffic} {id : Nat} {timed : Timed} {answers : Answers} {op : Op}
  {rest : Except ModerationError op.Reply → Calling Outcome}

theorem Accounted.saveEnforcement {rest : Except ModerationError Unit → Calling Outcome} (inv : Accounted pool)
    (hw : pool.calls id = some ⟨timed, .call (.saveEnforcement enforcement) rest, answers⟩) :
    (pool.world.enforcements.save enforcement).rows = enforcement.stored :: pool.world.enforcements.rows := by
  obtain ⟨clean, new, -, mine⟩ := (inv.conforming _ _ hw).1
  apply EnforcementTable.rows_save_new
  intro row mem eq
  have unused := inv.unused _ _ hw new clean row mem
  exact unused (by rw [eq]; exact mine)

theorem Accounted.saveLedger {rest : Except ModerationError Unit → Calling Outcome} (inv : Accounted pool)
    (hw : pool.calls id = some ⟨timed, .call (.saveLedger ledger) rest, answers⟩)
    (hf : undisturbed answers pool.world (.saveLedger ledger) = true) :
    (tab answers).owes = some ledger.actorId ∧
      (∃ strike, ledger.strikes = (ledgerOf pool.world ledger.actorId).strikes ++ [strike]) ∧
      ledger.version = (ledgerOf pool.world ledger.actorId).version + 1 := by
  obtain ⟨-, actorId, loaded, strike, owed, read, rfl⟩ := (inv.conforming _ _ hw).1
  have fact : Fact pool.world ⟨.loadLedger actorId, .ok loaded⟩ := inv.attested _ _ hw _ (mem_of_read read)
  obtain ⟨hn, reading⟩ := fact
  subst hn
  have ver := of_decide_eq_true hf
  rw [read] at ver
  have current : ledgerOf pool.world loaded.actorId = loaded := reading.same (some.inj ver)
  refine ⟨owed, ⟨strike, ?_⟩, ?_⟩
  · rw [current]
  · rw [current]

theorem ledgerOf_saved (w : World) (ledger : PenaltyLedger) (actorId : ActorId) :
    ledgerOf (w.serve (.saveLedger ledger)).1 actorId =
      if actorId = ledger.actorId then ledger else ledgerOf w actorId := by
  unfold ledgerOf
  simp only [World.serve]
  split
  · rename_i eq
    rw [eq, update_self]
    rfl
  · rename_i other
    rw [update_of_ne other]

/-- What a call does to the stores when it is carried out. -/
structure Done (w : World) (timed : Timed) (w' : World) : Prop where
  raises : Raises w w'
  keyed : ∀ actorId ledger, w'.ledgers actorId = some ledger → ledger.actorId = actorId
  rows : ∀ row ∈ w'.enforcements.rows, row ∈ w.enforcements.rows ∨ enforcementId timed = some row.id
  drawn : w'.drawn = w.drawn

theorem Accounted.done_refl (inv : Accounted pool) : Done pool.world timed pool.world :=
  ⟨.of_same rfl, inv.keyed, fun _ mem => .inl mem, rfl⟩

theorem Accounted.serves (inv : Accounted pool) (hw : pool.calls id = some ⟨timed, .call op rest, answers⟩)
    (hf : undisturbed answers pool.world op = true) : Done pool.world timed (pool.world.serve op).1 := by
  cases op with
  | saveEnforcement enforcement =>
    refine ⟨.of_same rfl, inv.keyed, ?_, rfl⟩
    intro row mem
    have rows := inv.saveEnforcement hw
    obtain ⟨-, -, -, mine⟩ := (inv.conforming _ _ hw).1
    rw [show (pool.world.serve (.saveEnforcement enforcement)).1.enforcements.rows =
      enforcement.stored :: pool.world.enforcements.rows from rows] at mem
    cases List.mem_cons.mp mem with
    | inl new =>
      rw [new]
      exact .inr mine
    | inr old => exact .inl old
  | saveLedger _ =>
    obtain ⟨-, -, _⟩ := inv.saveLedger hw hf
    refine ⟨?_, ?_, fun _ mem => .inl mem, rfl⟩
    · intro actorId
      rw [ledgerOf_saved]
      split
      · rename_i eq
        subst eq
        exact .inr (by omega)
      · exact .inl rfl
    intro actorId other h
    cases update_cases h with
    | inl new =>
      obtain ⟨rfl, made⟩ := new
      cases made
      rfl
    | inr old => exact inv.keyed _ _ old.2
  | _ => exact ⟨.of_same rfl, inv.keyed, fun _ mem => .inl mem, rfl⟩

theorem Accounted.told (inv : Accounted pool) : Fact (pool.world.serve op).1 ⟨op, (pool.world.serve op).2⟩ := by
  cases op with
  | loadLedger actorId =>
    refine ⟨?_, .refl _ _⟩
    cases h : pool.world.ledgers actorId with
    | none => rfl
    | some ledger => exact inv.keyed actorId ledger h
  | _ => trivial

theorem Accounted.performs (inv : Accounted pool)
    (hw : pool.calls id = some ⟨timed, .call op rest, answers⟩) (fits : locked pool (.advance id svc) = true) :
    Done pool.world timed (server.perform pool.world op svc).1 ∧
      Fact (server.perform pool.world op svc).1 ⟨op, (server.perform pool.world op svc).2⟩ := by
  simp only [locked, hw] at fits
  cases svc with
  | served => exact ⟨inv.serves hw fits, inv.told⟩
  | refused => exact ⟨inv.done_refl, fact_error⟩
  | replyLost => exact ⟨inv.serves hw fits, fact_error⟩

/-- The traffic once a call has gone one way or another. -/
abbrev advanced (pool : Traffic) (id : Nat) (timed : Timed) (op : Op)
    (rest : Except ModerationError op.Reply → Calling Outcome) (answers : Answers) (service : Service) : Traffic where
  world := (server.perform pool.world op service).1
  calls := update pool.calls id (some ⟨timed, rest (server.perform pool.world op service).2,
    ⟨op, (server.perform pool.world op service).2⟩ :: answers⟩)

theorem mem_ids (drew : enforcementId timed = some mine) : mine ∈ timed.request.ids := by
  obtain ⟨req, _⟩ := timed
  cases req with
  | decideCase | screen =>
    cases drew
    exact .tail _ (.head _)
  | _ => cases drew

theorem served_idle (new : (tab (⟨op, (server.perform w op svc).2⟩ :: answers)).applied = false)
    (hc : (tab (⟨op, (server.perform w op svc).2⟩ :: answers)).failed = false) :
    (server.perform w op svc).1.enforcements = w.enforcements ∧
      (tab answers).applied = false ∧ (tab answers).failed = false := by
  cases svc with
  | served =>
    cases op with
    | saveEnforcement => cases new
    | _ => exact ⟨rfl, new, hc⟩
  | refused | replyLost => cases hc

theorem Accounted.unused_step (inv : Accounted pool)
    (hw : pool.calls id = some ⟨timed, .call op rest, answers⟩) (fits : locked pool (.advance id service) = true)
    (h : (advanced pool id timed op rest answers service).calls k = some call)
    (new : (tab call.heard).applied = false) (hc : (tab call.heard).failed = false) :
    ∀ row ∈ (server.perform pool.world op service).1.enforcements.rows, enforcementId call.request ≠ some row.id := by
  intro row mem
  cases update_cases h with
  | inl here =>
    cases here.2
    obtain ⟨eq, newBefore, cleanBefore⟩ := served_idle new hc
    rw [eq] at mem
    exact inv.unused _ _ hw newBefore cleanBefore row mem
  | inr other =>
    cases (inv.performs hw fits).1.rows row mem with
    | inl old => exact inv.unused _ _ other.2 new hc row old
    | inr mine =>
      rw [← mine]
      exact inv.apart _ _ _ _ other.1 (Pool.requests_of_call other.2) (Pool.requests_of_call hw)

theorem happen_same (w : World) :
    (w.happen ev).ledgers = w.ledgers ∧ (w.happen ev).enforcements = w.enforcements ∧
      (w.happen ev).drawn = w.drawn := by
  cases ev <;> exact ⟨rfl, rfl, rfl⟩

theorem Accounted.advanced (inv : Accounted pool)
    (hw : pool.calls id = some ⟨timed, .call op rest, answers⟩) (svc : Service)
    (fits : locked pool (.advance id svc) = true) : Orderly (advanced pool id timed op rest answers svc) := by
  have done := (inv.performs hw fits).1
  refine ⟨done.keyed, ?_, ?_, ?_, fun k call h new clean => ?_⟩
  · intro row mem
    rw [done.drawn]
    cases done.rows row mem with
    | inl old => exact inv.rows row old
    | inr mine =>
      obtain ⟨_, eq, hk⟩ := inv.drew _ _ (Pool.requests_of_call hw)
      cases mine.symm.trans eq
      exact hk
  · show ∀ k timed, _ → ∃ mine, _ ∧ mine ∈ (server.perform pool.world op svc).1.drawn
    rw [Pool.requests_advanced hw, done.drawn]
    exact inv.drew
  · rw [Pool.requests_advanced hw]
    exact inv.apart
  · exact inv.unused_step hw fits h new clean

theorem Orderly.begun (inv : Orderly pool) (strikes : (enforcementId timed).isSome)
    (ha : (host setup).accept pool.world timed = some (world, prog)) :
    Orderly ⟨world, update pool.calls id (some ⟨timed, prog, []⟩)⟩ := by
  obtain ⟨new, rfl, -⟩ := host_accept ha
  obtain ⟨mine, drew⟩ := isSome_iff_exists.mp strikes
  have hf : mine ∉ pool.world.drawn := new mine (mem_ids drew)
  -- What another request has drawn was drawn before.
  have others : ∀ k other, pool.requests k = some other → enforcementId other ≠ some mine := by
    intro k other h eq
    obtain ⟨drawn, its, hk⟩ := inv.drew k other h
    cases its.symm.trans eq
    exact hf hk
  refine ⟨inv.keyed, ?_, ?_, ?_, ?_⟩
  · intro row mem
    exact List.mem_append_right _ (inv.rows row mem)
  · intro k other h
    cases Pool.requests_begun h with
    | inl here =>
      cases here.2
      exact ⟨mine, drew, List.mem_append_left _ (mem_ids drew)⟩
    | inr old =>
      obtain ⟨drawn, its, hk⟩ := inv.drew k other old.2
      exact ⟨drawn, its, List.mem_append_right _ hk⟩
  · intro i j first second ne heldFirst heldSecond
    cases Pool.requests_begun heldFirst with
    | inl here =>
      cases here.2
      cases Pool.requests_begun heldSecond with
      | inl here' => exact absurd (here.1.trans here'.1.symm) ne
      | inr old =>
        intro eq
        exact others j second old.2 (eq.symm.trans drew)
    | inr old =>
      cases Pool.requests_begun heldSecond with
      | inl here =>
        cases here.2
        intro eq
        exact others i first old.2 (eq.trans drew)
      | inr old' => exact inv.apart _ _ _ _ ne old.2 old'.2
  · intro k call h applied clean row mem eq
    cases update_cases h with
    | inl here =>
      cases here.2
      cases drew.symm.trans eq
      exact hf (inv.rows row mem)
    | inr old => exact inv.unused _ _ old.2 applied clean row mem eq

theorem Accounted.raises (inv : Accounted pool) (fits : locked pool move = true)
    (hs : (host setup).Steps pool move next) : Raises pool.world next.world := by
  cases hs with
  | begun _ ha =>
    obtain ⟨-, rfl, -⟩ := host_accept ha
    exact .of_same rfl
  | advanced service waiting => exact (inv.performs waiting fits).1.raises
  | crashed => exact .of_same rfl
  | elapsed hc =>
    cases hc
    exact .of_same (happen_same _).1

theorem Accounted.attested_step (inv : Accounted pool) (fits : locked pool move = true)
    (hs : (host setup).Steps pool move next) : next.Attested (fun _ => Fact) := by
  have raises := inv.raises fits hs
  apply inv.attested.step hs
  · intro req entry fact
    exact fact.raises raises
  · rintro id req op rest heard svc rfl hw
    exact (inv.performs hw fits).2

theorem Accounted.conforming_step (inv : Accounted pool) (command : commands move = true)
    (hs : (host setup).Steps pool move next) : next.Conforming Asks (fun _ answers _ => Ends answers) := by
  apply inv.conforming.step hs
  intro id timed world prog hm ha
  subst hm
  obtain ⟨-, -, rfl⟩ := host_accept ha
  exact program_conforms command

theorem Accounted.step (inv : Accounted pool) (command : commands move = true) (fits : locked pool move = true)
    (hs : (host setup).Steps pool move next) : Accounted next := by
  refine ⟨?_, inv.conforming_step command hs, inv.attested_step fits hs⟩
  cases hs with
  | begun _ accepted => exact inv.begun command accepted
  | advanced service waiting => exact inv.advanced waiting service fits
  | crashed => cases command
  | elapsed hc =>
    cases hc
    obtain ⟨ledgers, enforcements, drawn⟩ := happen_same pool.world
    refine ⟨?_, ?_, ?_, inv.apart, ?_⟩
    · rw [ledgers]
      exact inv.keyed
    · rw [enforcements, drawn]
      exact inv.rows
    · rw [drawn]
      exact inv.drew
    · rw [enforcements]
      exact inv.unused

end

/-- The enforcements against the actor among some rows. -/
def against (actorId : ActorId) (rows : List EnforcementAction) : List EnforcementAction :=
  rows.filter fun row => decide (row.actorId = actorId)

def inDebt (actorId : ActorId) (call : Call Timed Op Op.Reply ModerationError Outcome) : Bool :=
  decide ((tab call.heard).owes = some actorId)

/-- Strikes added and strikes owed make up for the enforcements. -/
structure Tally (before : World) (pool : Traffic) (applied : List EnforcementAction) (actorId : ActorId)
    (added : List Strike) (owed : Nat) : Prop where
  strikes : (ledgerOf pool.world actorId).strikes = (ledgerOf before actorId).strikes ++ added
  owing : pool.Owing (inDebt actorId) owed
  balance : (against actorId applied).length = added.length + owed

structure Tallied (before : World) (pool : Traffic) (applied : List EnforcementAction) : Prop where
  rows : pool.world.enforcements.rows = applied ++ before.enforcements.rows
  tally : ∀ actorId, ∃ added owed, Tally before pool applied actorId added owed

def Faulty (pool : Traffic) : Prop := ∃ id call, pool.calls id = some call ∧ (tab call.heard).failed = true

section

variable {id : Nat} (tally : Tally before pool applied actorId added owed)
include tally

theorem Tally.update (hs : (ledgerOf world actorId).strikes = (ledgerOf before actorId).strikes ++ added')
    (hm : (against actorId applied').length + added.length + ((pool.calls id).any (inDebt actorId)).toNat =
      (against actorId applied).length + added'.length + (entry.any (inDebt actorId)).toNat) :
    ∃ owed, Tally before ⟨world, update pool.calls id entry⟩ applied' actorId added' owed := by
  obtain ⟨owed', owing', _⟩ := tally.owing.update id entry world
  have balance := tally.balance
  exact ⟨owed', hs, owing', by omega⟩

theorem Tally.still (hw : pool.calls id = some ⟨timed, .call op rest, answers⟩)
    (eq : (tab (⟨op, (server.perform pool.world op service).2⟩ :: answers)).owes = (tab answers).owes)
    (hl : (server.perform pool.world op service).1.ledgers = pool.world.ledgers) :
    ∃ owed, Tally before (advanced pool id timed op rest answers service) applied actorId added owed := by
  refine tally.update ?_ ?_
  · rw [ledgerOf, hl]
    exact tally.strikes
  · simp only [hw, any_some, inDebt, eq]

theorem Tally.enforced (hw : pool.calls id = some ⟨timed, .call (.saveEnforcement enforcement) rest, answers⟩)
    (free : (tab answers).owes = none) :
    ∃ owed, Tally before (advanced pool id timed (.saveEnforcement enforcement) rest answers .served)
      (enforcement.stored :: applied) actorId added owed := by
  refine tally.update tally.strikes ?_
  have owes : (tab (⟨.saveEnforcement enforcement, .ok ()⟩ :: answers)).owes = some enforcement.actorId := rfl
  have hn : enforcement.stored.actorId = enforcement.actorId := rfl
  by_cases mine : enforcement.actorId = actorId
  all_goals simp [hw, inDebt, free, owes, against, hn, mine, server, World.serve, Server.perform]
  omega

theorem Tally.struck {strike : Strike} (hw : pool.calls id = some ⟨timed, .call (.saveLedger ledger) rest, answers⟩)
    (due : (tab answers).owes = some ledger.actorId)
    (strikes : ledger.strikes = (ledgerOf pool.world ledger.actorId).strikes ++ [strike]) :
    ∃ added' owed, Tally before (advanced pool id timed (.saveLedger ledger) rest answers .served) applied actorId
      added' owed := by
  have stored := ledgerOf_saved pool.world ledger actorId
  have paid : (tab (⟨.saveLedger ledger, .ok ()⟩ :: answers)).owes = none := rfl
  by_cases mine : actorId = ledger.actorId
  · subst mine
    rw [if_pos rfl] at stored
    refine ⟨added ++ [strike], tally.update ?_ ?_⟩
    · show (ledgerOf (pool.world.serve (.saveLedger ledger)).1 ledger.actorId).strikes = _
      rw [stored, strikes, tally.strikes, List.append_assoc]
    · simp [hw, inDebt, due, paid, server, World.serve, Server.perform]
      omega
  rw [if_neg mine] at stored
  refine ⟨added, tally.update ?_ ?_⟩
  · show (ledgerOf (pool.world.serve (.saveLedger ledger)).1 actorId).strikes = _
    rw [stored]
    exact tally.strikes
  · simp [hw, inDebt, due, paid, server, World.serve, Server.perform, Ne.symm mine]

end

theorem failed_cons (hf : (tab answers).failed = true) : (tab (entry :: answers)).failed = true := by
  obtain ⟨op, ans⟩ := entry
  cases ans with
  | error => rfl
  | ok => cases op <;> exact hf

theorem Faulty.step (hfa : Faulty pool) (command : commands move = true)
    (hs : (host setup).Steps pool move next) : Faulty next := by
  obtain ⟨id, call, h, hf⟩ := hfa
  cases hs with
  | @begun id' _ _ _ free _ =>
    have other : id ≠ id' := by
      intro eq
      rw [eq, free] at h
      cases h
    exact ⟨id, call, (update_of_ne other ..).trans h, hf⟩
  | @advanced id' _ _ _ _ _ hw =>
    by_cases here : id = id'
    · subst here
      cases hw.symm.trans h
      refine ⟨id, _, update_self .., ?_⟩
      exact failed_cons hf
    · exact ⟨id, call, (update_of_ne here ..).trans h, hf⟩
  | crashed => cases command
  | elapsed => exact ⟨id, call, h, hf⟩

theorem faulty_of_error {id : Nat} (ans : (server.perform pool.world op service).2 = .error e) :
    Faulty (advanced pool id timed op rest answers service) := by
  refine ⟨id, _, update_self .., ?_⟩
  rw [ans]
  rfl

theorem Tallied.served {id : Nat} (ht : Tallied before pool applied) (inv : Accounted pool)
    (hw : pool.calls id = some ⟨timed, .call op rest, answers⟩)
    (hf : undisturbed answers pool.world op = true) :
    ∃ applied', Tallied before (advanced pool id timed op rest answers .served) applied' := by
  cases op with
  | saveEnforcement enf =>
    refine ⟨enf.stored :: applied, ?_, ?_⟩
    · exact (inv.saveEnforcement hw).trans (congrArg (enf.stored :: ·) ht.rows)
    · intro actorId
      obtain ⟨added, _, tally⟩ := ht.tally actorId
      exact ⟨added, tally.enforced hw (inv.conforming _ _ hw).1.2.2.1⟩
  | saveLedger =>
    refine ⟨applied, ht.rows, ?_⟩
    intro actorId
    obtain ⟨added, _, tally⟩ := ht.tally actorId
    obtain ⟨owed, ⟨_, strikes⟩, -⟩ := inv.saveLedger hw hf
    exact tally.struck hw owed strikes
  | _ =>
    refine ⟨applied, ht.rows, ?_⟩
    intro actorId
    obtain ⟨added, _, tally⟩ := ht.tally actorId
    exact ⟨added, tally.still hw rfl rfl⟩

theorem Tallied.begun {id : Nat} (ht : Tallied before pool applied) (free : pool.calls id = none)
    (ha : (host setup).accept pool.world timed = some (world, prog)) :
    Tallied before ⟨world, update pool.calls id (some ⟨timed, prog, []⟩)⟩ applied := by
  obtain ⟨-, rfl, -⟩ := host_accept ha
  refine ⟨ht.rows, ?_⟩
  intro actorId
  obtain ⟨added, _, tally⟩ := ht.tally actorId
  refine ⟨added, tally.update tally.strikes ?_⟩
  simp [free, inDebt, tab, Tab.blank]

theorem Tallied.step (ht : Tallied before pool applied) (inv : Accounted pool)
    (command : commands move = true) (fits : locked pool move = true) (hs : (host setup).Steps pool move next) :
    Faulty next ∨ ∃ applied', Tallied before next applied' := by
  cases hs with
  | begun free accepted => exact .inr ⟨applied, ht.begun free accepted⟩
  | advanced svc hw =>
    simp only [locked, hw] at fits
    cases svc with
    | served => exact .inr (ht.served inv hw fits)
    | refused | replyLost => exact .inl (faulty_of_error rfl)
  | crashed => cases command
  | elapsed hc =>
    cases hc
    obtain ⟨ledgers, enforcements, -⟩ := happen_same pool.world
    refine .inr ⟨applied, (congrArg EnforcementTable.rows enforcements).trans ht.rows, ?_⟩
    intro actorId
    obtain ⟨added, owed, tally⟩ := ht.tally actorId
    refine ⟨added, owed, ?_, tally.owing, tally.balance⟩
    rw [← tally.strikes]
    unfold ledgerOf
    rw [ledgers]

theorem accounted_of_init (hb : (host setup).machine.init pool) : Accounted pool := by
  have idle : ∀ id, pool.calls id = none := fun id => congrFun hb.2 id
  refine ⟨⟨fun _ _ h => hb.1.ledgers h, hb.1.drawn, ?_, ?_, ?_⟩, ?_, ?_⟩
  · simp [Pool.requests, idle]
  · simp [Pool.requests, idle]
  · simp [idle]
  · simp [Pool.Conforming, idle]
  · simp [Pool.Attested, idle]

theorem tallied_of_init (hb : (host setup).machine.init pool) : Tallied pool.world pool [] := by
  refine ⟨rfl, ?_⟩
  intro actorId
  refine ⟨[], 0, (List.append_nil _).symm, Pool.owing_nothing fun id => ?_, rfl⟩
  rw [show pool.calls = fun _ => none from hb.2]
  rfl

theorem Accounted.returned (inv : Accounted pool) {id : Nat} (h : pool.calls id = some call)
    (hr : call.returned = some outcome) : Ends call.heard := by
  have conforms := inv.conforming _ _ h
  rw [Call.returned_eq_some.mp hr] at conforms
  exact conforms

/-- Where saves of ledgers are undisturbed, and all commands have returned, an actor's ledger got as
many strikes as enforcements were applied to the actor. -/
theorem undisturbed_strikes_tally (setup : Setup) (start pool : Traffic) (moves : List (Move Timed Happening))
    (begins : (host setup).machine.init start) (striking : ∀ move ∈ moves, commands move = true)
    (undisturbed : (host setup).machine.Meets (fun pool move => locked pool move = true) start moves)
    (ran : (host setup).machine.run start moves = some pool)
    (returned : ∀ id timed, .begin id timed ∈ moves → ((pool.calls id).bind Call.returned).isSome)
    (actorId : ActorId) :
    ∃ applied added, pool.world.enforcements.rows = applied ++ start.world.enforcements.rows ∧
      (ledgerOf pool.world actorId).strikes = (ledgerOf start.world actorId).strikes ++ added ∧
      added.length = (against actorId applied).length := by
  obtain ⟨accounted, either⟩ : Accounted pool ∧ (Faulty pool ∨ ∃ applied, Tallied start.world pool applied) := by
    refine Host.run_keeps (fun s => Accounted s ∧ (Faulty s ∨ ∃ applied, Tallied start.world s applied)) ?_
      ⟨accounted_of_init begins, .inr ⟨[], tallied_of_init begins⟩⟩ (undisturbed.only striking) ran
    intro s move next both fits moved
    refine ⟨both.1.step fits.1 fits.2 moved, ?_⟩
    cases both.2 with
    | inl faulty => exact .inl (faulty.step fits.1 moved)
    | inr tallied =>
      obtain ⟨applied, tallied⟩ := tallied
      exact tallied.step both.1 fits.1 fits.2 moved
  have ended : ∀ id call, pool.calls id = some call → Ends call.heard := by
    intro id call held
    cases Host.begun_of_call held ran with
    | inl earlier =>
      obtain ⟨_, there⟩ := earlier
      rw [show start.calls = fun _ => none from begins.2] at there
      cases there
    | inr begun =>
      obtain ⟨timed, member⟩ := begun
      obtain ⟨_, done⟩ := Option.isSome_iff_exists.mp (returned id timed member)
      rw [held] at done
      exact accounted.returned held done
  cases either with
  | inl faulty =>
    obtain ⟨id, call, held, failed⟩ := faulty
    rw [(ended id call held).1] at failed
    cases failed
  | inr tallied =>
    obtain ⟨applied, tallied⟩ := tallied
    obtain ⟨added, owed, tally⟩ := tallied.tally actorId
    have settled : owed = 0 := tally.owing.eq_zero fun id call held => by simp [inDebt, (ended id call held).2]
    have balance := tally.balance
    exact ⟨applied, added, tallied.rows, tally.strikes, by omega⟩

namespace Author

def video : SubjectRef := ⟨.media, "v4", 4, "reel", by decide⟩

def setup : Setup := ⟨.standard, fun _ => 40⟩

def case : Case := { Case.new 40 ⟨video, .spam, "default", "normal", 0, 1⟩ with pendingEvents := [] }

/-- A case about a video of an actor, and a corpus that knows all that is screened. -/
def start : Traffic where
  world := { World.empty with
    cases := fun id => if id = 40 then some case else none
    corpus := fun _ _ _ => some ⟨[.spam], "hash-7"⟩ }
  calls := fun _ => none

theorem begins : (host setup).machine.init start := by
  refine ⟨⟨?_, ?_, ?_⟩, rfl⟩
  · intro id row h
    simp only [start] at h
    split at h
    · rename_i eq
      cases h
      exact eq.symm
    · cases h
  · intro actorId ledger h
    cases h
  · intro row mem
    cases mem

def decide_ : Timed := ⟨.decideCase ⟨40, .warn, .spam, "spam links", "rev-2", "2026.10.1"⟩ 2 41 42, 5⟩

def screen_ : Timed := ⟨.screen ⟨video, [], none, []⟩ 3 43 44, 6⟩

def advances (id count : Nat) : List (Move Timed Happening) := List.replicate count (.advance id .served)

/-- The screening loads the ledger once the reviewer's strike is in. -/
def inTurn : List (Move Timed Happening) :=
  [.begin 0 decide_, .begin 1 screen_] ++ advances 1 6 ++ advances 0 10 ++ advances 1 2

/-- Both load the ledger before either saves it. -/
def overlapping : List (Move Timed Happening) :=
  [.begin 0 decide_, .begin 1 screen_] ++ advances 1 7 ++ advances 0 10 ++ advances 1 1

/-- Who has returned, the enforcements against the actor and its strikes. -/
def summary (pool : Traffic) : Bool × Bool × Nat × Nat :=
  (((pool.calls 0).bind Call.returned).isSome, ((pool.calls 1).bind Call.returned).isSome,
    (against 4 pool.world.enforcements.rows).length, (ledgerOf pool.world 4).strikes.length)

/-- At most two commands are taken up. -/
def ofTwo : Move Timed Happening → Bool
  | .begin id _ => id < 2
  | _ => true

theorem returned_of_summary {moves : List (Move Timed Happening)} (seen : summary pool = (true, true, rows, strikes))
    (both : moves.all ofTwo = true) (id : Nat) (timed : Timed) (hb : .begin id timed ∈ moves) :
    ((pool.calls id).bind Call.returned).isSome := by
  have small : id < 2 := of_decide_eq_true (List.all_eq_true.mp both _ hb)
  match id, small with
  | 0, _ => exact congrArg Prod.fst seen
  | 1, _ => exact congrArg (fun summary => summary.2.1) seen

theorem inTurn_tallies : ∃ pool, (host setup).machine.run start inTurn = some pool ∧
    summary pool = (true, true, 2, 2) ∧
    ∃ applied added, pool.world.enforcements.rows = applied ++ start.world.enforcements.rows ∧
      (ledgerOf pool.world 4).strikes = (ledgerOf start.world 4).strikes ++ added ∧
      added.length = (against 4 applied).length := by
  obtain ⟨pool, ran, seen⟩ : ∃ pool, (host setup).machine.run start inTurn = some pool ∧
      summary pool = (true, true, 2, 2) := by decide +kernel
  have fits : (host setup).machine.Meets (fun pool move => locked pool move = true) start inTurn := by decide +kernel
  refine ⟨pool, ran, seen, undisturbed_strikes_tally setup start pool inTurn begins ?_ fits ran ?_ 4⟩
  · decide +kernel
  · exact returned_of_summary seen (by decide +kernel)

/-- Both commands return, and one of the two strikes is gone. -/
theorem overlapping_strike_lost : ∃ pool, (host setup).machine.run start overlapping = some pool ∧
    (∀ move ∈ overlapping, commands move = true) ∧
    (∀ id timed, .begin id timed ∈ overlapping → ((pool.calls id).bind Call.returned).isSome) ∧
    start.world.enforcements.rows = [] ∧ (ledgerOf start.world 4).strikes = [] ∧
    (against 4 pool.world.enforcements.rows).length = 2 ∧ (ledgerOf pool.world 4).strikes.length = 1 := by
  obtain ⟨pool, ran, seen, rows, strikes⟩ : ∃ pool, (host setup).machine.run start overlapping = some pool ∧
      summary pool = (true, true, 2, 1) ∧ (against 4 pool.world.enforcements.rows).length = 2 ∧
      (ledgerOf pool.world 4).strikes.length = 1 := by decide +kernel
  exact ⟨pool, ran, by decide +kernel, returned_of_summary seen (by decide +kernel), rfl, rfl, rows, strikes⟩

end Author
end CorePlatform.Moderation.Strikes
