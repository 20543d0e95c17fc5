import CorePlatform.Moderation.Refusal
import CorePlatform.Moderation.Requests

/-! # What the commands do to flags and enforcements

The fleet reads one flag per actor; the record has a row per enforcement. A decision against an
actor writes the actor's flag unless a newer version stands there, and lifting an enforcement
deletes it unless it is newer. Of the other commands only the screen touches either. -/

namespace CorePlatform.Moderation

open Theory Function List Server
open Auth (Uuid)

structure World.SameFlags (before after : World) : Prop where
  clock : after.clock = before.clock
  enforcements : after.enforcements = before.enforcements
  projection : after.projection = before.projection
  drawn : after.drawn = before.drawn

theorem World.SameFlags.refl (w : World) : w.SameFlags w := ⟨rfl, rfl, rfl, rfl⟩

theorem World.SameFlags.trans {w : World} (first : w.SameFlags w') (second : w'.SameFlags w'') : w.SameFlags w'' where
  clock := second.clock.trans first.clock
  enforcements := second.enforcements.trans first.enforcements
  projection := second.projection.trans first.projection
  drawn := second.drawn.trans first.drawn

def Op.plain : Op → Bool
  | .saveEnforcement _ | .setRestriction _ _ _ | .deleteRestriction _ => false
  | _ => true

abbrev Plain {α : Type} (program : Calling α) : Prop := Within (fun op => op.plain = true) program

theorem serve_plain {w : World} (hp : op.plain = true) : w.SameFlags (w.serve op).1 := by
  cases op with
  | saveEnforcement | setRestriction | deleteRestriction => cases hp
  | _ => exact ⟨rfl, rfl, rfl, rfl⟩

theorem Plain.execute {α : Type} {prog : Calling α} (hp : Plain prog) (w : World)
    (pat : Nat → Service) : w.SameFlags (server.execute prog w pat).1 :=
  Within.execute hp (fun s => w.SameFlags s) (fun _ _ hp same => same.trans (serve_plain hp)) (.refl w) pat

theorem Plain.ok {α : Type} {prog : Calling α} (hp : Plain prog) {value : α}
    (done : server.execute prog w allServed = (w', .ok value)) : w.SameFlags w' := by
  have same := hp.execute w allServed
  rw [done] at same
  exact same

theorem plain_publishAll : Plain (publishAll events) :=
  within_publishAll (fun _ => rfl)

theorem plain_appendDecision : Plain (appendDecision decision correlationId) :=
  .perform rfl fun _ => .op rfl

theorem plain_strike : Plain (strike setup actorId category now) :=
  .perform rfl fun _ => .op rfl

theorem plain_changeCase : Plain (changeCase caseId change) := by
  apply within_changeCase
  · rfl
  · intro case
    rfl

theorem plain_recordSignal : Plain (recordSignal case signal) := by
  unfold recordSignal
  split
  · exact .perform rfl fun _ => plain_publishAll
  · trivial

theorem plain_openOrLoad : Plain (openOrLoad setup subject category correlationId now) := by
  refine .perform rfl fun stored => ?_
  cases stored <;> trivial

/-- The requests that neither restrict an actor nor lift a restriction. -/
def Request.plain : Request → Bool
  | .decideCase _ _ _ _ | .resolveAppeal _ _ _ | .screen _ _ _ _ => false
  | _ => true

theorem Request.plain_program {req : Request} (hp : req.plain = true) (setup : Setup) (now : Int) :
    Plain (req.program setup now) := by
  cases req with
  | decideCase | resolveAppeal | screen => cases hp
  | openCase =>
    refine .bind (.perform rfl fun stored => ?_) fun _ => trivial
    cases stored with
    | some => trivial
    | none => exact .perform rfl fun _ => .bind plain_publishAll fun _ => trivial
  | assignCase =>
    refine .bind (.perform rfl fun stored => ?_) fun _ => trivial
    exact .lift fun _ => .lift fun _ => .perform rfl fun _ => trivial
  | fileAppeal =>
    refine .bind (.perform rfl fun stored => ?_) fun _ => trivial
    refine .lift fun _ => .lift fun _ => .lift fun _ => ?_
    exact .perform rfl fun _ => .bind plain_changeCase fun _ => trivial
  | ingestReport =>
    refine .bind (.lift fun _ => .bind plain_openOrLoad fun _ => ?_) fun _ => trivial
    refine .lift fun _ => .bind plain_recordSignal fun _ => ?_
    exact .perform rfl fun _ => trivial
  | ingestSignal =>
    refine .bind (.bind plain_openOrLoad fun _ => .lift fun _ => ?_) fun _ => trivial
    exact .bind plain_recordSignal fun _ => trivial

/-- The flag is written, unless a newer one stands. -/
def World.restrict (w : World) (actorId : ActorId) (version : EnforcementVersion) (expiresAt : Option Int) : World :=
  if ((w.flag actorId).map Restriction.version).any (version < ·) then w
  else { w with projection := update w.projection actorId (some (w.restriction version expiresAt)) }

def World.unrestrict (w : World) (actorId : ActorId) (version : EnforcementVersion) : World :=
  if ((w.flag actorId).map Restriction.version).all (· ≤ version) then
    { w with projection := update w.projection actorId none }
  else w

theorem setActorRestriction_served :
    server.execute (setActorRestriction actorId ver expiresAt) w allServed =
      (w.restrict actorId ver expiresAt, .ok ()) := by
  unfold setActorRestriction World.restrict
  show server.execute (if ((w.flag actorId).map Restriction.version).any (ver < ·) then _ else _) w _ = _
  split <;> rfl

theorem clearActorRestriction_served :
    server.execute (clearActorRestriction actorId version) w allServed = (w.unrestrict actorId version, .ok ()) := by
  unfold clearActorRestriction World.unrestrict
  show server.execute (if ((w.flag actorId).map Restriction.version).all (· ≤ version) then _ else _) w _ = _
  split <;> rfl

/-- An enforcement is recorded; one against an actor is flagged. -/
def World.enforced (w : World) (enforcement : EnforcementAction) : World :=
  let saved := { w with enforcements := w.enforcements.save enforcement }
  if enforcement.action.isActorLevel then
    saved.restrict enforcement.actorId enforcement.version enforcement.expiresAt
  else saved

/-- An enforcement is lifted, and the flag with it. -/
def World.lifted (w : World) (actorId : ActorId) (enforcement : EnforcementAction) : World :=
  let saved := { w with enforcements := w.enforcements.save enforcement }
  if enforcement.action.isActorLevel then saved.unrestrict actorId enforcement.version else saved

section

variable {w : World} (same : w.SameFlags w')
include same

theorem World.SameFlags.flag : w'.flag actorId = w.flag actorId := by
  simp only [World.flag, same.clock, same.projection]

theorem World.SameFlags.restrict (actorId : ActorId) (ver : EnforcementVersion) (expiresAt : Option Int) :
    (w.restrict actorId ver expiresAt).SameFlags (w'.restrict actorId ver expiresAt) := by
  simp only [World.restrict, same.flag]
  split
  · exact same
  · refine { same with projection := ?_ }
    simp only [World.restriction, same.clock, same.projection]

theorem World.SameFlags.enforced (enforcement : EnforcementAction) :
    (w.enforced enforcement).SameFlags (w'.enforced enforcement) := by
  have hv : World.SameFlags { w with enforcements := w.enforcements.save enforcement }
      { w' with enforcements := w'.enforcements.save enforcement } :=
    { same with enforcements := congrArg (fun table => EnforcementTable.save table enforcement) same.enforcements }
  simp only [World.enforced]
  split
  · exact hv.restrict _ _ _
  · exact hv

end

/-- The enforcement that a decision against a case leads to. -/
def enforcementOf (setup : Setup) (w : World) (subject : SubjectRef) (action : ActionType) (correlationId : Uuid)
    (decisionId : DecisionId) (enforcementId : EnforcementId) (now : Int) : EnforcementAction :=
  .applied enforcementId {
    subject
    action
    decisionId
    version := w.enforcements.nextVersion subject
    appliedAt := now
    expiresAt := setup.policy.expiryFor action now
    correlationId }

theorem enforce_ok
    (done : server.execute (enforce setup decision category correlationId enforcementId now) w allServed =
      (w', .ok enforcement)) :
    enforcement = enforcementOf setup w decision.subject decision.action correlationId decision.id enforcementId now ∧
      (∀ expiry, setup.policy.expiryFor decision.action now = some expiry → now < expiry) ∧
      (w.enforced enforcement).SameFlags w' := by
  replace done := (execute_served rfl rfl).symm.trans done
  obtain ⟨made, checked, done⟩ := execute_lift_ok done
  obtain ⟨shape, hl⟩ := EnforcementAction.apply_ok checked
  replace done := (execute_served rfl rfl).symm.trans done
  obtain ⟨flagged, _, flagging, done⟩ := execute_bind_ok done
  have marked : flagged = w.enforced made := by
    unfold flagActor at flagging
    split at flagging
    · rename_i actorLevel
      rw [setActorRestriction_served] at flagging
      cases flagging
      exact (if_pos actorLevel).symm
    · rename_i content
      cases flagging
      exact (if_neg content).symm
  obtain ⟨_, _, striking, done⟩ := execute_bind_ok done
  obtain ⟨_, _, publishing, done⟩ := execute_bind_ok done
  cases done
  refine ⟨shape, hl, ?_⟩
  rw [← marked]
  exact (plain_strike.ok striking).trans (plain_publishAll.ok publishing)

theorem decideCase_ok
    (done : server.execute (decideCase setup cmd corr decisionId enfId now) w allServed = (w', .ok outcome)) :
    ∃ row, w.cases cmd.caseId = some row ∧
      (w.SameFlags w' ∨
        (∀ expiry, setup.policy.expiryFor cmd.action now = some expiry → now < expiry) ∧
        (w.enforced (enforcementOf setup w row.subject cmd.action corr decisionId enfId now)).SameFlags
          w') := by
  have hv := decideCase_served setup cmd corr decisionId enfId now w
  rw [done] at hv
  cases hv with
  | inl early =>
    obtain ⟨_, _, same⟩ := early
    cases same
  | inr late =>
    obtain ⟨_, row, _, stored, identified, about, acting, same⟩ := late
    refine ⟨row, stored, ?_⟩
    have done := same.symm
    obtain ⟨appended, _, appending, done⟩ := execute_bind_ok done
    have first := plain_appendDecision.ok appending
    obtain ⟨enforced, _, enforcing, done⟩ := execute_bind_ok done
    obtain ⟨_, _, done⟩ := execute_lift_ok done
    have last : enforced.SameFlags w' := by
      refine Plain.ok ?_ done
      exact .perform rfl fun _ => .bind plain_publishAll fun _ => trivial
    unfold enforceUnlessDismissed at enforcing
    split at enforcing
    · obtain ⟨_, inner, hi, mapped⟩ := execute_bind_ok enforcing
      cases mapped
      obtain ⟨shape, hl, flags⟩ := enforce_ok hi
      rw [acting] at hl
      refine .inr ⟨hl, ?_⟩
      have ver : appended.enforcements = w.enforcements := first.enforcements
      have expected : inner = enforcementOf setup w row.subject cmd.action corr decisionId enfId now := by
        rw [shape, about, acting, identified]
        simp only [enforcementOf, ver]
      rw [← expected]
      exact ((first.enforced inner).trans flags).trans last
    · cases enforcing
      exact .inl (first.trans last)

theorem World.flag_eq_some {w : World} {restr : Restriction} :
    w.flag actorId = some restr ↔
      w.projection actorId = some restr ∧ ∀ until_, restr.until_ = some until_ → w.clock < until_ := by
  unfold flag
  rw [Option.filter_eq_some_iff]
  cases restr.until_ <;> simp

section

variable {w : World} {actorId : ActorId}

@[simp] theorem World.lifted_clock : (w.lifted actorId enforcement).clock = w.clock := by
  simp only [World.lifted, World.unrestrict]
  split
  · split <;> rfl
  · rfl

@[simp] theorem World.lifted_drawn : (w.lifted actorId enforcement).drawn = w.drawn := by
  simp only [World.lifted, World.unrestrict]
  split
  · split <;> rfl
  · rfl

@[simp] theorem World.lifted_enforcements :
    (w.lifted actorId enforcement).enforcements = w.enforcements.save enforcement := by
  simp only [World.lifted, World.unrestrict]
  split
  · split <;> rfl
  · rfl

variable (w actorId enforcement) in
theorem World.lifted_projection :
    (w.lifted actorId enforcement).projection = w.projection ∧
      (enforcement.action.isActorLevel = true →
        ∃ restr, w.flag actorId = some restr ∧ enforcement.version < restr.version) ∨
    (w.lifted actorId enforcement).projection = update w.projection actorId none ∧
      enforcement.action.isActorLevel = true ∧
      ∀ restr, w.flag actorId = some restr → restr.version ≤ enforcement.version := by
  have flags : World.flag { w with enforcements := w.enforcements.save enforcement } actorId = w.flag actorId := rfl
  simp only [World.lifted, World.unrestrict, flags]
  split
  · rename_i actorLevel
    cases flagged : w.flag actorId with
    | none => exact .inr ⟨by simp, actorLevel, by simp⟩
    | some restr =>
      by_cases older : restr.version ≤ enforcement.version
      · exact .inr ⟨by simp [older], actorLevel, by simpa using older⟩
      · exact .inl ⟨by simp [older], fun _ => ⟨restr, rfl, Int.not_le.mp older⟩⟩
  · rename_i content
    exact .inl ⟨rfl, fun actorLevel => absurd actorLevel content⟩

theorem World.flag_of_lifted {restriction : Restriction}
    (hf : (w.lifted actorId enforcement).flag other = some restriction) : w.flag other = some restriction := by
  obtain ⟨h, ht⟩ := World.flag_eq_some.mp hf
  rw [World.lifted_clock] at ht
  refine World.flag_eq_some.mpr ⟨?_, ht⟩
  cases World.lifted_projection w actorId enforcement with
  | inl kept => rw [← kept.1]; exact h
  | inr gone =>
    rw [gone.1] at h
    by_cases same : other = actorId
    · subst same
      simp at h
    · rwa [update_of_ne same] at h

end

section

variable {table : EnforcementTable} (member : row ∈ table.rows) (same : row.reconstitute = enforcement)
include member same

theorem rows_reversed :
    (table.save (enforcement.reversed now corr)).rows =
      Rows.update (fun row => decide (row.id = enforcement.id)) (enforcement.reversed now corr).written
        table.rows := by
  apply EnforcementTable.rows_save_known member
  show row.reconstitute.id = enforcement.id
  rw [same]

theorem mem_reversed (ha : row'.status = .active) :
    row' ∈ (table.save (enforcement.reversed now correlationId)).rows ↔
      row' ∈ table.rows ∧ row'.id ≠ enforcement.id := by
  rw [rows_reversed member same, Rows.mem_update]
  constructor
  · intro hc
    obtain ⟨old, h, shape⟩ := hc
    by_cases hit : old.id = enforcement.id
    · have lifted : row'.status = .reversed := by
        rw [shape, if_pos (decide_eq_true hit)]
        rfl
      rw [lifted] at ha
      cases ha
    · rw [if_neg (by simpa using hit)] at shape
      subst shape
      exact ⟨h, hit⟩
  · intro kept
    exact ⟨row', kept.1, by rw [if_neg (by simpa using kept.2)]⟩

theorem id_of_reversed (hc : row' ∈ (table.save (enforcement.reversed now correlationId)).rows) :
    ∃ old ∈ table.rows, row'.id = old.id := by
  rw [rows_reversed member same, Rows.mem_update] at hc
  obtain ⟨old, h, rfl⟩ := hc
  refine ⟨old, h, ?_⟩
  split <;> rfl

end

/-- A decision's enforcements against an actor that are in force are among those listed, and what is
listed is in the table. -/
structure Listed (actorId : ActorId) (decisionId : DecisionId) (rest : List EnforcementAction) (w : World) : Prop where
  pending : ∀ row ∈ w.enforcements.rows, row.actorId = actorId → row.decisionId = decisionId →
    row.isActive w.clock = true → row.reconstitute ∈ rest
  listed : ∀ enforcement ∈ rest, ∃ row ∈ w.enforcements.rows,
    row.reconstitute = enforcement ∧ row.actorId = actorId ∧ row.status = .active
  distinct : (rest.map EnforcementAction.id).Nodup

namespace Listed

theorem of_world (actorId : ActorId) : Listed actorId decisionId (w.enforcements.listActiveForActor actorId) w where
  pending := by
    intro row member mine _ ha
    exact EnforcementTable.mem_listActiveForActor.mpr
      ⟨row, member, mine, EnforcementAction.status_of_isActive ha, rfl⟩
  listed := by
    intro enforcement member
    obtain ⟨row, h, mine, status, same⟩ := EnforcementTable.mem_listActiveForActor.mp member
    exact ⟨row, h, same, mine, status⟩
  distinct := by
    unfold EnforcementTable.listActiveForActor
    rw [map_map]
    exact w.enforcements.ids.sublist (filter_sublist.map _)

theorem same (hl : Listed actorId decisionId rest w) (same : w.SameFlags w') : Listed actorId decisionId rest w' := by
  refine ⟨?_, ?_, hl.distinct⟩
  · rw [same.enforcements, same.clock]
    exact hl.pending
  · rw [same.enforcements]
    exact hl.listed

theorem skip (listed : Listed actorId decisionId (enforcement :: rest) w)
    (other : ¬ (enforcement.decisionId = decisionId ∧ enforcement.isActive w.clock = true)) :
    Listed actorId decisionId rest w where
  pending := by
    intro row member against about ha
    cases mem_cons.mp (listed.pending row member against about ha) with
    | inl head =>
      subst head
      exact absurd ⟨about, ha⟩ other
    | inr tail => exact tail
  listed := fun _ member => listed.listed _ (.tail _ member)
  distinct := (nodup_cons.mp listed.distinct).2

theorem lift (hl : Listed actorId decisionId (enforcement :: rest) w) (corr : Uuid) :
    Listed actorId decisionId rest (w.lifted actorId (enforcement.reversed w.clock corr)) := by
  obtain ⟨_, h, same, -, -⟩ := hl.listed enforcement (.head _)
  obtain ⟨once, distinct⟩ := nodup_cons.mp hl.distinct
  refine ⟨?_, ?_, distinct⟩
  · intro row member mine concerned hr
    rw [World.lifted_enforcements] at member
    rw [World.lifted_clock] at hr
    obtain ⟨old, differs⟩ := (mem_reversed h same (EnforcementAction.status_of_isActive hr)).mp member
    cases mem_cons.mp (hl.pending row old mine concerned hr) with
    | inl first => exact absurd (congrArg EnforcementAction.id first) differs
    | inr later => exact later
  intro other member
  obtain ⟨row, hk, alike, mine, hr⟩ := hl.listed other (.tail _ member)
  refine ⟨row, ?_, alike, mine, hr⟩
  rw [World.lifted_enforcements]
  refine (mem_reversed h same hr).mpr ⟨hk, ?_⟩
  intro twice
  apply once
  rw [← twice]
  exact mem_map.mpr ⟨other, member, (congrArg EnforcementAction.id alike).symm⟩

end Listed

theorem reverseEach_keeps (holds : List EnforcementAction → World → Prop)
    (same : ∀ rest w w', w.SameFlags w' → holds rest w → holds rest w')
    (skip : ∀ enforcement rest w, ¬ (enforcement.decisionId = orig.id ∧ enforcement.isActive now = true) →
      holds (enforcement :: rest) w → holds rest w)
    (lift : ∀ enforcement rest w, enforcement.decisionId = orig.id → enforcement.isActive now = true →
      holds (enforcement :: rest) w → holds rest (w.lifted orig.subject.actorId (enforcement.reversed now corr)))
    (initially : holds enforcements w)
    (done : server.execute (reverseEach orig corr now enforcements) w allServed = (w', .ok ())) :
    holds [] w' := by
  induction enforcements generalizing w with
  | nil =>
    cases done
    exact initially
  | cons enforcement rest ih =>
    unfold reverseEach at done
    split at done
    · rename_i due
      simp only [Bool.and_eq_true, decide_eq_true_eq] at due
      rw [EnforcementAction.reverse_of_isActive due.2] at done
      obtain ⟨_, reversing, done⟩ := execute_lift_ok done
      cases reversing
      replace done := (execute_served rfl rfl).symm.trans done
      obtain ⟨cleared, _, clearing, done⟩ := execute_bind_ok done
      have settled : cleared = w.lifted orig.subject.actorId (enforcement.reversed now corr) := by
        unfold unflagActor at clearing
        split at clearing
        · rename_i actorLevel
          rw [clearActorRestriction_served] at clearing
          cases clearing
          exact (if_pos actorLevel).symm
        · rename_i content
          cases clearing
          exact (if_neg content).symm
      obtain ⟨_, _, publishing, done⟩ := execute_bind_ok done
      apply ih _ done
      apply same _ _ _ (plain_publishAll.ok publishing)
      rw [settled]
      exact lift enforcement rest w due.1 due.2 initially
    · rename_i other
      simp only [Bool.and_eq_true, decide_eq_true_eq] at other
      exact ih (skip enforcement rest w other initially) done

theorem resolveAppeal_ok
    (done : server.execute (resolveAppeal setup cmd correlationId reversalId now) w allServed = (w', .ok outcome)) :
    ∃ appeal orig, w.appeals cmd.appealId = some appeal ∧ w.decisions appeal.decisionId = some orig ∧
      (w.SameFlags w' ∨ cmd.overturn = true ∧ ∃ before after, w.SameFlags before ∧
        server.execute (reverseEach orig correlationId now
          (w.enforcements.listActiveForActor orig.subject.actorId)) before allServed = (after, .ok ()) ∧
        after.SameFlags w') := by
  replace done := (execute_served rfl rfl).symm.trans done
  obtain ⟨appeal, checked, done⟩ := execute_lift_ok done
  replace done := (execute_served rfl rfl).symm.trans done
  obtain ⟨orig, hk, done⟩ := execute_lift_ok done
  obtain ⟨row, h, rfl⟩ := Option.map_eq_some_iff.mp (found_ok checked)
  refine ⟨row, orig, h, found_ok hk, ?_⟩
  obtain ⟨_, _, done⟩ := execute_lift_ok done
  obtain ⟨_, _, saving, done⟩ := execute_bind_ok done
  have first := Plain.ok (Program.Passes.op rfl) saving
  obtain ⟨reversed, _, reversing, done⟩ := execute_bind_ok done
  have last : reversed.SameFlags w' := by
    refine Plain.ok ?_ done
    exact .bind plain_changeCase fun _ => .bind plain_publishAll fun _ => trivial
  unfold reverseIfOverturned at reversing
  split at reversing
  · rename_i overturned
    obtain ⟨_, _, inside, mapped⟩ := execute_bind_ok reversing
    cases mapped
    obtain ⟨_, _, inside⟩ := execute_lift_ok inside
    obtain ⟨appended, _, appending, inside⟩ := execute_bind_ok inside
    have second := first.trans (plain_appendDecision.ok appending)
    replace inside := (execute_served rfl rfl).symm.trans inside
    obtain ⟨_, _, looped, he⟩ := execute_bind_ok inside
    cases he
    rw [second.enforcements] at looped
    exact .inr ⟨overturned, appended, _, second, looped, last⟩
  · cases reversing
    exact .inl (first.trans last)

end CorePlatform.Moderation
