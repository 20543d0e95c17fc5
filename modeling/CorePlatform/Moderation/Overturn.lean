import CorePlatform.Moderation.Projection

/-! # Overturned appeals and store failures

An appeal is saved as overturned before anything is lifted. An attempt that fails after that save
is not made good by a retry: the retry finds the appeal settled and is refused before it does
anything. What the first attempt to save the appeal did not lift stays in force.
-/

namespace CorePlatform.Moderation

open Theory Function Server
open Audit (isBlank)
open Auth (Uuid)

/-- What lifting leaves: no new rows, and every event that was out. -/
structure World.Lifts (before after : World) : Prop where
  clock : after.clock = before.clock
  rows : ∀ row ∈ after.enforcements.rows, ∃ old ∈ before.enforcements.rows,
    row.decisionId = old.decisionId ∧ row.actorId = old.actorId
  events : before.events <+: after.events

theorem World.Lifts.of_same {before after : World} (eq : before.SameFlags after)
    (he : before.events <+: after.events) : before.Lifts after := by
  refine ⟨eq.clock, ?_, he⟩
  rw [eq.enforcements]
  exact fun row mem => ⟨row, mem, rfl, rfl⟩

theorem World.Lifts.trans {w : World} (first : w.Lifts w') (second : w'.Lifts w'') : w.Lifts w'' where
  clock := second.clock.trans first.clock
  rows := by
    intro row mem
    obtain ⟨old, h, about, against⟩ := second.rows row mem
    obtain ⟨oldest, kept, about', against'⟩ := first.rows old h
    exact ⟨oldest, kept, about.trans about', against.trans against'⟩
  events := first.events.trans second.events

@[simp] theorem World.lifted_events {w : World} : (w.lifted actorId enforcement).events = w.events := by
  simp only [World.lifted, World.unrestrict]
  split
  · split <;> rfl
  · rfl

/-- The event that says that an enforcement is lifted. -/
def EnforcementAction.reversal (enforcement : EnforcementAction) (now : Int) (correlationId : Uuid) : DomainEvent :=
  .enforcementReversed enforcement.id enforcement.subject enforcement.subject.actorId enforcement.version now
    correlationId

def EnforcementAction.due (decisionId : DecisionId) (now : Int) (enforcement : EnforcementAction) : Bool :=
  enforcement.decisionId = decisionId && enforcement.isActive now

/-- An enforcement is lifted, and its event is out. -/
def World.reversing (w : World) (actorId : ActorId) (enforcement : EnforcementAction) (now : Int)
    (correlationId : Uuid) : World :=
  let lifted := w.lifted actorId (enforcement.reversed now correlationId)
  { lifted with events := lifted.events ++ [enforcement.reversal now correlationId] }

section

variable {α : Type}

theorem unflagActor_served (pat : Nat → Service) (first : pat 0 = .served) (second : pat 1 = .served) :
    ∃ made, made ≤ 2 ∧ server.execute (unflagActor actorId enforcement >>= rest) w pat =
      server.execute (rest ()) (if enforcement.action.isActorLevel then w.unrestrict actorId enforcement.version else w)
        fun n => pat (n + made) := by
  unfold unflagActor
  split
  · unfold clearActorRestriction World.unrestrict
    rw [Program.bind_assoc, execute_served first rfl]
    split
    · exact ⟨2, Nat.le_refl 2, execute_served second rfl⟩
    · exact ⟨1, by decide, rfl⟩
  · exact ⟨0, by decide, rfl⟩

theorem publishAll_single : publishAll [ev] >>= rest = Program.perform (Op.publish ev) >>= fun _ => rest () := by
  simp only [publishAll, Program.bind_assoc]
  rfl

theorem reverseOne_served (due : enf.due original.id now = true) (hd : enf.pendingEvents = [])
    (served : ∀ i, i < 4 → pat i = .served) :
    ∃ made, made ≤ 4 ∧
      server.execute (reverseEach original correlationId now (enf :: others) >>= rest) w pat =
        server.execute (reverseEach original correlationId now others >>= rest)
          (w.reversing original.subject.actorId enf now correlationId) fun n => pat (n + made) := by
  have ha : enf.isActive now = true := by
    simp only [EnforcementAction.due, Bool.and_eq_true] at due
    exact due.2
  unfold EnforcementAction.due at due
  have once : (enf.reversed now correlationId).pendingEvents = [enf.reversal now correlationId] := by
    simp [EnforcementAction.reversed, EnforcementAction.reversal, hd]
  rw [reverseEach, if_pos due, EnforcementAction.reverse_of_isActive ha]
  simp only [Program.lift_ok, Program.ok_bind, Program.bind_assoc, once]
  rw [execute_served (served 0 (by decide)) rfl]
  obtain ⟨made, _, unflagged⟩ := unflagActor_served (fun n => pat (n + 1))
    (served 1 (by decide)) (served 2 (by decide))
  refine ⟨made + 2, by omega, unflagged.trans ?_⟩
  have last : pat (0 + made + 1) = .served := served _ (by omega)
  rw [publishAll_single, execute_served last rfl]
  have shift : (fun n => pat (n + 1 + made + 1)) = fun n => pat (n + (made + 2)) := by
    funext n
    congr 1
    omega
  rw [shift]
  rfl

end

theorem Listed.reversing (hl : Listed actorId decisionId (enf :: others) w) :
    Listed actorId decisionId others (w.reversing actorId enf w.clock correlationId) :=
  (hl.lift correlationId).same ⟨rfl, rfl, rfl, rfl⟩

theorem Listed.lifts (hl : Listed actorId decisionId (enf :: others) w) :
    w.Lifts (w.reversing actorId enf now correlationId) := by
  obtain ⟨_, h, eq, -, -⟩ := hl.listed enf (.head _)
  refine ⟨World.lifted_clock, ?_, ?_⟩
  · intro row mem
    have hc : row ∈ (w.enforcements.save (enf.reversed now correlationId)).rows := by
      rw [← World.lifted_enforcements]
      exact mem
    rw [rows_reversed h eq, Rows.mem_update] at hc
    obtain ⟨old, kept, rfl⟩ := hc
    refine ⟨old, kept, ?_⟩
    split <;> exact ⟨rfl, rfl⟩
  · show w.events <+: (w.lifted _ _).events ++ _
    rw [World.lifted_events]
    exact List.prefix_append _ _

theorem reverseEach_served {α : Type} (rest : Unit → Calling α) (hs : w.clock = now)
    (hl : Listed original.subject.actorId original.id enforcements w)
    (hd : ∀ enf ∈ enforcements, enf.pendingEvents = [])
    (hv : ∀ i, i < 4 * (enforcements.filter (EnforcementAction.due original.id now)).length → pat i = .served) :
    ∃ after shifted,
      server.execute (reverseEach original correlationId now enforcements >>= rest) w pat =
        server.execute (rest ()) after shifted ∧
      Listed original.subject.actorId original.id [] after ∧ w.Lifts after ∧
      ∀ enf ∈ enforcements, enf.due original.id now = true → enf.reversal now correlationId ∈ after.events := by
  induction enforcements generalizing w pat with
  | nil =>
    refine ⟨w, pat, rfl, hl, .of_same (.refl w) (List.prefix_refl _), ?_⟩
    intro enf mem
    cases mem
  | cons enf others ih =>
    have drainedOthers := fun other mem => hd other (.tail _ mem)
    cases due : enf.due original.id now with
    | true =>
      rw [List.filter_cons_of_pos due, List.length_cons] at hv
      obtain ⟨made, _, lifted⟩ := reverseOne_served due (hd enf (.head _)) (fun i small => hv i (by omega))
      have lifts : w.Lifts (w.reversing original.subject.actorId enf now correlationId) := hl.lifts
      have ho : Listed original.subject.actorId original.id others
          (w.reversing original.subject.actorId enf now correlationId) := by
        subst hs
        exact hl.reversing
      obtain ⟨after, shifted, ran, done, lifts', hp⟩ :=
        ih (lifts.clock.trans hs) ho drainedOthers (fun i small => hv (i + made) (by omega))
      refine ⟨after, shifted, lifted.trans ran, done, lifts.trans lifts', ?_⟩
      intro other mem alsoDue
      cases List.mem_cons.mp mem with
      | inl head =>
        subst head
        apply lifts'.events.subset
        exact List.mem_append_right _ (List.mem_singleton.mpr rfl)
      | inr tail => exact hp other tail alsoDue
    | false =>
      rw [List.filter_cons_of_neg (by simp [due])] at hv
      have idle : ¬ (enf.decisionId = original.id ∧ enf.isActive w.clock = true) := by
        rw [hs]
        simpa [EnforcementAction.due] using due
      obtain ⟨after, shifted, ran, done, lifts, hp⟩ := ih hs (hl.skip idle) drainedOthers hv
      refine ⟨after, shifted, ?_, done, lifts, ?_⟩
      · rw [reverseEach]
        unfold EnforcementAction.due at due
        rw [if_neg (by simp [due])]
        exact ran
      intro other mem alsoDue
      cases List.mem_cons.mp mem with
      | inl head =>
        subst head
        rw [due] at alsoDue
        cases alsoDue
      | inr tail => exact hp other tail alsoDue

theorem reverseEach_idle (idle : ∀ enf ∈ enforcements, enf.due original.id now = false) :
    reverseEach original correlationId now enforcements = pure () := by
  induction enforcements with
  | nil => rfl
  | cons enf _ ih =>
    have skipped := idle enf (.head _)
    unfold EnforcementAction.due at skipped
    rw [reverseEach, if_neg (by simp [skipped])]
    exact ih fun other mem => idle other (.tail _ mem)

/-- The enforcements of a decision that are in force. -/
def World.dueFor (w : World) (original : Decision) : List EnforcementAction :=
  w.enforcements.rows.filter fun row =>
    decide (row.actorId = original.subject.actorId) && row.due original.id w.clock

theorem World.mem_dueFor {w : World} {original : Decision} :
    row ∈ w.dueFor original ↔
      row ∈ w.enforcements.rows ∧ row.actorId = original.subject.actorId ∧ row.due original.id w.clock = true := by
  simp only [dueFor, List.mem_filter, Bool.and_eq_true, decide_eq_true_eq]

theorem EnforcementAction.status_of_due {row : EnforcementAction} {decisionId : DecisionId}
    (due : row.due decisionId now = true) : row.status = .active := by
  simp only [EnforcementAction.due, Bool.and_eq_true] at due
  exact status_of_isActive due.2

theorem World.length_due (w : World) (original : Decision) :
    ((w.enforcements.listActiveForActor original.subject.actorId).filter
      (EnforcementAction.due original.id w.clock)).length = (w.dueFor original).length := by
  unfold EnforcementTable.listActiveForActor World.dueFor
  rw [List.filter_map, List.length_map, List.filter_filter]
  congr 1
  apply List.filter_congr
  intro row _
  show (row.due original.id w.clock && (decide (row.actorId = _) && decide (row.status = .active))) = _
  cases due : row.due original.id w.clock with
  | false => simp
  | true => simp [EnforcementAction.status_of_due due]

/-- What is left to do once the enforcements are lifted. -/
def closing (setup : Setup) (cmd : ResolveAppealCommand) (original : Decision) (appeal : Appeal)
    (reversal : Decision) : Calling ResolveAppealOutcome := do
  changeCase (setup.caseId original.subject) fun case => case.closeAppeal cmd.overturn
  publishAll appeal.pendingEvents
  pure ⟨appeal, some reversal⟩

theorem plain_closing (setup : Setup) (cmd : ResolveAppealCommand) (original : Decision) (appeal : Appeal)
    (reversal : Decision) : Plain (closing setup cmd original appeal reversal) :=
  .bind plain_changeCase fun _ => .bind plain_publishAll fun _ => trivial

section

variable (setup : Setup) (original : Decision) (appeal : Appeal) (correlationId : Uuid) (reversalId : DecisionId)

theorem concludeAppeal_overturn (overturned : cmd.overturn = true) (now : Int) :
    concludeAppeal setup cmd original appeal correlationId reversalId now =
      liftM (reversalOf cmd original reversalId now) >>= fun reversal =>
      Program.perform (Op.appendDecision reversal) >>= fun _ =>
      Program.perform (Op.publish (reversal.recorded correlationId)) >>= fun _ =>
      Program.perform (Op.listActiveForActor original.subject.actorId) >>= fun active =>
      reverseEach original correlationId now active >>= fun _ =>
      closing setup cmd original appeal reversal := by
  simp only [concludeAppeal, reverseIfOverturned, overturned, if_true, overturn, appendDecision, closing,
    Program.bind_assoc]
  rfl

theorem reversalOf_ok (hn : isBlank cmd.rationale = false) (now : Int) :
    ∃ reversal, reversalOf cmd original reversalId now = .ok reversal := by
  simp [reversalOf, Decision.recordReversal, Decision.build, hn]

structure Concluded (original : Decision) (correlationId : Uuid) (before after : World) : Prop where
  lifts : before.Lifts after
  lifted : ∀ row ∈ after.enforcements.rows, row.actorId = original.subject.actorId → row.decisionId = original.id →
    row.isActive after.clock = false
  published : ∀ row ∈ before.dueFor original, row.reversal before.clock correlationId ∈ after.events

theorem Concluded.of_same {before after : World} {original : Decision} {correlationId : Uuid}
    (eq : before.SameFlags after) (he : before.events <+: after.events) (idle : before.dueFor original = []) :
    Concluded original correlationId before after where
  lifts := .of_same eq he
  lifted := by
    intro row mem mine about
    rw [eq.enforcements] at mem
    rw [eq.clock]
    cases ha : row.isActive before.clock with
    | false => rfl
    | true =>
      have due : row ∈ before.dueFor original :=
        World.mem_dueFor.mpr ⟨mem, mine, by simp [EnforcementAction.due, about, ha]⟩
      rw [idle] at due
      cases due
  published := by
    rw [idle]
    intro row mem
    cases mem

theorem Concluded.closed {original : Decision} {correlationId : Uuid}
    (hc : Concluded original correlationId before mid) (eq : mid.SameFlags after)
    (he : mid.events <+: after.events) : Concluded original correlationId before after where
  lifts := hc.lifts.trans (.of_same eq he)
  lifted := by
    rw [eq.enforcements, eq.clock]
    exact hc.lifted
  published := fun row mem => he.subset (hc.published row mem)

theorem concludeAppeal_idle (ho : cmd.overturn = true) (idle : w.dueFor original = []) :
    Concluded original correlationId w (server.execute
      (concludeAppeal setup cmd original appeal correlationId reversalId w.clock) w pattern).1 := by
  rw [concludeAppeal_overturn setup original appeal correlationId reversalId ho w.clock]
  refine .of_same ?_ (events_grow _ _ _) idle
  cases reversalOf cmd original reversalId w.clock with
  | error => exact .refl w
  | ok reversal =>
    have first : w.SameFlags (w.serve (.appendDecision reversal)).1 := serve_plain rfl
    have second : w.SameFlags
        ((w.serve (.appendDecision reversal)).1.serve (.publish (reversal.recorded correlationId))).1 :=
      first.trans (serve_plain rfl)
    refine execute_perform_holds (fun s => w.SameFlags s) (.refl w) first ?_
    intro _ _
    refine execute_perform_holds (fun s => w.SameFlags s) first second ?_
    intro _ _
    refine execute_perform_holds (fun s => w.SameFlags s) second second ?_
    intro hl ha
    have reply : hl = w.enforcements.listActiveForActor original.subject.actorId := by
      cases ha
      rfl
    have nothing : ∀ enforcement ∈ hl, enforcement.due original.id w.clock = false := by
      have none := w.length_due original
      rw [idle, ← reply] at none
      simpa using List.filter_eq_nil_iff.mp (List.length_eq_zero_iff.mp none)
    rw [reverseEach_idle nothing]
    exact second.trans ((plain_closing setup cmd original appeal reversal).execute _ _)

theorem concludeAppeal_served (ho : cmd.overturn = true) (hn : isBlank cmd.rationale = false)
    (served : ∀ i, i < 3 + 4 * (w.dueFor original).length → pattern i = .served) :
    Concluded original correlationId w (server.execute
      (concludeAppeal setup cmd original appeal correlationId reversalId w.clock) w pattern).1 := by
  obtain ⟨reversal, inv⟩ := reversalOf_ok original reversalId hn w.clock
  rw [concludeAppeal_overturn setup original appeal correlationId reversalId ho w.clock, inv]
  simp only [Program.lift_ok, Program.ok_bind]
  rw [execute_served (served 0 (by omega)) rfl, execute_served (served 1 (by omega)) rfl,
    execute_served (served 2 (by omega)) rfl]
  generalize begun : { w.appendDecision reversal with
    events := (w.appendDecision reversal).events ++ [reversal.recorded correlationId] } = ready
  have first : w.SameFlags ready := begun ▸ ⟨rfl, rfl, rfl, rfl⟩
  have listing : Listed original.subject.actorId original.id
      (w.enforcements.listActiveForActor original.subject.actorId) ready := (Listed.of_world _).same first
  have drained : ∀ enforcement ∈ w.enforcements.listActiveForActor original.subject.actorId,
      enforcement.pendingEvents = [] := by
    intro enforcement mem
    obtain ⟨row, -, -, -, rfl⟩ := EnforcementTable.mem_listActiveForActor.mp mem
    rfl
  have ha : ∀ i, i < 4 * ((w.enforcements.listActiveForActor original.subject.actorId).filter
      (EnforcementAction.due original.id w.clock)).length → pattern (i + 3) = .served := by
    intro i small
    rw [w.length_due] at small
    exact served (i + 3) (by omega)
  obtain ⟨after, shifted, ran, done, lifts, hp⟩ :=
    reverseEach_served (fun _ => closing setup cmd original appeal reversal) first.clock listing drained ha
  have eq : ready.enforcements = w.enforcements := first.enforcements
  have concluded : Concluded original correlationId w after := by
    refine ⟨?_, ?_, ?_⟩
    · exact .trans (.of_same first (begun ▸ List.prefix_append _ _)) lifts
    · intro row mem mine about
      cases hac : row.isActive after.clock with
      | false => rfl
      | true => cases done.pending row mem mine about hac
    intro row mem
    obtain ⟨h, mine, due⟩ := World.mem_dueFor.mp mem
    apply hp row.reconstitute
    · exact EnforcementTable.mem_listActiveForActor.mpr ⟨row, h, mine, EnforcementAction.status_of_due due, rfl⟩
    · exact due
  have last := (plain_closing setup cmd original appeal reversal).execute after shifted
  have hg := events_grow (closing setup cmd original appeal reversal) after shifted
  rw [eq]
  have he := concluded.closed last hg
  rw [← ran] at he
  exact he

end

def Op.savesAppeal : Op → Bool
  | .saveAppeal _ => true
  | _ => false

/-- Appeals stay as they are, and no decision is lost. -/
structure World.Recalls (before after : World) : Prop where
  appeals : after.appeals = before.appeals
  decisions : ∀ {id decision}, before.decisions id = some decision → after.decisions id = some decision

theorem serve_recalls {w : World} (other : op.savesAppeal = false) (hr : w.Recalls s) : w.Recalls (s.serve op).1 := by
  cases op with
  | saveAppeal => cases other
  | appendDecision decision =>
    refine ⟨hr.appeals, ?_⟩
    intro id hk stored
    have h := hr.decisions stored
    by_cases same : id = decision.id
    · subst same
      show update _ _ _ _ = _
      rw [update_self, h]
      rfl
    · exact (update_of_ne same _ _).trans h
  | _ => exact ⟨hr.appeals, hr.decisions⟩

abbrev Settled {α : Type} (program : Calling α) : Prop := Within (fun op => op.savesAppeal = false) program

theorem settled_concludeAppeal : Settled (concludeAppeal setup cmd original appeal correlationId reversalId now) := by
  have aside : ∀ op : Op, op.aside = true → op.savesAppeal = false := by
    intro op aside
    cases op <;> first | rfl | cases aside
  have reversing : Settled (reverseIfOverturned cmd original correlationId reversalId now) :=
    within_reverseIfOverturned aside fun _ => rfl
  refine .bind reversing fun _ => .bind ?_ fun _ => .bind (within_publishAll (fun _ => rfl)) fun _ => trivial
  apply within_changeCase
  · rfl
  · intro case
    rfl

theorem concludeAppeal_recalls (w : World) :
    w.Recalls (server.execute (concludeAppeal setup cmd original appeal correlationId reversalId now) w pat).1 :=
  Within.execute settled_concludeAppeal
    (fun s => w.Recalls s) (fun _ _ other recalls => serve_recalls other recalls) ⟨rfl, fun h => h⟩ pat

/-- One attempt: how long after the one before, what it draws and how its calls go. -/
structure Attempt where
  wait : Nat
  correlationId : Uuid
  reversalId : DecisionId
  pattern : Nat → Service

/-- A client that repeats one command, with its last attempt's answer; `due` are the enforcements in
force when the appeal was stored as overturned. -/
structure Client where
  world : World
  answer : Option (Except ModerationError ResolveAppealOutcome)
  due : List EnforcementAction

def World.overturned (w : World) (appealId : AppealId) : Bool :=
  (w.appeals appealId).any fun appeal => decide (appeal.status = .overturned)

def World.appealed (w : World) (appealId : AppealId) : Option Decision :=
  (w.appeals appealId).bind fun appeal => w.decisions appeal.decisionId

section

variable (setup : Setup) (cmd : ResolveAppealCommand)

def Client.retry (client : Client) (attempt : Attempt) : Client :=
  let w := client.world.after attempt.wait
  let (after, answer) := server.execute
    (resolveAppeal setup cmd attempt.correlationId attempt.reversalId w.clock) w attempt.pattern
  { world := after
    answer := some answer
    due :=
      if ! w.overturned cmd.appealId && after.overturned cmd.appealId then
        (w.appealed cmd.appealId).elim [] w.dueFor
      else client.due }

/-- An appeal is stored under its identifier, and the decision's enforcements are against its actor. -/
structure Coherent (w : World) : Prop where
  keyed : ∀ appeal, w.appeals cmd.appealId = some appeal → appeal.id = cmd.appealId
  against : ∀ original, w.appealed cmd.appealId = some original → ∀ row ∈ w.enforcements.rows,
    row.decisionId = original.id → row.actorId = original.subject.actorId

def retries : Machine Client Attempt where
  init client :=
    Coherent cmd client.world ∧ client.world.overturned cmd.appealId = false ∧ client.answer = none ∧ client.due = []
  step client attempt := some (client.retry setup cmd attempt)

/-- The attempt that stores the appeal as overturned finds nothing to lift, or its calls are
answered up to the last lifting. -/
def Uninterrupted (client : Client) (attempt : Attempt) : Prop :=
  ∀ appeal original, client.world.appeals cmd.appealId = some appeal → appeal.status.isTerminal = false →
    client.world.decisions appeal.decisionId = some original → attempt.pattern 0 = .served →
    attempt.pattern 1 = .served → (attempt.pattern 2).reaches = true →
    (client.world.after attempt.wait).dueFor original = [] ∨
    isBlank cmd.rationale = false ∧
      ∀ i, 2 ≤ i → i < 6 + 4 * ((client.world.after attempt.wait).dueFor original).length →
        attempt.pattern i = .served

/-- No enforcement of the appealed decision is in force, and each one that was has its event out. -/
structure Made (client : Client) (original : Decision) : Prop where
  appealed : client.world.appealed cmd.appealId = some original
  lifted : ∀ row ∈ client.world.enforcements.rows, row.decisionId = original.id →
    row.isActive client.world.clock = false
  published : ∀ row ∈ client.due, ∃ now correlationId, row.reversal now correlationId ∈ client.world.events

structure Retried (client : Client) : Prop where
  coherent : Coherent cmd client.world
  made : client.world.overturned cmd.appealId = true → ∃ original, Made cmd client original

variable {setup cmd}

def Appeal.settled (appeal : Appeal) (overturned : Bool) (now : Int) (correlationId : Uuid) : Appeal :=
  { appeal with
    status := Appeal.verdict overturned
    resolvedAt := some now
    pendingEvents := appeal.pendingEvents ++
      [.appealResolved appeal.id appeal.decisionId appeal.actorId overturned now correlationId] }

/-- What an attempt comes to: nothing is changed, or the appeal is saved. -/
inductive Attempted (setup : Setup) (cmd : ResolveAppealCommand) (correlationId : Uuid) (reversalId : DecisionId)
    (w : World) (pattern : Nat → Service) : World → Prop where
  | unchanged : Attempted setup cmd correlationId reversalId w pattern w
  | saved {appeal : Appeal} {original : Decision} (filed : w.appeals cmd.appealId = some appeal)
      (pending : appeal.status.isTerminal = false) (decided : w.decisions appeal.decisionId = some original)
      (first : pattern 0 = .served) (second : pattern 1 = .served) {reason : String}
      (third : pattern 2 = .replyLost reason) :
      Attempted setup cmd correlationId reversalId w pattern
        (w.saveAppeal (appeal.reconstitute.settled cmd.overturn w.clock correlationId))
  | onward {appeal : Appeal} {original : Decision} (filed : w.appeals cmd.appealId = some appeal)
      (pending : appeal.status.isTerminal = false) (decided : w.decisions appeal.decisionId = some original)
      (first : pattern 0 = .served) (second : pattern 1 = .served) (third : pattern 2 = .served) :
      Attempted setup cmd correlationId reversalId w pattern
        (server.execute (concludeAppeal setup cmd original
          (appeal.reconstitute.settled cmd.overturn w.clock correlationId) correlationId reversalId w.clock)
          (w.saveAppeal (appeal.reconstitute.settled cmd.overturn w.clock correlationId)) fun n => pattern (n + 3)).1

theorem resolveAppeal_attempt (setup : Setup) (cmd : ResolveAppealCommand) (w : World) (correlationId : Uuid)
    (reversalId : DecisionId) (pat : Nat → Service) :
    Attempted setup cmd correlationId reversalId w pat
      (server.execute (resolveAppeal setup cmd correlationId reversalId w.clock) w pat).1 := by
  unfold resolveAppeal
  rw [execute_perform_bind]
  cases first : pat 0 with
  | refused | replyLost => exact .unchanged
  | served =>
    cases hf : w.appeals cmd.appealId with
    | none =>
      simp only [Server.perform, server_serve, World.serve, hf]
      exact .unchanged
    | some appeal =>
      simp only [Server.perform, server_serve, World.serve, hf, Option.map_some, found, Program.lift_ok,
        Program.ok_bind]
      rw [execute_perform_bind]
      cases second : pat (0 + 1) with
      | refused | replyLost => exact .unchanged
      | served =>
        cases hd : w.decisions appeal.reconstitute.decisionId with
        | none =>
          simp only [Server.perform, server_serve, World.serve, hd]
          exact .unchanged
        | some =>
          simp only [Server.perform, server_serve, World.serve, hd, Program.lift_ok, Program.ok_bind]
          cases terminal : appeal.status.isTerminal with
          | true =>
            rw [Appeal.resolve_of_terminal appeal.reconstitute terminal]
            exact .unchanged
          | false =>
            rw [Appeal.resolve_of_open appeal.reconstitute terminal]
            simp only [Program.lift_ok, Program.ok_bind]
            rw [execute_perform_bind]
            cases third : pat (0 + 1 + 1) with
            | refused => exact .unchanged
            | replyLost => exact .saved hf terminal hd first second third
            | served => exact .onward hf terminal hd first second third

variable {client : Client} {w : World}

theorem Coherent.after (inv : Coherent cmd w) (duration : Nat) : Coherent cmd (w.after duration) :=
  ⟨inv.keyed, inv.against⟩

theorem Coherent.saved (inv : Coherent cmd w) {appeal : Appeal} (hf : w.appeals cmd.appealId = some appeal)
    (overturned : Bool) (now : Int) (correlationId : Uuid) :
    (w.saveAppeal (appeal.reconstitute.settled overturned now correlationId)).appeals cmd.appealId =
      some ((appeal.reconstitute.settled overturned now correlationId).written appeal) := by
  have key : (appeal.reconstitute.settled overturned now correlationId).id = cmd.appealId :=
    inv.keyed appeal hf
  unfold World.saveAppeal
  rw [key, hf]
  exact update_self _ _ _

theorem not_overturned (hf : w.appeals cmd.appealId = some appeal) (hp : appeal.status.isTerminal = false) :
    w.overturned cmd.appealId = false := by
  have other : appeal.status ≠ .overturned := by
    intro status
    rw [status] at hp
    cases hp
  simp [World.overturned, hf, other]

theorem Coherent.retried (inv : Coherent cmd w) (ho : cmd.overturn = true) {appeal : Appeal}
    {original : Decision} (correlationId : Uuid) {after : World} (hf : w.appeals cmd.appealId = some appeal)
    (hp : appeal.status.isTerminal = false) (hd : w.decisions appeal.decisionId = some original)
    (recalls : (w.saveAppeal (appeal.reconstitute.settled cmd.overturn w.clock correlationId)).Recalls after)
    (hc : Concluded original correlationId
      (w.saveAppeal (appeal.reconstitute.settled cmd.overturn w.clock correlationId)) after) :
    Retried cmd ⟨after, ans, if ! w.overturned cmd.appealId && after.overturned cmd.appealId then
      (w.appealed cmd.appealId).elim [] w.dueFor else before⟩ := by
  have row := inv.saved hf cmd.overturn w.clock correlationId
  rw [← recalls.appeals] at row
  have appealed : after.appealed cmd.appealId = some original := by
    unfold World.appealed
    rw [row]
    exact recalls.decisions hd
  have hb : w.appealed cmd.appealId = some original := by
    unfold World.appealed
    rw [hf]
    exact hd
  -- Rows are not added, so those of the decision are still against its actor.
  have against : ∀ row ∈ after.enforcements.rows, row.decisionId = original.id →
      row.actorId = original.subject.actorId := by
    intro row mem about
    obtain ⟨old, h, sameDecision, sameActor⟩ := hc.lifts.rows row mem
    rw [sameActor]
    exact inv.against original hb old h (sameDecision.symm.trans about)
  have stored : after.overturned cmd.appealId = true := by
    unfold World.overturned
    rw [row, ho]
    rfl
  refine ⟨⟨?_, ?_⟩, fun _ => ⟨original, appealed, ?_, ?_⟩⟩
  · intro stored h
    rw [row] at h
    cases h
    exact inv.keyed appeal hf
  · intro decision found
    rw [appealed] at found
    cases found
    exact against
  · intro row mem about
    exact hc.lifted row mem (against row mem about) about
  · simp only [not_overturned hf hp, stored, hb]
    exact fun row mem => ⟨_, _, hc.published row mem⟩

theorem Client.retry_eq {answer : Except ModerationError ResolveAppealOutcome}
    (ran : server.execute (resolveAppeal setup cmd attempt.correlationId attempt.reversalId
      (client.world.after attempt.wait).clock) (client.world.after attempt.wait) attempt.pattern = (after, answer)) :
    client.retry setup cmd attempt = {
      world := after
      answer := some answer
      due :=
        if ! (client.world.after attempt.wait).overturned cmd.appealId && after.overturned cmd.appealId then
          ((client.world.after attempt.wait).appealed cmd.appealId).elim [] (client.world.after attempt.wait).dueFor
        else client.due } := by
  simp only [Client.retry, ran]

theorem Retried.unchanged (hr : Retried cmd client) (wait : Nat) {due : List EnforcementAction} :
    Retried cmd ⟨client.world.after wait, ans,
      if ! (client.world.after wait).overturned cmd.appealId && (client.world.after wait).overturned cmd.appealId then
        due else client.due⟩ := by
  refine ⟨hr.coherent.after wait, ?_⟩
  intro stored
  obtain ⟨original, made⟩ := hr.made stored
  refine ⟨original, made.appealed, ?_, ?_⟩
  · intro row mem about
    have he := made.lifted row mem about
    cases ha : row.isActive (client.world.after wait).clock with
    | false => rfl
    | true =>
      have order : client.world.clock ≤ (client.world.after wait).clock := by
        show client.world.clock ≤ client.world.clock + wait
        omega
      rw [EnforcementAction.isActive_mono order ha] at he
      cases he
  · simp only [Bool.not_and_self]
    exact made.published

theorem Retried.step (ho : cmd.overturn = true) (hre : Retried cmd client)
    (hu : Uninterrupted cmd client attempt) : Retried cmd (client.retry setup cmd attempt) := by
  have inv := hre.coherent.after attempt.wait
  have attempted := resolveAppeal_attempt setup cmd (client.world.after attempt.wait)
    attempt.correlationId attempt.reversalId attempt.pattern
  generalize ran : server.execute (resolveAppeal setup cmd attempt.correlationId attempt.reversalId
    (client.world.after attempt.wait).clock) (client.world.after attempt.wait) attempt.pattern = res at attempted
  obtain ⟨after, ans⟩ := res
  rw [Client.retry_eq ran]
  generalize hr : (after, ans).1 = final at attempted
  cases attempted with
  | unchanged =>
    cases hr
    exact hre.unchanged attempt.wait
  | @saved appeal original hf pending hd first second _ third =>
    cases hr
    have idle : (client.world.after attempt.wait).dueFor original = [] := by
      cases hu appeal original hf pending hd first second (by rw [third]; rfl) with
      | inl idle => exact idle
      | inr ha =>
        have hv := ha.2 2 (Nat.le_refl 2) (by omega)
        rw [third] at hv
        cases hv
    exact inv.retried ho attempt.correlationId hf pending hd
      ⟨rfl, fun h => h⟩ (.of_same ⟨rfl, rfl, rfl, rfl⟩ (List.prefix_refl _) idle)
  | @onward appeal original hf pending hd first second third =>
    cases hr
    refine inv.retried ho attempt.correlationId hf pending hd (concludeAppeal_recalls _) ?_
    cases hu appeal original hf pending hd first second (by rw [third]; rfl) with
    | inl idle => exact concludeAppeal_idle setup original _ _ _ ho idle
    | inr ha =>
      apply concludeAppeal_served setup original _ _ _ ho ha.1
      intro i small
      exact ha.2 (i + 3) (by omega) (by
        have count : i < 3 + 4 * ((client.world.after attempt.wait).dueFor original).length := small
        omega)

end

/-- However the calls go and however often the command is repeated: once the appeal is stored as
overturned, nothing of the decision is in force and each reversal is published. -/
theorem overturned_lifts (setup : Setup) (cmd : ResolveAppealCommand) (overturning : cmd.overturn = true)
    (start final : Client) (attempts : List Attempt) (begins : (retries setup cmd).init start)
    (uninterrupted : (retries setup cmd).Meets (Uninterrupted cmd) start attempts)
    (ran : (retries setup cmd).run start attempts = some final)
    (stored : final.world.overturned cmd.appealId = true) : ∃ original, Made cmd final original := by
  have initial : Retried cmd start := by
    refine ⟨begins.1, ?_⟩
    intro already
    rw [begins.2.1] at already
    cases already
  have retried : Retried cmd final := by
    refine Machine.run_keeps ?_ initial uninterrupted ran
    intro client attempt next holds uninterrupted stepped
    cases stepped
    exact holds.step overturning uninterrupted
  exact retried.made stored

namespace Appellant

def profile : SubjectRef := ⟨.profile, "u7", 7, "bio", by decide⟩

def setup : Setup := ⟨.standard, fun _ => 70⟩

def suspension : EnforcementAction where
  id := 72
  subject := profile
  action := .suspend
  status := .active
  version := 1
  decisionId := 71
  appliedAt := 0
  expiresAt := some (30 * 86400 * Auth.nanosPerSecond)
  reversedAt := none
  pendingEvents := []

def decision : Decision where
  id := 71
  subject := profile
  action := .suspend
  category := .spam
  policyVersion := ⟨"2026.08.1", by decide⟩
  rationale := "spam links"
  author := .reviewer "rev-3"
  reverses := none
  decidedAt := 0

def appeal : Appeal where
  id := 73
  decisionId := 71
  actorId := 7
  statement := "the links are mine"
  status := .filed
  filedAt := 0
  resolvedAt := none
  pendingEvents := []

def world : World := { World.empty with
  decisions := fun id => if id = 71 then some decision else none
  enforcements := ⟨[suspension], by decide⟩
  appeals := fun id => if id = 73 then some appeal else none
  projection := fun id => if id = 7 then some ⟨1, some (30 * 86400 * Auth.nanosPerSecond)⟩ else none
  drawn := [71, 72, 73] }

def start : Client := ⟨world, none, []⟩

def cmd : ResolveAppealCommand := ⟨73, true, "reviewer erred", "rev-4"⟩

/-- All calls of the attempt are answered but one. -/
def failing (call : Nat) : Attempt := ⟨1, 80, 81, fun i => if i = call then .refused "timeout" else .served⟩

def answered : Attempt := ⟨1, 82, 83, Server.allServed⟩

theorem begins : (retries setup cmd).init start := by
  refine ⟨⟨?_, ?_⟩, rfl, rfl, rfl⟩
  · intro stored h
    cases h
    rfl
  intro original found row mem about
  cases found
  cases List.mem_singleton.mp mem
  rfl

def after (attempts : List Attempt) : Client := attempts.foldl (Client.retry setup cmd) start

/-- A failure before the appeal is saved is made good by the retry. -/
theorem saved_late_lifts :
    (retries setup cmd).run start [failing 2, answered] = some (after [failing 2, answered]) ∧
      (after [failing 2, answered]).world.overturned 73 = true ∧
      ∃ original, Made cmd (after [failing 2, answered]) original := by
  have stored : (after [failing 2, answered]).world.overturned 73 = true := by decide +kernel
  have uninterrupted : (retries setup cmd).Meets (Uninterrupted cmd) start [failing 2, answered] := by
    refine ⟨?_, fun next _ => ⟨?_, fun _ _ => trivial⟩⟩
    · intro _ _ _ _ _ _ _ reached
      cases reached
    · intro _ _ _ _ _ _ _ _
      exact .inr ⟨by decide, fun _ _ _ => rfl⟩
  exact ⟨rfl, stored, overturned_lifts setup cmd rfl start (after [failing 2, answered]) [failing 2, answered] begins
    uninterrupted rfl stored⟩

/-- A failure right after it is not: the retry is turned away, and the actor stays suspended. -/
theorem saved_early_stays :
    (retries setup cmd).run start [failing 3, answered] = some (after [failing 3, answered]) ∧
      (after [failing 3, answered]).world.overturned 73 = true ∧
      (after [failing 3, answered]).answer = some (.error .appealAlreadyResolved) ∧
      (∃ row ∈ (after [failing 3, answered]).world.enforcements.rows,
        row.decisionId = 71 ∧ row.isActive (after [failing 3, answered]).world.clock = true) ∧
      (after [failing 3, answered]).world.events = [] :=
  ⟨rfl, by decide +kernel, rfl, by decide +kernel, by decide +kernel⟩

end Appellant
end CorePlatform.Moderation
