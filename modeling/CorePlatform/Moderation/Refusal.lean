import CorePlatform.Moderation.Handlers

/-! # What a refused decision leaves behind

A decision is checked twice: the command before anything is written, and the case itself only
at the end, after the decision, the enforcement, the flag, the strike and their events. A
refusal by the first checks leaves no trace; one by the last leaves all of it.
-/

namespace CorePlatform.Moderation

open Theory Server Program
open Audit (isBlank)
open Auth (Uuid)

/-- The records that a decision touches, besides the case. -/
structure World.Untouched (before after : World) : Prop where
  decisions : after.decisions = before.decisions
  enforcements : after.enforcements = before.enforcements
  projection : after.projection = before.projection
  ledgers : after.ledgers = before.ledgers
  events : after.events = before.events

theorem World.Untouched.refl (w : World) : w.Untouched w := ⟨rfl, rfl, rfl, rfl, rfl⟩

/-- What the checks before the first write refuse. -/
inductive DecideCaseCommand.TurnedDown (cmd : DecideCaseCommand) (w : World) : Prop where
  | noCase (missing : w.cases cmd.caseId = none)
  | policyVersion (blank : isBlank cmd.policyVersion = true)
  | actor (stored : w.cases cmd.caseId = some row) (actorLevel : cmd.action.isActorLevel = true)
      (unknown : w.directory row.subject.actorId = false)
  | rationale (blank : isBlank cmd.rationale = true)

theorem events_grow {α : Type} (prog : Calling α) (w : World) (pat : Nat → Service) :
    w.events <+: (server.execute prog w pat).1.events := by
  refine execute_keeps (fun s : World => w.events <+: s.events) ?_ (List.prefix_refl _)
  intro s op hg
  cases op with
  | publish => exact hg.trans (List.prefix_append _ _)
  | _ => exact hg

section

variable (setup : Setup) (cmd : DecideCaseCommand) (correlationId : Uuid) (decisionId : DecisionId)
  (enforcementId : EnforcementId) (now : Int) (w : World)

theorem appendDecision_served :
    server.execute (appendDecision decision correlationId) w allServed =
      ({ w.appendDecision decision with events := w.events ++ [decision.recorded correlationId] }, .ok ()) := rfl

theorem carryOut_publishes (case : Case) (decision : Decision) (category : PolicyCategory) :
    (server.execute (carryOut setup case decision category correlationId enforcementId now) w
      allServed).1.events ≠ w.events := by
  intro eq
  unfold carryOut at eq
  rw [execute_bind_served, appendDecision_served] at eq
  have hg := (events_grow _ _ _).length_le.trans_eq (congrArg List.length eq)
  simp at hg

theorem checkActor_served :
    server.execute (checkActor action actorId) w allServed =
      if action.isActorLevel = true ∧ w.directory actorId = false then
        (w, .error (.domainViolation "actor" "cannot enforce against an unknown actor"))
      else (w, .ok ()) := by
  unfold checkActor
  cases action.isActorLevel with
  | false => rfl
  | true =>
    show server.execute (if w.directory actorId then _ else _) w _ = _
    cases w.directory actorId <;> rfl

theorem decideCase_served :
    (cmd.TurnedDown w ∧ ∃ e, server.execute
      (decideCase setup cmd correlationId decisionId enforcementId now) w allServed = (w, .error e)) ∨
    (¬ cmd.TurnedDown w ∧ ∃ row decision, w.cases cmd.caseId = some row ∧ decision.id = decisionId ∧
      decision.subject = row.subject ∧ decision.action = cmd.action ∧
      server.execute (decideCase setup cmd correlationId decisionId enforcementId now) w allServed =
        server.execute (carryOut setup row.reconstitute decision cmd.category correlationId enforcementId now) w
          allServed) := by
  unfold decideCase
  rw [execute_bind_served]
  show (_ ∧ ∃ e, server.execute (liftM (found _ ((w.cases cmd.caseId).map Case.reconstitute)) >>= _) w _ = _) ∨
    (_ ∧ ∃ row decision, _ ∧ _ ∧ _ ∧ _ ∧
      server.execute (liftM (found _ ((w.cases cmd.caseId).map Case.reconstitute)) >>= _) w _ = _)
  cases stored : w.cases cmd.caseId with
  | none => exact .inl ⟨.noCase stored, _, rfl⟩
  | some row =>
    simp only [Option.map_some, found, lift_ok, ok_bind, PolicyVersion.new]
    by_cases hn : isBlank cmd.policyVersion = false
    · simp only [hn, dif_pos, lift_ok, ok_bind]
      rw [execute_bind_served, checkActor_served]
      by_cases unknown : cmd.action.isActorLevel = true ∧ w.directory row.subject.actorId = false
      · rw [if_pos (show cmd.action.isActorLevel = true ∧ w.directory row.reconstitute.subject.actorId = false from
          unknown)]
        exact .inl ⟨.actor stored unknown.1 unknown.2, _, rfl⟩
      rw [if_neg (show ¬ (cmd.action.isActorLevel = true ∧
        w.directory row.reconstitute.subject.actorId = false) from unknown)]
      simp only [Decision.record, Decision.build]
      by_cases blank : isBlank cmd.rationale = true
      · simp only [blank, if_true]
        exact .inl ⟨.rationale blank, _, rfl⟩
      simp only [blank, Bool.false_eq_true, if_false]
      refine .inr ⟨?_, row, _, rfl, rfl, rfl, rfl, rfl⟩
      intro turnedDown
      cases turnedDown with
      | noCase missing => simp [stored] at missing
      | policyVersion unnamed => simp [hn] at unnamed
      | actor stored' actorLevel missing =>
        rw [stored] at stored'
        cases stored'
        exact unknown ⟨actorLevel, missing⟩
      | rationale empty => exact blank empty
    · simp only [hn]
      exact .inl ⟨.policyVersion (by simpa using hn), _, rfl⟩

end

/-- A refused decision changes nothing exactly when it is the first checks that refuse it. -/
theorem refused_untouched_iff (setup : Setup) (cmd : DecideCaseCommand) (correlationId : Uuid)
    (decisionId : DecisionId) (enforcementId : EnforcementId) (now : Int) (w w' : World) (e : ModerationError)
    (refused : server.execute (decideCase setup cmd correlationId decisionId enforcementId now) w Server.allServed =
      (w', .error e)) :
    w.Untouched w' ↔ cmd.TurnedDown w := by
  have served := decideCase_served setup cmd correlationId decisionId enforcementId now w
  rw [refused] at served
  cases served with
  | inl early =>
    obtain ⟨turnedDown, _, same⟩ := early
    cases same
    exact ⟨fun _ => turnedDown, fun _ => .refl w⟩
  | inr late =>
    obtain ⟨passed, row, decision, -, -, -, -, same⟩ := late
    constructor
    · intro untouched
      have published := carryOut_publishes setup correlationId enforcementId now w row.reconstitute decision
        cmd.category
      rw [← same] at published
      exact absurd untouched.events published
    · intro turnedDown
      exact absurd turnedDown passed

namespace Sample

def post : SubjectRef := ⟨.post, "p1", 1, "feed", by decide⟩

def setup : Setup := ⟨.standard, fun _ => 7⟩

def dismissed : Case where
  id := 7
  subject := post
  status := .dismissed
  category := .harassment
  queue := "default"
  priority := "normal"
  assignee := none
  signals := []
  openedAt := 0
  version := 1
  pendingEvents := []

def world : World := { World.empty with cases := fun id => if id = 7 then some dismissed else none }

def suspend (rationale : String) : DecideCaseCommand := ⟨7, .suspend, .harassment, rationale, "rev-1", "2026.06.1"⟩

def attempt (rationale : String) : World × Except ModerationError DecideOutcome :=
  server.execute (decideCase setup (suspend rationale) 20 21 22 0) world Server.allServed

/-- Without a rationale the command is refused at once. -/
theorem blank_rationale_untouched :
    (attempt " ").2 = .error (.domainViolation "decision.rationale" "a decision must record a rationale") ∧
      world.Untouched (attempt " ").1 :=
  ⟨rfl, (refused_untouched_iff setup (suspend " ") 20 21 22 0 world (attempt " ").1 _ rfl).mpr
    (.rationale (by decide))⟩

/-- A second decision on a resolved case is refused, and the actor is suspended all the same. -/
theorem resolved_case_touched :
    (attempt "violates policy").2 = .error .caseAlreadyResolved ∧
      ¬ world.Untouched (attempt "violates policy").1 ∧
      (attempt "violates policy").1.isActorRestricted 1 = true ∧
      (attempt "violates policy").1.enforcements.rows.length = 1 ∧
      (attempt "violates policy").1.events.length = 2 := by
  have count : (attempt "violates policy").1.events.length = 2 := by decide +kernel
  refine ⟨rfl, ?_, by decide +kernel, by decide +kernel, count⟩
  intro untouched
  rw [untouched.events] at count
  cases count

end Sample
end CorePlatform.Moderation
