import CorePlatform.Moderation.Cases

/-! # Reports delivered again

A report's id is the same for every delivery, but nothing is stored under it: each delivery adds
a signal to the subject's case, until the case is resolved.
-/

namespace CorePlatform.Moderation

open Theory Server
open Auth (Uuid)

/-- One delivery of a report, and how its calls go. -/
structure Delivery where
  category : PolicyCategory
  reason : String
  correlationId : Uuid
  now : Int
  pattern : Nat → Service

structure Reporting where
  setup : Setup
  reporterId : ActorId
  subject : SubjectRef

theorem quiet_execute (hq : Quiet program) : (server.execute program w pat).1.cases = w.cases := by
  have keeps (s : World) (op : Op) (other : op.aboutCase = false) (eq : s.cases = w.cases) :
      (server.serve s op).1.cases = w.cases := by
    rw [← eq]
    cases op <;> first | rfl | cases other
  exact (execute_confined hq.confined (fun _ _ _ _ _ _ => trivial) keeps rfl pat).1

theorem execute_answered (hab : op.aboutCase = true)
    (ha : ∀ reason, (server.execute (.perform op >>= rest) w pat).2 ≠ .error (.records reason)) :
    pat 0 = .served := by
  rw [execute_perform_bind] at ha
  cases went : pat 0 with
  | served => rfl
  | refused reason | replyLost reason =>
    rw [went] at ha
    cases op <;> first | exact absurd rfl (ha reason) | cases hab

theorem recordSignal_cases (hq : ∀ value, Quiet (rest value))
    (ha : ∀ reason, (server.execute (recordSignal case signal >>= rest) w pattern).2 ≠ .error (.records reason)) :
    (server.execute (recordSignal case signal >>= rest) w pattern).1.cases =
      match case.addSignal signal with
      | .ok case => (w.saveCase case).cases
      | .error _ => w.cases := by
  unfold recordSignal at ha ⊢
  cases added : case.addSignal signal with
  | ok changed =>
    simp only [added, Program.bind_assoc] at ha ⊢
    rw [execute_served (execute_answered rfl ha) rfl]
    exact quiet_execute (aside_publishAll.quiet.bind hq)
  | error => exact quiet_execute (hq ())

namespace Reporting

variable (r : Reporting) (w : World) (delivery : Delivery)

def run : World × Except ModerationError CaseId :=
  server.execute (ingestReport r.setup ⟨r.reporterId, r.subject, delivery.category, delivery.reason⟩
    delivery.correlationId delivery.now) w delivery.pattern

def deliver (deliveries : List Delivery) : World := deliveries.foldl (fun w delivery => (r.run w delivery).1) w

/-- The store of the cases answers. Publishing and the request to the classifiers can fail. -/
def Answered : Prop := ∀ reason, (r.run w delivery).2 ≠ .error (.records reason)

def AllAnswered : World → List Delivery → Prop
  | _, [] => True
  | w, delivery :: rest => r.Answered w delivery ∧ AllAnswered (r.run w delivery).1 rest

def signals : List Signal := ((w.cases (r.setup.caseId r.subject)).map Case.signals).getD []

def resolved : Bool := (w.cases (r.setup.caseId r.subject)).any (·.status.isResolved)

/-- The report is refused, or the case takes no more signals. -/
def Dropped : Prop := r.reporterId = r.subject.actorId ∨ r.resolved w = true

def case : Case :=
  ((w.cases (r.setup.caseId r.subject)).map Case.reconstitute).getD
    (Case.new (r.setup.caseId r.subject)
      ⟨r.subject, delivery.category, "default", "normal", delivery.now, delivery.correlationId⟩)

variable {r w delivery}

theorem run_cases (hfi : r.reporterId ≠ r.subject.actorId) (ha : r.Answered w delivery) :
    (r.run w delivery).1.cases =
      match (r.case w delivery).addSignal ⟨"report", delivery.category, .clamped (1 / 2), delivery.now⟩ with
      | .ok case => (w.saveCase case).cases
      | .error _ => w.cases := by
  unfold Answered at ha
  unfold run ingestReport openOrLoad at ha ⊢
  rw [show fileReport r.reporterId r.subject = .ok () from if_neg hfi] at ha ⊢
  change ∀ reason, (server.execute (Program.perform (Op.findCase _) >>= _ >>= _) _ _).2 ≠ _ at ha
  show (server.execute (Program.perform (Op.findCase _) >>= _ >>= _) _ _).1.cases = _
  rw [Program.bind_assoc] at ha ⊢
  have hf := execute_answered rfl ha
  rw [execute_served hf rfl] at ha ⊢
  have quiet (case : Case) : Quiet (do Program.perform (Op.requestClassification r.subject); pure case.id) :=
    .perform rfl fun _ => trivial
  unfold Reporting.case
  generalize (w.cases (r.setup.caseId r.subject)).map Case.reconstitute = stored at ha ⊢
  cases stored with
  | some case => exact recordSignal_cases (fun _ => quiet case) ha
  | none => exact recordSignal_cases (fun _ => quiet _) ha

theorem run_unchanged (hd : r.Dropped w) (ha : r.Answered w delivery) : (r.run w delivery).1.cases = w.cases := by
  by_cases self : r.reporterId = r.subject.actorId
  · unfold run ingestReport
    rw [show fileReport r.reporterId r.subject = .error .selfReportRejected from if_pos self]
    rfl
  rw [run_cases self ha]
  split
  · rename_i added
    obtain ⟨row, stored, resolved⟩ := (Option.any_eq_true ..).mp (hd.resolve_left self)
    have unresolved := (Case.addSignal_ok added).1
    rw [Reporting.case, stored] at unresolved
    exact absurd (resolved.symm.trans unresolved) (by simp)
  · rfl

theorem case_spec (delivery : Delivery) (hk : w.Filed)
    (unresolved : r.resolved w = false) :
    (r.case w delivery).id = r.setup.caseId r.subject ∧ (r.case w delivery).status.isResolved = false ∧
      (r.case w delivery).signals = r.signals w := by
  unfold Reporting.case signals resolved at *
  cases stored : w.cases (r.setup.caseId r.subject) with
  | none => exact ⟨rfl, rfl, rfl⟩
  | some row =>
    rw [stored] at unresolved
    have own := hk _ _ stored
    exact ⟨own, unresolved, rfl⟩

theorem run_adds (hk : w.Filed) (kept : ¬ r.Dropped w)
    (ha : r.Answered w delivery) :
    ¬ r.Dropped (r.run w delivery).1 ∧ (r.signals (r.run w delivery).1).length = (r.signals w).length + 1 ∧
      (r.run w delivery).1.Filed := by
  obtain ⟨hf, unresolved⟩ := not_or.mp kept
  obtain ⟨id, status, signals⟩ := case_spec delivery hk (Bool.eq_false_iff.mpr unresolved)
  unfold Dropped resolved
  rw [Reporting.signals, run_cases hf ha]
  cases added : (r.case w delivery).addSignal ⟨"report", delivery.category, .clamped (1 / 2), delivery.now⟩ with
  | error => exact absurd (Case.addSignal_error added) (by simp [status])
  | ok case =>
    obtain ⟨-, hc⟩ := Case.addSignal_ok added
    obtain ⟨row, h, status', signals'⟩ : ∃ row, (w.saveCase case).cases (r.setup.caseId r.subject) = some row ∧
        row.status = case.status ∧ row.signals = case.signals := by
      rw [← id, ← (Case.addSignal_revises added).id]
      refine ⟨_, Function.update_self .., ?_⟩
      cases w.cases case.id <;> exact ⟨rfl, rfl⟩
    rw [World.Filed, run_cases hf ha, added]
    dsimp only
    rw [h]
    subst hc
    refine ⟨?_, ?_, hk.saveCase⟩
    · simpa [hf, status', Case.touch] using status
    · simp [signals', Case.touch, signals]

theorem deliver_unchanged (hd : r.Dropped w) (ha : r.AllAnswered w deliveries) :
    (r.deliver w deliveries).cases = w.cases := by
  induction deliveries generalizing w with
  | nil => rfl
  | cons delivery rest ih =>
    have eq := run_unchanged hd ha.1
    have still : r.Dropped (r.run w delivery).1 := by rwa [Dropped, resolved, eq]
    exact (ih still ha.2).trans eq

theorem deliver_adds (hk : w.Filed) (kept : ¬ r.Dropped w)
    (ha : r.AllAnswered w deliveries) :
    (r.signals (r.deliver w deliveries)).length = (r.signals w).length + deliveries.length := by
  induction deliveries generalizing w with
  | nil => rfl
  | cons delivery rest ih =>
    obtain ⟨kept', more, keyed'⟩ := run_adds hk kept ha.1
    have ho := ih keyed' kept' ha.2
    rw [deliver, List.foldl_cons, ← deliver, ho, more, List.length_cons]
    omega

/-- However often a reporter's reports on a subject are delivered, the case has the signals of the
first delivery and at most one more, if and only if that was the only one, or it is a report on
oneself, or the case was resolved before. -/
theorem report_counts_once_iff (r : Reporting) (first : Delivery) (rest : List Delivery)
    (keyed : ∀ id row, w.cases id = some row → row.id = id) (answered : r.AllAnswered w (first :: rest)) :
    (r.signals (r.deliver w (first :: rest)) = r.signals (r.deliver w [first]) ∧
      (r.signals (r.deliver w (first :: rest))).length ≤ (r.signals w).length + 1) ↔
      rest = [] ∨ r.reporterId = r.subject.actorId ∨ r.resolved w = true := by
  have alone : r.AllAnswered w [first] := ⟨answered.1, trivial⟩
  by_cases dropped : r.Dropped w
  · have all := deliver_unchanged dropped answered
    have one := deliver_unchanged dropped alone
    unfold signals
    rw [all, one]
    simpa using .inr dropped
  have all := deliver_adds keyed dropped answered
  have one := deliver_adds keyed dropped alone
  constructor
  · rintro ⟨-, few⟩
    rw [all, List.length_cons] at few
    exact .inl (List.eq_nil_of_length_eq_zero (by omega))
  · rintro (rfl | out)
    · exact ⟨rfl, one.le⟩
    · exact absurd out dropped

end Reporting

namespace Docket

/-- The reports of a reader on `post`. -/
def reader : Reporting := ⟨setup, 4, post⟩

/-- A report whose request to the classifiers fails, so that it is delivered again. -/
def report (now : Int) : Delivery :=
  ⟨.spam, "an advert", 2, now, fun n => if n = 2 then .refused "unavailable" else .served⟩

theorem report_fails (hf : (reader.run w (report now)).2 = .error .classifierUnavailable) :
    reader.Answered w (report now) := by
  intro reason
  rw [hf]
  exact Except.error.inj.mt (by simp)

/-- The case of the post, dismissed with the signal of a report. -/
def closed : World :=
  { World.empty with
    cases := fun id =>
      if id = 90 then some { case with status := .dismissed, signals := [⟨"report", .spam, .clamped (1 / 2), 4⟩] }
      else none }

theorem report_counts_once_resolved :
    reader.signals (reader.deliver closed [report 5, report 6]) = reader.signals (reader.deliver closed [report 5]) ∧
      (reader.signals (reader.deliver closed [report 5, report 6])).length ≤ 2 := by
  have keyed : ∀ id row, closed.cases id = some row → row.id = id := by
    intro id row h
    simp only [closed] at h
    split at h <;> cases h
    exact (‹id = 90›).symm
  have answered : reader.AllAnswered closed [report 5, report 6] := ⟨nofun, nofun, trivial⟩
  exact (Reporting.report_counts_once_iff reader _ [report 6] keyed answered).mpr (.inr (.inr rfl))

/-- Delivered again, the one report has two signals in the case. -/
theorem report_counts_twice : reader.AllAnswered start.world [report 5, report 6] ∧
    (reader.signals (reader.deliver start.world [report 5])).length = 1 ∧
    (reader.signals (reader.deliver start.world [report 5, report 6])).length = 2 :=
  ⟨⟨report_fails rfl, report_fails rfl, trivial⟩, rfl, rfl⟩

end Docket
end CorePlatform.Moderation
