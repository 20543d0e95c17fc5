import CorePlatform.Moderation.Stores

/-! # The commands of the moderation service

Each handler is the program of its calls, in the order in which it makes them. The clock
reading and the identifiers that it draws are its arguments.
-/

namespace CorePlatform.Moderation

open Theory
open Auth (Uuid)
open Audit (isBlank isWhitespace)

/-- The policy, and the name-based UUID of a text in the namespace of the service. -/
structure Setup where
  policy : ModerationPolicy
  uuidV5 : String → Uuid

def Setup.caseId (setup : Setup) (subject : SubjectRef) : CaseId := setup.uuidV5 subject.canonicalKey

def found {α : Type} (missing : ModerationError) : Option α → Except ModerationError α
  | some value => .ok value
  | none => .error missing

theorem found_ok (got : found missing stored = .ok value) : stored = some value := by
  cases stored with
  | none => cases got
  | some => cases got; rfl

def publishAll : List DomainEvent → Calling Unit
  | [] => pure ()
  | event :: rest => do
      Program.perform (Op.publish event)
      publishAll rest

/-- A write under an older version than the flag's is ignored. -/
def setActorRestriction (actorId : ActorId) (version : EnforcementVersion) (expiresAt : Option Int) : Calling Unit := do
  let current ← Program.perform (Op.getRestriction actorId)
  if current.any (version < ·) then pure ()
  else Program.perform (Op.setRestriction actorId version expiresAt)

/-- The flag is deleted under its own version or a newer one. -/
def clearActorRestriction (actorId : ActorId) (version : EnforcementVersion) : Calling Unit := do
  let current ← Program.perform (Op.getRestriction actorId)
  if current.all (· ≤ version) then Program.perform (Op.deleteRestriction actorId)
  else pure ()

structure OpenCaseCommand where
  subject : SubjectRef
  category : PolicyCategory
  queue : String
  priority : String

structure OpenedCase where
  case : Case
  created : Bool
  deriving DecidableEq

/-- `OpenCaseHandler::handle`. -/
def openCase (setup : Setup) (cmd : OpenCaseCommand) (correlationId : Uuid) (now : Int) : Calling OpenedCase := do
  match ← Program.perform (Op.findCase (setup.caseId cmd.subject)) with
  | some existing => pure ⟨existing, false⟩
  | none => do
      let case := Case.new (setup.caseId cmd.subject)
        ⟨cmd.subject, cmd.category, cmd.queue, cmd.priority, now, correlationId⟩
      Program.perform (Op.saveCase case)
      publishAll case.pendingEvents
      pure ⟨case, true⟩

structure AssignCaseCommand where
  caseId : CaseId
  reviewerId : String

/-- `AssignCaseHandler::handle`. -/
def assignCase (cmd : AssignCaseCommand) : Calling Case := do
  let stored ← Program.perform (Op.findCase cmd.caseId)
  let case ← found (.caseNotFound cmd.caseId) stored
  let case ← case.assign cmd.reviewerId
  Program.perform (Op.saveCase case)
  pure case

structure DecideCaseCommand where
  caseId : CaseId
  action : ActionType
  category : PolicyCategory
  rationale : String
  reviewerId : String
  policyVersion : String

structure DecideOutcome where
  decision : Decision
  enforcement : Option EnforcementAction
  deriving DecidableEq

/-- An action against an actor is taken only if there is one. -/
def checkActor (action : ActionType) (actorId : ActorId) : Calling Unit :=
  if action.isActorLevel then do
    let known ← Program.perform (Op.actorExists actorId)
    if known then pure ()
    else Program.error (.domainViolation "actor" "cannot enforce against an unknown actor")
  else pure ()

/-- Append a decision to the ledger and publish its evidence. -/
def appendDecision (decision : Decision) (correlationId : Uuid) : Calling Unit := do
  Program.perform (Op.appendDecision decision)
  Program.perform (Op.publish (decision.recorded correlationId))

def strike (setup : Setup) (actorId : ActorId) (category : PolicyCategory) (now : Int) : Calling Unit := do
  let ledger ← Program.perform (Op.loadLedger actorId)
  Program.perform (Op.saveLedger (ledger.recordStrike category now setup.policy.penalty))

/-- An enforcement against an actor is reflected in the flag. -/
def flagActor (enforcement : EnforcementAction) : Calling Unit :=
  if enforcement.action.isActorLevel then
    setActorRestriction enforcement.actorId enforcement.version enforcement.expiresAt
  else pure ()

/-- The enforcement of a decision: its row, the flag of the actor, the strike and the event. -/
def enforce (setup : Setup) (decision : Decision) (category : PolicyCategory) (correlationId : Uuid)
    (enforcementId : EnforcementId) (now : Int) : Calling EnforcementAction := do
  let version ← Program.perform (Op.nextVersion decision.subject)
  let enforcement ← EnforcementAction.apply enforcementId {
    subject := decision.subject
    action := decision.action
    decisionId := decision.id
    version
    appliedAt := now
    expiresAt := setup.policy.expiryFor decision.action now
    correlationId }
  Program.perform (Op.saveEnforcement enforcement)
  flagActor enforcement
  strike setup decision.subject.actorId category now
  publishAll enforcement.pendingEvents
  pure enforcement

def enforceUnlessDismissed (setup : Setup) (decision : Decision) (category : PolicyCategory) (correlationId : Uuid)
    (enforcementId : EnforcementId) (now : Int) : Calling (Option EnforcementAction) :=
  if decision.action.isEnforced then do
    let enforcement ← enforce setup decision category correlationId enforcementId now
    pure (some enforcement)
  else pure none

def carryOut (setup : Setup) (case : Case) (decision : Decision) (category : PolicyCategory) (correlationId : Uuid)
    (enforcementId : EnforcementId) (now : Int) : Calling DecideOutcome := do
  appendDecision decision correlationId
  let enforcement ← enforceUnlessDismissed setup decision category correlationId enforcementId now
  let case ← case.resolve decision.id decision.action now correlationId
  Program.perform (Op.saveCase case)
  publishAll case.pendingEvents
  pure ⟨decision, enforcement⟩

/-- `DecideCaseHandler::handle`. -/
def decideCase (setup : Setup) (cmd : DecideCaseCommand) (correlationId : Uuid) (decisionId : DecisionId)
    (enforcementId : EnforcementId) (now : Int) : Calling DecideOutcome := do
  let stored ← Program.perform (Op.findCase cmd.caseId)
  let case ← found (.caseNotFound cmd.caseId) stored
  let policyVersion ← PolicyVersion.new cmd.policyVersion
  checkActor cmd.action case.subject.actorId
  let decision ← Decision.record decisionId {
    subject := case.subject
    action := cmd.action
    category := cmd.category
    policyVersion
    rationale := cmd.rationale
    author := .reviewer cmd.reviewerId
    decidedAt := now }
  carryOut setup case decision cmd.category correlationId enforcementId now

structure FileAppealCommand where
  decisionId : DecisionId
  actorId : ActorId
  statement : String

/-- A change of the case of a subject, if there is one. -/
def changeCase (caseId : CaseId) (change : Case → Except ModerationError Case) : Calling Unit := do
  match ← Program.perform (Op.findCase caseId) with
  | some case => do
      let case ← change case
      Program.perform (Op.saveCase case)
  | none => pure ()

def ensureAppealable (category : PolicyCategory) : Except ModerationError Unit :=
  if category.isAppealable then .ok () else .error .notAppealable

/-- `FileAppealHandler::handle`. -/
def fileAppeal (setup : Setup) (cmd : FileAppealCommand) (appealId : AppealId) (now : Int) : Calling Appeal := do
  let stored ← Program.perform (Op.findDecision cmd.decisionId)
  let decision ← found (.decisionNotFound cmd.decisionId) stored
  ensureAppealable decision.category
  let appeal ← Appeal.file appealId cmd.decisionId cmd.actorId cmd.statement now
  Program.perform (Op.saveAppeal appeal)
  changeCase (setup.caseId decision.subject) Case.markAppealed
  pure appeal

structure ResolveAppealCommand where
  appealId : AppealId
  overturn : Bool
  rationale : String
  reviewerId : String

structure ResolveAppealOutcome where
  appeal : Appeal
  reversal : Option Decision
  deriving DecidableEq

/-- An enforcement against an actor that is lifted is taken out of the flag. -/
def unflagActor (actorId : ActorId) (enforcement : EnforcementAction) : Calling Unit :=
  if enforcement.action.isActorLevel then clearActorRestriction actorId enforcement.version else pure ()

/-- Lift the enforcements of the decision, among those that were listed. -/
def reverseEach (original : Decision) (correlationId : Uuid) (now : Int) : List EnforcementAction → Calling Unit
  | [] => pure ()
  | enforcement :: rest =>
    if enforcement.decisionId = original.id && enforcement.isActive now then do
      let enforcement ← enforcement.reverse now correlationId
      Program.perform (Op.saveEnforcement enforcement)
      unflagActor original.subject.actorId enforcement
      publishAll enforcement.pendingEvents
      reverseEach original correlationId now rest
    else reverseEach original correlationId now rest

/-- The decision that takes the place of the one appealed. -/
def reversalOf (cmd : ResolveAppealCommand) (original : Decision) (reversalId : DecisionId) (now : Int) :
    Except ModerationError Decision :=
  Decision.recordReversal reversalId {
    subject := original.subject
    action := .noAction
    category := original.category
    policyVersion := original.policyVersion
    rationale := cmd.rationale
    author := .reviewer cmd.reviewerId
    decidedAt := now } original.id

/-- What overturning brings about: the reversal decision, and the enforcements lifted. -/
def overturn (cmd : ResolveAppealCommand) (original : Decision) (correlationId : Uuid) (reversalId : DecisionId)
    (now : Int) : Calling Decision := do
  let reversal ← reversalOf cmd original reversalId now
  appendDecision reversal correlationId
  let active ← Program.perform (Op.listActiveForActor original.subject.actorId)
  reverseEach original correlationId now active
  pure reversal

def reverseIfOverturned (cmd : ResolveAppealCommand) (original : Decision) (correlationId : Uuid)
    (reversalId : DecisionId) (now : Int) : Calling (Option Decision) :=
  if cmd.overturn then do
    let reversal ← overturn cmd original correlationId reversalId now
    pure (some reversal)
  else pure none

def concludeAppeal (setup : Setup) (cmd : ResolveAppealCommand) (original : Decision) (appeal : Appeal)
    (correlationId : Uuid) (reversalId : DecisionId) (now : Int) : Calling ResolveAppealOutcome := do
  let reversal ← reverseIfOverturned cmd original correlationId reversalId now
  changeCase (setup.caseId original.subject) fun case => case.closeAppeal cmd.overturn
  publishAll appeal.pendingEvents
  pure ⟨appeal, reversal⟩

/-- `ResolveAppealHandler::handle`. -/
def resolveAppeal (setup : Setup) (cmd : ResolveAppealCommand) (correlationId : Uuid) (reversalId : DecisionId)
    (now : Int) : Calling ResolveAppealOutcome := do
  let storedAppeal ← Program.perform (Op.findAppeal cmd.appealId)
  let appeal ← found (.appealNotFound cmd.appealId) storedAppeal
  let storedDecision ← Program.perform (Op.findDecision appeal.decisionId)
  let original ← found (.decisionNotFound appeal.decisionId) storedDecision
  let appeal ← appeal.resolve cmd.overturn now correlationId
  Program.perform (Op.saveAppeal appeal)
  concludeAppeal setup cmd original appeal correlationId reversalId now

def openOrLoad (setup : Setup) (subject : SubjectRef) (category : PolicyCategory) (correlationId : Uuid) (now : Int) :
    Calling Case := do
  match ← Program.perform (Op.findCase (setup.caseId subject)) with
  | some case => pure case
  | none => pure (Case.new (setup.caseId subject) ⟨subject, category, "default", "normal", now, correlationId⟩)

/-- A signal on a case that is resolved is dropped. -/
def recordSignal (case : Case) (signal : Signal) : Calling Unit :=
  match case.addSignal signal with
  | .ok case => do
      Program.perform (Op.saveCase case)
      publishAll case.pendingEvents
  | .error _ => pure ()

structure IngestReportCommand where
  reporterId : ActorId
  subject : SubjectRef
  category : PolicyCategory
  reason : String

/-- `Report::file`, as far as it can fail. -/
def fileReport (reporterId : ActorId) (subject : SubjectRef) : Except ModerationError Unit :=
  if reporterId = subject.actorId then .error .selfReportRejected else .ok ()

def reportSignal (category : PolicyCategory) (now : Int) : Except ModerationError Signal :=
  Signal.new "report" category (.clamped (1 / 2)) now

/-- `IngestReportHandler::handle`. -/
def ingestReport (setup : Setup) (cmd : IngestReportCommand) (correlationId : Uuid) (now : Int) : Calling CaseId := do
  fileReport cmd.reporterId cmd.subject
  let case ← openOrLoad setup cmd.subject cmd.category correlationId now
  let signal ← reportSignal cmd.category now
  recordSignal case signal
  Program.perform (Op.requestClassification cmd.subject)
  pure case.id

structure IngestSignalCommand where
  subject : SubjectRef
  source : String
  category : PolicyCategory
  confidence : Confidence

/-- `IngestSignalHandler::handle`. -/
def ingestSignal (setup : Setup) (cmd : IngestSignalCommand) (correlationId : Uuid) (now : Int) : Calling CaseId := do
  let case ← openOrLoad setup cmd.subject cmd.category correlationId now
  let signal ← Signal.new cmd.source cmd.category cmd.confidence now
  recordSignal case signal
  pure case.id

structure ScreenCommand where
  subject : SubjectRef
  hashes : List ContentHash
  text : Option String
  categories : List PolicyCategory

inductive ScreenVerdict where
  | allow
  | block
  | review
  deriving DecidableEq

structure ScreenOutcome where
  verdict : ScreenVerdict
  matchedCategories : List PolicyCategory
  matchReference : Option String
  enforcementId : Option EnforcementId
  deriving DecidableEq

/-- A history that calls for an action against the actor is reflected in the flag. -/
def flagOffender (setup : Setup) (ledger : PenaltyLedger) (actorId : ActorId) (version : EnforcementVersion)
    (now : Int) : Calling Unit :=
  if (ledger.recommendedAction now setup.policy.penalty).isActorLevel then setActorRestriction actorId version none
  else pure ()

/-- The strike of a match; one that calls for an action against the actor sets the flag first. -/
def screenStrike (setup : Setup) (actorId : ActorId) (category : PolicyCategory) (version : EnforcementVersion)
    (now : Int) : Calling Unit := do
  let ledger ← Program.perform (Op.loadLedger actorId)
  let ledger := ledger.recordStrike category now setup.policy.penalty
  flagOffender setup ledger actorId version now
  Program.perform (Op.saveLedger ledger)

/-- The evidence of a match: the decision, the removal, its event and the strike. -/
def block (setup : Setup) (subject : SubjectRef) (hit : ScreenMatch) (correlationId : Uuid) (decisionId : DecisionId)
    (enforcementId : EnforcementId) (now : Int) : Calling ScreenOutcome := do
  let category := hit.categories.head?.getD .other
  let decision ← Decision.record decisionId {
    subject
    action := .removeContent
    category
    policyVersion := setup.policy.screenPolicyVersion
    rationale := "automated screen match: " ++ hit.reference
    author := .rule "screen:hash-match"
    decidedAt := now }
  appendDecision decision correlationId
  let version ← Program.perform (Op.nextVersion subject)
  let enforcement ← EnforcementAction.apply enforcementId {
    subject
    action := .removeContent
    decisionId := decision.id
    version
    appliedAt := now
    expiresAt := none
    correlationId }
  Program.perform (Op.saveEnforcement enforcement)
  publishAll enforcement.pendingEvents
  screenStrike setup subject.actorId category version now
  pure ⟨.block, hit.categories, some hit.reference, some enforcement.id⟩

/-- `ScreenHandler::handle`. -/
def screen (setup : Setup) (cmd : ScreenCommand) (correlationId : Uuid) (decisionId : DecisionId)
    (enforcementId : EnforcementId) (now : Int) : Calling ScreenOutcome := do
  match ← Program.perform (Op.screen cmd.hashes cmd.text cmd.categories) with
  | none => pure ⟨.allow, [], none, none⟩
  | some hit => block setup cmd.subject hit correlationId decisionId enforcementId now

/-! ## Which subjects share a case -/

/-- A subject whose key no other text shares its UUID with has its case for itself exactly if its
surface has no separator and its entity's id none after a character that is not blank. -/
theorem Setup.caseId_own_iff (setup : Setup) (subject : SubjectRef)
    (injective : ∀ key, setup.uuidV5 key = setup.uuidV5 subject.canonicalKey → key = subject.canonicalKey) :
    (∀ other, setup.caseId other = setup.caseId subject → other.sameContent subject = true) ↔
      '|' ∉ subject.surface.toList ∧
        ∀ before after, subject.entityId.toList = before ++ '|' :: after → isBlank (.ofList before) = true := by
  constructor
  · intro own
    have split (id surface : String) (named : isBlank id = false) (texts : id.toList ++ '|' :: surface.toList =
        subject.entityId.toList ++ '|' :: subject.surface.toList) : id = subject.entityId := by
      let other : SubjectRef := ⟨subject.entityType, id, subject.actorId, surface, named⟩
      have keys : other.canonicalKey = subject.canonicalKey := SubjectRef.canonicalKey_eq_iff.mpr ⟨rfl, texts⟩
      have same := own other (congrArg setup.uuidV5 keys)
      simp only [SubjectRef.sameContent, Bool.and_eq_true, decide_eq_true_eq] at same
      exact same.1.2
    constructor
    · intro cut
      obtain ⟨before, after, parts⟩ := List.append_of_mem cut
      have ids := split (subject.entityId ++ "|" ++ .ofList before) (.ofList after)
        (by simp [isBlank, show isWhitespace '|' = false by decide]) (by simp [parts])
      have lists := congrArg String.toList ids
      simp at lists
    · intro before after parts
      by_contra named
      have ids := split (.ofList before) (.ofList (after ++ '|' :: subject.surface.toList)) (by simpa using named)
        (by simp [parts])
      rw [← ids] at parts
      simp at parts
  · rintro ⟨whole, leading⟩ other same
    obtain ⟨kinds, texts⟩ := SubjectRef.canonicalKey_eq_iff.mp (injective _ same)
    rcases cut_cases texts with ⟨ids, surfaces⟩ | ⟨part, ids, -⟩ | ⟨part, -, surfaces⟩
    · simp [SubjectRef.sameContent, kinds, String.toList_inj.mp ids, String.toList_inj.mp surfaces]
    · -- The other id ends at a separator of the subject's, so it is blank.
      have blank := leading _ _ ids
      simp [other.named] at blank
    · exact absurd (by simp [surfaces]) whole

theorem Setup.caseId_own_plain : ∃ (setup : Setup) (subject : SubjectRef), subject.canonicalKey = "post|p1|feed" ∧
    ∀ other, setup.caseId other = setup.caseId subject → other.sameContent subject = true := by
  let subject : SubjectRef := ⟨.post, "p1", 1, "feed", by decide⟩
  refine ⟨⟨.standard, fun key => if key = "post|p1|feed" then 1 else 0⟩, subject, by decide, ?_⟩
  refine (caseId_own_iff _ subject fun key same => ?_).mpr ⟨by decide, fun before after parts => ?_⟩
  · by_contra other
    have key' : key ≠ "post|p1|feed" := other
    simp [key', show subject.canonicalKey = "post|p1|feed" by decide] at same
  have cut : '|' ∈ "p1".toList := by
    rw [show "p1".toList = _ from parts]
    simp
  exact absurd cut (by decide)

/-- A separator in an id and one in a surface. -/
theorem Setup.caseId_shared : ∃ a b : SubjectRef, a.sameContent b = false ∧
    ∀ setup : Setup, setup.caseId a = setup.caseId b :=
  ⟨⟨.post, "p1|dm", 1, "feed", by decide⟩, ⟨.post, "p1", 2, "dm|feed", by decide⟩, by decide,
    fun setup => congrArg setup.uuidV5 (by decide)⟩

end CorePlatform.Moderation
