import CorePlatform.Theory.Json
import CorePlatform.Moderation.Values
import CorePlatform.Search.Decode
import CorePlatform.Media.Commands

/-! # Enforcements on the wire

Moderation publishes its events as JSON, with the names of entity types and actions in snake case.
Search and media read them into types of their own, and each has its table of the names it acts
upon. Search looks for the names of the variants, which are never written; to it every event is of
no concern. Media looks for the names that are written.

Media acts on each event by itself: a reversal restores the asset, whichever enforcement it
reverses. -/

namespace CorePlatform.Moderation

def ActionType.asStr : ActionType → String
  | noAction => "no_action"
  | warn => "warn"
  | visibilityLimit => "visibility_limit"
  | ageGate => "age_gate"
  | removeContent => "remove_content"
  | restrictActor => "restrict_actor"
  | suspend => "suspend"
  | ban => "ban"

def ActionType.isContent : ActionType → Bool
  | removeContent | visibilityLimit => true
  | noAction | warn | ageGate | restrictActor | suspend | ban => false

end CorePlatform.Moderation

namespace CorePlatform.Enforcement

open Theory Moderation

/-- How identifiers and instants are read and written. -/
structure Formats extends Media.Formats where
  writeInstant : Int → String
  readInstant : String → Option Int

section

variable (formats : Formats)

def subjectJson (subject : SubjectRef) : Json :=
  .object [
    ("entity_type", .text subject.entityType.asStr),
    ("entity_id", .text subject.entityId),
    ("actor_id", .text (formats.hyphenated subject.actorId)),
    ("surface", .text subject.surface)]

def instantJson (instant : Int) : Json := .text (formats.writeInstant instant)

/-- The consumers look at no more than the tag of the events that are not about an enforcement. -/
def eventJson : DomainEvent → Json
  | .enforcementApplied enforcementId subject actorId action version appliedAt expiresAt occurredAt correlationId =>
    .object [
      ("type", .text "enforcement_applied"),
      ("enforcement_id", .text (formats.hyphenated enforcementId)),
      ("subject", subjectJson formats subject),
      ("actor_id", .text (formats.hyphenated actorId)),
      ("action", .text action.asStr),
      ("version", .number version),
      ("applied_at", instantJson formats appliedAt),
      ("expires_at", (expiresAt.map (instantJson formats)).getD .null),
      ("occurred_at", instantJson formats occurredAt),
      ("correlation_id", .text (formats.hyphenated correlationId))]
  | .enforcementReversed enforcementId subject actorId version occurredAt correlationId =>
    .object [
      ("type", .text "enforcement_reversed"),
      ("enforcement_id", .text (formats.hyphenated enforcementId)),
      ("subject", subjectJson formats subject),
      ("actor_id", .text (formats.hyphenated actorId)),
      ("version", .number version),
      ("occurred_at", instantJson formats occurredAt),
      ("correlation_id", .text (formats.hyphenated correlationId))]
  | .caseOpened .. => .object [("type", .text "case_opened")]
  | .caseResolved .. => .object [("type", .text "case_resolved")]
  | .decisionRecorded .. => .object [("type", .text "decision_recorded")]
  | .appealResolved .. => .object [("type", .text "appeal_resolved")]

end

section

variable (formats : Formats)

def readSubject (json : Json) : Option Search.SubjectWire := do
  let entityType ← json.textField "entity_type"
  let entityId ← json.textField "entity_id"
  return ⟨entityType, entityId⟩

def readEnforcement (json : Json) : Option Search.EnforcementWire := do
  let subject ← (json.field "subject").bind readSubject
  let action ← json.optionalText "action"
  let occurredAt ← (json.textField "occurred_at").bind formats.readInstant
  return ⟨subject, action, occurredAt⟩

def readForSearch (json : Json) : Option Search.ModerationWireEvent :=
  match json.textField "type" with
  | none => none
  | some type =>
    if type = "enforcement_applied" then (readEnforcement formats json).map .enforcementApplied
    else if type = "enforcement_reversed" then (readEnforcement formats json).map .enforcementReversed
    else some .other

/-- The moderation consumer of the search service; what it cannot read leaves the index as it is. -/
def consumeForSearch (engine : Search.OpenSearch) (now : Int) (json : Json) : Search.OpenSearch :=
  match readForSearch formats json with
  | none => engine
  | some event =>
    match Search.mapModeration event with
    | .ready event => (engine.applyEvent event now).1
    | .needsContent _ | .ignore => engine

end

section

inductive MediaWireEvent where
  | enforcementApplied (subject : Search.SubjectWire) (action : String)
  | enforcementReversed (subject : Search.SubjectWire)
  | other

def readForMedia (json : Json) : Option MediaWireEvent :=
  match json.textField "type" with
  | none => none
  | some type =>
    if type = "enforcement_applied" then do
      let subject ← (json.field "subject").bind readSubject
      let action ← json.textField "action"
      return .enforcementApplied subject action
    else if type = "enforcement_reversed" then do
      let subject ← (json.field "subject").bind readSubject
      return .enforcementReversed subject
    else some .other

variable (formats : Formats)

def map : MediaWireEvent → Option (Media.AssetId × Media.ModerationAction)
  | .enforcementApplied subject action =>
    if subject.entityType = "media" ∧ (action = "remove_content" ∨ action = "visibility_limit") then
      (formats.assetId subject.entityId).toOption.map fun id => (id, .quarantine)
    else none
  | .enforcementReversed subject =>
    if subject.entityType = "media" then (formats.assetId subject.entityId).toOption.map fun id => (id, .restore)
    else none
  | .other => none

/-- The moderation consumer of the media service; a command that fails leaves the assets as they are. -/
def consumeForMedia (w : Media.World) (now : Int) (json : Json) : Media.World :=
  match readForMedia json with
  | none => w
  | some event =>
    match map formats event with
    | none => w
    | some (id, action) => (Media.server.execute (Media.applyModeration now id action) w Server.allServed).1

end

section

variable {formats : Formats}

theorem mapEntity_asStr (entityType : EntityType) : Search.mapEntity entityType.asStr = none := by
  cases entityType <;> decide

theorem isContentAction_asStr (action : ActionType) : Search.isContentAction (some action.asStr) = false := by
  cases action <;> decide

theorem consumeForSearch_ignored (text : String) (event : Int → Search.ModerationWireEvent)
    (read : readForSearch formats json = (formats.readInstant text).map event)
    (ignored : ∀ occurredAt, Search.mapModeration (event occurredAt) = .ignore) :
    consumeForSearch formats engine now json = engine := by
  unfold consumeForSearch
  rw [read]
  cases formats.readInstant text with
  | none => rfl
  | some occurredAt => simp only [Option.map_some, ignored]

theorem consumeForSearch_eventJson : consumeForSearch formats engine now (eventJson formats ev) = engine := by
  cases ev with
  | enforcementApplied _ subject _ action _ _ _ occurredAt =>
    refine consumeForSearch_ignored (formats.writeInstant occurredAt) (fun occurredAt =>
      .enforcementApplied ⟨⟨subject.entityType.asStr, subject.entityId⟩, some action.asStr, occurredAt⟩) ?_ ?_
    · show Option.map _ ((formats.readInstant (formats.writeInstant occurredAt)).bind fun _ => _) = _
      cases formats.readInstant (formats.writeInstant occurredAt) <;> rfl
    · simp [Search.mapModeration, isContentAction_asStr]
  | enforcementReversed _ subject _ _ occurredAt =>
    refine consumeForSearch_ignored (formats.writeInstant occurredAt) (fun occurredAt =>
      .enforcementReversed ⟨⟨subject.entityType.asStr, subject.entityId⟩, none, occurredAt⟩) ?_ ?_
    · show Option.map _ ((formats.readInstant (formats.writeInstant occurredAt)).bind fun _ => _) = _
      cases formats.readInstant (formats.writeInstant occurredAt) <;> rfl
    · simp [Search.mapModeration, mapEntity_asStr]
  | _ => rfl

/-- What media makes of an event: the asset it is about and what to do with it. -/
def mediaCommand (formats : Formats) : DomainEvent → Option (Media.AssetId × Media.ModerationAction)
  | .enforcementApplied _ subject _ action _ _ _ _ _ =>
    if subject.entityType = .media ∧ action.isContent = true then
      (formats.parseUuid subject.entityId).map fun id => (id, .quarantine)
    else none
  | .enforcementReversed _ subject _ _ _ _ =>
    if subject.entityType = .media then (formats.parseUuid subject.entityId).map fun id => (id, .restore) else none
  | .caseOpened .. | .caseResolved .. | .decisionRecorded .. | .appealResolved .. => none

theorem asStr_eq_media {entityType : EntityType} : entityType.asStr = "media" ↔ entityType = .media := by
  cases entityType <;> decide

theorem asStr_isContent {action : ActionType} :
    (action.asStr = "remove_content" ∨ action.asStr = "visibility_limit") ↔ action.isContent = true := by
  cases action <;> decide

theorem assetId_toOption : (formats.assetId text).toOption = formats.parseUuid text := by
  unfold Media.Formats.assetId
  cases formats.parseUuid text <;> rfl

theorem map_readForMedia :
    (readForMedia (eventJson formats event)).bind (map formats) = mediaCommand formats event := by
  cases event with
  | enforcementApplied _ subject _ action =>
    show map formats (.enforcementApplied ⟨subject.entityType.asStr, subject.entityId⟩ action.asStr) = _
    simp only [map, mediaCommand, asStr_eq_media, asStr_isContent, assetId_toOption]
  | enforcementReversed _ subject =>
    show map formats (.enforcementReversed ⟨subject.entityType.asStr, subject.entityId⟩) = _
    simp only [map, mediaCommand, asStr_eq_media, assetId_toOption]
  | _ => rfl

theorem consumeForMedia_eventJson :
    consumeForMedia formats w now (eventJson formats ev) =
      match mediaCommand formats ev with
      | none => w
      | some (id, action) =>
        (Media.server.execute (Media.applyModeration now id action) w Server.allServed).1 := by
  rw [← map_readForMedia]
  unfold consumeForMedia
  cases readForMedia (eventJson formats ev) <;> rfl

def commanded (formats : Formats) (now : Int) (event : DomainEvent)
    (assets : Media.AssetId → Option Media.Asset) : Media.AssetId → Option Media.Asset :=
  match mediaCommand formats event with
  | none => assets
  | some (id, action) => Media.moderated now action assets id

theorem consumeForMedia_assets :
    (consumeForMedia formats w now (eventJson formats ev)).assets = commanded formats now ev w.assets := by
  rw [consumeForMedia_eventJson]
  unfold commanded
  cases mediaCommand formats ev with
  | none => rfl
  | some command => exact Media.execute_applyModeration command.1

theorem filed_consumeForMedia (hf : w.Filed) : (consumeForMedia formats w now json).Filed := by
  unfold consumeForMedia
  split
  · exact hf
  · split
    · exact hf
    · exact Server.execute_keeps Media.World.Filed (fun _ op hf => hf.serve op) hf

end
end CorePlatform.Enforcement
