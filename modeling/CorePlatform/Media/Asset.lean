import CorePlatform.Auth.Values

/-! # Media assets

An asset is reserved, uploaded, processed and then ready; a takedown quarantines it and keeps the
state to go back to, and a deletion is final. Only a ready asset is delivered.

Each command checks the state of its copy, changes it and notes the events to publish. The stored
document has all but those events. Instants are nanoseconds. -/

namespace CorePlatform.Media

open Auth (Uuid)

abbrev AssetId := Uuid
abbrev OwnerId := Uuid
abbrev MimeType := String
abbrev ContentHash := String
abbrev Blurhash := String
abbrev StorageKey := String

inductive MediaError where
  | storage (reason : String)
  | cache (reason : String)
  | assetNotFound (id : String)
  | invalidStateTransition (source target : String)
  | transcodeFailed (reason : String)
  | processingFailed (reason : String)
  | objectStoreUnavailable
  | objectNotFound (key : String)
  | deliverySigningFailed (reason : String)
  | cdnInvalidationFailed (reason : String)
  | corruptMedia (reason : String)
  | dimensionLimitExceeded
  | screenUnavailable
  | legalHoldActive
  | domainViolation (field message : String)
  | invalidIdentifier (text : String)
  | eventPublishFailed (reason : String)
  deriving DecidableEq

structure Formats where
  parseUuid : String → Option Uuid
  hyphenated : Uuid → String

def Formats.assetId (formats : Formats) (text : String) : Except MediaError AssetId :=
  match formats.parseUuid text with
  | some id => .ok id
  | none => .error (.invalidIdentifier text)

/-- The object that the uploader wrote. -/
def Formats.staging (formats : Formats) (assetId : AssetId) : StorageKey := "uploads/" ++ formats.hyphenated assetId

inductive AssetState where
  | pending
  | uploaded
  | processing
  | ready
  | failed
  | quarantined
  | deleted
  deriving DecidableEq

namespace AssetState

def asStr : AssetState → String
  | pending => "pending"
  | uploaded => "uploaded"
  | processing => "processing"
  | ready => "ready"
  | failed => "failed"
  | quarantined => "quarantined"
  | deleted => "deleted"

def isDeliverable : AssetState → Bool
  | ready => true
  | pending | uploaded | processing | failed | quarantined | deleted => false

end AssetState

inductive MediaKind where
  | avatar
  | postImage
  | video
  deriving DecidableEq

inductive RenditionKind where
  | original
  | thumbnail
  | small
  | medium
  | large
  | manifest
  | poster
  deriving DecidableEq

def RenditionKind.asStr : RenditionKind → String
  | original => "original"
  | thumbnail => "thumbnail"
  | small => "small"
  | medium => "medium"
  | large => "large"
  | manifest => "manifest"
  | poster => "poster"

/-- Neither side is zero, and there are at most a hundred million pixels. -/
structure Dimensions where
  width : Nat
  height : Nat
  positive : 0 < width ∧ 0 < height
  bounded : width * height ≤ 100000000
  deriving DecidableEq

def Dimensions.new (width height : Nat) : Except MediaError Dimensions :=
  if positive : 0 < width ∧ 0 < height then
    if bounded : width * height ≤ 100000000 then .ok ⟨width, height, positive, bounded⟩
    else .error .dimensionLimitExceeded
  else .error (.corruptMedia "image has a zero dimension")

structure Rendition where
  kind : RenditionKind
  mimeType : MimeType
  storageKey : StorageKey
  dimensions : Dimensions
  byteSize : Nat
  deriving DecidableEq

inductive DomainEvent where
  | assetUploaded (assetId : AssetId) (ownerId : OwnerId) (kind : MediaKind) (contentHash : ContentHash)
      (byteSize : Nat) (occurredAt : Int)
  | assetVariantReady (assetId : AssetId) (ownerId : OwnerId) (rendition : RenditionKind) (occurredAt : Int)
  | assetReady (assetId : AssetId) (ownerId : OwnerId) (occurredAt : Int)
  | assetFailed (assetId : AssetId) (ownerId : OwnerId) (reason : String) (occurredAt : Int)
  | assetQuarantined (assetId : AssetId) (ownerId : OwnerId) (occurredAt : Int)
  | assetRestored (assetId : AssetId) (ownerId : OwnerId) (occurredAt : Int)
  | assetDeleted (assetId : AssetId) (ownerId : OwnerId) (occurredAt : Int)
  deriving DecidableEq

structure Asset where
  id : AssetId
  ownerId : OwnerId
  kind : MediaKind
  state : AssetState
  declaredMime : MimeType
  declaredSize : Nat
  mimeType : Option MimeType
  byteSize : Option Nat
  dimensions : Option Dimensions
  contentHash : Option ContentHash
  blurhash : Option Blurhash
  renditions : List Rendition
  legalHold : Bool
  priorState : Option AssetState
  createdAt : Int
  updatedAt : Int
  pendingEvents : List DomainEvent
  deriving DecidableEq

namespace Asset

variable (asset : Asset) (now : Int)

/-- What is kept of the asset when it is written out. -/
def document : Asset := { asset with pendingEvents := [] }

def isDeliverable : Bool := asset.state.isDeliverable

def rendition (kind : RenditionKind) : Option Rendition := asset.renditions.find? fun r => r.kind == kind

def ensureState (expected target : AssetState) : Except MediaError Unit :=
  if asset.state ≠ expected then .error (.invalidStateTransition asset.state.asStr target.asStr) else .ok ()

def transition (next : AssetState) : Asset := { asset with state := next, updatedAt := now }

def emit (event : DomainEvent) : Asset := { asset with pendingEvents := asset.pendingEvents ++ [event] }

def beginProcessing : Except MediaError Asset := do
  asset.ensureState .uploaded .processing
  return asset.transition now .processing

def setBlurhash (blurhash : Blurhash) : Except MediaError Asset :=
  if asset.state = .uploaded ∨ asset.state = .processing then
    .ok { asset with blurhash := some blurhash, updatedAt := now }
  else .error (.domainViolation "blurhash" ("cannot set a blurhash while '" ++ asset.state.asStr ++ "'"))

def attachRendition (rendition : Rendition) : Except MediaError Asset :=
  if asset.state ≠ .processing then
    .error (.invalidStateTransition asset.state.asStr "attach_rendition(processing)")
  else if (asset.rendition rendition.kind).isSome then
    .error (.domainViolation "rendition" ("a '" ++ rendition.kind.asStr ++ "' rendition already exists"))
  else
    .ok ({ asset with renditions := asset.renditions ++ [rendition], updatedAt := now }.emit
      (.assetVariantReady asset.id asset.ownerId rendition.kind now))

/-- The rendition that a ready asset has to have: the playlist of a video, the original of an image. -/
def master : RenditionKind :=
  match asset.kind with
  | .video => .manifest
  | .avatar | .postImage => .original

def markReady : Except MediaError Asset := do
  asset.ensureState .processing .ready
  if asset.contentHash.isNone then
    throw (.domainViolation "content_hash" "cannot mark ready without a finalized content hash")
  if (asset.rendition asset.master).isNone then
    throw (.domainViolation "renditions" ("cannot mark ready without the " ++ asset.master.asStr ++ " rendition"))
  return (asset.transition now .ready).emit (.assetReady asset.id asset.ownerId now)

def markFailed (reason : String) : Except MediaError Asset :=
  if asset.state = .uploaded ∨ asset.state = .processing then
    .ok ((asset.transition now .failed).emit (.assetFailed asset.id asset.ownerId reason now))
  else .error (.invalidStateTransition asset.state.asStr AssetState.failed.asStr)

def quarantine : Except MediaError Asset :=
  match asset.state with
  | .quarantined => .ok asset
  | .deleted => .error (.invalidStateTransition asset.state.asStr AssetState.quarantined.asStr)
  | .pending | .uploaded | .processing | .ready | .failed =>
    .ok (({ asset with priorState := some asset.state }.transition now .quarantined).emit
      (.assetQuarantined asset.id asset.ownerId now))

def restore : Except MediaError Asset :=
  if asset.state ≠ .quarantined then .error (.invalidStateTransition asset.state.asStr "restore")
  else
    .ok (({ asset with priorState := none }.transition now (asset.priorState.getD .ready)).emit
      (.assetRestored asset.id asset.ownerId now))

def placeLegalHold : Asset := { asset with legalHold := true, updatedAt := now }

def delete : Except MediaError Asset :=
  if asset.legalHold then .error .legalHoldActive
  else if asset.state = .deleted then .ok asset
  else .ok ((asset.transition now .deleted).emit (.assetDeleted asset.id asset.ownerId now))

end Asset

namespace Asset

variable {asset after : Asset}

@[simp] theorem document_id : asset.document.id = asset.id := rfl

@[simp] theorem document_state : asset.document.state = asset.state := rfl

/-- Nothing has changed of what the keys of an asset depend on. -/
structure Alike (asset after : Asset) : Prop where
  id : after.id = asset.id
  kind : after.kind = asset.kind
  contentHash : after.contentHash = asset.contentHash
  renditions : after.renditions = asset.renditions

theorem beginProcessing_alike (done : asset.beginProcessing now = .ok after) : asset.Alike after := by
  unfold beginProcessing at done
  cases passed : asset.ensureState .uploaded .processing with
  | error =>
    rw [passed] at done
    cases done
  | ok =>
    rw [passed] at done
    cases done
    exact ⟨rfl, rfl, rfl, rfl⟩

theorem setBlurhash_alike {blurhash : Blurhash} (done : asset.setBlurhash now blurhash = .ok after) :
    asset.Alike after := by
  unfold setBlurhash at done
  split at done
  · cases done
    exact ⟨rfl, rfl, rfl, rfl⟩
  · cases done

theorem markReady_alike (done : asset.markReady now = .ok after) : asset.Alike after := by
  unfold markReady at done
  cases passed : asset.ensureState .processing .ready with
  | error =>
    rw [passed] at done
    cases done
  | ok =>
    rw [passed] at done
    simp only [bind, Except.bind, pure, Except.pure, throw, throwThe, MonadExceptOf.throw] at done
    split at done
    · cases done
    · split at done
      · cases done
      · cases done
        exact ⟨rfl, rfl, rfl, rfl⟩

theorem markFailed_alike (done : asset.markFailed now reason = .ok after) : asset.Alike after := by
  unfold markFailed at done
  split at done
  · cases done
    exact ⟨rfl, rfl, rfl, rfl⟩
  · cases done

theorem quarantine_alike (done : asset.quarantine now = .ok after) : asset.Alike after := by
  unfold quarantine at done
  split at done
  all_goals
    cases done
    try exact ⟨rfl, rfl, rfl, rfl⟩

theorem restore_alike (done : asset.restore now = .ok after) : asset.Alike after := by
  unfold restore at done
  split at done
  · cases done
  · cases done
    exact ⟨rfl, rfl, rfl, rfl⟩

theorem delete_alike (done : asset.delete now = .ok after) : asset.Alike after := by
  unfold delete at done
  split at done
  · cases done
  · split at done
    all_goals
      cases done
      exact ⟨rfl, rfl, rfl, rfl⟩

theorem attachRendition_id {rendition : Rendition} (done : asset.attachRendition now rendition = .ok after) :
    after.id = asset.id := by
  unfold attachRendition at done
  split at done
  · cases done
  · split at done
    · cases done
    · cases done
      rfl

theorem quarantine_eq_ok (done : asset.quarantine now = .ok after) :
    after.id = asset.id ∧ after.state = .quarantined ∧ asset.state ≠ .deleted := by
  unfold quarantine at done
  split at done
  · rename_i already
    cases done
    exact ⟨rfl, already, by simp [already]⟩
  · cases done
  all_goals
    rename_i hb
    cases done
    exact ⟨rfl, rfl, by simp [hb]⟩

theorem quarantine_eq_error (hr : asset.quarantine now = .error e) : asset.isDeliverable = false := by
  unfold quarantine at hr
  split at hr
  · cases hr
  · rename_i deleted
    rw [isDeliverable, deleted]
    rfl
  all_goals cases hr

theorem restore_eq_error (hr : asset.restore now = .error e) : asset.state ≠ .quarantined := by
  unfold restore at hr
  split at hr
  · rename_i free
    exact free
  · cases hr

theorem restore_eq_ok (done : asset.restore now = .ok after) :
    after.id = asset.id ∧ asset.state = .quarantined ∧ after.state = asset.priorState.getD .ready := by
  unfold restore at done
  split at done
  · cases done
  · rename_i h
    cases done
    exact ⟨rfl, not_not.mp h, rfl⟩

theorem delete_eq_ok (done : asset.delete now = .ok after) : after.id = asset.id ∧ after.state = .deleted := by
  unfold delete at done
  split at done
  · cases done
  split at done
  · rename_i already
    cases done
    exact ⟨rfl, already⟩
  · cases done
    exact ⟨rfl, rfl⟩

end Asset
end CorePlatform.Media
