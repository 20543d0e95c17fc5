import CorePlatform.Theory.Interleaving
import CorePlatform.Media.Asset

/-! # The handlers of the media service

The repository keeps one document per asset and the cache another copy; a save and a put replace the
whole document, whatever is stored by then. Beside the two stand the engines that scan, screen,
derive and sign, whose answers may change at any time.

Every command reads its asset once, decides and works on that copy, and writes it back in the end. A
takedown drops the cached copy before it saves. A reader takes the cached copy, or else the stored
one, which it then puts into the cache. -/

namespace CorePlatform.Media

open Theory

inductive ScanVerdict where
  | clean
  | infected

structure ScreenDecision where
  blocked : Bool
  csam : Bool
  reference : Option String

/-- What the image processor and the transcoder hand back. -/
structure DerivedRenditions where
  renditions : List Rendition
  blurhash : Blurhash

inductive DeliveryVisibility where
  | public_
  | signed
  deriving DecidableEq

structure ResolvedUrl where
  url : String
  expiresAt : Option Int

structure Engines where
  scan : StorageKey → Except MediaError ScanVerdict
  /-- `none` when the screen has not answered in time. -/
  screen : AssetId → OwnerId → ContentHash → MediaKind → Except MediaError (Option ScreenDecision)
  derive : StorageKey → MediaKind → ContentHash → Except MediaError DerivedRenditions
  transcode : StorageKey → ContentHash → Except MediaError DerivedRenditions
  resolve : StorageKey → DeliveryVisibility → Int → Except MediaError ResolvedUrl

structure World where
  assets : AssetId → Option Asset
  cached : AssetId → Option Asset
  published : List DomainEvent
  engines : Engines

inductive Op where
  | findById (id : AssetId)
  | save (asset : Asset)
  | getCached (id : AssetId)
  | putCached (asset : Asset)
  | dropCached (id : AssetId)
  | deleteObject (key : StorageKey)
  | invalidate (keys : List StorageKey)
  | resolve (key : StorageKey) (visibility : DeliveryVisibility) (now : Int)
  | scan (key : StorageKey)
  | screen (assetId : AssetId) (ownerId : OwnerId) (contentHash : ContentHash) (kind : MediaKind)
  | derive (source : StorageKey) (kind : MediaKind) (hash : ContentHash)
  | transcode (source : StorageKey) (hash : ContentHash)
  | publish (event : DomainEvent)

abbrev Op.Reply : Op → Type
  | .findById _ | .getCached _ => Option Asset
  | .resolve _ _ _ => ResolvedUrl
  | .scan _ => ScanVerdict
  | .screen _ _ _ _ => Option ScreenDecision
  | .derive _ _ _ | .transcode _ _ => DerivedRenditions
  | _ => Unit

namespace World

def save (w : World) (asset : Asset) : World :=
  { w with assets := Function.update w.assets asset.id (some asset.document) }

def putCached (w : World) (asset : Asset) : World :=
  { w with cached := Function.update w.cached asset.id (some asset.document) }

def dropCached (w : World) (id : AssetId) : World := { w with cached := Function.update w.cached id none }

/-- The handlers read nothing back from the object store and from the edge. -/
def serve (w : World) : (op : Op) → World × Except MediaError op.Reply
  | .findById id => (w, .ok (w.assets id))
  | .save asset => (w.save asset, .ok ())
  | .getCached id => (w, .ok (w.cached id))
  | .putCached asset => (w.putCached asset, .ok ())
  | .dropCached id => (w.dropCached id, .ok ())
  | .deleteObject _ | .invalidate _ => (w, .ok ())
  | .resolve key visibility now => (w, w.engines.resolve key visibility now)
  | .scan key => (w, w.engines.scan key)
  | .screen assetId ownerId contentHash kind => (w, w.engines.screen assetId ownerId contentHash kind)
  | .derive source kind hash => (w, w.engines.derive source kind hash)
  | .transcode source hash => (w, w.engines.transcode source hash)
  | .publish event => ({ w with published := w.published ++ [event] }, .ok ())

end World

def Op.failure (reason : String) : Op → MediaError
  | .findById _ | .save _ => .storage reason
  | .getCached _ | .putCached _ | .dropCached _ => .cache reason
  | .deleteObject _ => .objectStoreUnavailable
  | .invalidate _ => .cdnInvalidationFailed reason
  | .resolve _ _ _ => .deliverySigningFailed reason
  | .scan _ | .derive _ _ _ => .processingFailed reason
  | .transcode _ _ => .transcodeFailed reason
  | .screen _ _ _ _ => .screenUnavailable
  | .publish _ => .eventPublishFailed reason

def server : Server World Op Op.Reply MediaError where
  serve := World.serve
  failure op reason := op.failure reason

abbrev Calling (α : Type) := Program Op Op.Reply MediaError α

abbrev ask (op : Op) : Calling op.Reply := Program.perform op

/-- A call whose answer is not looked at. -/
def quietly (op : Op) : Calling Unit := .call op fun _ => .ok ()

def publishAll : List DomainEvent → Calling Unit
  | [] => .ok ()
  | event :: rest => do
      ask (.publish event)
      publishAll rest

def persistAndPublish (asset : Asset) : Calling Unit := do
  ask (.save asset)
  publishAll asset.pendingEvents

def deleteObjects : List StorageKey → Calling Unit
  | [] => .ok ()
  | key :: rest => do
      ask (.deleteObject key)
      deleteObjects rest

def attachRenditions (now : Int) : Asset → List Rendition → Except MediaError Asset
  | asset, [] => .ok asset
  | asset, rendition :: rest => do
      let asset ← asset.attachRendition now rendition
      attachRenditions now asset rest

inductive ProcessOutcome where
  | ready
  | quarantined
  | failed (reason : String)
  | skipped
  deriving DecidableEq

inductive ModerationAction where
  | quarantine
  | restore
  deriving DecidableEq

structure ApplyModerationOutcome where
  applied : Bool
  state : Option AssetState
  deriving DecidableEq

structure DeleteOutcome where
  deleted : Bool
  deriving DecidableEq

section

variable (now : Int)

def failInfected (asset : Asset) : Calling ProcessOutcome := do
  let asset ← asset.markFailed now "malware detected"
  persistAndPublish asset
  return .failed "malware detected"

/-- The screen holds the asset back; what it holds for evidence cannot be deleted any more. -/
def holdBack (asset : Asset) (csam : Bool) : Calling ProcessOutcome := do
  let asset ← asset.quarantine now
  let asset := if csam then asset.placeLegalHold now else asset
  ask (.dropCached asset.id)
  persistAndPublish asset
  return .quarantined

def makeReady (asset : Asset) (render : Calling DerivedRenditions) : Calling ProcessOutcome := do
  let asset ← asset.beginProcessing now
  let derived ← render
  let asset ← asset.setBlurhash now derived.blurhash
  let asset ← attachRenditions now asset derived.renditions
  let asset ← asset.markReady now
  persistAndPublish asset
  quietly (.putCached asset)
  return .ready

variable (formats : Formats)

/-- What the two pipelines have in common: which assets they take up, and who renders them. -/
def runPipeline (takesUp : Asset → Bool) (render : Asset → ContentHash → Calling DerivedRenditions)
    (assetId : AssetId) : Calling ProcessOutcome := do
  match ← ask (.findById assetId) with
  | none => .error (.assetNotFound (formats.hyphenated assetId))
  | some asset =>
    if takesUp asset then
      match asset.contentHash with
      | none => .error (.domainViolation "content_hash" "a finalized asset must carry a content hash")
      | some hash => do
          match ← ask (.scan (formats.staging asset.id)) with
          | .infected => failInfected now asset
          | .clean => do
              match ← ask (.screen asset.id asset.ownerId hash asset.kind) with
              | none => .error .screenUnavailable
              | some decision =>
                if decision.blocked then holdBack now asset decision.csam
                else makeReady now asset (render asset hash)
    else return .skipped

def processAsset (assetId : AssetId) : Calling ProcessOutcome :=
  runPipeline now formats (fun asset => asset.state == .uploaded)
    (fun asset hash => ask (.derive (formats.staging asset.id) asset.kind hash)) assetId

def transcodeAsset (assetId : AssetId) : Calling ProcessOutcome :=
  runPipeline now formats (fun asset => asset.kind == .video && asset.state == .uploaded)
    (fun asset hash => ask (.transcode (formats.staging asset.id) hash)) assetId

/-- The end of a moderation command: the asset is saved, then its events are published. -/
def concludeModeration (asset : Asset) : Calling ApplyModerationOutcome := do
  persistAndPublish asset
  return ⟨true, some asset.state⟩

def storageKeys (asset : Asset) : List StorageKey := asset.renditions.map Rendition.storageKey

/-- The edge is asked to forget the objects, if there are any. -/
def revokeDelivery (keys : List StorageKey) : Calling Unit :=
  if keys.isEmpty then .ok () else ask (.invalidate keys)

def quarantineAsset (asset : Asset) : Calling ApplyModerationOutcome := do
  let asset ← asset.quarantine now
  revokeDelivery (storageKeys asset)
  ask (.dropCached asset.id)
  concludeModeration asset

def restoreAsset (asset : Asset) : Calling ApplyModerationOutcome := do
  let asset ← asset.restore now
  ask (.dropCached asset.id)
  concludeModeration asset

def applyModeration (assetId : AssetId) (action : ModerationAction) : Calling ApplyModerationOutcome := do
  match ← ask (.findById assetId) with
  | none => return ⟨false, none⟩
  | some asset =>
    match action with
    | .quarantine => quarantineAsset now asset
    | .restore => restoreAsset now asset

def deleteAsset (assetId : AssetId) (ownerId : OwnerId) : Calling DeleteOutcome := do
  match ← ask (.findById assetId) with
  | none => .error (.assetNotFound (formats.hyphenated assetId))
  | some asset =>
    if asset.ownerId ≠ ownerId then .error (.assetNotFound (formats.hyphenated assetId))
    else do
      let asset ← asset.delete now
      let keys := storageKeys asset ++ [formats.staging asset.id]
      deleteObjects keys
      ask (.invalidate keys)
      ask (.dropCached asset.id)
      persistAndPublish asset
      return ⟨true⟩

end

structure DeliveredRenditionView where
  kind : RenditionKind
  url : String
  visibility : DeliveryVisibility
  expiresAt : Option Int
  width : Nat
  height : Nat
  deriving DecidableEq

structure DeliveredMediaView where
  assetId : AssetId
  state : AssetState
  blurhash : Option String
  renditions : List DeliveredRenditionView
  degraded : Bool
  deriving DecidableEq

/-- A cache that fails is taken for one that has no copy. -/
def load (id : AssetId) : Calling (Option Asset) :=
  .call (.getCached id) fun
    | .ok (some hit) => .ok (some hit)
    | .ok none | .error _ => do
        match ← ask (.findById id) with
        | some asset => do
            quietly (.putCached asset)
            return some asset
        | none => return none

section

variable (preferred : Option RenditionKind) (visibility : Option DeliveryVisibility) (now : Int)

/-- The loop over the renditions; one that cannot be signed is left out. -/
def resolveRenditions (visibility : DeliveryVisibility) :
    List Rendition → List DeliveredRenditionView → Bool → Calling (List DeliveredRenditionView × Bool)
  | [], views, degraded => .ok (views, degraded)
  | rendition :: rest, views, degraded =>
    if preferred.any (· != rendition.kind) then resolveRenditions visibility rest views degraded
    else
      .call (.resolve rendition.storageKey visibility now) fun
        | .ok resolved =>
          resolveRenditions visibility rest (views ++ [{
            kind := rendition.kind, url := resolved.url, visibility, expiresAt := resolved.expiresAt
            width := rendition.dimensions.width, height := rendition.dimensions.height }]) degraded
        | .error _ => resolveRenditions visibility rest views true

def resolveAsset (asset : Asset) : Calling DeliveredMediaView :=
  if asset.isDeliverable then do
    let (views, degraded) ← resolveRenditions preferred now (visibility.getD .public_) asset.renditions [] false
    return ⟨asset.id, asset.state, asset.blurhash, views, degraded || (preferred.isSome && views.isEmpty)⟩
  else return ⟨asset.id, asset.state, asset.blurhash, [], true⟩

def resolveDelivery (formats : Formats) (assetId : AssetId) : Calling DeliveredMediaView := do
  match ← load assetId with
  | none => .error (.assetNotFound (formats.hyphenated assetId))
  | some asset => resolveAsset preferred visibility now asset

/-- Assets that are not there are left out. -/
def resolveBatch : List AssetId → List DeliveredMediaView → Calling (List DeliveredMediaView)
  | [], out => .ok out
  | id :: rest, out => do
      match ← load id with
      | none => resolveBatch rest out
      | some asset => do
          let view ← resolveAsset preferred visibility now asset
          resolveBatch rest (out ++ [view])

end

inductive Request where
  | process (assetId : AssetId) (now : Int)
  | transcode (assetId : AssetId) (now : Int)
  | moderate (assetId : AssetId) (action : ModerationAction) (now : Int)
  | delete (assetId : AssetId) (ownerId : OwnerId) (now : Int)
  | resolve (assetId : AssetId) (preferred : Option RenditionKind) (visibility : Option DeliveryVisibility) (now : Int)
  | resolveBatch (ids : List AssetId) (preferred : Option RenditionKind) (visibility : Option DeliveryVisibility)
      (now : Int)
  deriving DecidableEq

inductive Outcome where
  | processed (outcome : ProcessOutcome)
  | moderated (outcome : ApplyModerationOutcome)
  | deleted (outcome : DeleteOutcome)
  | resolved (views : List DeliveredMediaView)
  deriving DecidableEq

def Request.program (formats : Formats) : Request → Calling Outcome
  | .process assetId now => do return .processed (← processAsset now formats assetId)
  | .transcode assetId now => do return .processed (← transcodeAsset now formats assetId)
  | .moderate assetId action now => do return .moderated (← applyModeration now assetId action)
  | .delete assetId ownerId now => do return .deleted (← deleteAsset now formats assetId ownerId)
  | .resolve assetId preferred visibility now => do
      return .resolved [← resolveDelivery preferred visibility now formats assetId]
  | .resolveBatch ids preferred visibility now => do
      return .resolved (← Media.resolveBatch preferred visibility now ids [])

/-- What happens beside the requests: the engines change their answers, a cached copy expires. -/
inductive Event where
  | engines (engines : Engines)
  | expire (id : AssetId)

/-- Every document stands under its own identifier. -/
structure World.Filed (w : World) : Prop where
  assets : ∀ id asset, w.assets id = some asset → asset.id = id
  cached : ∀ id asset, w.cached id = some asset → asset.id = id

def host (formats : Formats) : Host World Request Event Op Op.Reply MediaError Outcome where
  init := World.Filed
  server := server
  accept w request := some (w, request.program formats)
  elapse w event :=
    match event with
    | .engines engines => some { w with engines }
    | .expire id => some (w.dropCached id)

abbrev Traffic := Pool World Request Op Op.Reply MediaError Outcome

namespace World

variable {w : World}

theorem Filed.save (hf : w.Filed) (asset : Asset) : (w.save asset).Filed := by
  constructor
  · exact forall_update hf.assets rfl
  · exact hf.cached

theorem Filed.putCached (hf : w.Filed) (asset : Asset) : (w.putCached asset).Filed := by
  constructor
  · exact hf.assets
  · exact forall_update hf.cached rfl

theorem Filed.dropCached (hfi : w.Filed) (id : AssetId) : (w.dropCached id).Filed := by
  constructor
  · exact hfi.assets
  · intro other hf h
    exact hfi.cached other hf (of_update_none h)

theorem Filed.serve (hf : w.Filed) (op : Op) : (w.serve op).1.Filed := by
  cases op with
  | save asset => exact hf.save asset
  | putCached asset => exact hf.putCached asset
  | dropCached id => exact hf.dropCached id
  | publish => exact ⟨hf.assets, hf.cached⟩
  | _ => exact hf

theorem Filed.perform (hf : w.Filed) (op : Op) (svc : Service) : (server.perform w op svc).1.Filed := by
  cases svc with
  | served | replyLost => exact hf.serve op
  | refused => exact hf

end World

theorem filed_step (hf : pool.world.Filed) (hs : (host formats).Steps pool move next) : next.world.Filed := by
  cases hs with
  | begun _ ha =>
    cases ha
    exact hf
  | @advanced _ _ op _ _ service _ => exact hf.perform op service
  | crashed => exact hf
  | @elapsed ev _ hc =>
    cases ev with
    | engines =>
      cases hc
      exact ⟨hf.assets, hf.cached⟩
    | expire id =>
      cases hc
      exact hf.dropCached id

end CorePlatform.Media
