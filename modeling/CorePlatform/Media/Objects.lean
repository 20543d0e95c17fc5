import CorePlatform.Media.Commands

/-! # The objects of the media service

Beside the rows stand the objects they refer to. The image processor and the transcoder read the
upload and write one object per rendition, under a key made of the kind of the media, the digest of
the upload and the kind of the rendition. A deletion removes the objects of all renditions of the
asset, and the upload.

Only the answers to the operations on objects are worked out here. A processor runs in one piece,
and what it wrote before it failed stays written. -/

namespace CorePlatform.Media

open Theory Function

abbrev Bytes := List UInt8

abbrev Bucket := StorageKey → Option Bytes

def MediaKind.pathSegment : MediaKind → String
  | avatar => "avatars"
  | postImage => "post-images"
  | video => "post-videos"

def RenditionKind.slug (kind : RenditionKind) : String := kind.asStr

def renditionKey (kind : MediaKind) (hash : ContentHash) (rendition : RenditionKind) (extension : String) :
    StorageKey :=
  kind.pathSegment ++ "/" ++ hash ++ "/" ++ rendition.slug ++ "." ++ extension

def trimStartSlashes (text : String) : String := String.ofList (text.toList.dropWhile (· == '/'))

def videoObject (kind : MediaKind) (hash : ContentHash) (relative : String) : StorageKey :=
  kind.pathSegment ++ "/" ++ hash ++ "/" ++ trimStartSlashes relative

def isHexDigit (c : Char) : Bool := ('0' ≤ c && c ≤ '9') || ('a' ≤ c && c ≤ 'f')

/-- What the constructor of a digest lets pass. -/
def ContentHash.wellFormed (hash : ContentHash) : Bool := hash.length == 64 && hash.toList.all isHexDigit

structure TranscodeArtifacts where
  poster : Bytes
  posterDimensions : Dimensions
  /-- The playlists and segments of the rungs, by their path below the prefix. -/
  rungs : List (String × Bytes)
  master : Bytes
  topDimensions : Dimensions
  blurhash : Blurhash

def TranscodeArtifacts.files (artifacts : TranscodeArtifacts) : List (String × Bytes) :=
  ("poster.jpg", artifacts.poster) :: artifacts.rungs ++ [("master.m3u8", artifacts.master)]

structure Imaging where
  Image : Type
  decode : Bytes → Except String Image
  width : Image → Nat
  height : Image → Nat
  resize : Image → Nat → Image
  encodeJpeg : Image → Except String Bytes
  blurhash : Image → Except MediaError Blurhash
  transcode : Bytes → ContentHash → Except MediaError TranscodeArtifacts

namespace Imaging

variable (imaging : Imaging)

def ladder : List (RenditionKind × Nat) := [(.thumbnail, 320), (.small, 640), (.medium, 1280), (.large, 1920)]

/-- The master at its full size, the thumbnail, and the steps that are smaller than the source. -/
def plan (image : imaging.Image) : List (RenditionKind × imaging.Image) :=
  (.original, image) :: ladder.filterMap fun (kind, target) =>
    if kind = .thumbnail ∨ target < max (imaging.width image) (imaging.height image) then
      some (kind, imaging.resize image target)
    else none

def encodePut (kind : MediaKind) (hash : ContentHash) (bucket : Bucket) (rendition : RenditionKind)
    (image : imaging.Image) : Bucket × Except MediaError Rendition :=
  match imaging.encodeJpeg image with
  | .error reason => (bucket, .error (.processingFailed ("jpeg encode failed: " ++ reason)))
  | .ok bytes =>
    let key := renditionKey kind hash rendition "jpg"
    (update bucket key (some bytes),
      (Dimensions.new (imaging.width image) (imaging.height image)).map fun dimensions =>
        ⟨rendition, "image/jpeg", key, dimensions, bytes.length⟩)

def encodeAll (kind : MediaKind) (hash : ContentHash) :
    Bucket → List (RenditionKind × imaging.Image) → List Rendition → Bucket × Except MediaError (List Rendition)
  | bucket, [], done => (bucket, .ok done)
  | bucket, (rendition, image) :: rest, done =>
    match imaging.encodePut kind hash bucket rendition image with
    | (bucket, .error e) => (bucket, .error e)
    | (bucket, .ok made) => encodeAll kind hash bucket rest (done ++ [made])

def derive (bucket : Bucket) (source : StorageKey) (kind : MediaKind) (hash : ContentHash) :
    Bucket × Except MediaError DerivedRenditions :=
  match bucket source with
  | none => (bucket, .error (.objectNotFound source))
  | some bytes =>
    match imaging.decode bytes with
    | .error reason => (bucket, .error (.corruptMedia ("decode failed: " ++ reason)))
    | .ok image =>
      let (bucket, encoded) := imaging.encodeAll kind hash bucket (imaging.plan image) []
      (bucket, do
        let renditions ← encoded
        let blurhash ← imaging.blurhash image
        return ⟨renditions, blurhash⟩)

def putAll (hash : ContentHash) (bucket : Bucket) (files : List (String × Bytes)) : Bucket :=
  files.foldl (fun bucket file => update bucket (videoObject .video hash file.1) (some file.2)) bucket

def transcodeVideo (bucket : Bucket) (source : StorageKey) (hash : ContentHash) :
    Bucket × Except MediaError DerivedRenditions :=
  match bucket source with
  | none => (bucket, .error (.objectNotFound source))
  | some bytes =>
    match imaging.transcode bytes hash with
    | .error e => (bucket, .error e)
    | .ok artifacts =>
      (putAll hash bucket artifacts.files, .ok {
        renditions := [
          ⟨.manifest, "application/vnd.apple.mpegurl", videoObject .video hash "master.m3u8",
            artifacts.topDimensions, artifacts.master.length⟩,
          ⟨.poster, "image/jpeg", videoObject .video hash "poster.jpg", artifacts.posterDimensions,
            artifacts.poster.length⟩]
        blurhash := artifacts.blurhash })

end Imaging

structure Depot where
  world : World
  objects : Bucket

namespace Depot

variable (imaging : Imaging)

def serve (d : Depot) : (op : Op) → Depot × Except MediaError op.Reply
  | .deleteObject key => ({ d with objects := update d.objects key none }, .ok ())
  | .derive source kind hash =>
    let (objects, answer) := imaging.derive d.objects source kind hash
    ({ d with objects }, answer)
  | .transcode source hash =>
    let (objects, answer) := imaging.transcodeVideo d.objects source hash
    ({ d with objects }, answer)
  | op => ({ d with world := (d.world.serve op).1 }, (d.world.serve op).2)

end Depot

def depotServer (imaging : Imaging) : Server Depot Op Op.Reply MediaError where
  serve := Depot.serve imaging
  failure op reason := op.failure reason

def keyFor (kind : MediaKind) (hash : ContentHash) : RenditionKind → StorageKey
  | .manifest => kind.pathSegment ++ "/" ++ hash ++ "/" ++ "master.m3u8"
  | rendition => renditionKey kind hash rendition "jpg"

/-- The renditions stand where the processors put them. -/
structure Asset.Keyed (asset : Asset) : Prop where
  hash : ∀ hash, asset.contentHash = some hash → hash.wellFormed = true
  keys : ∀ rendition ∈ asset.renditions, ∃ hash, asset.contentHash = some hash ∧
    rendition.storageKey = keyFor asset.kind hash rendition.kind

/-- Every row stands under its own identifier, and its renditions where the processors put them. -/
structure Depot.Sound (d : Depot) : Prop where
  filed : ∀ id asset, d.world.assets id = some asset → asset.id = id
  keyed : ∀ id asset, d.world.assets id = some asset → asset.Keyed

/-- What happens beside the requests: the engines change their answers, a cached copy expires, an
upload lands, and a probed upload is entered. -/
inductive DepotEvent where
  | engines (engines : Engines)
  | expire (id : AssetId)
  | land (id : AssetId) (bytes : Bytes)
  | enter (asset : Asset)

/-- A row as the ingest leaves it. -/
def Asset.fresh (asset : Asset) : Bool :=
  asset.state == .uploaded && asset.renditions.isEmpty && asset.contentHash.all ContentHash.wellFormed

def depotHost (imaging : Imaging) (formats : Formats) :
    Host Depot Request DepotEvent Op Op.Reply MediaError Outcome where
  init := Depot.Sound
  server := depotServer imaging
  accept d request := some (d, request.program formats)
  elapse d event :=
    match event with
    | .engines engines => some { d with world := { d.world with engines } }
    | .expire id => some { d with world := d.world.dropCached id }
    | .land id bytes => some { d with objects := update d.objects (formats.staging id) (some bytes) }
    | .enter asset =>
      if asset.fresh && (d.world.assets asset.id).isNone then some { d with world := d.world.save asset } else none

theorem keyFor_of_ne {hash : ContentHash} (other : rendition ≠ .manifest) :
    keyFor kind hash rendition = renditionKey kind hash rendition "jpg" := by
  cases rendition with
  | manifest => exact absurd rfl other
  | _ => rfl

def RenditionKind.fileName : RenditionKind → String
  | manifest => "master.m3u8"
  | rendition => rendition.slug ++ ".jpg"

theorem RenditionKind.fileName_inj {rendition' : RenditionKind} (eq : rendition.fileName = rendition'.fileName) :
    rendition = rendition' := by
  cases rendition <;> cases rendition' <;> first | rfl | exact absurd eq (by decide)

theorem keyFor_toList (hash : ContentHash) :
    (keyFor kind hash rendition).toList =
      kind.pathSegment.toList ++ '/' :: (hash ++ "/" ++ rendition.fileName).toList := by
  cases rendition <;> simp [keyFor, renditionKey, RenditionKind.fileName]

theorem slash_notMem_pathSegment (kind : MediaKind) : '/' ∉ kind.pathSegment.toList := by
  cases kind <;> decide

theorem ContentHash.slash_notMem {hash : ContentHash} (hf : hash.wellFormed = true) : '/' ∉ hash.toList := by
  intro mem
  have digits := (Bool.and_eq_true_iff.mp hf).2
  exact absurd (List.all_eq_true.mp digits '/' mem) (by decide)

theorem MediaKind.pathSegment_inj {kind' : MediaKind} (eq : kind.pathSegment = kind'.pathSegment) : kind = kind' := by
  cases kind <;> cases kind' <;> first | rfl | exact absurd eq (by decide)

theorem keyFor_inj {hash : ContentHash} (hf : hash.wellFormed = true) (formed' : hash'.wellFormed = true)
    (eq : keyFor kind hash rendition = keyFor kind' hash' rendition') :
    kind = kind' ∧ hash = hash' ∧ rendition = rendition' := by
  have hw := congrArg String.toList eq
  rw [keyFor_toList, keyFor_toList] at hw
  obtain ⟨segment, below⟩ :=
    separated_inj (slash_notMem_pathSegment kind) (slash_notMem_pathSegment kind') hw
  have below : hash.toList ++ '/' :: rendition.fileName.toList = hash'.toList ++ '/' :: rendition'.fileName.toList := by
    simpa using congrArg String.toList below
  obtain ⟨digest, file⟩ := separated_inj (ContentHash.slash_notMem hf) (ContentHash.slash_notMem formed') below
  exact ⟨MediaKind.pathSegment_inj segment, digest, RenditionKind.fileName_inj file⟩

theorem keyFor_ne_staging (fmt : Formats) (id : AssetId) (kind : MediaKind) (hash : ContentHash)
    (rendition : RenditionKind) : keyFor kind hash rendition ≠ fmt.staging id := by
  intro eq
  have hw := congrArg String.toList eq
  have upload : (fmt.staging id).toList = "uploads".toList ++ '/' :: (fmt.hyphenated id).toList := by
    simp [Formats.staging]
  rw [keyFor_toList, upload] at hw
  obtain ⟨segment, -⟩ := separated_inj (slash_notMem_pathSegment kind) (by decide) hw
  cases kind <;> exact absurd segment (by decide)

namespace Imaging

variable {imaging : Imaging} {hash : ContentHash}

theorem encodePut_ok (he : (imaging.encodePut kind hash bucket rendition image).2 = .ok made) :
    made.kind = rendition ∧ made.storageKey = renditionKey kind hash rendition "jpg" := by
  unfold encodePut at he
  split at he
  · cases he
  cases sized : Dimensions.new (imaging.width image) (imaging.height image) with
  | error =>
    rw [sized] at he
    cases he
  | ok =>
    rw [sized] at he
    cases he
    exact ⟨rfl, rfl⟩

theorem encodeAll_ok (hi : ∀ entry ∈ images, entry.1 ≠ .manifest) : ∀ {bucket : Bucket} {done : List Rendition},
    (∀ made ∈ done, made.storageKey = keyFor kind hash made.kind) →
    (imaging.encodeAll kind hash bucket images done).2 = .ok all →
    ∀ made ∈ all, made.storageKey = keyFor kind hash made.kind := by
  induction images with
  | nil =>
    intro bucket done placed encoded
    cases encoded
    exact placed
  | cons entry _ ih =>
    intro bucket done placed encoded
    obtain ⟨rendition, image⟩ := entry
    rw [encodeAll] at encoded
    generalize put : imaging.encodePut kind hash bucket rendition image = res at encoded
    obtain ⟨_, ans⟩ := res
    cases ans with
    | error => cases encoded
    | ok =>
      refine ih (fun entry mem => hi entry (.tail _ mem)) ?_ encoded
      intro other mem
      cases List.mem_append.mp mem with
      | inl old => exact placed other old
      | inr new =>
        cases List.mem_singleton.mp new
        obtain ⟨eq, at_⟩ := encodePut_ok (congrArg Prod.snd put)
        rw [at_, eq, keyFor_of_ne (hi (rendition, image) (.head _))]

theorem plan_ne_manifest : ∀ entry ∈ imaging.plan image, entry.1 ≠ .manifest := by
  intro entry mem
  cases List.mem_cons.mp mem with
  | inl master =>
    subst master
    intro eq
    cases eq
  | inr step =>
    obtain ⟨⟨_, _⟩, hl, ht⟩ := List.mem_filterMap.mp step
    have steps : ∀ step ∈ ladder, step.1 ≠ .manifest := by decide
    simp only at ht
    split at ht
    · cases ht
      exact steps _ hl
    · cases ht

theorem derive_ok (done : (imaging.derive bucket source kind hash).2 = .ok derived) :
    ∀ made ∈ derived.renditions, made.storageKey = keyFor kind hash made.kind := by
  unfold derive at done
  split at done
  · cases done
  split at done
  · cases done
  rename_i image _
  generalize all : imaging.encodeAll kind hash bucket (imaging.plan image) [] = res at done
  obtain ⟨_, encoded⟩ := res
  cases encoded with
  | error => cases done
  | ok =>
    have empty : ∀ made ∈ ([] : List Rendition), made.storageKey = keyFor kind hash made.kind := by simp
    have placed := encodeAll_ok plan_ne_manifest empty (congrArg Prod.snd all)
    cases blurred : imaging.blurhash image with
    | error =>
      simp only [blurred] at done
      cases done
    | ok =>
      simp only [blurred] at done
      cases done
      exact placed

theorem transcodeVideo_ok (done : (imaging.transcodeVideo bucket source hash).2 = .ok derived) :
    ∀ made ∈ derived.renditions, made.storageKey = keyFor .video hash made.kind := by
  have manifest : videoObject .video hash "master.m3u8" = keyFor .video hash .manifest := by
    unfold videoObject keyFor
    exact congrArg _ (by decide +kernel)
  have poster : videoObject .video hash "poster.jpg" = keyFor .video hash .poster := by
    apply String.toList_inj.mp
    have trimmed : trimStartSlashes "poster.jpg" = "poster.jpg" := by decide +kernel
    simp [videoObject, keyFor, renditionKey, trimmed, RenditionKind.slug, RenditionKind.asStr]
  unfold transcodeVideo at done
  split at done
  · cases done
  split at done
  · cases done
  cases done
  intro made mem
  cases List.mem_cons.mp mem with
  | inl first =>
    rw [first]
    exact manifest
  | inr rest =>
    cases List.mem_singleton.mp rest
    exact poster

end Imaging
end CorePlatform.Media
