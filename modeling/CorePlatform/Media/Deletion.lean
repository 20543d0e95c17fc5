import CorePlatform.Media.Objects

/-! # What a deletion leaves of the other assets

A row never comes to name an object under another key than its own kind, digest and rendition give,
in any run. Two rows name the same object when they agree in all three. A deletion removes every
object that its row names, without asking who else names it. -/

namespace CorePlatform.Media

open Theory Server

namespace Asset

variable {asset : Asset} {hash : ContentHash}

theorem Keyed.of_alike (hk : asset.Keyed) (ha : asset.Alike after) : after.Keyed := by
  constructor
  · rw [ha.contentHash]
    exact hk.hash
  · rw [ha.kind, ha.contentHash, ha.renditions]
    exact hk.keys

theorem Keyed.document (hk : asset.Keyed) : asset.document.Keyed := hk.of_alike ⟨rfl, rfl, rfl, rfl⟩

theorem attachRendition_keyed {rendition : Rendition} (hk : asset.Keyed) (hashed : asset.contentHash = some hash)
    (hp : rendition.storageKey = keyFor asset.kind hash rendition.kind)
    (done : asset.attachRendition now rendition = .ok after) :
    after.Keyed ∧ after.kind = asset.kind ∧ after.contentHash = some hash := by
  unfold attachRendition at done
  split at done
  · cases done
  split at done
  · cases done
  cases done
  refine ⟨⟨hk.hash, ?_⟩, rfl, hashed⟩
  intro made mem
  cases List.mem_append.mp mem with
  | inl old => exact hk.keys made old
  | inr new =>
    cases List.mem_singleton.mp new
    exact ⟨hash, hashed, hp⟩

theorem attachRenditions_keyed {renditions : List Rendition} : ∀ {asset : Asset}, asset.Keyed →
    asset.contentHash = some hash → (∀ made ∈ renditions, made.storageKey = keyFor asset.kind hash made.kind) →
    attachRenditions now asset renditions = .ok after → after.Keyed := by
  induction renditions with
  | nil =>
    intro asset keyed _ _ done
    cases done
    exact keyed
  | cons rendition _ ih =>
    intro asset keyed hashed placed done
    cases attached : asset.attachRendition now rendition with
    | error =>
      rw [attachRenditions, attached] at done
      cases done
    | ok =>
      rw [attachRenditions, attached] at done
      obtain ⟨keyed, kind, hashed⟩ :=
        attachRendition_keyed keyed hashed (placed rendition (.head _)) attached
      refine ih keyed hashed ?_ done
      intro made mem
      rw [kind]
      exact placed made (.tail _ mem)

end Asset

/-- What the answers say of keys. -/
def Told : (op : Op) → Except MediaError op.Reply → Prop
  | .findById _, .ok (some asset) => asset.Keyed
  | .derive _ kind hash, .ok derived => ∀ made ∈ derived.renditions, made.storageKey = keyFor kind hash made.kind
  | .transcode _ hash, .ok derived => ∀ made ∈ derived.renditions, made.storageKey = keyFor .video hash made.kind
  | _, _ => True

/-- What is saved has its renditions where they belong. -/
def Op.Placed : Op → Prop
  | .save asset => asset.Keyed
  | _ => True

theorem Op.Placed.of_unsaving {op : Op} (hu : op.Unsaving) : op.Placed := by
  cases op with
  | save => exact hu.elim
  | _ => trivial

theorem Op.Placed.of_quiet {op : Op} (hq : op.Quiet) : op.Placed := by
  cases op with
  | save => exact hq.elim
  | _ => trivial

theorem obeys_of_passes {α : Type} {prog : Calling α} (hp : prog.Passes Op.Quiet) :
    prog.Obeys Told Op.Placed fun _ => True :=
  .of_confined (hp.confined.mono fun _ => Op.Placed.of_quiet) fun _ => trivial

theorem obeys_persistAndPublish (hk : asset.Keyed) : (persistAndPublish asset).Obeys Told Op.Placed fun _ => True :=
  .perform hk fun _ _ => obeys_of_passes passes_publishAll

theorem obeys_failInfected (hk : asset.Keyed) : (failInfected now asset).Obeys Told Op.Placed fun _ => True := by
  apply Program.Obeys.lift
  intro hf marked
  exact (obeys_persistAndPublish (hk.of_alike (Asset.markFailed_alike marked))).bind fun _ _ => trivial

theorem obeys_holdBack (hk : asset.Keyed) : (holdBack now asset csam).Obeys Told Op.Placed fun _ => True := by
  apply Program.Obeys.lift
  intro h quarantined
  have after : (if csam then h.placeLegalHold now else h).Keyed := by
    have hk := hk.of_alike (Asset.quarantine_alike quarantined)
    cases csam with
    | true => exact hk.of_alike ⟨rfl, rfl, rfl, rfl⟩
    | false => exact hk
  apply Program.Obeys.perform trivial
  intro _ _
  exact (obeys_persistAndPublish after).bind fun _ _ => trivial

theorem obeys_makeReady {hash : ContentHash} (hk : asset.Keyed) (hh : asset.contentHash = some hash)
    (hr : render.Obeys Told Op.Placed fun derived =>
      ∀ made ∈ derived.renditions, made.storageKey = keyFor asset.kind hash made.kind) :
    (makeReady now asset render).Obeys Told Op.Placed fun _ => True := by
  apply Program.Obeys.lift
  intro processing begun
  apply hr.bind
  intro derived placed
  apply Program.Obeys.lift
  intro blurred set
  apply Program.Obeys.lift
  intro attached attaches
  apply Program.Obeys.lift
  intro ready marked
  have begun := Asset.beginProcessing_alike begun
  have set := Asset.setBlurhash_alike set
  have eq : blurred.contentHash = some hash := by rw [set.contentHash, begun.contentHash, hh]
  have hk : attached.Keyed := by
    refine Asset.attachRenditions_keyed ((hk.of_alike begun).of_alike set) eq ?_ attaches
    rw [set.kind, begun.kind]
    exact placed
  apply (obeys_persistAndPublish (hk.of_alike (Asset.markReady_alike marked))).bind
  intro _ _
  exact ⟨trivial, fun _ _ => trivial⟩

theorem obeys_runPipeline {takesUp : Asset → Bool}
    (hr : ∀ asset hash, takesUp asset = true → (render asset hash).Obeys Told Op.Placed fun derived =>
      ∀ made ∈ derived.renditions, made.storageKey = keyFor asset.kind hash made.kind) (id : AssetId) :
    (runPipeline now formats takesUp render id).Obeys Told Op.Placed fun _ => True := by
  apply Program.Obeys.perform trivial
  intro stored told
  cases stored with
  | none => trivial
  | some asset =>
    have keyed : asset.Keyed := told
    cases ht : takesUp asset with
    | false =>
      simp only [ht, Bool.false_eq_true, if_false]
      trivial
    | true =>
      simp only [ht, if_true]
      cases hashed : asset.contentHash with
      | none => trivial
      | some hash =>
        apply Program.Obeys.perform trivial
        intro verdict _
        cases verdict with
        | infected => exact obeys_failInfected keyed
        | clean =>
          apply Program.Obeys.perform trivial
          intro decision _
          cases decision with
          | none => trivial
          | some decision =>
            cases blocked : decision.blocked with
            | true =>
              simp only [blocked, if_true]
              exact obeys_holdBack keyed
            | false =>
              simp only [blocked, Bool.false_eq_true, if_false]
              exact obeys_makeReady keyed hashed (hr asset hash ht)

theorem obeys_ask (hp : op.Placed) (hg : ∀ reply, Told op (.ok reply) → post reply) :
    (ask op).Obeys Told Op.Placed post := by
  refine ⟨hp, fun ans told => ?_⟩
  cases ans with
  | ok reply => exact hg reply told
  | error => trivial

theorem obeys_applyModeration (id : AssetId) : (applyModeration now id action).Obeys Told Op.Placed fun _ => True := by
  apply Program.Obeys.perform trivial
  intro stored told
  cases stored with
  | none => trivial
  | some asset =>
    have keyed : asset.Keyed := told
    cases action with
    | quarantine =>
      apply Program.Obeys.lift
      intro h done
      apply (obeys_of_passes passes_revokeDelivery).bind
      intro _ _
      apply Program.Obeys.perform trivial
      intro _ _
      exact (obeys_persistAndPublish (keyed.of_alike (Asset.quarantine_alike done))).bind fun _ _ => trivial
    | restore =>
      apply Program.Obeys.lift
      intro back done
      apply Program.Obeys.perform trivial
      intro _ _
      exact (obeys_persistAndPublish (keyed.of_alike (Asset.restore_alike done))).bind fun _ _ => trivial

theorem obeys_deleteAsset (id : AssetId) : (deleteAsset now formats id ownerId).Obeys Told Op.Placed fun _ => True := by
  apply Program.Obeys.perform trivial
  intro stored told
  cases stored with
  | none => trivial
  | some asset =>
    have keyed : asset.Keyed := told
    by_cases foreign : asset.ownerId ≠ ownerId
    · simp only [if_pos foreign]
      trivial
    simp only [if_neg foreign]
    apply Program.Obeys.lift
    intro gone done
    apply (obeys_of_passes passes_deleteObjects).bind
    intro _ _
    apply Program.Obeys.perform trivial
    intro _ _
    apply Program.Obeys.perform trivial
    intro _ _
    exact (obeys_persistAndPublish (keyed.of_alike (Asset.delete_alike done))).bind fun _ _ => trivial

theorem obeys_program (req : Request) : (req.program fmt).Obeys Told Op.Placed fun _ => True := by
  cases req with
  | process id =>
    refine (obeys_runPipeline (fun asset hash _ => ?_) id).bind fun _ _ => trivial
    exact obeys_ask trivial fun derived told => told
  | transcode id =>
    refine (obeys_runPipeline (fun asset hash ht => ?_) id).bind fun _ _ => trivial
    have video : asset.kind = .video := eq_of_beq (Bool.and_eq_true_iff.mp ht).1
    rw [video]
    exact obeys_ask trivial fun derived told => told
  | moderate id action => exact (obeys_applyModeration id).bind fun _ _ => trivial
  | delete id ownerId => exact (obeys_deleteAsset id).bind fun _ _ => trivial
  | resolve id preferred visibility now =>
    have placed := (confined_resolveDelivery preferred visibility now fmt id).mono fun _ => Op.Placed.of_unsaving
    exact .of_confined (placed.bind fun _ => trivial) fun _ => trivial
  | resolveBatch ids preferred visibility now =>
    have placed := (confined_resolveBatch preferred visibility now ids []).mono fun _ => Op.Placed.of_unsaving
    exact .of_confined (placed.bind fun _ => trivial) fun _ => trivial

section

variable {d : Depot}

theorem told_error : Told op (.error e) := by
  cases op <;> trivial

theorem told_serve (inv : d.Sound) : Told op (d.serve imaging op).2 := by
  cases op with
  | findById id =>
    show Told (.findById id) (.ok (d.world.assets id))
    cases h : d.world.assets id with
    | none => trivial
    | some asset => exact inv.keyed id asset h
  | derive source kind hash =>
    show Told (.derive source kind hash) (imaging.derive d.objects source kind hash).2
    cases ans : (imaging.derive d.objects source kind hash).2 with
    | error => trivial
    | ok => exact Imaging.derive_ok ans
  | transcode source hash =>
    show Told (.transcode source hash) (imaging.transcodeVideo d.objects source hash).2
    cases ans : (imaging.transcodeVideo d.objects source hash).2 with
    | error => trivial
    | ok => exact Imaging.transcodeVideo_ok ans
  | _ => trivial

theorem Depot.Sound.save (inv : d.Sound) (hk : asset.Keyed) :
    ({ d with world := d.world.save asset } : Depot).Sound := by
  constructor
  · exact forall_update inv.filed rfl
  · exact forall_update inv.keyed hk.document

theorem Depot.Sound.serve (inv : d.Sound) (hp : op.Placed) : (d.serve imaging op).1.Sound := by
  cases op with
  | save => exact inv.save hp
  | _ => exact ⟨inv.filed, inv.keyed⟩

theorem Asset.Keyed.of_fresh {asset : Asset} (hf : asset.fresh = true) : asset.Keyed := by
  obtain ⟨hb, formed⟩ := Bool.and_eq_true_iff.mp hf
  have bare := List.isEmpty_iff.mp (Bool.and_eq_true_iff.mp hb).2
  constructor
  · intro hash hashed
    rw [hashed] at formed
    exact formed
  · rw [bare]
    intro made mem
    cases mem

theorem sound_of_reachable (hr : (depotHost imaging formats).machine.Reachable pool) : pool.world.Sound := by
  suffices all : pool.world.Sound ∧ pool.Obeying Told fun _ => Op.Placed from all.1
  refine Host.obeying_of_reachable (fun _ hb => hb) ?_ ?_ ?_ ?_ hr
  · intro d op svc inv
    cases svc with
    | served => exact told_serve inv
    | refused | replyLost => exact told_error
  · intro d req op svc inv placed
    cases svc with
    | served | replyLost => exact inv.serve placed
    | refused => exact inv
  · intro d req d' prog inv ha
    cases ha
    exact ⟨inv, obeys_program req⟩
  · intro d ev d' inv hc
    cases ev with
    | engines | expire | land =>
      cases hc
      exact ⟨inv.filed, inv.keyed⟩
    | enter _ =>
      simp only [depotHost] at hc
      split at hc
      · rename_i admitted
        cases hc
        exact inv.save (.of_fresh (Bool.and_eq_true_iff.mp admitted).1)
      · cases hc

end

section

variable {id : AssetId}

theorem passes_deleteAsset : (deleteAsset now formats id ownerId).Passes fun _ => True := by
  apply Program.Passes.perform trivial
  intro stored
  cases stored with
  | none => trivial
  | some asset =>
    by_cases foreign : asset.ownerId ≠ ownerId
    · simp only [if_pos foreign]
      trivial
    simp only [if_neg foreign]
    apply Program.Passes.lift
    intro gone
    apply (passes_deleteObjects.mono fun _ _ => trivial).bind
    intro _
    apply Program.Passes.perform trivial
    intro _
    apply Program.Passes.perform trivial
    intro _
    have persists : (persistAndPublish gone).Passes fun _ => True := by
      apply Program.Passes.perform trivial
      intro _
      exact passes_publishAll.mono fun _ _ => trivial
    exact persists.bind fun _ => trivial

theorem execute_deleteObjects : ∀ d : Depot,
    (depotServer imaging).execute (deleteObjects keys) d allServed =
      ({ d with objects := fun key => if key ∈ keys then none else d.objects key }, .ok ()) := by
  induction keys with
  | nil =>
    simp [deleteObjects]
  | cons key _ ih =>
    intro d
    have deleted : (depotServer imaging).serve d (.deleteObject key) =
        ({ d with objects := Function.update d.objects key none }, .ok ()) := rfl
    refine (execute_served rfl deleted).trans ((ih _).trans ?_)
    simp only [Prod.mk.injEq, Depot.mk.injEq, true_and, and_true]
    funext k
    by_cases here : k = key
    · simp [here]
    · simp [here]

theorem execute_publishAll (events : List DomainEvent) : ∀ d : Depot,
    ((depotServer imaging).execute (publishAll events) d allServed).1.objects = d.objects := by
  induction events with
  | nil =>
    intro d
    rfl
  | cons ev rest ih =>
    intro d
    have hp : (depotServer imaging).serve d (.publish ev) = ((d.serve imaging (.publish ev)).1, .ok ()) := rfl
    have ran : (depotServer imaging).execute (publishAll (ev :: rest)) d allServed =
        (depotServer imaging).execute (publishAll rest) (d.serve imaging (.publish ev)).1 allServed :=
      execute_served rfl hp
    exact (congrArg (fun res => res.1.objects) ran).trans (ih _)

theorem execute_deleteAsset
    (deleted : (depotServer imaging).execute (deleteAsset now fmt id ownerId) d pattern = (after, .ok outcome)) :
    ∃ target, d.world.assets id = some target ∧ after.objects = fun key =>
      if key ∈ storageKeys target ++ [fmt.staging target.id] then none else d.objects key := by
  have done := execute_of_passes passes_deleteAsset deleted
  have hf : (depotServer imaging).serve d (.findById id) = (d, .ok (d.world.assets id)) := rfl
  unfold deleteAsset at done
  rw [execute_served rfl hf] at done
  generalize h : d.world.assets id = stored at done
  cases stored with
  | none => cases done
  | some target =>
    refine ⟨target, rfl, ?_⟩
    by_cases foreign : target.ownerId ≠ ownerId
    · simp only [if_pos foreign] at done
      cases done
    simp only [if_neg foreign] at done
    obtain ⟨gone, deleted, done⟩ := execute_lift_ok done
    have eq : storageKeys gone ++ [fmt.staging gone.id] = storageKeys target ++ [fmt.staging target.id] := by
      rw [storageKeys, storageKeys, (Asset.delete_alike deleted).renditions, (Asset.delete_eq_ok deleted).1]
    obtain ⟨_, _, purges, done⟩ := execute_bind_ok done
    rw [execute_deleteObjects, eq] at purges
    cases purges
    -- what follows leaves the objects alone
    obtain ⟨_, _, invalidated, done⟩ := execute_bind_ok done
    obtain ⟨_, _, drops, done⟩ := execute_bind_ok done
    obtain ⟨_, _, persisted, done⟩ := execute_bind_ok done
    obtain ⟨hv, _, saves, hp⟩ := execute_bind_ok persisted
    have kept : ((depotServer imaging).execute (publishAll gone.pendingEvents) hv allServed).1.objects =
        hv.objects := execute_publishAll _ hv
    cases done
    cases invalidated
    cases drops
    cases saves
    rw [hp] at kept
    exact kept

/-- Its objects have to stay. -/
def Asset.kept (asset : Asset) : Bool := asset.state == .ready || asset.legalHold

/-- Every object that a kept asset other than the one names, and that was there, is there still. -/
def Depot.Spares (d after : Depot) (id : AssetId) : Prop :=
  ∀ other asset, other ≠ id → d.world.assets other = some asset → asset.kept = true →
    ∀ made ∈ asset.renditions, (d.objects made.storageKey).isSome → (after.objects made.storageKey).isSome

/-- The asset is of the same kind and was uploaded with the same bytes, and has a rendition of that
kind too. -/
def Asset.hasToo (target asset : Asset) (made : Rendition) : Bool :=
  target.kind == asset.kind && target.contentHash == asset.contentHash &&
    target.renditions.any fun own => own.kind == made.kind

theorem storageKey_mem_iff (hk : target.Keyed) (keyed' : asset.Keyed) (mem : made ∈ asset.renditions) :
    made.storageKey ∈ storageKeys target ↔ target.hasToo asset made = true := by
  obtain ⟨_, hashed, placed⟩ := keyed'.keys made mem
  simp only [storageKeys, List.mem_map, Asset.hasToo, Bool.and_eq_true, beq_iff_eq, List.any_eq_true]
  constructor
  · rintro ⟨own, owned, eq⟩
    obtain ⟨hash', hashed', placed'⟩ := hk.keys own owned
    rw [placed, placed'] at eq
    obtain ⟨kind, digest, rendition⟩ := keyFor_inj (hk.hash _ hashed') (keyed'.hash _ hashed) eq
    refine ⟨⟨kind, ?_⟩, own, owned, rendition⟩
    rw [hashed, hashed', digest]
  · rintro ⟨⟨kind, digest⟩, own, owned, rendition⟩
    obtain ⟨_, hashed', placed'⟩ := hk.keys own owned
    rw [hashed, hashed', Option.some.injEq] at digest
    refine ⟨own, owned, ?_⟩
    rw [placed, placed', kind, digest, rendition]

/-- However the service got there: a deletion that returns spares the objects of the other assets
exactly if none that is ready or held is of the same kind and bytes, with a rendition in common
whose object is there. -/
theorem deletion_spares_others_iff {pool : Pool Depot Request Op Op.Reply MediaError Outcome}
    {outcome : DeleteOutcome} {pattern : Nat → Service}
    (reached : (depotHost imaging formats).machine.Reachable pool)
    (deleted : (depotServer imaging).execute (deleteAsset now formats id ownerId) pool.world pattern =
      (after, .ok outcome)) :
    pool.world.Spares after id ↔
      ∀ target other asset made, other ≠ id → pool.world.world.assets id = some target →
        pool.world.world.assets other = some asset → asset.kept = true → made ∈ asset.renditions →
        (pool.world.objects made.storageKey).isSome → target.hasToo asset made = false := by
  have sound := sound_of_reachable reached
  obtain ⟨target, held, objects⟩ := execute_deleteAsset deleted
  have keyed := sound.keyed id target held
  -- an object of another asset goes if and only if the deleted one has it too
  have goes : ∀ other asset made, pool.world.world.assets other = some asset → made ∈ asset.renditions →
      (pool.world.objects made.storageKey).isSome →
      ((after.objects made.storageKey).isSome ↔ target.hasToo asset made = false) := by
    intro other asset made held' member there
    have keyed' := sound.keyed other asset held'
    have upload : made.storageKey ≠ formats.staging target.id := by
      obtain ⟨hash, _, placed⟩ := keyed'.keys made member
      rw [placed]
      exact keyFor_ne_staging formats target.id asset.kind hash made.kind
    have shared := storageKey_mem_iff keyed keyed' member
    rw [objects]
    cases own : target.hasToo asset made with
    | true =>
      rw [own] at shared
      simp [shared.mpr rfl]
    | false =>
      rw [own] at shared
      have apart : made.storageKey ∉ storageKeys target := fun member => Bool.false_ne_true (shared.mp member)
      simp [apart, upload, there]
  constructor
  · intro spares target' other asset made differ held' held'' kept member there
    rw [held] at held'
    cases held'
    exact (goes other asset made held'' member there).mp (spares other asset differ held'' kept made member there)
  · intro apart other asset differ held' kept made member there
    exact (goes other asset made held' member there).mpr
      (apart target other asset made differ held held' kept member there)

/-- However the service got there, two rows name the same object exactly if they agree in the kind
and bytes of the upload and the kind of the rendition; and none names an upload. -/
theorem objects_shared_iff {pool : Pool Depot Request Op Op.Reply MediaError Outcome} {other : AssetId}
    (reached : (depotHost imaging formats).machine.Reachable pool)
    (held : pool.world.world.assets id = some asset) (held' : pool.world.world.assets other = some asset')
    (member : made ∈ asset.renditions) (member' : made' ∈ asset'.renditions) :
    (made.storageKey = made'.storageKey ↔
      asset.kind = asset'.kind ∧ asset.contentHash = asset'.contentHash ∧ made.kind = made'.kind) ∧
    ∀ uploaded, made.storageKey ≠ formats.staging uploaded := by
  have keyed := (sound_of_reachable reached).keyed id asset held
  have keyed' := (sound_of_reachable reached).keyed other asset' held'
  obtain ⟨hash, hashed, placed⟩ := keyed.keys made member
  obtain ⟨hash', hashed', placed'⟩ := keyed'.keys made' member'
  rw [placed, placed', hashed, hashed']
  refine ⟨⟨fun eq => ?_, ?_⟩, fun uploaded => keyFor_ne_staging formats uploaded asset.kind hash made.kind⟩
  · obtain ⟨kind, digest, rendition⟩ := keyFor_inj (keyed.hash _ hashed) (keyed'.hash _ hashed') eq
    exact ⟨kind, congrArg some digest, rendition⟩
  · rintro ⟨kind, digest, rendition⟩
    rw [kind, Option.some.inj digest, rendition]

end

namespace Twins

def plain : Formats := ⟨fun _ => none, fun id => toString id.toNat⟩

def imaging : Imaging where
  Image := Unit
  decode _ := .ok ()
  width _ := 100
  height _ := 80
  resize _ _ := ()
  encodeJpeg _ := .ok [1, 2]
  blurhash _ := .ok "LEHV6nWB"
  transcode _ _ := .error (.transcodeFailed "no video here")

def engines : Engines where
  scan _ := .ok .clean
  screen _ _ _ _ := .ok (some ⟨false, false, none⟩)
  derive _ _ _ := .error .screenUnavailable
  transcode _ _ := .error .screenUnavailable
  resolve key _ _ := .ok ⟨"/" ++ key, none⟩

def digest : ContentHash := "e3b0c44298fc1c149afbf4c8996fb92427ae41e4649b934ca495991b7852b855"

def upload (id : AssetId) (ownerId : OwnerId) (hash : ContentHash) : Asset where
  id
  ownerId
  kind := .postImage
  state := .uploaded
  declaredMime := "image/jpeg"
  declaredSize := 900
  mimeType := some "image/jpeg"
  byteSize := some 900
  dimensions := some ⟨100, 80, by decide, by decide⟩
  contentHash := some hash
  blurhash := none
  renditions := []
  legalHold := false
  priorState := none
  createdAt := 0
  updatedAt := 1
  pendingEvents := []

def emptyDepot : Pool Depot Request Op Op.Reply MediaError Outcome :=
  ⟨⟨⟨fun _ => none, fun _ => none, [], engines⟩, fun _ => none⟩, fun _ => none⟩

theorem emptyDepot_begins : (depotHost imaging plain).machine.init emptyDepot := by
  refine ⟨⟨?_, ?_⟩, rfl⟩
  · intro id asset h
    cases h
  · intro id asset h
    cases h

def ready (id : AssetId) (ownerId : OwnerId) (hash : ContentHash) : Asset :=
  { upload id ownerId hash with
    state := .ready
    renditions := [⟨.original, "image/jpeg", keyFor .postImage hash .original, ⟨100, 80, by decide, by decide⟩, 2⟩] }

theorem ready_keyed {id : AssetId} {hash : ContentHash} (hf : hash.wellFormed = true) :
    (ready id ownerId hash).Keyed := by
  constructor
  · intro own hashed
    cases hashed
    exact hf
  · intro made mem
    cases List.mem_singleton.mp mem
    exact ⟨hash, rfl, rfl⟩

def otherDigest : ContentHash := "9f86d081884c7d659a2feaa0c55ad015a3bf4f1b2b0b822cd15d6c15b0f00a08"

def strangers : Pool Depot Request Op Op.Reply MediaError Outcome :=
  ⟨⟨⟨Function.update (Function.update (fun _ => none) 1 (some (ready 1 7 digest))) 2 (some (ready 2 8 otherDigest)),
    fun _ => none, [], engines⟩, fun _ => some [1, 2]⟩, fun _ => none⟩

theorem strangers_rows {id : AssetId} (h : strangers.world.world.assets id = some asset) :
    (id = 2 ∧ asset = ready 2 8 otherDigest) ∨ (id = 1 ∧ asset = ready 1 7 digest) := by
  cases update_cases h with
  | inl second =>
    cases second.2
    exact .inl ⟨second.1, rfl⟩
  | inr rest =>
    cases update_cases rest.2 with
    | inl first =>
      cases first.2
      exact .inr ⟨first.1, rfl⟩
    | inr none_ => cases none_.2

theorem strangers_sound : strangers.world.Sound := by
  constructor
  · intro id asset h
    obtain ⟨rfl, rfl⟩ | ⟨rfl, rfl⟩ := strangers_rows h <;> rfl
  · intro id asset h
    obtain ⟨rfl, rfl⟩ | ⟨rfl, rfl⟩ := strangers_rows h
    · exact ready_keyed (by decide +kernel)
    · exact ready_keyed (by decide +kernel)

theorem stranger_is_spared : ∃ after,
    (depotServer imaging).execute (deleteAsset 9 plain 1 7) strangers.world Server.allServed = (after, .ok ⟨true⟩) ∧
    strangers.world.Spares after 1 := by
  have deleted : ((depotServer imaging).execute (deleteAsset 9 plain 1 7) strangers.world Server.allServed).2 =
      .ok ⟨true⟩ := by decide +kernel
  refine ⟨_, Prod.ext rfl deleted, ?_⟩
  refine (deletion_spares_others_iff (.start ⟨strangers_sound, rfl⟩) (Prod.ext rfl deleted)).mpr ?_
  intro target other asset made differ held held' _ _ _
  obtain ⟨absurd_, -⟩ | ⟨-, rfl⟩ := strangers_rows held
  · cases absurd_
  · obtain ⟨-, rfl⟩ | ⟨here, -⟩ := strangers_rows held'
    · simp [Asset.hasToo, ready, upload, digest, otherDigest]
    · exact absurd here differ

theorem strangers_share_nothing : ∃ made ∈ (ready 1 7 digest).renditions, ∃ made' ∈ (ready 2 8 otherDigest).renditions,
    made.storageKey ≠ made'.storageKey := by
  have reached : (depotHost imaging plain).machine.Reachable strangers := .start ⟨strangers_sound, rfl⟩
  have first : strangers.world.world.assets 1 = some (ready 1 7 digest) := rfl
  have second : strangers.world.world.assets 2 = some (ready 2 8 otherDigest) := rfl
  refine ⟨_, .head _, _, .head _, fun eq => ?_⟩
  exact absurd ((objects_shared_iff reached first second (.head _) (.head _)).1.mp eq).2.1 (by decide)

/-- An upload lands, is entered and processed. -/
def ingest (caller : Nat) (id : AssetId) (ownerId : OwnerId) (hash : ContentHash) : List (Move Request DepotEvent) :=
  .elapse (.land id [7, 7]) :: .elapse (.enter (upload id ownerId hash)) :: .begin caller (.process id 5) ::
    List.replicate 9 (.advance caller .served)

/-- Two owners upload the same bytes; both images are processed, and the first owner deletes theirs. -/
theorem deletion_empties_the_twin : ∃ pool after,
    (depotHost imaging plain).machine.Reachable pool ∧
    (depotServer imaging).execute (deleteAsset 9 plain 1 7) pool.world Server.allServed = (after, .ok ⟨true⟩) ∧
    ¬ pool.world.Spares after 1 := by
  obtain ⟨pool, ran, deleted, asset, held, kept, made, member, before, after⟩ : ∃ pool,
      (depotHost imaging plain).machine.run emptyDepot (ingest 0 1 7 digest ++ ingest 1 2 8 digest) = some pool ∧
      ((depotServer imaging).execute (deleteAsset 9 plain 1 7) pool.world Server.allServed).2 = .ok ⟨true⟩ ∧
      ∃ asset, pool.world.world.assets 2 = some asset ∧ asset.kept = true ∧ ∃ made ∈ asset.renditions,
        (pool.world.objects made.storageKey).isSome = true ∧
        (((depotServer imaging).execute (deleteAsset 9 plain 1 7) pool.world Server.allServed).1.objects
          made.storageKey).isSome = false := by decide +kernel
  refine ⟨pool, _, ⟨emptyDepot, _, emptyDepot_begins, ran⟩, Prod.ext rfl deleted, fun spares => ?_⟩
  have still := spares 2 asset (by decide) held kept made member before
  rw [after] at still
  cases still

end Twins
end CorePlatform.Media
