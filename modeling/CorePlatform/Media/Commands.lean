import CorePlatform.Theory.Conformance
import CorePlatform.Media.Handlers

/-! # What the commands write

A command saves once, and what it saves it made of the asset it found. A pipeline works on uploaded
assets, a restore on quarantined ones, a quarantine takes all but deleted ones, and a deletion takes
any.

A quarantine that returns has saved, or has found nothing; a deletion that returns has saved. -/

namespace CorePlatform.Media

open Theory Function Server Program

abbrev Answers := List (Heard Op Op.Reply MediaError)

def lastFound : Answers → Option Asset
  | [] => none
  | ⟨.findById _, .ok found⟩ :: _ => found
  | _ :: rest => lastFound rest

namespace Request

def target : Request → Option AssetId
  | .process assetId _ | .transcode assetId _ | .moderate assetId _ _ | .delete assetId _ _ => some assetId
  | .resolve _ _ _ _ | .resolveBatch _ _ _ _ => none

/-- What a command makes of the asset it found. -/
def Writes (request : Request) (found after : Asset) : Prop :=
  match request with
  | .process _ _ | .transcode _ _ => found.state = .uploaded
  | .moderate _ .quarantine _ => found.state ≠ .deleted ∧ after.state = .quarantined
  | .moderate _ .restore _ => found.state = .quarantined
  | .delete _ _ _ => after.state = .deleted
  | .resolve _ _ _ _ | .resolveBatch _ _ _ _ => False

end Request

/-- The command found the asset and has not looked again. -/
structure Known (id : AssetId) (found : Asset) (heard : Answers) : Prop where
  last : lastFound heard = some found
  member : ⟨.findById id, .ok (some found)⟩ ∈ heard

namespace Request

def Asks (request : Request) (heard : Answers) : Op → Prop
  | .save after => ∃ id found, request.target = some id ∧ Known id found heard ∧ after.id = found.id ∧
      request.Writes found after
  | _ => True

def Saved (request : Request) (heard : Answers) : Prop :=
  ∃ id found after, request.target = some id ∧ ⟨.findById id, .ok (some found)⟩ ∈ heard ∧ after.id = found.id ∧
    request.Writes found after ∧ ⟨.save after, .ok ()⟩ ∈ heard

/-- The command found that there is no such asset. -/
def Missed (request : Request) (heard : Answers) : Prop :=
  ∃ id, request.target = some id ∧ ⟨.findById id, .ok none⟩ ∈ heard

def Ends (request : Request) (heard : Answers) (_ : Outcome) : Prop :=
  match request with
  | .moderate _ _ _ => request.Saved heard ∨ request.Missed heard
  | .delete _ _ _ => request.Saved heard
  | .process _ _ | .transcode _ _ | .resolve _ _ _ _ | .resolveBatch _ _ _ _ => True

end Request

/-- The operations that neither look for an asset nor save one. -/
def Op.Quiet : Op → Prop
  | .findById _ | .save _ => False
  | _ => True

section

variable {request : Request} {id : AssetId} {α β : Type}

theorem Known.hears (hk : Known id found heard) (hq : op.Quiet) : Known id found (⟨op, ans⟩ :: heard) := by
  refine ⟨?_, .tail _ hk.member⟩
  cases op with
  | findById | save => exact hq.elim
  | _ => exact hk.last

theorem asks_of_quiet (hq : op.Quiet) : request.Asks heard op := by
  cases op with
  | findById | save => exact hq.elim
  | _ => trivial

theorem conforms_ask {f : op.Reply → Calling α} (hq : op.Quiet) (hk : Known id found heard)
    (ho : ∀ reply heard, Known id found heard → (f reply).Conforms request.Asks ends heard) :
    (ask op >>= f).Conforms request.Asks ends heard :=
  .perform (asks_of_quiet hq) fun reply => ho reply _ (hk.hears hq)

theorem passes_publishAll : (publishAll events).Passes Op.Quiet := by
  induction events with
  | nil => trivial
  | cons _ _ ih => exact .perform trivial fun _ => ih

theorem passes_deleteObjects : (deleteObjects keys).Passes Op.Quiet := by
  induction keys with
  | nil => trivial
  | cons _ _ ih => exact .perform trivial fun _ => ih

theorem passes_revokeDelivery : (revokeDelivery keys).Passes Op.Quiet := by
  unfold revokeDelivery
  split
  · trivial
  · exact .op trivial

theorem conforms_passes {f : β → Calling α} (hp : first.Passes Op.Quiet) (hk : Known id found heard)
    (ho : ∀ value heard, Known id found heard → (f value).Conforms request.Asks ends heard) :
    (first >>= f).Conforms request.Asks ends heard := by
  have reaches : first.Conforms request.Asks (fun heard _ => Known id found heard) heard :=
    .of_passes hp (Known id found) (fun _ _ _ quiet => asks_of_quiet quiet)
      (fun _ _ reply hk quiet => hk.hears quiet) (fun _ _ hk => hk) hk
  exact reaches.bind fun heard value hk => ho value heard hk

theorem conforms_persistAndPublish {f : Unit → Calling α} (about : request.target = some id)
    (hk : Known id found heard) (eq : after.id = found.id) (writes : request.Writes found after)
    (ho : ∀ heard, request.Saved heard → (f ()).Conforms request.Asks ends heard) :
    (persistAndPublish after >>= f).Conforms request.Asks ends heard := by
  have hv : request.Saved (⟨.save after, .ok ()⟩ :: heard) :=
    ⟨id, found, after, about, .tail _ hk.member, eq, writes, .head _⟩
  have lasts : ∀ heard op (reply : op.Reply), request.Saved heard → request.Saved (⟨op, .ok reply⟩ :: heard) := by
    intro heard op reply hv
    obtain ⟨id, found, after, about, found_, eq, writes, hv⟩ := hv
    exact ⟨id, found, after, about, .tail _ found_, eq, writes, .tail _ hv⟩
  have publishes : (persistAndPublish after).Conforms request.Asks (fun heard _ => request.Saved heard) heard := by
    refine .perform ⟨id, found, about, hk, eq, writes⟩ fun _ => ?_
    exact .of_passes passes_publishAll request.Saved (fun _ _ _ quiet => asks_of_quiet quiet)
      (fun heard op reply hv _ => lasts heard op reply hv) (fun _ _ hv => hv) hv
  exact publishes.bind fun heard _ hv => ho heard hv

theorem conforms_failInfected (ha : request.target = some id) (hk : Known id found heard)
    (hw : ∀ after, request.Writes found after) :
    (failInfected now found).Conforms request.Asks (fun _ _ => True) heard := by
  refine .lift fun after hf => ?_
  exact conforms_persistAndPublish ha hk (Asset.markFailed_alike hf).id (hw after) fun _ _ => trivial

theorem conforms_holdBack (ha : request.target = some id) (hk : Known id found heard)
    (hw : ∀ after, request.Writes found after) :
    (holdBack now found csam).Conforms request.Asks (fun _ _ => True) heard := by
  refine .lift fun after done => ?_
  refine conforms_ask trivial hk fun _ heard hk => ?_
  refine conforms_persistAndPublish ha hk ?_ (hw _) fun _ _ => trivial
  cases csam with
  | true | false => exact (Asset.quarantine_eq_ok done).1

theorem attachRenditions_id : ∀ {asset : Asset},
    attachRenditions now asset renditions = .ok after → after.id = asset.id := by
  induction renditions with
  | nil =>
    intro asset done
    cases done
    rfl
  | cons rendition _ ih =>
    intro asset done
    cases attached : asset.attachRendition now rendition with
    | error =>
      rw [attachRenditions, attached] at done
      cases done
    | ok =>
      rw [attachRenditions, attached] at done
      exact (ih done).trans (Asset.attachRendition_id attached)

theorem conforms_makeReady {render : Calling DerivedRenditions} (ha : request.target = some id)
    (hk : Known id found heard) (hw : ∀ after, request.Writes found after) (hr : render.Passes Op.Quiet) :
    (makeReady now found render).Conforms request.Asks (fun _ _ => True) heard := by
  refine .lift fun processing begun => ?_
  refine conforms_passes hr hk fun derived heard hk => ?_
  refine .lift fun blurred set => ?_
  refine .lift fun attached attaches => ?_
  refine .lift fun ready marked => ?_
  have eq : ready.id = found.id :=
    calc ready.id = attached.id := (Asset.markReady_alike marked).id
      _ = blurred.id := attachRenditions_id attaches
      _ = processing.id := (Asset.setBlurhash_alike set).id
      _ = found.id := (Asset.beginProcessing_alike begun).id
  refine conforms_persistAndPublish ha hk eq (hw ready) fun heard _ => ?_
  exact ⟨trivial, fun _ => trivial⟩

theorem conforms_runPipeline (ha : request.target = some id)
    (hw : ∀ found after, takesUp found = true → request.Writes found after)
    (hr : ∀ asset hash, (render asset hash).Passes Op.Quiet) :
    (runPipeline now formats takesUp render id).Conforms request.Asks (fun _ _ => True) [] := by
  refine .perform trivial fun stored => ?_
  cases stored with
  | none => trivial
  | some found =>
    have hk : Known id found [⟨.findById id, .ok (some found)⟩] := ⟨rfl, .head _⟩
    cases ht : takesUp found with
    | false =>
      simp only [ht, Bool.false_eq_true, if_false]
      trivial
    | true =>
      simp only [ht, if_true]
      cases found.contentHash with
      | none => trivial
      | some hash =>
        refine conforms_ask trivial hk fun verdict heard hk => ?_
        cases verdict with
        | infected => exact conforms_failInfected ha hk fun after => hw found after ht
        | clean =>
          refine conforms_ask trivial hk fun decision heard hk => ?_
          cases decision with
          | none => trivial
          | some decision =>
            cases blocked : decision.blocked with
            | true =>
              simp only [blocked, if_true]
              exact conforms_holdBack ha hk fun after => hw found after ht
            | false =>
              simp only [blocked, Bool.false_eq_true, if_false]
              exact conforms_makeReady ha hk (fun after => hw found after ht) (hr found hash)

theorem conforms_concludeModeration (ha : request.target = some id) (hk : Known id found heard)
    (eq : after.id = found.id) (hw : request.Writes found after) :
    (concludeModeration after).Conforms request.Asks (fun heard _ => request.Saved heard ∨ request.Missed heard)
      heard :=
  conforms_persistAndPublish ha hk eq hw fun _ hv => .inl hv

theorem conforms_applyModeration :
    (applyModeration now assetId action).Conforms (Request.moderate assetId action at_).Asks
      (fun heard _ => (Request.moderate assetId action at_).Saved heard ∨
        (Request.moderate assetId action at_).Missed heard) [] := by
  refine .perform trivial fun stored => ?_
  cases stored with
  | none => exact .inr ⟨assetId, rfl, .head _⟩
  | some found =>
    have hk : Known assetId found [⟨.findById assetId, .ok (some found)⟩] := ⟨rfl, .head _⟩
    cases action with
    | quarantine =>
      refine .lift fun after done => ?_
      obtain ⟨eq, h, undeleted⟩ := Asset.quarantine_eq_ok done
      refine conforms_passes passes_revokeDelivery hk fun _ heard hk => ?_
      refine conforms_ask trivial hk fun _ heard hk => ?_
      exact conforms_concludeModeration rfl hk eq ⟨undeleted, h⟩
    | restore =>
      refine .lift fun after done => ?_
      obtain ⟨eq, h, -⟩ := Asset.restore_eq_ok done
      refine conforms_ask trivial hk fun _ heard hk => ?_
      exact conforms_concludeModeration rfl hk eq h

theorem conforms_deleteAsset :
    (deleteAsset now formats assetId ownerId).Conforms (Request.delete assetId ownerId at_).Asks
      (fun heard _ => (Request.delete assetId ownerId at_).Saved heard) [] := by
  refine .perform trivial fun stored => ?_
  cases stored with
  | none => trivial
  | some found =>
    have hk : Known assetId found [⟨.findById assetId, .ok (some found)⟩] := ⟨rfl, .head _⟩
    by_cases foreign : found.ownerId ≠ ownerId
    · simp only [if_pos foreign]
      trivial
    simp only [if_neg foreign]
    refine .lift fun after done => ?_
    obtain ⟨eq, deleted⟩ := Asset.delete_eq_ok done
    refine conforms_passes passes_deleteObjects hk fun _ heard hk => ?_
    refine conforms_ask trivial hk fun _ heard hk => ?_
    refine conforms_ask trivial hk fun _ heard hk => ?_
    exact conforms_persistAndPublish rfl hk eq deleted fun _ hv => hv

/-! A delivery saves nothing. -/

def Op.Unsaving : Op → Prop
  | .save _ => False
  | _ => True

theorem confined_load : (load id).Confined Op.Unsaving fun _ => True := by
  refine ⟨trivial, fun ans _ => ?_⟩
  rcases ans with hf | hit | asset
  case ok.some => trivial
  -- without a copy, or with a cache that fails, the repository is asked
  all_goals
    refine .perform trivial fun stored => ?_
    cases stored with
    | none => trivial
    | some => exact ⟨trivial, fun _ _ => trivial⟩

section

variable (preferred : Option RenditionKind) (visibility : Option DeliveryVisibility) (now : Int)

theorem confined_resolveRenditions (visibility : DeliveryVisibility) :
    ∀ views degraded, (resolveRenditions preferred now visibility renditions views degraded).Confined Op.Unsaving
      fun _ => True := by
  induction renditions with
  | nil =>
    intro views degraded
    trivial
  | cons _ _ ih =>
    intro views degraded
    unfold resolveRenditions
    split
    · exact ih views degraded
    · refine ⟨trivial, fun ans _ => ?_⟩
      cases ans with
      | ok | error => exact ih _ _

theorem confined_resolveAsset (asset : Asset) :
    (resolveAsset preferred visibility now asset).Confined Op.Unsaving fun _ => True := by
  unfold resolveAsset
  split
  · exact .bind (confined_resolveRenditions preferred _ _ _ _) fun _ => trivial
  · trivial

theorem confined_resolveBatch (ids : List AssetId) :
    ∀ out, (resolveBatch preferred visibility now ids out).Confined Op.Unsaving fun _ => True := by
  induction ids with
  | nil =>
    intro out
    trivial
  | cons id _ ih =>
    intro out
    refine .bind confined_load fun loaded => ?_
    cases loaded with
    | none => exact ih out
    | some asset => exact .bind (confined_resolveAsset preferred visibility now asset) fun _ => ih _

theorem confined_resolveDelivery (fmt : Formats) (id : AssetId) :
    (resolveDelivery preferred visibility now fmt id).Confined Op.Unsaving fun _ => True := by
  refine .bind confined_load fun loaded => ?_
  cases loaded with
  | none => trivial
  | some asset => exact confined_resolveAsset preferred visibility now asset

end

theorem asks_of_unsaving (hu : op.Unsaving) : request.Asks heard op := by
  cases op with
  | save => exact hu.elim
  | _ => trivial

theorem conforms_program : (request.program formats).Conforms request.Asks request.Ends [] := by
  cases request with
  | process =>
    refine (conforms_runPipeline rfl ?_ ?_).bind fun _ _ _ => trivial
    · intro hf after ht
      exact eq_of_beq ht
    · intro asset hash
      exact .op trivial
  | transcode =>
    refine (conforms_runPipeline rfl ?_ ?_).bind fun _ _ _ => trivial
    · intro hf after ht
      exact eq_of_beq (Bool.and_eq_true_iff.mp ht).2
    · intro asset hash
      exact .op trivial
  | moderate assetId action now => exact conforms_applyModeration.bind fun _ _ he => he
  | delete assetId ownerId now => exact conforms_deleteAsset.bind fun _ _ hv => hv
  | resolve assetId preferred visibility now =>
    exact .of_confined (.bind (confined_resolveDelivery preferred visibility now formats assetId) fun _ => trivial)
      (fun _ _ unsaving => asks_of_unsaving unsaving) fun _ _ => trivial
  | resolveBatch ids preferred visibility now =>
    exact .of_confined (.bind (confined_resolveBatch preferred visibility now ids []) fun _ => trivial)
      (fun _ _ unsaving => asks_of_unsaving unsaving) fun _ _ => trivial

end

/-- What a find said of the identifier. -/
def Genuine (_ : Request) (_ : World) : Heard Op Op.Reply MediaError → Prop
  | ⟨.findById id, .ok (some asset)⟩ => asset.id = id
  | _ => True

/-- What holds of the stores and the requests under way in every run. -/
structure Sound (pool : Traffic) : Prop where
  filed : pool.world.Filed
  conforming : pool.Conforming Request.Asks Request.Ends
  genuine : pool.Attested Genuine

theorem genuine_perform (hf : w.Filed) : Genuine request w' ⟨op, (server.perform w op svc).2⟩ := by
  cases op with
  | findById id =>
    cases svc with
    | served =>
      show Genuine request w' ⟨.findById id, .ok (w.assets id)⟩
      cases stored : w.assets id with
      | none => trivial
      | some asset => exact hf.assets id asset stored
    | refused | replyLost => trivial
  | _ => trivial

theorem Sound.step (inv : Sound pool) (hs : (host formats).Steps pool move next) : Sound next := by
  refine ⟨filed_step inv.filed hs, ?_, ?_⟩
  · refine inv.conforming.step hs fun _ ha => ?_
    cases ha
    exact conforms_program
  · refine inv.genuine.step hs (fun _ entry genuine => ?_) fun _ _ => genuine_perform inv.filed
    cases entry with
    | mk => exact genuine

theorem sound_of_init (hb : (host formats).machine.init pool) : Sound pool := by
  refine ⟨hb.1, ?_, ?_⟩
  · intro id call h
    exact absurd h (Host.calls_of_init _ hb _)
  · intro id call h
    exact absurd h (Host.calls_of_init _ hb _)

theorem sound_of_run (hb : (host formats).machine.init start)
    (ran : (host formats).machine.run start moves = some pool) : Sound pool := by
  exact Host.run_keeps Sound (fun inv _ hs => inv.step hs) (sound_of_init hb) (Machine.meets_true start) ran

def Asset.moderate (asset : Asset) (now : Int) : ModerationAction → Except MediaError Asset
  | .quarantine => asset.quarantine now
  | .restore => asset.restore now

def moderated (now : Int) (action : ModerationAction) (assets : AssetId → Option Asset) (id : AssetId) :
    AssetId → Option Asset :=
  match assets id with
  | none => assets
  | some asset =>
    match asset.moderate now action with
    | .ok after => update assets after.id (some after.document)
    | .error _ => assets

section

variable {id : AssetId}

theorem moderated_absent (ha : assets id = none) : moderated now action assets id = assets := by
  simp only [moderated, ha]

theorem moderated_refused (stored : assets id = some asset) (hr : asset.moderate now action = .error e) :
    moderated now action assets id = assets := by
  simp only [moderated, stored, hr]

theorem moderated_done (stored : assets id = some asset) (done : asset.moderate now action = .ok after) :
    moderated now action assets id = update assets after.id (some after.document) := by
  simp only [moderated, stored, done]

end

theorem assets_of_quiet {α : Type} {prog : Calling α} (hp : prog.Passes Op.Quiet) :
    (server.execute prog w allServed).1.assets = w.assets := by
  have keeps : ∀ s op, op.Quiet → s.assets = w.assets → (server.serve s op).1.assets = w.assets := by
    intro s op quiet eq
    cases op with
    | findById | save => exact quiet.elim
    | _ => exact eq
  exact (execute_confined hp.confined (fun _ _ _ _ _ _ => trivial) keeps rfl allServed).1

theorem execute_concludeModeration :
    (server.execute (concludeModeration asset) w allServed).1.assets =
      update w.assets asset.id (some asset.document) := by
  have publishes : (publishAll asset.pendingEvents >>= fun _ =>
      Program.ok (⟨true, some asset.state⟩ : ApplyModerationOutcome)).Passes Op.Quiet :=
    .bind passes_publishAll fun _ => trivial
  have hv : server.execute (concludeModeration asset) w allServed =
      server.execute (publishAll asset.pendingEvents >>= fun _ => .ok ⟨true, some asset.state⟩) (w.save asset)
        allServed := rfl
  rw [hv, assets_of_quiet publishes]
  rfl

theorem execute_drop_conclude :
    (server.execute (ask (.dropCached asset.id) >>= fun _ => concludeModeration asset) w allServed).1.assets =
      update w.assets asset.id (some asset.document) :=
  execute_concludeModeration

theorem execute_revokeDelivery : server.execute (revokeDelivery keys) w allServed = (w, .ok ()) := by
  unfold revokeDelivery
  split
  · rfl
  · rfl

theorem execute_applyModeration (id : AssetId) :
    (server.execute (applyModeration now id action) w allServed).1.assets = moderated now action w.assets id := by
  have hf : server.serve w (.findById id) = (w, .ok (w.assets id)) := rfl
  unfold applyModeration moderated
  rw [execute_served rfl hf]
  cases stored : w.assets id with
  | none => rfl
  | some asset =>
    cases action with
    | quarantine =>
      show (server.execute (quarantineAsset now asset) w allServed).1.assets = _
      cases made : asset.quarantine now with
      | error =>
        simp only [quarantineAsset, Asset.moderate, made]
        rfl
      | ok after =>
        simp only [quarantineAsset, Asset.moderate, made, lift_ok, ok_bind]
        rw [execute_bind_served, execute_revokeDelivery]
        exact execute_drop_conclude
    | restore =>
      cases made : asset.restore now with
      | error =>
        simp only [restoreAsset, Asset.moderate, made]
        rfl
      | ok after =>
        simp only [restoreAsset, Asset.moderate, made, lift_ok, ok_bind]
        exact execute_drop_conclude

end CorePlatform.Media
