import CorePlatform.Media.Takedown

/-! # What is delivered after a takedown

A takedown drops the cached copy and saves afterwards; a reader that finds no copy puts what it read
from the repository into the cache. Between the drop and the save, and between the read and the put,
there is room for the other: a ready copy put into the cache there outlives the takedown, and every
later reader takes it for the asset.

As long as no takedown saves over a ready copy, and no ready copy is put beside a stored asset that
is not ready, the cache has a ready copy of ready assets only. What starts after a takedown has
returned then finds nothing to deliver. -/

namespace CorePlatform.Media

open Theory Option

/-- A save that ends the delivery finds no deliverable copy cached, and a put of a deliverable copy
finds the stored asset deliverable. -/
def coherent (pool : Traffic) : Move Request Event → Bool
  | .advance caller _ =>
    match pool.calls caller with
    | some ⟨_, .call (.save after) _, _⟩ =>
      after.isDeliverable || !(pool.world.cached after.id).any Asset.isDeliverable
    | some ⟨_, .call (.putCached asset) _, _⟩ =>
      !asset.isDeliverable || (pool.world.assets asset.id).any Asset.isDeliverable
    | _ => true
  | .begin _ _ | .crash _ | .elapse _ => true

namespace Request

/-- Takedowns and reads; no request that makes an asset ready. -/
def publishesNothing : Request → Bool
  | .moderate _ .quarantine _ | .delete _ _ _ | .resolve _ _ _ _ | .resolveBatch _ _ _ _ => true
  | .moderate _ .restore _ | .process _ _ | .transcode _ _ => false

def takesDown (assetId : AssetId) : Request → Bool
  | .moderate id .quarantine _ | .delete id _ _ => id == assetId
  | .moderate _ .restore _ | .process _ _ | .transcode _ _ | .resolve _ _ _ _ | .resolveBatch _ _ _ _ => false

end Request

def Outcome.views : Outcome → List DeliveredMediaView
  | .resolved views => views
  | .processed _ | .moderated _ | .deleted _ => []

/-- If the asset is stored, it is not deliverable. -/
def Undelivered (id : AssetId) (w : World) : Prop := ∀ asset, w.assets id = some asset → asset.isDeliverable = false

/-- Deliverable copies are of deliverable assets. -/
def World.Coherent (w : World) : Prop :=
  ∀ id copy, w.cached id = some copy → copy.isDeliverable = true →
    ∃ asset, w.assets id = some asset ∧ asset.isDeliverable = true

/-- What the stores say of an asset that is down. -/
def Truthful (assetId : AssetId) : (op : Op) → Except MediaError op.Reply → Prop
  | .findById _, .ok (some asset) | .getCached _, .ok (some asset) => asset.id = assetId → asset.isDeliverable = false
  | _, _ => True

def Withheld (assetId : AssetId) (view : DeliveredMediaView) : Prop := view.assetId = assetId → view.renditions = []

theorem yields_load (id : AssetId) : (load id).Yields (Truthful assetId) fun loaded =>
    ∀ asset, loaded = some asset → asset.id = assetId → asset.isDeliverable = false := by
  intro ans true_
  rcases ans with hf | hit | copy
  case ok.some =>
    intro asset eq
    cases eq
    exact true_
  all_goals
    refine .perform fun stored true_ => ?_
    cases stored with
    | none =>
      intro asset ha
      cases ha
    | some =>
      intro _ _ asset eq
      cases eq
      exact true_

theorem yields_resolveAsset (down : asset.id = assetId → asset.isDeliverable = false) :
    (resolveAsset preferred visibility now asset).Yields (Truthful assetId) (Withheld assetId) := by
  unfold resolveAsset
  split
  · rename_i deliverable
    have another : asset.id ≠ assetId := by
      intro eq
      rw [down eq] at deliverable
      cases deliverable
    exact .bind (.of_forall (fun _ => trivial)) fun _ (_ : True) eq => absurd eq another
  · intro _
    rfl

theorem yields_resolveDelivery (id : AssetId) :
    (resolveDelivery preferred visibility now formats id).Yields (Truthful assetId) (Withheld assetId) := by
  refine .bind (yields_load id) fun loaded down => ?_
  cases loaded with
  | none => trivial
  | some asset => exact yields_resolveAsset (down asset rfl)

theorem yields_resolveBatch : ∀ out, (∀ view ∈ out, Withheld assetId view) →
    (resolveBatch preferred visibility now ids out).Yields (Truthful assetId) fun views =>
      ∀ view ∈ views, Withheld assetId view := by
  induction ids with
  | nil =>
    intro out withheld
    exact withheld
  | cons id _ ih =>
    intro out withheld
    refine .bind (yields_load id) fun loaded down => ?_
    cases loaded with
    | none => exact ih out withheld
    | some asset =>
      refine .bind (yields_resolveAsset (down asset rfl)) fun view h => ?_
      apply ih
      intro he mem
      cases List.mem_append.mp mem with
      | inl old => exact withheld he old
      | inr new =>
        cases List.mem_singleton.mp new
        exact h

theorem yields_program (req : Request) :
    (req.program formats).Yields (Truthful assetId) fun out =>
      ∀ view ∈ out.views, Withheld assetId view := by
  have none_ : ∀ view ∈ ([] : List DeliveredMediaView), Withheld assetId view := by
    intro view mem
    cases mem
  cases req with
  | process | transcode | moderate | delete => exact .bind (.of_forall (fun _ => trivial)) fun _ (_ : True) => none_
  | resolve id =>
    refine .bind (yields_resolveDelivery id) fun view withheld => ?_
    intro other mem
    cases List.mem_singleton.mp mem
    exact withheld
  | resolveBatch ids =>
    exact .bind (yields_resolveBatch [] none_) fun views withheld => withheld

variable {formats : Formats} {pool : Traffic} {move : Move Request Event} {assetId : AssetId} {w : World}

/-- What a takedown has saved, or has not found, is not deliverable. -/
def Revoked (_ : Request) (w : World) : Heard Op Op.Reply MediaError → Prop
  | ⟨.save after, .ok _⟩ => Undelivered after.id w
  | ⟨.findById id, .ok none⟩ => Undelivered id w
  | _ => True

structure Guarded (pool : Traffic) : Prop where
  sound : Sound pool
  only : ∀ caller call, pool.calls caller = some call → call.request.publishesNothing = true
  coherent : pool.world.Coherent
  revoked : pool.Attested Revoked

theorem undeliverable_of_writes {req : Request} (only : req.publishesNothing = true)
    (hw : req.Writes found after) : after.isDeliverable = false := by
  cases req with
  | moderate _ action =>
    cases action with
    | quarantine => rw [Asset.isDeliverable, hw.2]; rfl
    | restore => cases only
  | delete => rw [Asset.isDeliverable, hw]; rfl
  | process | transcode => cases only
  | resolve | resolveBatch => exact hw.elim

theorem Guarded.saves (guarded : Guarded pool) {caller : Nat} {req : Request}
    {rest : Except MediaError Unit → Calling Outcome}
    (hw : pool.calls caller = some ⟨req, .call (.save after) rest, heard⟩) : after.isDeliverable = false := by
  obtain ⟨_, _, -, -, -, writes⟩ := (guarded.sound.conforming caller _ hw).1
  exact undeliverable_of_writes (guarded.only caller _ hw) writes

theorem undelivered_save (down : after.isDeliverable = false)
    (hu : after.id = assetId ∨ Undelivered assetId w) : Undelivered assetId (w.save after) := by
  intro asset h
  cases update_cases h with
  | inl new =>
    cases new.2
    exact down
  | inr old =>
    cases hu with
    | inl own => exact absurd own.symm old.1
    | inr before => exact before asset old.2

theorem Guarded.undelivered_step (guarded : Guarded pool) (hs : (host formats).Steps pool move next)
    (hu : Undelivered assetId pool.world) : Undelivered assetId next.world := by
  cases hs with
  | begun _ ha =>
    cases ha
    exact hu
  | crashed => exact hu
  | @elapsed ev _ hc =>
    cases ev with
    | engines | expire =>
      cases hc
      exact hu
  | @advanced _ _ op _ _ svc waiting =>
    cases svc with
    | refused => exact hu
    | served | replyLost =>
      cases op with
      | save => exact undelivered_save (guarded.saves waiting) (.inr hu)
      | _ => exact hu

theorem World.Coherent.save (kept : w.Coherent) (free : (w.cached after.id).any Asset.isDeliverable = false) :
    (w.save after).Coherent := by
  intro id copy h deliverable
  obtain ⟨asset, stored, ready⟩ := kept id copy h deliverable
  by_cases here : id = after.id
  · subst here
    have h : w.cached after.id = some copy := h
    rw [h, any_some, deliverable] at free
    cases free
  · exact ⟨asset, (Function.update_of_ne here ..).trans stored, ready⟩

theorem World.Coherent.putCached (kept : w.Coherent)
    (fits : asset.isDeliverable = true → (w.assets asset.id).any Asset.isDeliverable = true) :
    (w.putCached asset).Coherent := by
  exact forall_update kept fun deliverable => (any_eq_true _ _).mp (fits deliverable)

theorem World.Coherent.dropCached (kept : w.Coherent) (id : AssetId) : (w.dropCached id).Coherent := by
  intro other copy h deliverable
  exact kept other copy (of_update_none h) deliverable

section

variable (guarded : Guarded pool)

include guarded

theorem Guarded.coherent_step (fits : Media.coherent pool move = true) (hs : (host formats).Steps pool move next) :
    next.world.Coherent := by
  cases hs with
  | begun _ ha =>
    cases ha
    exact guarded.coherent
  | crashed => exact guarded.coherent
  | @elapsed ev _ hc =>
    cases ev with
    | engines =>
      cases hc
      exact guarded.coherent
    | expire id =>
      cases hc
      exact guarded.coherent.dropCached id
  | @advanced _ _ op _ _ svc hw =>
    cases svc with
    | refused => exact guarded.coherent
    | served | replyLost =>
      cases op with
      | save =>
        simp only [Media.coherent, hw, guarded.saves hw, Bool.false_or, Bool.not_eq_true'] at fits
        exact guarded.coherent.save fits
      | putCached =>
        simp only [Media.coherent, hw, Bool.or_eq_true, Bool.not_eq_true'] at fits
        apply guarded.coherent.putCached
        intro deliverable
        cases fits with
        | inl down =>
          rw [deliverable] at down
          cases down
        | inr stored => exact stored
      | dropCached id => exact guarded.coherent.dropCached id
      | _ => exact guarded.coherent

theorem Guarded.revoked_step (hs : (host formats).Steps pool move next) : next.Attested Revoked := by
  refine guarded.revoked.step hs ?_ ?_
  · intro req entry hb
    obtain ⟨op, ans⟩ := entry
    cases op with
    | save =>
      cases ans with
      | ok => exact guarded.undelivered_step hs hb
      | error => trivial
    | findById =>
      cases ans with
      | error => trivial
      | ok found =>
        cases found with
        | none => exact guarded.undelivered_step hs hb
        | some => trivial
    | _ => trivial
  · intro caller req op rest heard svc _ hw
    cases svc with
    | refused | replyLost => cases op <;> trivial
    | served =>
      cases op with
      | save => exact undelivered_save (guarded.saves hw) (.inl rfl)
      | findById id =>
        show Revoked req pool.world ⟨.findById id, .ok (pool.world.assets id)⟩
        cases ha : pool.world.assets id with
        | some => trivial
        | none =>
          intro asset h
          rw [ha] at h
          cases h
      | _ => trivial

theorem Guarded.step (only : ∀ caller request, move = .begin caller request → request.publishesNothing = true)
    (fits : Media.coherent pool move = true) (hs : (host formats).Steps pool move next) : Guarded next := by
  refine ⟨guarded.sound.step hs, ?_, guarded.coherent_step fits hs, guarded.revoked_step hs⟩
  intro caller call h
  cases hs.origin h with
  | old hb => exact guarded.only caller call hb
  | begun moved => exact only _ _ moved
  | advanced _ _ hw =>
    have hb := guarded.only _ _ hw
    exact hb

theorem Guarded.undelivered (h : pool.calls caller = some call) (down : call.request.takesDown assetId = true)
    (hr : call.returned = some outcome) : Undelivered assetId pool.world := by
  have conforms := guarded.sound.conforming caller call h
  rw [Call.returned_eq_some.mp hr] at conforms
  have he : (call.request.Saved call.heard ∨ call.request.Missed call.heard) ∧
      call.request.target = some assetId := by
    obtain ⟨req, _, _⟩ := call
    cases req with
    | moderate _ action =>
      cases action with
      | quarantine => exact ⟨conforms, congrArg some (eq_of_beq down)⟩
      | restore => cases down
    | delete => exact ⟨.inl conforms, congrArg some (eq_of_beq down)⟩
    | process | transcode | resolve | resolveBatch => cases down
  obtain ⟨he, about⟩ := he
  cases he with
  | inl hv =>
    obtain ⟨id, hf, after, about', mem, eq, -, stored⟩ := hv
    have own : hf.id = id := guarded.sound.genuine caller call h _ mem
    have here : after.id = assetId := by
      rw [eq, own]
      exact some.inj (about'.symm.trans about)
    have revoked : Undelivered after.id pool.world := guarded.revoked caller call h _ stored
    exact here ▸ revoked
  | inr missed =>
    obtain ⟨id, about', mem⟩ := missed
    have revoked : Undelivered id pool.world := guarded.revoked caller call h _ mem
    exact some.inj (about'.symm.trans about) ▸ revoked

theorem Guarded.truthful (hu : Undelivered assetId pool.world) (op : Op) (svc : Service) :
    Truthful assetId op (server.perform pool.world op svc).2 := by
  cases svc with
  | refused | replyLost => cases op <;> trivial
  | served =>
    cases op with
    | findById id =>
      show Truthful assetId (.findById id) (.ok (pool.world.assets id))
      cases stored : pool.world.assets id with
      | none => trivial
      | some asset =>
        intro eq
        have own := guarded.sound.filed.assets id asset stored
        apply hu asset
        rw [← eq, own]
        exact stored
    | getCached id =>
      show Truthful assetId (.getCached id) (.ok (pool.world.cached id))
      cases stored : pool.world.cached id with
      | none => trivial
      | some copy =>
        intro eq
        have own := guarded.sound.filed.cached id copy stored
        rw [Bool.eq_false_iff]
        intro deliverable
        obtain ⟨asset, there, ready⟩ := guarded.coherent id copy stored deliverable
        rw [own] at eq
        subst eq
        rw [hu asset there] at ready
        cases ready
    | resolve key visibility now =>
      trivial
    | scan | screen | derive | transcode => trivial
    | _ => trivial

theorem Guarded.run {reader : Nat} {moves : List (Move Request Event)} {last : Traffic}
    (undelivered : Undelivered assetId pool.world)
    (hp : pool.Promised reader (Truthful assetId) fun out => ∀ view ∈ out.views, Withheld assetId view)
    (only : ∀ caller req, .begin caller req ∈ moves → req.publishesNothing = true)
    (fits : (host formats).machine.Meets (fun pool move => Media.coherent pool move = true) pool moves)
    (ran : (host formats).machine.run pool moves = some last) :
    last.Promised reader (Truthful assetId) fun out => ∀ view ∈ out.views, Withheld assetId view := by
  have hb : ∀ move ∈ moves, ∀ caller req, move = .begin caller req → req.publishesNothing = true := by
    intro move mem caller req eq
    exact only caller req (eq ▸ mem)
  suffices all : Guarded last ∧ Undelivered assetId last.world ∧ last.Promised reader (Truthful assetId) fun out =>
      ∀ view ∈ out.views, Withheld assetId view from all.2.2
  refine Host.run_keeps (fun s => Guarded s ∧ Undelivered assetId s.world ∧ s.Promised reader _ _) ?_
    ⟨guarded, undelivered, hp⟩ (fits.only hb) ran
  intro s move next kept allowed steps
  obtain ⟨guarded, undelivered, hp⟩ := kept
  refine ⟨guarded.step allowed.1 allowed.2 steps, guarded.undelivered_step steps undelivered, ?_⟩
  refine hp.step steps (guarded.truthful undelivered) fun ha => ?_
  cases ha
  exact yields_program _

end

theorem guarded_of_run (hb : (host formats).machine.init start) (kept : start.world.Coherent)
    (only : ∀ caller req, .begin caller req ∈ moves → req.publishesNothing = true)
    (fits : (host formats).machine.Meets (fun pool move => Media.coherent pool move = true) start moves)
    (ran : (host formats).machine.run start moves = some pool) : Guarded pool := by
  have initially : Guarded start := by
    refine ⟨sound_of_init hb, ?_, kept, ?_⟩
    · intro caller call h
      rw [hb.2] at h
      cases h
    · intro caller call h
      rw [hb.2] at h
      cases h
  have free : ∀ move ∈ moves, ∀ caller req, move = .begin caller req → req.publishesNothing = true := by
    intro move mem caller req eq
    exact only caller req (eq ▸ mem)
  exact Host.run_keeps Guarded (fun guarded allowed hs => guarded.step allowed.1 allowed.2 hs) initially
    (fits.only free) ran

/-- Whoever asks after a takedown has returned gets no rendition of the asset, provided that no
takedown saves over a deliverable copy and none is put beside an asset that is not deliverable. -/
theorem coherent_cache_withholds (formats : Formats) (start before pool : Traffic)
    (first rest : List (Move Request Event)) (begins : (host formats).machine.init start)
    (kept : start.world.Coherent) {reader : Nat} {request : Request}
    (only : ∀ caller other, .begin caller other ∈ first ++ .begin reader request :: rest →
      other.publishesNothing = true)
    (fits : (host formats).machine.Meets (fun pool move => Media.coherent pool move = true) start
      (first ++ .begin reader request :: rest))
    (reached : (host formats).machine.run start first = some before)
    (ran : (host formats).machine.run before (.begin reader request :: rest) = some pool) {assetId : AssetId}
    {caller : Nat} {takedown : Call Request Op Op.Reply MediaError Outcome} {done : Outcome}
    (held : before.calls caller = some takedown) (down : takedown.request.takesDown assetId = true)
    (returned : takedown.returned = some done) {call : Call Request Op Op.Reply MediaError Outcome}
    {outcome : Outcome} (asked : pool.calls reader = some call) (answered : call.returned = some outcome) :
    ∀ view ∈ outcome.views, view.assetId = assetId → view.renditions = [] := by
  have earlier : ∀ caller other, .begin caller other ∈ first → other.publishesNothing = true :=
    fun caller other member => only caller other (List.mem_append_left _ member)
  have later : ∀ caller other, .begin caller other ∈ .begin reader request :: rest → other.publishesNothing = true :=
    fun caller other member => only caller other (List.mem_append_right _ member)
  have guarded : Guarded before := guarded_of_run begins kept earlier fits.first reached
  have undelivered := guarded.undelivered held down returned
  -- the reader has not begun yet
  have free : before.calls reader = none := by
    obtain ⟨begun, stepped, -⟩ := (host formats).machine.run_cons_iff.mp ran
    have steps : (host formats).Steps before (.begin reader request) begun := Host.step_steps stepped
    cases steps with
    | begun free => exact free
  have promised : before.Promised reader (Truthful assetId) fun outcome =>
      ∀ view ∈ outcome.views, Withheld assetId view := by
    intro call held
    rw [free] at held
    cases held
  have yields := guarded.run undelivered promised later (fits.rest reached) ran call asked
  rw [Call.returned_eq_some.mp answered] at yields
  exact yields

namespace Sample

def published : Asset := { image with state := .ready, renditions := [original] }

/-- A reader, the quarantine, and then another reader. -/
def readBefore : List (Move Request Event) :=
  .begin 0 (.resolve 1 none none 4) :: proceed 0 4 ++ .begin 1 (.moderate 1 .quarantine 5) :: proceed 1 5

theorem read_before_withheld : ∃ pool outcome, (host plain).machine.run (stores published)
      (readBefore ++ .begin 2 (.resolve 1 none none 6) :: proceed 2 3) = some pool ∧
    ((pool.calls 2).bind Call.returned) = some outcome ∧
    ∀ view ∈ outcome.views, view.assetId = 1 → view.renditions = [] := by
  obtain ⟨before, reached, takedown, held, request, ended⟩ : ∃ before,
      (host plain).machine.run (stores published) readBefore = some before ∧ ∃ call, before.calls 1 = some call ∧
        call.request = .moderate 1 .quarantine 5 ∧ call.returned.isSome = true := by decide +kernel
  obtain ⟨pool, ran, _, asked, answered⟩ : ∃ pool, (host plain).machine.run (stores published)
      (readBefore ++ .begin 2 (.resolve 1 none none 6) :: proceed 2 3) = some pool ∧
        ∃ call, pool.calls 2 = some call ∧ call.returned.isSome = true := by decide +kernel
  have fits : (host plain).machine.Meets (fun pool move => Media.coherent pool move = true) (stores published)
      (readBefore ++ .begin 2 (.resolve 1 none none 6) :: proceed 2 3) := by decide +kernel
  obtain ⟨_, returned⟩ := Option.isSome_iff_exists.mp ended
  obtain ⟨outcome, answered⟩ := Option.isSome_iff_exists.mp answered
  have ran' := ran
  rw [(host plain).machine.run_append, reached, Option.bind_some] at ran'
  have down : takedown.request.takesDown 1 = true := by
    rw [request]
    decide
  have kept : (stores published).world.Coherent := by
    intro id copy held
    cases held
  have only : ∀ caller other, Move.begin caller other ∈
      readBefore ++ .begin 2 (.resolve 1 none none 6) :: proceed 2 3 → other.publishesNothing = true := by
    intro caller other member
    simp only [readBefore, proceed, List.replicate, List.cons_append, List.nil_append, List.mem_cons, List.not_mem_nil,
      Move.begin.injEq, reduceCtorEq, false_or, or_false] at member
    rcases member with ⟨-, rfl⟩ | ⟨-, rfl⟩ | ⟨-, rfl⟩ <;> rfl
  exact ⟨pool, outcome, ran, Option.bind_eq_some_iff.mpr ⟨_, asked, answered⟩, coherent_cache_withholds plain
    (stores published) before pool readBefore (proceed 2 3) stores_begins kept only fits reached ran' held
    down returned asked answered⟩

/-- The reader looks and puts its copy between the quarantine's drop and its save. -/
def refilled : List (Move Request Event) :=
  .begin 0 (.moderate 1 .quarantine 4) :: proceed 0 3 ++ .begin 1 (.resolve 1 none none 5) :: proceed 1 4 ++ proceed 0 2

/-- The reader looks before the deletion and puts its copy after it. -/
def filledLate : List (Move Request Event) :=
  .begin 1 (.resolve 1 none none 4) :: proceed 1 2 ++ .begin 0 (.delete 1 2 5) :: proceed 0 7 ++ proceed 1 2

/-- A takedown returns with `done`, and a reader that begins after it is given renditions. -/
def Leaks (moves : List (Move Request Event)) (done : Outcome) : Prop :=
  ∃ before pool outcome, (host plain).machine.run (stores published) moves = some before ∧
    (before.calls 0).bind Call.returned = some done ∧
    (host plain).machine.run before (.begin 2 (.resolve 1 none none 9) :: proceed 2 2) = some pool ∧
    (pool.calls 2).bind Call.returned = some outcome ∧
    ∃ view ∈ outcome.views, view.assetId = 1 ∧ view.renditions ≠ []

/-- A ready copy put into the cache on either side of the save is delivered from then on. -/
theorem delivered_after_takedown :
    Leaks refilled (.moderated ⟨true, some .quarantined⟩) ∧ Leaks filledLate (.deleted ⟨true⟩) := by
  simp only [Leaks, exists_and_left]
  decide +kernel

end Sample
end CorePlatform.Media
