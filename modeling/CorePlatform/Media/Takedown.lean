import CorePlatform.Media.Commands

/-! # How long a takedown lasts

A save replaces the stored document by what its command made of the one it had found, whatever was
stored in between. So a pipeline that found the asset uploaded makes it ready although it was
quarantined or deleted meanwhile, and a quarantine brings back a deleted asset.

As long as every save finds the asset as its command found it, the stored states follow the rules of
the aggregate: only a restore leads out of the quarantine, and nothing out of the deletion. -/

namespace CorePlatform.Media

open Theory Function List

/-- A save finds the asset as its command found it. -/
def undisturbed (pool : Traffic) : Move Request Event → Bool
  | .advance caller _ =>
    match pool.calls caller with
    | some ⟨_, .call (.save after) _, heard⟩ => decide (pool.world.assets after.id = lastFound heard)
    | _ => true
  | .begin _ _ | .crash _ | .elapse _ => true

def Restoring (assetId : AssetId) (pool : Traffic) : Prop :=
  ∃ caller call now, pool.calls caller = some call ∧ call.request = .moderate assetId .restore now ∧
    call.program.ended = false

/-- A command replaces the stored asset by what it made of it. -/
structure Replaces (pool next : Traffic) (id : AssetId) (request : Request) (found after : Asset) : Prop where
  waits : ∃ caller call, pool.calls caller = some call ∧ call.request = request ∧ call.program.ended = false
  about : request.target = some id
  before : pool.world.assets id = some found
  writes : request.Writes found after
  stored : next.world.assets id = some after.document

theorem perform_assets (hu : op.Unsaving) : (server.perform w op svc).1.assets = w.assets := by
  cases svc with
  | refused => rfl
  | served | replyLost =>
    cases op with
    | save => exact hu.elim
    | _ => rfl

variable {formats : Formats} {pool next : Traffic} {move : Move Request Event} {id : AssetId} {caller : Nat}

theorem Sound.saves (inv : Sound pool) {req : Request} {after : Asset}
    {rest : Except MediaError Unit → Calling Outcome}
    (hw : pool.calls caller = some ⟨req, .call (.save after) rest, heard⟩) :
    ∃ found, lastFound heard = some found ∧ req.target = some after.id ∧ req.Writes found after := by
  obtain ⟨id, found, about, hk, eq, writes⟩ := (inv.conforming caller _ hw).1
  have own : found.id = id := inv.genuine caller _ hw _ hk.member
  refine ⟨found, hk.last, ?_, writes⟩
  rw [about, eq, own]

theorem Sound.document_step (inv : Sound pool) (fits : undisturbed pool move = true)
    (hs : (host formats).Steps pool move next) :
    next.world.assets id = pool.world.assets id ∨ ∃ req found after, Replaces pool next id req found after := by
  cases hs with
  | begun _ ha =>
    cases ha
    exact .inl rfl
  | crashed => exact .inl rfl
  | @elapsed event _ hc =>
    cases event with
    | engines | expire =>
      cases hc
      exact .inl rfl
  | @advanced caller req op _ _ svc hw =>
    cases op with
    | save after =>
      obtain ⟨found, last, about, writes⟩ := inv.saves hw
      simp only [undisturbed, hw, decide_eq_true_eq] at fits
      by_cases here : id = after.id
      · subst here
        have waits : ∃ caller call, pool.calls caller = some call ∧ call.request = req ∧
            call.program.ended = false := ⟨caller, _, hw, rfl, rfl⟩
        have hb : pool.world.assets after.id = some found := fits.trans last
        cases svc with
        | refused => exact .inl rfl
        | served => exact .inr ⟨req, found, after, waits, about, hb, writes, update_self ..⟩
        | replyLost =>
          exact .inr ⟨req, found, after, waits, about, hb, writes, update_self ..⟩
      have other : (pool.world.save after).assets id = pool.world.assets id := update_of_ne here ..
      cases svc with
      | refused => exact .inl rfl
      | served | replyLost => exact .inl other
    | _ => exact .inl (congrFun (perform_assets (by trivial)) id)

/-- If the asset is stored, it is quarantined or deleted. -/
def Down (id : AssetId) (w : World) : Prop :=
  ∀ asset, w.assets id = some asset → asset.state = .quarantined ∨ asset.state = .deleted

def Deleted (id : AssetId) (w : World) : Prop := ∃ asset, w.assets id = some asset ∧ asset.state = .deleted

theorem Sound.deleted_step (inv : Sound pool) (fits : undisturbed pool move = true)
    (hs : (host formats).Steps pool move next) (hd : Deleted id pool.world) : Deleted id next.world := by
  obtain ⟨asset, h, state⟩ := hd
  cases inv.document_step fits hs with
  | inl eq => exact ⟨asset, eq.trans h, state⟩
  | inr replaced =>
    obtain ⟨req, hf, after, replaces⟩ := replaced
    have first : hf = asset := Option.some.inj (replaces.before.symm.trans h)
    subst first
    refine ⟨after.document, replaces.stored, ?_⟩
    have writes := replaces.writes
    cases req with
    | process | transcode => rw [writes] at state; cases state
    | moderate _ action =>
      cases action with
      | quarantine => exact absurd state writes.1
      | restore => rw [writes] at state; cases state
    | delete => exact writes
    | resolve | resolveBatch => exact writes.elim

theorem Sound.down_step (inv : Sound pool) (fits : undisturbed pool move = true)
    (hs : (host formats).Steps pool move next) (hu : ¬ Restoring id pool) (down : Down id pool.world) :
    Down id next.world := by
  cases inv.document_step fits hs with
  | inl eq =>
    intro asset h
    exact down asset (eq.symm.trans h)
  | inr replaced =>
    obtain ⟨req, hf, _, replaces⟩ := replaced
    intro asset h
    cases replaces.stored.symm.trans h
    have hb := down hf replaces.before
    have writes := replaces.writes
    cases req with
    | process | transcode => rw [writes] at hb; simp at hb
    | moderate _ action now =>
      cases action with
      | quarantine => exact .inl writes.2
      | restore =>
        obtain ⟨caller, call, hw, eq, waits⟩ := replaces.waits
        cases replaces.about
        exact absurd ⟨caller, call, now, hw, eq, waits⟩ hu
    | delete => exact .inr writes
    | resolve | resolveBatch => exact writes.elim

theorem not_restoring_step (hu : ¬ Restoring id pool)
    (hun : ∀ caller now, move ≠ .begin caller (.moderate id .restore now))
    (hs : (host formats).Steps pool move next) : ¬ Restoring id next := by
  rintro ⟨caller, call, now, h, eq, waits⟩
  cases hs.origin h with
  | old hb => exact hu ⟨caller, call, now, hb, eq, waits⟩
  | begun moved =>
    cases eq
    exact hun _ now moved
  | advanced _ _ hw => exact hu ⟨_, _, now, hw, eq, rfl⟩

/-- What a deletion has saved is deleted. -/
def Tombstoned : Request → World → Heard Op Op.Reply MediaError → Prop
  | .delete _ _ _, w, ⟨.save after, .ok _⟩ => Deleted after.id w
  | _, _, _ => True

theorem Sound.tombstoned_step (inv : Sound pool) (fits : undisturbed pool move = true)
    (hs : (host formats).Steps pool move next) (ht : pool.Attested Tombstoned) :
    next.Attested Tombstoned := by
  refine ht.step hs ?_ ?_
  · intro req entry hb
    obtain ⟨op, ans⟩ := entry
    cases req with
    | delete =>
      cases op with
      | save =>
        cases ans with
        | ok => exact inv.deleted_step fits hs hb
        | error => trivial
      | _ => trivial
    | _ => trivial
  · intro caller req op rest heard svc _ hw
    cases req with
    | delete =>
      cases op with
      | save after =>
        obtain ⟨_, -, -, deleted⟩ := inv.saves hw
        cases svc with
        | served => exact ⟨after.document, update_self .., deleted⟩
        | refused | replyLost => trivial
      | _ => trivial
    | _ => trivial

/-- The quarantine has saved, or there was nothing to save. -/
def Carried (id : AssetId) (heard : Answers) : Prop :=
  ⟨.findById id, .ok none⟩ ∈ heard ∨ ∃ after : Asset, after.id = id ∧ ⟨.save after, .ok ()⟩ ∈ heard

/-- No restore is under way, and if the caller's quarantine has been carried out, the asset is down. -/
structure Standing (caller : Nat) (id : AssetId) (pool : Traffic) : Prop where
  unrestored : ¬ Restoring id pool
  down : ∀ call now, pool.calls caller = some call → call.request = .moderate id .quarantine now →
    Carried id call.heard → Down id pool.world

theorem Sound.down_of_carried (inv : Sound pool)
    (hw : pool.calls caller = some ⟨.moderate id .quarantine now, .call op rest, heard⟩)
    (hc : Carried id [⟨op, (server.perform pool.world op svc).2⟩]) :
    Down id (server.perform pool.world op svc).1 := by
  cases hc with
  | inl missed =>
    have eq := mem_singleton.mp missed
    cases op with
    | findById =>
      cases svc with
      | served =>
        simp only [Server.perform, server, World.serve, Sigma.mk.injEq, Op.findById.injEq] at eq
        obtain ⟨rfl, ha⟩ := eq
        have ha := Except.ok.inj (eq_of_heq ha)
        intro asset h
        have h : pool.world.assets id = some asset := h
        rw [← ha] at h
        cases h
      | refused | replyLost => cases eq
    | _ => cases eq
  | inr hv =>
    obtain ⟨after, own, mem⟩ := hv
    have eq := mem_singleton.mp mem
    cases op with
    | save =>
      cases svc with
      | served =>
        cases eq
        subst own
        obtain ⟨_, -, -, -, h⟩ := inv.saves hw
        intro asset stored
        have stored' : (pool.world.save after).assets after.id = some asset := stored
        have self : (pool.world.save after).assets after.id = some after.document := update_self ..
        cases self.symm.trans stored'
        exact .inl h
      | refused | replyLost => cases eq
    | _ => cases eq

theorem Standing.step (hst : Standing caller id pool) (inv : Sound pool) (fits : undisturbed pool move = true)
    (hu : ∀ other now, move ≠ .begin other (.moderate id .restore now))
    (hs : (host formats).Steps pool move next) : Standing caller id next := by
  refine ⟨not_restoring_step hst.unrestored hu hs, ?_⟩
  have lasts : Down id pool.world → Down id next.world := inv.down_step fits hs hst.unrestored
  intro call now h eq carried
  cases hs.origin h with
  | old before => exact lasts (hst.down call now before eq carried)
  | begun =>
    obtain missed | ⟨after, -, mem⟩ := carried
    · cases missed
    · cases mem
  | @advanced _ _ _ heard _ _ waiting left =>
    cases eq
    -- either an earlier answer says so already, or the newest one does
    by_cases earlier : Carried id heard
    · exact lasts (hst.down _ now waiting rfl earlier)
    rw [left]
    apply inv.down_of_carried waiting
    cases carried with
    | inl missed =>
      cases mem_cons.mp missed with
      | inl newest => exact .inl (newest ▸ mem_singleton_self _)
      | inr old => exact absurd (.inl old) earlier
    | inr hv =>
      obtain ⟨after, own, mem⟩ := hv
      cases mem_cons.mp mem with
      | inl newest => exact .inr ⟨after, own, newest ▸ mem_singleton_self _⟩
      | inr old => exact absurd (.inr ⟨after, own, old⟩) earlier

theorem Standing.run (hs : Standing caller id pool) (inv : Sound pool) {moves : List (Move Request Event)}
    (fits : (host formats).machine.Meets (fun pool move => undisturbed pool move = true) pool moves)
    (hu : ∀ other now, .begin other (.moderate id .restore now) ∉ moves) {last : Traffic}
    (ran : (host formats).machine.run pool moves = some last) : Standing caller id last := by
  have only : ∀ move ∈ moves, ∀ other now, move ≠ .begin other (.moderate id .restore now) := by
    intro move mem other now eq
    exact hu other now (eq ▸ mem)
  suffices all : Sound last ∧ Standing caller id last from all.2
  refine Host.run_keeps (fun s => Sound s ∧ Standing caller id s) ?_ ⟨inv, hs⟩ (fits.only only) ran
  intro s move next kept allowed steps
  exact ⟨kept.1.step steps, kept.2.step kept.1 allowed.2 allowed.1 steps⟩

theorem standing_of_begun (hu : ¬ Restoring id before)
    (hs : (host formats).Steps before (.begin caller (.moderate id .quarantine now)) next) :
    Standing caller id next := by
  refine ⟨not_restoring_step hu (fun other at_ eq => ?_) hs, ?_⟩
  · cases eq
  intro call at_ h _ carried
  cases hs with
  | begun =>
    cases update_cases h with
    | inl new =>
      cases new.2
      obtain missed | ⟨after, -, mem⟩ := carried
      · cases missed
      · cases mem
    | inr old => exact absurd rfl old.1

theorem Sound.carried (inv : Sound pool) (h : pool.calls caller = some call)
    (is : call.request = .moderate id .quarantine now) (hr : call.returned = some outcome) :
    Carried id call.heard := by
  have conforms := inv.conforming caller call h
  rw [Call.returned_eq_some.mp hr, is] at conforms
  cases conforms with
  | inl hv =>
    obtain ⟨target, hf, after, about, mem, eq, -, stored⟩ := hv
    cases about
    have own : hf.id = id := inv.genuine caller call h _ mem
    exact .inr ⟨after, eq.trans own, stored⟩
  | inr missed =>
    obtain ⟨_, about, mem⟩ := missed
    cases about
    exact .inl mem

/-- Once a quarantine has returned that no restore overlaps or follows, the stored asset is not
ready, and once a deletion has returned, it is deleted, provided that every save finds the asset as
its command found it. -/
theorem undisturbed_takedown_sticks (formats : Formats) (start pool : Traffic) (moves : List (Move Request Event))
    (begins : (host formats).machine.init start)
    (fits : (host formats).machine.Meets (fun pool move => undisturbed pool move = true) start moves)
    (ran : (host formats).machine.run start moves = some pool) (assetId : AssetId) :
    (∀ first before caller now rest call outcome,
      moves = first ++ .begin caller (.moderate assetId .quarantine now) :: rest →
      (host formats).machine.run start first = some before → ¬ Restoring assetId before →
      (∀ other at_, .begin other (.moderate assetId .restore at_) ∉ rest) →
      pool.calls caller = some call → call.request = .moderate assetId .quarantine now →
      call.returned = some outcome →
      ∀ asset, pool.world.assets assetId = some asset → asset.state ≠ .ready) ∧
    ∀ caller call ownerId now outcome, pool.calls caller = some call → call.request = .delete assetId ownerId now →
      call.returned = some outcome → ∃ asset, pool.world.assets assetId = some asset ∧ asset.state = .deleted := by
  have initially : Sound start ∧ start.Attested Tombstoned := by
    refine ⟨sound_of_init begins, ?_⟩
    intro id call held
    rw [begins.2] at held
    cases held
  obtain ⟨sound, tombstoned⟩ : Sound pool ∧ pool.Attested Tombstoned := by
    refine Host.run_keeps (fun s => Sound s ∧ s.Attested Tombstoned) ?_ initially fits ran
    intro s move next kept fits steps
    exact ⟨kept.1.step steps, kept.1.tombstoned_step fits steps kept.2⟩
  constructor
  · intro first before caller now rest call outcome split reached unrestored unasked held is returned asset stored
    subst split
    rw [(host formats).machine.run_append, reached, Option.bind_some] at ran
    obtain ⟨begun, stepped, ran⟩ := (host formats).machine.run_cons_iff.mp ran
    have steps : (host formats).Steps before (.begin caller (.moderate assetId .quarantine now)) begun :=
      Host.step_steps stepped
    have earlier : Sound before := sound_of_run begins reached
    have standing : Standing caller assetId pool :=
      (standing_of_begun unrestored steps).run (earlier.step steps) ((fits.rest reached).2 begun stepped) unasked ran
    have down := standing.down call now held is (sound.carried held is returned) asset stored
    intro ready
    rw [ready] at down
    simp at down
  · intro caller call ownerId now outcome held is returned
    have conforms := sound.conforming caller call held
    rw [Call.returned_eq_some.mp returned, is] at conforms
    obtain ⟨_, found, after, about, member, same, -, stored⟩ := conforms
    cases about
    have own : found.id = assetId := sound.genuine caller call held _ member
    have deleted := tombstoned caller call held _ stored
    rw [is] at deleted
    obtain ⟨asset, there, state⟩ : Deleted after.id pool.world := deleted
    exact ⟨asset, (same.trans own) ▸ there, state⟩

namespace Sample

def plain : Formats := ⟨fun _ => none, fun id => toString id.toNat⟩

def original : Rendition :=
  ⟨.original, "image/jpeg", "post-images/ab/original.jpg", ⟨640, 480, by decide, by decide⟩, 900⟩

def engines : Engines where
  scan _ := .ok .clean
  screen _ _ _ _ := .ok (some ⟨false, false, none⟩)
  derive _ _ _ := .ok ⟨[original], "LEHV6nWB"⟩
  transcode _ _ := .ok ⟨[original], "LEHV6nWB"⟩
  resolve key _ _ := .ok ⟨"/" ++ key, none⟩

def image : Asset where
  id := 1
  ownerId := 2
  kind := .postImage
  state := .uploaded
  declaredMime := "image/jpeg"
  declaredSize := 900
  mimeType := some "image/jpeg"
  byteSize := some 900
  dimensions := some ⟨640, 480, by decide, by decide⟩
  contentHash := some "ab"
  blurhash := none
  renditions := []
  legalHold := false
  priorState := none
  createdAt := 0
  updatedAt := 1
  pendingEvents := []

def stores (asset : Asset) : Traffic :=
  ⟨⟨update (fun _ => none) asset.id (some asset), fun _ => none, [], engines⟩, fun _ => none⟩

theorem stores_begins : (host plain).machine.init (stores asset) := by
  refine ⟨⟨?_, ?_⟩, rfl⟩
  · intro id found h
    have h : update (fun _ => none) asset.id (some asset) id = some found := h
    cases update_cases h with
    | inl new =>
      obtain ⟨rfl, eq⟩ := new
      cases eq
      rfl
    | inr old => cases old.2
  · intro id found h
    cases h

def proceed (caller calls : Nat) : List (Move Request Event) := List.replicate calls (.advance caller .served)

/-- The quarantine runs before the pipeline looks. -/
def inTurn : List (Move Request Event) :=
  .begin 0 (.moderate 1 .quarantine 5) :: (proceed 0 4 ++ .begin 1 (.process 1 6) :: proceed 1 1)

theorem quarantined_in_turn_stays : ∃ pool, (host plain).machine.run (stores image) inTurn = some pool ∧
    ∀ asset, pool.world.assets 1 = some asset → asset.state ≠ .ready := by
  obtain ⟨pool, ran, call, held, request, ended⟩ : ∃ pool, (host plain).machine.run (stores image) inTurn = some pool ∧
      ∃ call, pool.calls 0 = some call ∧ call.request = .moderate 1 .quarantine 5 ∧ call.returned.isSome = true := by
    decide +kernel
  have fits : (host plain).machine.Meets (fun pool move => undisturbed pool move = true) (stores image) inTurn := by
    decide +kernel
  obtain ⟨outcome, returned⟩ := Option.isSome_iff_exists.mp ended
  have unrestored : ¬ Restoring 1 (stores image) := by
    rintro ⟨caller, call, now, held, -⟩
    cases held
  have unasked : ∀ other at_, Move.begin other (.moderate 1 .restore at_) ∉
      (proceed 0 4 ++ .begin 1 (.process 1 6) :: proceed 1 1 : List (Move Request Event)) := by
    intro other at_
    simp [proceed, List.replicate]
  exact ⟨pool, ran, (undisturbed_takedown_sticks plain (stores image) pool inTurn stores_begins fits ran 1).1
    [] (stores image) 0 5 _ call outcome rfl rfl unrestored unasked held request returned⟩

/-- The pipeline looks, the quarantine runs, and then the pipeline goes on. -/
def overtaken : List (Move Request Event) :=
  .begin 0 (.process 1 4) :: proceed 0 1 ++ .begin 1 (.moderate 1 .quarantine 5) :: proceed 1 4 ++ proceed 0 7

/-- The quarantine looks, the deletion runs, and then the quarantine goes on. -/
def revived : List (Move Request Event) :=
  .begin 0 (.moderate 1 .quarantine 4) :: proceed 0 1 ++ .begin 1 (.delete 1 2 5) :: proceed 1 6 ++ proceed 0 3

/-- A quarantine returns, and the asset becomes ready after it; a deletion returns, and it is
quarantined after it. -/
theorem takedown_comes_undone :
    (∃ pool call, (host plain).machine.run (stores image) overtaken = some pool ∧ pool.calls 1 = some call ∧
      call.request = .moderate 1 .quarantine 5 ∧ call.returned = some (.moderated ⟨true, some .quarantined⟩) ∧
      ∃ asset, pool.world.assets 1 = some asset ∧ asset.state = .ready) ∧
    ∃ pool call, (host plain).machine.run (stores image) revived = some pool ∧ pool.calls 1 = some call ∧
      call.request = .delete 1 2 5 ∧ call.returned = some (.deleted ⟨true⟩) ∧
      ∃ asset, pool.world.assets 1 = some asset ∧ asset.state = .quarantined := by
  simp only [exists_and_left]
  decide +kernel

end Sample
end CorePlatform.Media
