import CorePlatform.Moderation.Projection

/-! # The restriction flag agrees with the record

Versions count the enforcements of one subject, so those of two subjects of one actor are in no
order, and there is one flag for all of them.

Two facts tie the flag to the record. `covered`: an enforcement in force has a flag that lasts as
long. `backed`: a flag that stands has an enforcement behind it that lasts as long. Both are up to
the rounding of the expiry, to seconds and to microseconds. They are kept where no write of a flag
is passed over or cuts another enforcement short, and no lifting takes away a flag that another
enforcement needs. -/

namespace CorePlatform.Moderation

open Theory Function List Server
open Auth (Uuid nanosPerSecond numSeconds toMicros toMicros_near numSeconds_near)

/-- How far the expiry of a flag and that of its row can be apart. -/
def slack : Int := nanosPerSecond + 1000

/-- The flag lasts as long as the enforcement. -/
def Restriction.Covers (restriction : Restriction) (row : EnforcementAction) : Prop :=
  ∀ until_, restriction.until_ = some until_ → ∃ expiry, row.expiresAt = some expiry ∧ expiry < until_ + slack

/-- The enforcement lasts as long as the flag. -/
def Restriction.Outlived (restriction : Restriction) (row : EnforcementAction) : Prop :=
  ∀ expiry, row.expiresAt = some expiry → ∃ until_, restriction.until_ = some until_ ∧ until_ < expiry + slack

@[mk_iff] structure World.InForce (w : World) (actorId : ActorId) (row : EnforcementAction) : Prop where
  member : row ∈ w.enforcements.rows
  against : row.actorId = actorId
  actorLevel : row.action.isActorLevel = true
  active : row.isActive w.clock = true

/-- The enforcement that a flag stands for. -/
structure World.Backs (w : World) (actorId : ActorId) (restriction : Restriction) (row : EnforcementAction) : Prop where
  member : row ∈ w.enforcements.rows
  against : row.actorId = actorId
  actorLevel : row.action.isActorLevel = true
  status : row.status = .active
  version : row.version = restriction.version
  outlived : restriction.Outlived row

structure Projected (w : World) : Prop where
  covered : ∀ {actorId row}, w.InForce actorId row →
    ∃ restriction, w.projection actorId = some restriction ∧ restriction.Covers row
  backed : ∀ {actorId restriction}, w.flag actorId = some restriction → ∃ row, w.Backs actorId restriction row
  drawn : ∀ row ∈ w.enforcements.rows, row.id ∈ w.drawn

/-- No expiry of the actor's is within a second. -/
structure World.Quiet (w : World) (actorId : ActorId) : Prop where
  enforcements : ∀ row ∈ w.enforcements.rows, row.actorId = actorId → ∀ expiry, row.expiresAt = some expiry →
    nanosPerSecond ≤ w.clock - expiry ∨ nanosPerSecond ≤ expiry - w.clock
  flag : ∀ restriction until_, w.projection actorId = some restriction → restriction.until_ = some until_ →
    nanosPerSecond ≤ w.clock - until_ ∨ nanosPerSecond ≤ until_ - w.clock

theorem EnforcementAction.isActive_iff {row : EnforcementAction} :
    row.isActive now = true ↔ row.status = .active ∧ ∀ expiry, row.expiresAt = some expiry → now < expiry := by
  unfold isActive hasReachedExpiry
  cases row.expiresAt <;> simp

theorem Projected.agrees {w : World} (hp : Projected w) (hq : w.Quiet actorId) :
    w.isActorRestricted actorId = true ↔ ∃ row, w.InForce actorId row := by
  unfold World.isActorRestricted
  rw [Option.isSome_iff_exists]
  constructor
  · intro restricted
    obtain ⟨restr, flagged⟩ := restricted
    obtain ⟨row, backs⟩ := hp.backed flagged
    obtain ⟨h, ht⟩ := World.flag_eq_some.mp flagged
    refine ⟨row, backs.member, backs.against, backs.actorLevel, ?_⟩
    apply EnforcementAction.isActive_iff.mpr
    refine ⟨backs.status, ?_⟩
    intro expiry limited
    obtain ⟨until_, ends, near⟩ := backs.outlived expiry limited
    have hb := ht until_ ends
    have rowQuiet := hq.enforcements row backs.member backs.against expiry limited
    have flagQuiet := hq.flag restr until_ h ends
    unfold slack at near
    unfold nanosPerSecond at *
    omega
  · intro enforced
    obtain ⟨row, hi⟩ := enforced
    obtain ⟨restr, h, covers⟩ := hp.covered hi
    refine ⟨restr, World.flag_eq_some.mpr ⟨h, ?_⟩⟩
    intro until_ ends
    obtain ⟨expiry, limited, near⟩ := covers until_ ends
    have hb := (EnforcementAction.isActive_iff.mp hi.active).2 expiry limited
    have rowQuiet := hq.enforcements row hi.member hi.against expiry limited
    have flagQuiet := hq.flag restr until_ h ends
    unfold slack at near
    unfold nanosPerSecond at *
    omega

theorem Projected.same (hp : Projected w) (eq : w.SameFlags w') : Projected w' where
  covered := by
    intro actorId row hi
    rw [eq.projection]
    apply hp.covered
    exact { hi with member := eq.enforcements ▸ hi.member, active := eq.clock ▸ hi.active }
  backed := by
    intro actorId restr flagged
    rw [eq.flag] at flagged
    obtain ⟨row, backs⟩ := hp.backed flagged
    exact ⟨row, { backs with member := eq.enforcements ▸ backs.member }⟩
  drawn := by
    rw [eq.enforcements, eq.drawn]
    exact hp.drawn

theorem Projected.after (hp : Projected w) (duration : Nat) : Projected (w.after duration) where
  covered := by
    intro actorId row hi
    have he : w.clock ≤ (w.after duration).clock := by
      show w.clock ≤ w.clock + duration
      omega
    exact hp.covered { hi with active := EnforcementAction.isActive_mono he hi.active }
  backed := by
    intro actorId restriction flagged
    obtain ⟨h, ht⟩ := World.flag_eq_some.mp flagged
    have stood : w.flag actorId = some restriction := by
      refine World.flag_eq_some.mpr ⟨h, ?_⟩
      intro until_ ends
      have later : w.clock + duration < until_ := ht until_ ends
      omega
    obtain ⟨row, backs⟩ := hp.backed stood
    exact ⟨row, { backs with }⟩
  drawn := hp.drawn

theorem Projected.draw (hp : Projected w) (drew : w.draw ids = some w') : Projected w' := by
  obtain ⟨-, rfl⟩ := World.draw_eq_some drew
  refine ⟨?_, ?_, ?_⟩
  · intro actorId row hi
    exact hp.covered { hi with }
  · intro actorId restr flagged
    obtain ⟨row, backs⟩ := hp.backed flagged
    exact ⟨row, { backs with }⟩
  · intro row mem
    exact mem_append_right _ (hp.drawn row mem)

/-- `expiry` comes no earlier than `other`; none comes last. -/
def Outlasts : Option Int → Option Int → Prop
  | none, _ => True
  | some expiry, some other => other ≤ expiry
  | some _, none => False

section

variable {w : World} (later : ∀ expiry, expiresAt = some expiry → w.clock < expiry)
include later

theorem restriction_near (ends : (w.restriction version expiresAt).until_ = some until_) :
    ∃ expiry, expiresAt = some expiry ∧ expiry - nanosPerSecond < until_ ∧ until_ < expiry + nanosPerSecond := by
  obtain ⟨expiry, limited, rfl⟩ := Option.map_eq_some_iff.mp ends
  have ahead := later expiry limited
  have whole := numSeconds_near (show 0 ≤ expiry - w.clock by omega)
  refine ⟨expiry, limited, ?_⟩
  unfold nanosPerSecond at *
  omega

theorem covers_stored {enforcement : EnforcementAction} (expires : enforcement.expiresAt = expiresAt) :
    (w.restriction version expiresAt).Covers enforcement.stored := by
  intro until_ ends
  obtain ⟨expiry, limited, _, -⟩ := restriction_near later ends
  have rounded := toMicros_near expiry
  refine ⟨toMicros expiry, ?_, ?_⟩
  · simp [EnforcementAction.stored, expires, limited]
  · unfold slack
    omega

theorem covers_outlasted (ho : Outlasts expiresAt row.expiresAt) : (w.restriction version expiresAt).Covers row := by
  intro until_ ends
  obtain ⟨expiry, limited, _, -⟩ := restriction_near later ends
  rw [limited] at ho
  cases other : row.expiresAt with
  | none =>
    rw [other] at ho
    exact ho.elim
  | some at_ =>
    rw [other] at ho
    have order : at_ ≤ expiry := ho
    refine ⟨at_, rfl, ?_⟩
    unfold slack
    omega

theorem outlived_stored {enforcement : EnforcementAction} (he : enforcement.expiresAt = expiresAt) :
    (w.restriction ver expiresAt).Outlived enforcement.stored := by
  intro stored limited
  obtain ⟨expiry, given, rfl⟩ := Option.map_eq_some_iff.mp limited
  rw [he] at given
  have ends : (w.restriction ver expiresAt).until_ =
      some (w.clock + max (numSeconds (expiry - w.clock)) 1 * nanosPerSecond) := by
    simp [World.restriction, given]
  obtain ⟨_, alike, -, _⟩ := restriction_near later ends
  rw [given] at alike
  cases alike
  have rounded := toMicros_near expiry
  refine ⟨_, ends, ?_⟩
  unfold slack
  omega

end

section

variable {w : World} {enforcement : EnforcementAction}

theorem World.restrict_of_le
    (hw : ∀ restr, w.flag actorId = some restr → restr.version ≤ ver) :
    w.restrict actorId ver expiresAt =
      { w with projection := update w.projection actorId (some (w.restriction ver expiresAt)) } := by
  unfold restrict
  rw [if_neg]
  cases flagged : w.flag actorId with
  | none => simp
  | some restr =>
    have order := hw restr flagged
    simpa using order

variable (fresh : ∀ row ∈ w.enforcements.rows, row.id ≠ enforcement.id)
include fresh

theorem mem_saved :
    row ∈ (w.enforcements.save enforcement).rows ↔ row = enforcement.stored ∨ row ∈ w.enforcements.rows := by
  rw [EnforcementTable.rows_save_new fresh, mem_cons]

theorem Projected.saved (hp : Projected w) (hk : enforcement.id ∈ w.drawn) :
    ∀ row ∈ (w.enforcements.save enforcement).rows, row.id ∈ w.drawn := by
  intro row mem
  cases (mem_saved fresh).mp mem with
  | inl new =>
    subst new
    exact hk
  | inr old => exact hp.drawn row old

theorem Projected.content (hp : Projected w) (hk : enforcement.id ∈ w.drawn)
    (hc : enforcement.action.isActorLevel = false) :
    Projected { w with enforcements := w.enforcements.save enforcement } where
  covered := by
    intro actorId row hi
    cases (mem_saved fresh).mp hi.member with
    | inl new =>
      subst new
      have actorLevel : enforcement.action.isActorLevel = true := hi.actorLevel
      simp [hc] at actorLevel
    | inr old => exact hp.covered { hi with member := old }
  backed := by
    intro actorId restr flagged
    obtain ⟨row, backs⟩ := hp.backed flagged
    exact ⟨row, { backs with member := (mem_saved fresh).mpr (.inr backs.member) }⟩
  drawn := hp.saved fresh hk

theorem Projected.against (hp : Projected w) (hk : enforcement.id ∈ w.drawn)
    (ha : enforcement.status = .active) (actorLevel : enforcement.action.isActorLevel = true)
    (later : ∀ expiry, enforcement.expiresAt = some expiry → w.clock < expiry)
    (hw : ∀ restr, w.flag enforcement.actorId = some restr → restr.version ≤ enforcement.version)
    (ho : ∀ row, w.InForce enforcement.actorId row → Outlasts enforcement.expiresAt row.expiresAt) :
    Projected (World.restrict { w with enforcements := w.enforcements.save enforcement } enforcement.actorId
      enforcement.version enforcement.expiresAt) := by
  have unbarred : ∀ restr, World.flag { w with enforcements := w.enforcements.save enforcement }
      enforcement.actorId = some restr → restr.version ≤ enforcement.version := hw
  rw [World.restrict_of_le unbarred]
  refine ⟨?_, ?_, ?_⟩
  · intro actorId row hi
    by_cases eq : actorId = enforcement.actorId
    · subst eq
      refine ⟨_, update_self _ _ _, ?_⟩
      cases (mem_saved fresh).mp hi.member with
      | inl new =>
        subst new
        exact covers_stored later rfl
      | inr old =>
        apply covers_outlasted later
        exact ho row { hi with member := old }
    cases (mem_saved fresh).mp hi.member with
    | inl new =>
      subst new
      exact absurd hi.against.symm eq
    | inr old =>
      obtain ⟨restr, held, covers⟩ := hp.covered { hi with member := old }
      exact ⟨restr, (update_of_ne eq _ _).trans held, covers⟩
  · intro actorId restr flagged
    obtain ⟨held, ht⟩ := World.flag_eq_some.mp flagged
    by_cases eq : actorId = enforcement.actorId
    · subst eq
      simp only [update_self, Option.some.injEq] at held
      subst held
      exact ⟨enforcement.stored, (mem_saved fresh).mpr (.inl rfl), rfl, actorLevel, ha, rfl,
        outlived_stored later rfl⟩
    · replace held := (update_of_ne eq _ _).symm.trans held
      obtain ⟨row, backs⟩ := hp.backed (World.flag_eq_some.mpr ⟨held, ht⟩)
      exact ⟨row, { backs with member := (mem_saved fresh).mpr (.inr backs.member) }⟩
  · exact hp.saved fresh hk

end

/-- While a decision's enforcements are lifted one by one: those still to come may lack their flag. -/
structure Lifting (actorId : ActorId) (decisionId : DecisionId) (rest : List EnforcementAction) (w : World) : Prop
    extends Listed actorId decisionId rest w where
  covered : ∀ {other row}, w.InForce other row → ¬ (row.actorId = actorId ∧ row.decisionId = decisionId) →
    ∃ restriction, w.projection other = some restriction ∧ restriction.Covers row
  backed : ∀ {other restriction}, w.flag other = some restriction → ∃ row, w.Backs other restriction row
  drawn : ∀ row ∈ w.enforcements.rows, row.id ∈ w.drawn
  /-- A flag that another decision needs is newer than what is to be lifted. -/
  guarded : ∀ enforcement ∈ rest, enforcement.action.isActorLevel = true → enforcement.decisionId = decisionId →
    enforcement.isActive w.clock = true → ∀ row, w.InForce actorId row → row.decisionId ≠ decisionId →
    ∃ restriction, w.flag actorId = some restriction ∧ enforcement.version < restriction.version

namespace Lifting

theorem same (hl : Lifting actorId decisionId rest w) (eq : w.SameFlags w') : Lifting actorId decisionId rest w' := by
  have back : ∀ {other row}, w'.InForce other row → w.InForce other row := fun hi =>
    { hi with member := eq.enforcements ▸ hi.member, active := eq.clock ▸ hi.active }
  refine ⟨hl.toListed.same eq, ?_, ?_, ?_, ?_⟩
  · intro other row hi ne
    rw [eq.projection]
    exact hl.covered (back hi) ne
  · intro other restr flagged
    rw [eq.flag] at flagged
    obtain ⟨row, backs⟩ := hl.backed flagged
    exact ⟨row, { backs with member := eq.enforcements ▸ backs.member }⟩
  · rw [eq.enforcements, eq.drawn]
    exact hl.drawn
  intro enforcement member actorLevel about active row hi ne
  rw [eq.flag]
  rw [eq.clock] at active
  exact hl.guarded enforcement member actorLevel about active row (back hi) ne

theorem skip (hl : Lifting actorId decisionId (enforcement :: rest) w)
    (other : ¬ (enforcement.decisionId = decisionId ∧ enforcement.isActive w.clock = true)) :
    Lifting actorId decisionId rest w where
  toListed := hl.toListed.skip other
  covered := hl.covered
  backed := hl.backed
  drawn := hl.drawn
  guarded := fun _ mem => hl.guarded _ (.tail _ mem)

theorem lift (hl : Lifting actorId decisionId (enforcement :: rest) w)
    (hab : enforcement.decisionId = decisionId) (ha : enforcement.isActive w.clock = true)
    (corr : Uuid) :
    Lifting actorId decisionId rest (w.lifted actorId (enforcement.reversed w.clock corr)) := by
  obtain ⟨head, h, eq, against, -⟩ := hl.listed enforcement (.head _)
  -- A row that is still active afterwards was there before and is not the one that was lifted.
  have back : ∀ {other row}, (w.lifted actorId (enforcement.reversed w.clock corr)).InForce other row →
      w.InForce other row ∧ row.id ≠ enforcement.id := by
    intro other row hi
    have hr := hi.active
    have stays := hi.member
    rw [World.lifted_clock] at hr
    rw [World.lifted_enforcements] at stays
    have old := (mem_reversed h eq (EnforcementAction.status_of_isActive hr)).mp stays
    exact ⟨⟨old.1, hi.against, hi.actorLevel, hr⟩, old.2⟩
  refine ⟨hl.toListed.lift corr, ?_, ?_, ?_, ?_⟩
  · intro other row hi ne
    obtain ⟨hb, -⟩ := back hi
    obtain ⟨restr, flagged, covers⟩ := hl.covered hb ne
    refine ⟨restr, ?_, covers⟩
    cases World.lifted_projection w actorId (enforcement.reversed w.clock corr) with
    | inl kept => rw [kept.1]; exact flagged
    | inr gone =>
      obtain ⟨cleared, actorLevel, older⟩ := gone
      rw [cleared]
      by_cases mine : other = actorId
      · subst mine
        obtain ⟨newer, ht, order⟩ := hl.guarded enforcement (.head _) actorLevel hab ha
          row hb fun alike => ne ⟨hb.against, alike⟩
        exact absurd order (Int.not_lt.mpr (older newer ht))
      · rwa [update_of_ne mine]
  · intro other restr flagged
    have stood := World.flag_of_lifted flagged
    obtain ⟨row, backs⟩ := hl.backed stood
    have differs : row.id ≠ enforcement.id := by
      -- The row behind a flag has its version, so lifting it takes the flag away.
      intro alike
      have one : row = head :=
        EnforcementTable.row_eq backs.member h (alike.trans (congrArg EnforcementAction.id eq).symm)
      subst one
      have mine : other = actorId := backs.against.symm.trans against
      subst mine
      have version : restr.version = enforcement.version := by
        rw [← backs.version, ← eq]
        rfl
      have actorLevel : enforcement.action.isActorLevel = true := by
        rw [← eq]
        exact backs.actorLevel
      cases World.lifted_projection w other (enforcement.reversed w.clock corr) with
      | inl kept =>
        obtain ⟨newer, ht, order⟩ := kept.2 actorLevel
        rw [stood] at ht
        cases ht
        exact absurd order (Int.not_lt.mpr (Int.le_of_eq version))
      | inr gone =>
        have h := (World.flag_eq_some.mp flagged).1
        rw [gone.1, update_self] at h
        cases h
    refine ⟨row, { backs with member := ?_ }⟩
    rw [World.lifted_enforcements]
    exact (mem_reversed h eq backs.status).mpr ⟨backs.member, differs⟩
  · intro row member
    rw [World.lifted_enforcements] at member
    rw [World.lifted_drawn]
    obtain ⟨old, hk, alike⟩ := id_of_reversed h eq member
    rw [alike]
    exact hl.drawn old hk
  · intro other member actorLevel concerned hr row hi ne
    rw [World.lifted_clock] at hr
    obtain ⟨hb, -⟩ := back hi
    obtain ⟨restr, flagged, order⟩ :=
      hl.guarded other (.tail _ member) actorLevel concerned hr row hb ne
    refine ⟨restr, ?_, order⟩
    cases World.lifted_projection w actorId (enforcement.reversed w.clock corr) with
    | inl kept =>
      obtain ⟨stored, ht⟩ := World.flag_eq_some.mp flagged
      refine World.flag_eq_some.mpr ⟨kept.1 ▸ stored, ?_⟩
      rw [World.lifted_clock]
      exact ht
    | inr gone =>
      obtain ⟨-, lifts, older⟩ := gone
      obtain ⟨newer, ht, strict⟩ := hl.guarded enforcement (.head _) lifts hab ha
        row hb ne
      exact absurd strict (Int.not_lt.mpr (older newer ht))

theorem projected (hl : Lifting actorId decisionId [] w) : Projected w where
  covered := by
    intro other row hi
    apply hl.covered hi
    intro concerned
    have left := hl.pending row hi.member concerned.1 concerned.2 hi.active
    cases left
  backed := hl.backed
  drawn := hl.drawn

end Lifting

inductive Label where
  | request (request : Request)
  | elapse (duration : Nat)

/-- Commands that complete, one after the other, and the time in between. Screening is not among
them. -/
def commands (setup : Setup) : Machine World Label where
  init w := w.enforcements.rows = [] ∧ w.projection = fun _ => none
  step w
    | .request (.screen _ _ _ _) => none
    | .request request =>
      (w.draw request.ids).bind fun taken =>
        match server.execute (request.program setup w.clock) taken Server.allServed with
        | (after, .ok _) => some after
        | (_, .error _) => none
    | .elapse duration => some (w.after duration)

/-- A decision against an actor writes the flag, which lasts for what is in force already; a flag
that an enforcement of another decision needs is newer than what is lifted. -/
def InStep (setup : Setup) (w : World) : Label → Prop
  | .request (.decideCase cmd _ _ _) =>
    cmd.action.isActorLevel = true → ∀ row, w.cases cmd.caseId = some row →
      (∀ restriction, w.flag row.subject.actorId = some restriction →
        restriction.version ≤ w.enforcements.nextVersion row.subject) ∧
      ∀ other, w.InForce row.subject.actorId other →
        Outlasts (setup.policy.expiryFor cmd.action w.clock) other.expiresAt
  | .request (.resolveAppeal cmd _ _) =>
    cmd.overturn = true → ∀ appeal original, w.appeals cmd.appealId = some appeal →
      w.decisions appeal.decisionId = some original → ∀ lifted other,
      w.InForce original.subject.actorId lifted → lifted.decisionId = original.id →
      w.InForce original.subject.actorId other → other.decisionId ≠ original.id →
      ∃ restriction, w.flag original.subject.actorId = some restriction ∧ lifted.version < restriction.version
  | _ => True

theorem commands_request (hs : (commands setup).step w (.request req) = some w') :
    ∃ taken out, w.draw req.ids = some taken ∧
      server.execute (req.program setup w.clock) taken allServed = (w', .ok out) := by
  have ran : ∃ taken, w.draw req.ids = some taken ∧
      (match server.execute (req.program setup w.clock) taken allServed with
        | (after, .ok _) => some after
        | (_, .error _) => none) = some w' := by
    cases req with
    | screen => cases hs
    | _ => exact Option.bind_eq_some_iff.mp hs
  obtain ⟨taken, drew, ran⟩ := ran
  split at ran
  · rename_i after out executed
    cases ran
    exact ⟨taken, out, drew, executed⟩
  · cases ran

theorem lifting_of_projected (hp : Projected w) {orig : Decision}
    (guarded : ∀ lifted other, w.InForce orig.subject.actorId lifted → lifted.decisionId = orig.id →
      w.InForce orig.subject.actorId other → other.decisionId ≠ orig.id →
      ∃ restriction, w.flag orig.subject.actorId = some restriction ∧ lifted.version < restriction.version) :
    Lifting orig.subject.actorId orig.id (w.enforcements.listActiveForActor orig.subject.actorId) w where
  toListed := .of_world _
  covered := fun hi _ => hp.covered hi
  backed := hp.backed
  drawn := hp.drawn
  guarded := by
    intro enforcement mem actorLevel about ha row hi ne
    obtain ⟨h, hk, mine, _, eq⟩ := EnforcementTable.mem_listActiveForActor.mp mem
    subst eq
    exact guarded h row ⟨hk, mine, actorLevel, ha⟩ about hi ne

theorem Projected.decideCase (hp : Projected w) (hk : enforcementId ∈ w.drawn)
    (fresh : ∀ row ∈ w.enforcements.rows, row.id ≠ enforcementId)
    (hi : InStep setup w (.request (.decideCase cmd correlationId decisionId enforcementId)))
    (done : server.execute (Moderation.decideCase setup cmd correlationId decisionId enforcementId w.clock) w
      allServed = (w', .ok outcome)) : Projected w' := by
  obtain ⟨row, stored, effect⟩ := decideCase_ok done
  cases effect with
  | inl same => exact hp.same same
  | inr enforcing =>
    obtain ⟨later, flags⟩ := enforcing
    refine Projected.same ?_ flags
    simp only [World.enforced]
    split
    · rename_i actorLevel
      obtain ⟨hw, outlasts⟩ := hi actorLevel row stored
      exact hp.against fresh hk rfl actorLevel later hw outlasts
    · rename_i content
      exact hp.content fresh hk (by simpa using content)

theorem Projected.resolveAppeal (hpr : Projected w)
    (hi : InStep setup w (.request (.resolveAppeal cmd correlationId reversalId)))
    (done : server.execute (Moderation.resolveAppeal setup cmd correlationId reversalId w.clock) w
      allServed = (w', .ok outcome)) : Projected w' := by
  obtain ⟨appeal, orig, hf, hd, effect⟩ := resolveAppeal_ok done
  cases effect with
  | inl eq => exact hpr.same eq
  | inr reversing =>
    obtain ⟨overturned, _, _, first, looped, last⟩ := reversing
    have start := lifting_of_projected hpr (hi overturned appeal orig hf hd)
    refine Projected.same ?_ last
    -- Throughout the loop the clock stands still.
    have he := reverseEach_keeps
      (fun rest s => s.clock = w.clock ∧ Lifting orig.subject.actorId orig.id rest s)
      (fun rest s s' eq hp => ⟨eq.clock.trans hp.1, hp.2.same eq⟩)
      (fun enforcement rest s other hp => ⟨hp.1, hp.2.skip (hp.1.symm ▸ other)⟩)
      (fun enforcement rest s about ha hp => by
        obtain ⟨still, lifting⟩ := hp
        refine ⟨World.lifted_clock.trans still, ?_⟩
        rw [← still] at ha ⊢
        exact lifting.lift about ha _)
      ⟨first.clock, start.same first⟩ looped
    exact he.2.projected

theorem InStep.draw (hin : InStep setup w label) (drawn : List Uuid) : InStep setup { w with drawn } label := by
  have back : ∀ {actorId row}, World.InForce { w with drawn } actorId row → w.InForce actorId row :=
    fun hi => { hi with }
  cases label with
  | elapse => trivial
  | request request =>
    cases request with
    | decideCase =>
      intro actorLevel row stored
      obtain ⟨hw, outlasts⟩ := hin actorLevel row stored
      exact ⟨hw, fun other hi => outlasts other (back hi)⟩
    | resolveAppeal =>
      intro overturned appeal orig hf hd lifted other due about hi ne
      exact hin overturned appeal orig hf hd lifted other (back due) about (back hi) ne
    | _ => trivial

theorem Projected.step (hp : Projected w) (hi : InStep setup w label)
    (hs : (commands setup).step w label = some w') : Projected w' := by
  cases label with
  | elapse duration =>
    cases hs
    exact hp.after duration
  | request request =>
    obtain ⟨_, _, drew, done⟩ := commands_request hs
    have ready := hp.draw drew
    obtain ⟨new, rfl⟩ := World.draw_eq_some drew
    cases request with
    | decideCase _ _ _ enforcementId =>
      obtain ⟨_, _, inner, he⟩ := execute_bind_ok done
      cases he
      refine ready.decideCase (mem_append_left _ (by simp [Request.ids])) ?_ (hi.draw _) inner
      intro row mem eq
      exact new enforcementId (by simp [Request.ids]) (eq ▸ hp.drawn row mem)
    | resolveAppeal =>
      obtain ⟨_, _, inner, he⟩ := execute_bind_ok done
      cases he
      exact ready.resolveAppeal (hi.draw _) inner
    | screen => cases hs
    | _ =>
      exact ready.same (Plain.ok (Request.plain_program rfl setup w.clock) done)

/-- Along commands that are in step, the flag says at every quiet instant what the record says. -/
theorem restriction_agrees (setup : Setup) (start final : World) (trace : List Label)
    (begins : (commands setup).init start) (inStep : (commands setup).Meets (InStep setup) start trace)
    (ran : (commands setup).run start trace = some final) (actorId : ActorId) (quiet : final.Quiet actorId) :
    final.isActorRestricted actorId = true ↔ ∃ row, final.InForce actorId row := by
  have initial : Projected start := by
    refine ⟨?_, ?_, ?_⟩
    · intro actorId row inForce
      have member := inForce.member
      rw [begins.1] at member
      cases member
    · intro actorId restriction flagged
      have held := (World.flag_eq_some.mp flagged).1
      rw [begins.2] at held
      cases held
    · rw [begins.1]
      intro row member
      cases member
  have projected : Projected final :=
    Machine.run_keeps (fun _ _ _ holds inStep stepped => holds.step inStep stepped) initial inStep ran
  exact projected.agrees quiet

namespace Offender

def comment : SubjectRef := ⟨.comment, "c1", 1, "thread", by decide⟩

def media : SubjectRef := ⟨.media, "m1", 1, "upload", by decide⟩

/-- The comment has case 101 and the upload case 102. -/
def setup : Setup := ⟨.standard, fun key => if key = comment.canonicalKey then 101 else 102⟩

def start : World := .empty

def day : Nat := 86400 * 1000000000

def opening (subject : SubjectRef) : Label := .request (.openCase ⟨subject, .hate, "default", "normal"⟩ 1)

def deciding (caseId : CaseId) (action : ActionType) (decisionId : DecisionId) (enforcementId : EnforcementId) :
    Label :=
  .request (.decideCase ⟨caseId, action, .hate, "repeated abuse", "rev-2", "2026.07.1"⟩ 1 decisionId enforcementId)

/-- A suspension that runs out, and a ban after it. -/
def inTurn : List Label :=
  [opening comment, opening media, deciding 101 .suspend 201 202, .elapse (31 * day), deciding 102 .ban 203 204]

/-- The ban, then a restriction of a week for another subject of the actor. -/
def overlapping : List Label :=
  [opening comment, opening media, deciding 101 .ban 201 202, deciding 102 .restrictActor 203 204, .elapse (8 * day)]

instance (w : World) (actorId : ActorId) : Decidable (w.Quiet actorId) :=
  decidable_of_iff ((∀ row ∈ w.enforcements.rows, row.actorId = actorId → ∀ expiry, row.expiresAt = some expiry →
      nanosPerSecond ≤ w.clock - expiry ∨ nanosPerSecond ≤ expiry - w.clock) ∧
    ∀ restriction, w.projection actorId = some restriction → ∀ until_, restriction.until_ = some until_ →
      nanosPerSecond ≤ w.clock - until_ ∨ nanosPerSecond ≤ until_ - w.clock)
    ⟨fun both => ⟨both.1, fun _ _ held => both.2 _ held _⟩, fun quiet => ⟨quiet.1, fun _ held _ => quiet.2 _ _ held⟩⟩

instance (w : World) (actorId : ActorId) : Decidable (∃ row, w.InForce actorId row) :=
  decidable_of_iff (∃ row ∈ w.enforcements.rows, row.actorId = actorId ∧ row.action.isActorLevel = true ∧
      row.isActive w.clock = true)
    (exists_congr fun row => (World.inForce_iff w actorId row).symm)

/-- Decisions are taken while nothing stands against the actor, and no appeal is overturned. -/
def unopposed (w : World) : Label → Bool
  | .request (.decideCase cmd _ _ _) =>
    (w.cases cmd.caseId).all fun row =>
      (w.flag row.subject.actorId).isNone && w.enforcements.rows.all fun row => ! row.isActive w.clock
  | .request (.resolveAppeal cmd _ _) => ! cmd.overturn
  | _ => true

theorem inStep_of_unopposed (w : World) (label : Label) (hc : unopposed w label = true) : InStep setup w label := by
  cases label with
  | elapse => trivial
  | request request =>
    cases request with
    | decideCase =>
      intro _ row stored
      simp only [unopposed, stored, Option.all_some, Bool.and_eq_true, all_eq_true] at hc
      obtain ⟨unflagged, idle⟩ := hc
      constructor
      · intro restr flagged
        simp [flagged] at unflagged
      · intro other hi
        have he := idle other hi.member
        simp [hi.active] at he
    | resolveAppeal =>
      intro overturned
      simp [unopposed, overturned] at hc
    | _ => trivial

/-- The ban that follows the suspension is seen by both. -/
theorem inTurn_agrees :
    ∃ final, (commands setup).run start inTurn = some final ∧ final.isActorRestricted 1 = true ∧
      (final.isActorRestricted 1 = true ↔ ∃ row, final.InForce 1 row) := by
  obtain ⟨final, reached, quiet, restricted⟩ : ∃ final, (commands setup).run start inTurn = some final ∧
      final.Quiet 1 ∧ final.isActorRestricted 1 = true := by decide +kernel
  have clear : (commands setup).Meets (fun w label => unopposed w label = true) start inTurn := by decide +kernel
  exact ⟨final, reached, restricted,
    restriction_agrees setup start final inTurn ⟨rfl, rfl⟩ (clear.mono inStep_of_unopposed) reached 1 quiet⟩

/-- The upload's restriction takes over the flag and lets it run out under the ban. -/
theorem banned_actor_unrestricted :
    ∃ final, (commands setup).run start overlapping = some final ∧ final.Quiet 1 ∧
      final.isActorRestricted 1 = false ∧ ∃ row, final.InForce 1 row := by
  decide +kernel

end Offender
end CorePlatform.Moderation
