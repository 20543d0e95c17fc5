import CorePlatform.Search.Registers
import CorePlatform.Media.Delivery
import CorePlatform.Enforcement.Wire

/-! # Whether removed content stays down

An enforcement stands from its application until it is reversed itself. While one against a piece of
content stands, the search document of its subject should be hidden and its asset not be
deliverable.

Neither consumer keeps a list of what stands. Search acts on no event, so a document stays as
visible as it was. Media goes event by event: the first reversal restores an asset on which another
enforcement still stands. -/

namespace CorePlatform.Enforcement

open Theory Moderation List

structure Enforced where
  enforcementId : EnforcementId
  subject : SubjectRef
  deriving DecidableEq

/-- What stands after one more event. -/
def note (standing : List Enforced) : DomainEvent → List Enforced
  | .enforcementApplied enforcementId subject _ action _ _ _ _ _ =>
    if action.isContent then ⟨enforcementId, subject⟩ :: standing else standing
  | .enforcementReversed enforcementId _ _ _ _ _ => standing.filter fun e => e.enforcementId != enforcementId
  | .caseOpened .. | .caseResolved .. | .decisionRecorded .. | .appealResolved .. => standing

/-- The index, the assets, and what moderation has published so far. -/
structure Site where
  history : List DomainEvent
  engine : Search.OpenSearch
  media : Media.World

/-- An event on its way to both consumers, and the time at which media handles it. -/
structure Delivery where
  event : DomainEvent
  searchNow : Int
  mediaNow : Int

namespace Site

variable (formats : Formats) (site : Site)

def standing : List Enforced := site.history.foldl note []

/-- The document is hidden by the moderation flag. -/
def hidden (kind : Search.EntityKind) (id : String) : Bool :=
  (site.engine.document kind id).any fun source =>
    source Search.VisibilityAuthority.moderation.flagField == some (.flag false)

/-- The index hides the document of the subject, if that is one that is indexed. -/
def unlisted (subject : SubjectRef) : Bool :=
  match subject.entityType with
  | .post => site.hidden .post subject.entityId
  | .profile => site.hidden .profile subject.entityId
  | .comment | .chatMessage | .media | .account => true

def undelivered (id : Media.AssetId) : Bool := (site.media.assets id).all fun asset => !asset.isDeliverable

/-- The asset of the subject is not deliverable, if it is one of media. -/
def withheld (subject : SubjectRef) : Bool :=
  if subject.entityType = .media then (formats.parseUuid subject.entityId).all site.undelivered else true

def down (subject : SubjectRef) : Bool := site.unlisted subject && site.withheld formats subject

/-- All that moderation took down and did not give back is down. -/
def allDown : Prop := ∀ e ∈ site.standing, site.down formats e.subject = true

def deliver (delivery : Delivery) : Site where
  history := site.history ++ [delivery.event]
  engine := consumeForSearch formats site.engine delivery.searchNow (eventJson formats delivery.event)
  media := consumeForMedia formats site.media delivery.mediaNow (eventJson formats delivery.event)

end Site

def machine (formats : Formats) : Machine Site Delivery where
  init site := site.history = [] ∧ site.media.Filed
  step site delivery := some (site.deliver formats delivery)

/-- A restore would make the asset deliverable. -/
def returnsReady (asset : Media.Asset) : Bool :=
  asset.state == .quarantined && asset.priorState.getD .ready == .ready

def Enforced.against (formats : Formats) (id : Media.AssetId) (e : Enforced) : Bool :=
  e.subject.entityType == .media && formats.parseUuid e.subject.entityId == some id

/-- What is taken down is hidden from search already, and what is given back is not ready or nothing
else stands against it. -/
def spared (formats : Formats) (site : Site) (delivery : Delivery) : Bool :=
  match delivery.event with
  | .enforcementApplied _ subject _ action _ _ _ _ _ => !action.isContent || site.unlisted subject
  | .enforcementReversed enforcementId subject _ _ _ _ =>
    subject.entityType != .media || (formats.parseUuid subject.entityId).all fun id =>
      !(site.media.assets id).any returnsReady ||
        !site.standing.any fun e => e.enforcementId != enforcementId && e.against formats id
  | .caseOpened .. | .caseResolved .. | .decisionRecorded .. | .appealResolved .. => true

section

variable {site : Site} {id : Media.AssetId}

theorem standing_deliver : (site.deliver formats delivery).standing = note site.standing delivery.event := by
  simp [Site.standing, Site.deliver]

theorem unlisted_deliver : (site.deliver formats dlv).unlisted subject = site.unlisted subject := by
  have eq : (site.deliver formats dlv).engine = site.engine := consumeForSearch_eventJson
  unfold Site.unlisted Site.hidden
  rw [eq]

theorem undelivered_quarantine (own : ∀ asset, assets id = some asset → asset.id = id)
    (hb : other = id ∨ (assets other).all (fun asset => !asset.isDeliverable) = true) :
    (Media.moderated now .quarantine assets id other).all (fun asset => !asset.isDeliverable) = true := by
  cases stored : assets id with
  | none =>
    rw [Media.moderated_absent stored]
    cases hb with
    | inl eq =>
      subst eq
      simp [stored]
    | inr hb => exact hb
  | some asset =>
    cases made : asset.moderate now .quarantine with
    | error e =>
      rw [Media.moderated_refused stored made]
      cases hb with
      | inl eq =>
        -- only a deleted asset is refused
        subst eq
        have refused : asset.quarantine now = .error e := made
        simp [stored, Media.Asset.quarantine_eq_error refused]
      | inr hb => exact hb
    | ok =>
      obtain ⟨eq, h, -⟩ := Media.Asset.quarantine_eq_ok made
      rw [Media.moderated_done stored made, eq, own asset stored]
      by_cases here : other = id
      · subst here
        simp [Media.Asset.isDeliverable, h, Media.AssetState.isDeliverable]
      · rw [Function.update_of_ne here]
        exact hb.resolve_left here

theorem moderated_restore (own : ∀ asset, assets id = some asset → asset.id = id) :
    (Media.moderated now .restore assets id other).all (fun asset => !asset.isDeliverable) =
      ((assets other).all (fun asset => !asset.isDeliverable) &&
        !(decide (other = id) && (assets id).any returnsReady)) := by
  cases stored : assets id with
  | none =>
    rw [Media.moderated_absent stored]
    simp
  | some asset =>
    cases made : asset.moderate now .restore with
    | error =>
      have free : asset.state ≠ .quarantined := Media.Asset.restore_eq_error made
      rw [Media.moderated_refused stored made]
      simp [returnsReady, free]
    | ok =>
      obtain ⟨eq, h, target⟩ := Media.Asset.restore_eq_ok made
      rw [Media.moderated_done stored made, eq, own asset stored]
      by_cases here : other = id
      · subst here
        simp only [Function.update_self, Option.all_some, stored, Media.Asset.isDeliverable, h,
          Media.Asset.document_state, target, returnsReady, decide_true, Option.any_some, beq_self_eq_true,
          Bool.true_and, Media.AssetState.isDeliverable, Bool.not_false]
        cases asset.priorState.getD .ready <;> rfl
      · simp [here]

theorem withheld_iff : site.withheld formats subject = true ↔
    ∀ id, subject.entityType = .media → formats.parseUuid subject.entityId = some id → site.undelivered id = true := by
  unfold Site.withheld
  split
  · rename_i media
    simp [media, Option.all_eq_true]
  · rename_i other
    simp [other]

theorem down_iff : site.down formats subject = true ↔ site.unlisted subject = true ∧
    ∀ id, subject.entityType = .media → formats.parseUuid subject.entityId = some id → site.undelivered id = true := by
  rw [Site.down, Bool.and_eq_true, withheld_iff]

theorem undelivered_deliver : (site.deliver formats delivery).undelivered id =
    (commanded formats delivery.mediaNow delivery.event site.media.assets id).all
      fun asset => !asset.isDeliverable := by
  rw [← consumeForMedia_assets]
  rfl

theorem undelivered_quarantined (hf : site.media.Filed)
    (is : mediaCommand formats delivery.event = some (id, .quarantine)) :
    (site.deliver formats delivery).undelivered id = true := by
  rw [undelivered_deliver, commanded, is]
  exact undelivered_quarantine (hf.assets id) (.inl rfl)

theorem undelivered_restored (hf : site.media.Filed)
    (is : mediaCommand formats delivery.event = some (id, .restore)) :
    (site.deliver formats delivery).undelivered id =
      (site.undelivered id && !(site.media.assets id).any returnsReady) := by
  rw [undelivered_deliver, commanded, is]
  rw [moderated_restore (hf.assets id), decide_eq_true rfl, Bool.true_and]
  rfl

theorem undelivered_lasts (hf : site.media.Filed) (hb : site.undelivered id = true)
    (kept : mediaCommand formats dlv.event = some (id, .restore) →
      (site.media.assets id).any returnsReady = false) : (site.deliver formats dlv).undelivered id = true := by
  cases command : mediaCommand formats dlv.event with
  | none =>
    rw [undelivered_deliver, commanded, command]
    exact hb
  | some pair =>
    obtain ⟨target, action⟩ := pair
    cases action with
    | quarantine =>
      rw [undelivered_deliver, commanded, command]
      exact undelivered_quarantine (hf.assets target) (.inr hb)
    | restore =>
      by_cases here : id = target
      · subst here
        rw [undelivered_restored hf command, hb, kept command]
        rfl
      rw [undelivered_deliver, commanded, command]
      rw [moderated_restore (hf.assets target), decide_eq_false here, Bool.false_and, Bool.not_false, Bool.and_true]
      exact hb

theorem against_iff {e : Enforced} : e.against formats id = true ↔
    e.subject.entityType = .media ∧ formats.parseUuid e.subject.entityId = some id := by
  simp [Enforced.against]

theorem allDown_deliver (hf : site.media.Filed) (down : site.allDown formats)
    (fits : spared formats site dlv = true) : (site.deliver formats dlv).allDown formats := by
  intro e ht
  rw [standing_deliver] at ht
  rw [down_iff, unlisted_deliver]
  cases is : dlv.event with
  | enforcementApplied _ _ _ _ _ _ _ _ _ =>
    simp only [is, note] at ht
    have lasts : ∀ he ∈ site.standing, site.unlisted he.subject = true ∧ ∀ id,
        he.subject.entityType = .media → formats.parseUuid he.subject.entityId = some id →
        (site.deliver formats dlv).undelivered id = true := by
      intro he mem
      obtain ⟨hidden, hb⟩ := down_iff.mp (down he mem)
      refine ⟨hidden, fun id media parsed => undelivered_lasts hf (hb id media parsed) ?_⟩
      intro command
      simp only [is, mediaCommand] at command
      split at command
      · obtain ⟨_, _, eq⟩ := Option.map_eq_some_iff.mp command
        cases eq
      · cases command
    split at ht
    · rename_i content
      cases mem_cons.mp ht with
      | inl new =>
        subst new
        simp only [spared, is, content, Bool.not_true, Bool.false_or] at fits
        refine ⟨fits, fun id media parsed => undelivered_quarantined hf ?_⟩
        simp only [is, mediaCommand]
        rw [if_pos ⟨media, content⟩]
        exact congrArg _ parsed
      | inr old => exact lasts e old
    · exact lasts e ht
  | enforcementReversed _ _ _ _ _ _ =>
    simp only [is, note, mem_filter] at ht
    obtain ⟨hidden, hb⟩ := down_iff.mp (down e ht.1)
    refine ⟨hidden, fun id media parsed => undelivered_lasts hf (hb id media parsed) ?_⟩
    intro command
    simp only [is, mediaCommand] at command
    split at command
    · rename_i own
      obtain ⟨_, parsed', eq⟩ := Option.map_eq_some_iff.mp command
      cases eq
      simp only [spared, is, own, bne_self_eq_false, Bool.false_or, parsed', Option.all_some, Bool.or_eq_true,
        Bool.not_eq_true'] at fits
      cases fits with
      | inl unready => exact unready
      | inr alone =>
        rw [any_eq_false] at alone
        refine absurd ?_ (alone e ht.1)
        rw [Bool.and_eq_true]
        exact ⟨ht.2, against_iff.mpr ⟨media, parsed⟩⟩
    · cases command
  | _ =>
    simp only [is, note] at ht
    obtain ⟨hidden, hb⟩ := down_iff.mp (down e ht)
    refine ⟨hidden, fun id media parsed => undelivered_lasts hf (hb id media parsed) ?_⟩
    intro command
    simp only [is, mediaCommand] at command
    cases command

theorem not_allDown_deliver (hf : site.media.Filed) (hb : ¬ spared formats site dlv = true) :
    ¬ (site.deliver formats dlv).allDown formats := by
  intro down
  apply hb
  cases is : dlv.event with
  | enforcementApplied enfId subject _ action =>
    simp only [spared, is, Bool.or_eq_true, Bool.not_eq_true']
    cases content : action.isContent with
    | false => exact .inl rfl
    | true =>
      have ht : ⟨enfId, subject⟩ ∈ (site.deliver formats dlv).standing := by
        rw [standing_deliver, is]
        simp [note, content]
      have hidden := (down_iff.mp (down _ ht)).1
      rw [unlisted_deliver] at hidden
      exact .inr hidden
  | enforcementReversed _ subject =>
    simp only [spared, is, Bool.or_eq_true]
    by_cases media : subject.entityType = .media
    · right
      rw [Option.all_eq_true]
      intro id parsed
      rw [Bool.or_eq_true, Bool.not_eq_true', Bool.not_eq_true']
      by_cases unready : (site.media.assets id).any returnsReady = false
      · exact .inl unready
      right
      rw [any_eq_false]
      intro e mem both
      rw [Bool.and_eq_true] at both
      obtain ⟨own, parsed'⟩ := against_iff.mp both.2
      have ht : e ∈ (site.deliver formats dlv).standing := by
        rw [standing_deliver, is]
        exact mem_filter.mpr ⟨mem, both.1⟩
      have command : mediaCommand formats dlv.event = some (id, .restore) := by
        simp only [is, mediaCommand]
        rw [if_pos media, parsed]
        rfl
      have withheld := (down_iff.mp (down e ht)).2 id own parsed'
      rw [undelivered_restored hf command, Bool.and_eq_true, Bool.not_eq_true'] at withheld
      exact unready withheld.2
    · left
      simpa using media
  | _ => simp only [spared, is]

end

/-- All that was taken down is down after every event exactly if each application finds the document
hidden already, and no reversal gives back a ready asset while another enforcement stands against
it. -/
theorem removed_content_stays_down_iff (formats : Formats) (start : Site) (deliveries : List Delivery)
    (begins : (machine formats).init start) :
    (machine formats).Always (fun site => site.allDown formats) start deliveries ↔
      (machine formats).Meets (fun site delivery => spared formats site delivery = true) start deliveries := by
  have files : ∀ (s : Site) (delivery : Delivery) (next : Site), s.media.Filed →
      (machine formats).step s delivery = some next → next.media.Filed := by
    intro s delivery next filed stepped
    cases stepped
    exact filed_consumeForMedia filed
  have keeps : ∀ (s : Site) (delivery : Delivery) (next : Site), s.media.Filed → s.allDown formats →
      spared formats s delivery = true → (machine formats).step s delivery = some next → next.allDown formats := by
    intro s delivery next filed down fits stepped
    cases stepped
    exact allDown_deliver filed down fits
  have breaks : ∀ (s : Site) (delivery : Delivery), s.media.Filed → s.allDown formats →
      ¬ spared formats s delivery = true →
      ∃ next, (machine formats).step s delivery = some next ∧ ¬ next.allDown formats :=
    fun s delivery filed _ broken => ⟨_, rfl, not_allDown_deliver filed broken⟩
  have empty : start.allDown formats := by
    intro e stands
    rw [Site.standing, begins.1] at stands
    cases stands
  exact Machine.always_iff_meets (fun site : Site => site.media.Filed) (fun site => site.allDown formats) files keeps
    (fun _ _ down => down) breaks begins.2 empty

namespace Sample

def instants : List (Int × String) :=
  [(1, "1970-01-01T00:00:00.000000001Z"), (2, "1970-01-01T00:00:00.000000002Z"), (3, "1970-01-01T00:00:00.000000003Z")]

def plain : Formats where
  parseUuid text := if text = "00000000-0000-0000-0000-000000000001" then some 1 else none
  hyphenated _ := "00000000-0000-0000-0000-000000000001"
  writeInstant instant := (instants.lookup instant).getD ""
  readInstant text := (instants.find? fun entry => entry.2 == text).map Prod.fst

def site : Site where
  history := []
  engine := (Search.Sample.engine.apply (.upsert (Search.Sample.post "text" 4))).1
  media := (Media.Sample.stores Media.Sample.published).world

theorem site_begins : (machine plain).init site := ⟨rfl, (Media.Sample.stores_begins).1⟩

def thePost : SubjectRef := ⟨.post, "post-1", 7, "feed", by decide⟩

def theImage : SubjectRef := ⟨.media, "00000000-0000-0000-0000-000000000001", 7, "upload", by decide⟩

def applied (enforcementId : EnforcementId) (subject : SubjectRef) (action : ActionType) (occurredAt : Int) :
    Delivery :=
  ⟨.enforcementApplied enforcementId subject 7 action 1 occurredAt none occurredAt 20, 50, 50⟩

def reversed (enforcementId : EnforcementId) (subject : SubjectRef) (occurredAt : Int) : Delivery :=
  ⟨.enforcementReversed enforcementId subject 7 2 occurredAt 20, 60, 60⟩

theorem removed_image_down : (machine plain).Always (fun site => site.allDown plain) site
    [applied 10 theImage .removeContent 1, reversed 10 theImage 2] :=
  (removed_content_stays_down_iff plain site _ site_begins).mpr (by decide +kernel)

/-- A post is removed and stays visible; of two enforcements against an image one is reversed, and
it is deliverable again. -/
theorem removed_content_stays_up :
    (∃ after, (machine plain).run site [applied 10 thePost .removeContent 1] = some after ∧
      ⟨10, thePost⟩ ∈ after.standing ∧ ∃ source, after.engine.document .post "post-1" = some source ∧
        source "moderation_searchable" = some (.flag true)) ∧
    ∃ after, (machine plain).run site [applied 10 theImage .removeContent 1, applied 11 theImage .visibilityLimit 2,
        reversed 11 theImage 3] = some after ∧
      ⟨10, theImage⟩ ∈ after.standing ∧ ∃ asset, after.media.assets 1 = some asset ∧ asset.state = .ready := by
  decide +kernel

end Sample
end CorePlatform.Enforcement
