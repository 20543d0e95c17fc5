import CorePlatform.Theory.Interleaving
import CorePlatform.Search.Registers

/-! # Rebuilding an index

A reindex makes a fresh physical index, turns the write alias to it, fills it from a scan of the
source and turns the read alias last. Live events go on arriving through the write alias. The source
knows the content of a document and not who hides it: the flags live in the index that is being
left. -/

namespace CorePlatform.Search

open Theory Function List

inductive Op where
  | createIndexVersion (kind : EntityKind) (suffix : String)
  | swapWriteAlias (kind : EntityKind) (physicalIndex : String)
  | scan (kind : EntityKind)
  | upsert (document : IndexDocument)
  | swapReadAlias (kind : EntityKind) (physicalIndex : String)

def Op.Reply : Op → Type
  | createIndexVersion _ _ => String
  | swapWriteAlias _ _ => Unit
  | scan _ => List IndexDocument
  | upsert _ => WriteOutcome
  | swapReadAlias _ _ => Unit

structure Flip where
  authority : VisibilityAuthority
  id : String
  stamp : Stamped Bool

/-- The engine and the source of one kind of documents, and what has arrived so far. -/
structure Site where
  engine : OpenSearch
  /-- the documents that the source has at the moment -/
  source : List IndexDocument
  /-- the documents whose deletion has arrived -/
  removed : List String
  flips : List Flip
  /-- the one reindex has been asked for -/
  begun : Bool
  /-- the documents that it has scanned and not yet written -/
  backlog : List IndexDocument

namespace OpenSearch

/-- An index that exists already is taken as it is. -/
def createIndexVersion (engine : OpenSearch) (kind : EntityKind) (suffix : String) : OpenSearch × String :=
  let name := engine.physical kind suffix
  match engine.indices name with
  | some _ => (engine, name)
  | none => ({ engine with indices := update engine.indices name (some fun _ => none) }, name)

def swapWriteAlias (engine : OpenSearch) (kind : EntityKind) (name : String) : OpenSearch :=
  { engine with writeAlias := update engine.writeAlias kind (some name) }

def swapReadAlias (engine : OpenSearch) (kind : EntityKind) (name : String) : OpenSearch :=
  { engine with readAlias := update engine.readAlias kind (some name) }

end OpenSearch

def Site.serve (site : Site) : (op : Op) → Site × Except SearchError op.Reply
  | .createIndexVersion kind suffix =>
    let (engine, name) := site.engine.createIndexVersion kind suffix
    ({ site with engine }, .ok name)
  | .swapWriteAlias kind name => ({ site with engine := site.engine.swapWriteAlias kind name }, .ok ())
  | .scan _ => ({ site with backlog := site.source }, .ok site.source)
  | .upsert document =>
    let (engine, outcome) := site.engine.upsert document
    ({ site with engine, backlog := site.backlog.tail }, outcome)
  | .swapReadAlias kind name => ({ site with engine := site.engine.swapReadAlias kind name }, .ok ())

def Op.failure : Op → String → SearchError
  | .createIndexVersion _ _, reason => .reindexFailed reason
  | .swapWriteAlias _ _, reason | .swapReadAlias _ _, reason => .aliasSwapFailed reason
  | .scan _, _ | .upsert _, _ => .engineUnavailable

def siteServer : Server Site Op Op.Reply SearchError where
  serve := Site.serve
  failure := Op.failure

structure ReindexReport where
  kind : EntityKind
  newIndex : String
  documentsBackfilled : Nat

abbrev Rebuilding := Program Op Op.Reply SearchError

abbrev ask (op : Op) : Rebuilding op.Reply := .perform op

def backfill : List IndexDocument → Nat → Rebuilding Nat
  | [], backfilled => return backfilled
  | document :: rest, backfilled => do
      let _ ← ask (.upsert document)
      backfill rest (backfilled + 1)

def reindex (kind : EntityKind) (newSuffix : String) : Rebuilding ReindexReport := do
  let newIndex ← ask (.createIndexVersion kind newSuffix)
  ask (.swapWriteAlias kind newIndex)
  let documents ← ask (.scan kind)
  let documentsBackfilled ← backfill documents 0
  ask (.swapReadAlias kind newIndex)
  return { kind, newIndex, documentsBackfilled }

inductive Arrival where
  | upsert (document : IndexDocument)
  | flip (authority : VisibilityAuthority) (id : String) (searchable : Searchable) (version : DocVersion)
  | delete (id : String)
  /-- the source has other documents now -/
  | revise (documents : List IndexDocument)

namespace Site

/-- A document of the kind that was not deleted. -/
def current (site : Site) (kind : EntityKind) (document : IndexDocument) : Bool :=
  document.kind == kind && !site.removed.contains document.id

/-- The source gives a document up before its deletion arrives, and does not take it back. -/
def elapse (kind : EntityKind) (site : Site) : Arrival → Option Site
  | .upsert document =>
    if site.current kind document then some { site with engine := (site.engine.upsert document).1 } else none
  | .flip authority id searchable version => some { site with
      engine := (site.engine.setSearchable authority kind id searchable version).1
      flips := site.flips ++ [⟨authority, id, ⟨version, searchable.isVisible⟩⟩] }
  | .delete id =>
    if site.source.all fun document => document.id != id then
      some { site with engine := (site.engine.delete kind id).1, removed := id :: site.removed }
    else none
  | .revise documents => if documents.all (site.current kind) then some { site with source := documents } else none

/-- What an authority said last about a document. -/
def standing (site : Site) (authority : VisibilityAuthority) (id : String) : Option (Stamped Bool) :=
  (site.flips.filterMap fun flip => if flip.authority = authority ∧ flip.id = id then some flip.stamp else none).foldl
    Stamped.offer (some ⟨0, true⟩)

/-- An authority has hidden the document and not restored it. -/
def hides (site : Site) (authority : VisibilityAuthority) (id : String) : Bool :=
  (site.standing authority id).any fun stamp => !stamp.value

def hidden (site : Site) (id : String) : Bool := site.hides .moderation id || site.hides .owner id

end Site

/-- The fields that a query matches its text against. -/
def matchFields : List String := ["handle", "display_name", "bio", "caption", "hashtags", "author_handle", "tag"]

/-- Some query can find the document: it has a field to match and nobody hides it. -/
def Source.listed (source : Source) : Bool :=
  source.admitted && matchFields.any fun field => (source field).isSome

/-- The document has nothing beyond its kind and the fields that guard it. -/
def Source.Bare (source : Source) : Prop := ∀ key ∉ guardFields, key ≠ "entity_type" → source key = none

/-- Some search returns the document. -/
def OpenSearch.lists (engine : OpenSearch) (kind : EntityKind) (id : String) : Bool :=
  (engine.document kind id).any Source.listed

/-- An empty index, read and written. -/
structure Site.Begins (kind : EntityKind) (site : Site) : Prop where
  serves : ∃ name, site.engine.Serves kind name
  empty : ∀ id, site.engine.document kind id = none
  source : ∀ document ∈ site.source, document.kind = kind
  silent : site.removed = [] ∧ site.flips = []
  unasked : site.begun = false

def rebuild (kind : EntityKind) : Host Site String Arrival Op Op.Reply SearchError ReindexReport where
  init := Site.Begins kind
  server := siteServer
  accept site newSuffix := if site.begun then none else some ({ site with begun := true }, reindex kind newSuffix)
  elapse := Site.elapse kind

abbrev Rebuild := Pool Site String Op Op.Reply SearchError ReindexReport

/-- The new index is new, and nobody hides a document that there is when the write alias is turned to it. -/
def Site.ready (site : Site) : Op → Bool
  | .createIndexVersion kind suffix => (site.engine.indices (site.engine.physical kind suffix)).isNone
  | .swapWriteAlias _ _ => site.flips.all fun flip => site.removed.contains flip.id || !site.hidden flip.id
  | .scan _ | .upsert _ | .swapReadAlias _ _ => true

/-- The reindexer finds the engine ready for each call, and no document is deleted between the scan
and its turn. -/
def uncrossed (pool : Rebuild) : Move String Arrival → Bool
  | .advance id _ =>
    match pool.calls id with
    | some ⟨_, .call op _, _⟩ => pool.world.ready op
    | _ => true
  | .elapse (.delete id) => pool.world.backlog.all fun document => document.id != id
  | .elapse _ | .begin _ _ | .crash _ => true

namespace Site

variable {kind : EntityKind} {site : Site} {id : String} {source : Source}

theorem standing_isSome (auth : VisibilityAuthority) (id : String) :
    ∃ stamp, site.standing auth id = some stamp :=
  Option.isSome_iff_exists.mp (Stamped.foldl_offer_isSome _ rfl)

/-- The stored document is no newer than what its authorities said; it is hidden if one hid it, and
has no content if it was deleted. -/
structure Owes (site : Site) (id : String) (stored : Source) : Prop where
  version : ∀ (authority : VisibilityAuthority) stamp, site.standing authority id = some stamp →
    ∀ value, stored authority.versionField = some value → ∃ number : Int, value = .number number ∧ number ≤ stamp.version
  flag : id ∉ site.removed → ∀ (authority : VisibilityAuthority) stamp, site.standing authority id = some stamp →
    stamp.value = false → stored authority.flagField = some (.flag false) ∧
      stored authority.versionField = some (.number stamp.version)
  bare : id ∈ site.removed → stored.Bare

theorem Owes.unlisted (owes : site.Owes id source) (gone : site.hidden id = true ∨ id ∈ site.removed) :
    source.listed = false := by
  unfold Source.listed
  by_cases removed : id ∈ site.removed
  · have blank : (matchFields.any fun field => (source field).isSome) = false := by
      rw [any_eq_false]
      intro field mem
      have free : ∀ field ∈ matchFields, field ∉ guardFields ∧ field ≠ "entity_type" := by decide
      rw [owes.bare removed field (free field mem).1 (free field mem).2]
      exact Bool.false_ne_true
    rw [blank, Bool.and_false]
  have unseen : ∀ auth : VisibilityAuthority, site.hides auth id = true → source auth.flagField = some (.flag false) := by
    intro auth hides
    obtain ⟨stamp, said⟩ := site.standing_isSome auth id
    simp only [Site.hides, said, Option.any_some, Bool.not_eq_true'] at hides
    exact (owes.flag removed auth stamp said hides).1
  have out : source.admitted = false := by
    unfold Source.admitted
    rcases Bool.or_eq_true_iff.mp (gone.resolve_right removed) with moderation | owner
    · have flag := unseen .moderation moderation
      simp only [VisibilityAuthority.flagField] at flag
      simp [flag]
    · have flag := unseen .owner owner
      simp only [VisibilityAuthority.flagField] at flag
      simp [flag]
  rw [out, Bool.false_and]

theorem Owes.congr {site' : Site} (owes : site.Owes id stored)
    (said : ∀ authority, site'.standing authority id = site.standing authority id)
    (hr : id ∈ site'.removed ↔ id ∈ site.removed) : site'.Owes id stored where
  version authority stamp stands := owes.version authority stamp (said authority ▸ stands)
  flag kept authority stamp stands := owes.flag (mt hr.mpr kept) authority stamp (said authority ▸ stands)
  bare gone := owes.bare (hr.mp gone)

theorem Owes.content (owes : site.Owes id source) (kept : id ∉ site.removed) (document : IndexDocument) :
    site.Owes id ((contentScript document.version document.searchable.isVisible (contentSource document)
      source).getD source) := by
  rcases contentScript_cases document with ⟨-, ran⟩ | ⟨-, after, ran, hw⟩
  · rw [ran]
    exact owes
  rw [ran, Option.getD_some]
  refine ⟨?_, ?_, fun gone => absurd gone kept⟩
  · intro auth stamp said value h
    rw [hw.flagVersion] at h
    cases hb : source auth.versionField with
    | none =>
      rw [hb] at h
      cases h
      exact ⟨0, rfl, Int.natCast_nonneg _⟩
    | some =>
      rw [hb] at h
      cases h
      exact owes.version auth stamp said _ hb
  · intro _ auth stamp said hides
    obtain ⟨flag, ver⟩ := owes.flag kept auth stamp said hides
    rw [hw.flag, hw.flagVersion, flag, ver]
    exact ⟨rfl, rfl⟩

def said (site : Site) (authority : VisibilityAuthority) (id : String) (stamp : Stamped Bool) : Site :=
  { site with flips := site.flips ++ [⟨authority, id, stamp⟩] }

theorem standing_said :
    (site.said authority id stamp).standing authority id = Stamped.offer (site.standing authority id) stamp := by
  simp [standing, Site.said]

theorem standing_said_of_ne (other : ¬ (by_ = authority ∧ about = id)) :
    (site.said by_ about stamp).standing authority id = site.standing authority id := by
  simp [standing, Site.said, other]

theorem Owes.flip (owes : site.Owes id source) (by_ : VisibilityAuthority) (searchable : Searchable)
    (version : DocVersion) :
    (site.said by_ id ⟨version, searchable.isVisible⟩).Owes id
      ((visibilityScript by_.flagField by_.versionField version searchable.isVisible kind.asStr source).getD source) := by
  obtain ⟨hb, ht⟩ := site.standing_isSome by_ id
  rcases visibilityScript_cases with ⟨stale, ran⟩ | ⟨hf, after, ran, hw⟩
  · -- what is stored is at least as new, and so is what was said
    rw [ran]
    refine owes.congr (fun auth => ?_) Iff.rfl
    by_cases mine : by_ = auth
    · subst mine
      unfold Source.stale at stale
      split at stale
      · rename_i number here
        obtain ⟨_, eq, bound⟩ := owes.version by_ hb ht _ here
        cases eq
        have older : version ≤ hb.version := Int.ofNat_le.mp (Int.le_trans (of_decide_eq_true stale) bound)
        rw [standing_said, ht]
        exact if_pos older
      · cases stale
    · exact standing_said_of_ne fun both => mine both.1
  rw [ran, Option.getD_some]
  constructor
  · intro auth stamp said value here
    by_cases mine : by_ = auth
    · subst mine
      rw [hw.flagVersion] at here
      cases here
      rw [standing_said] at said
      exact ⟨version, rfl, Int.ofNat_le.mpr (Stamped.offer_newest said).2.1⟩
    rw [standing_said_of_ne fun both => mine both.1] at said
    rw [(hw.other (Ne.symm mine)).2] at here
    exact owes.version auth stamp said value here
  · intro kept auth stamp said hides
    by_cases mine : by_ = auth
    · subst mine
      rw [standing_said] at said
      rcases (Stamped.offer_newest said).1 with old | new
      · -- an older flip would have been stale here as well
        have number := (owes.flag kept by_ stamp old hides).2
        unfold Source.stale at hf
        rw [number] at hf
        have bound : (version : Int) ≤ stamp.version := Int.ofNat_le.mpr (Stamped.offer_newest said).2.1
        exact absurd bound (of_decide_eq_false hf)
      · subst new
        refine ⟨?_, hw.flagVersion⟩
        rw [hw.flag, show searchable.isVisible = false from hides]
    · rw [standing_said_of_ne fun both => mine both.1] at said
      rw [(hw.other (Ne.symm mine)).1, (hw.other (Ne.symm mine)).2]
      exact owes.flag kept auth stamp said hides
  · intro gone key free notType
    rw [hw.free free notType]
    exact owes.bare gone key free notType

theorem owes_empty (free : id ∈ site.removed ∨ ∀ auth, site.hides auth id = false) : site.Owes id .empty where
  version _ _ _ _ same := by cases same
  flag kept auth stamp ht hides := by
    have permits := free.resolve_left kept auth
    simp [Site.hides, ht, hides] at permits
  bare _ _ _ _ := rfl

theorem unhidden (hq : site.ready (.swapWriteAlias kind name) = true) (kept : id ∉ site.removed) :
    site.hides auth id = false := by
  by_cases spoken : ∃ flip ∈ site.flips, flip.id = id
  · obtain ⟨flip, hi, rfl⟩ := spoken
    have open_ := all_eq_true.mp hq flip hi
    simp only [contains_iff_mem, kept, Site.hidden, Bool.or_eq_true, Bool.not_eq_true', Bool.or_eq_false_iff,
      false_or] at open_
    cases auth with
    | moderation => exact open_.1
    | owner => exact open_.2
  have silent : (site.flips.filterMap fun flip =>
      if flip.authority = auth ∧ flip.id = id then some flip.stamp else none) = [] := by
    rw [filterMap_eq_nil_iff]
    intro flip hi
    exact if_neg fun both => spoken ⟨flip, hi, both.2⟩
  simp [Site.hides, standing, silent]

/-- The index that is written to owes every document what the authorities and the source want. -/
structure Safe (kind : EntityKind) (name : String) (site : Site) : Prop where
  writes : site.engine.writeAlias kind = some name
  owes : ∃ index, site.engine.indices name = some index ∧ ∀ id, site.Owes id ((index id).getD .empty)

/-- The write alias leads to an index, and the source has no deleted document. -/
structure Sound (kind : EntityKind) (site : Site) : Prop where
  writes : ∃ name, site.engine.writeAlias kind = some name ∧ (site.engine.indices name).isSome
  source : ∀ document ∈ site.source, document.kind = kind ∧ document.id ∉ site.removed

end Site

namespace OpenSearch

variable {engine : OpenSearch} {kind : EntityKind}

theorem delete_eq (writes : engine.writeAlias kind = some name) (h : engine.indices name = some index)
    (id : String) : (engine.delete kind id).1 = engine.setDocument name index id none := by
  have behind : engine.behind (engine.writeAlias kind) = some (name, index) := by simp [behind, writes, h]
  simp only [OpenSearch.delete, behind]

/-- A write through the alias of the kind changes documents of the index behind it, and nothing else. -/
structure Writes (kind : EntityKind) (engine after : OpenSearch) : Prop where
  named : after.indexPrefix = engine.indexPrefix
  reads : after.readAlias = engine.readAlias
  writes : after.writeAlias = engine.writeAlias
  kept : ∀ name, engine.writeAlias kind ≠ some name → after.indices name = engine.indices name
  present : ∀ name, (engine.indices name).isSome → (after.indices name).isSome

theorem Writes.refl (kind : EntityKind) (engine : OpenSearch) : Writes kind engine engine :=
  ⟨rfl, rfl, rfl, fun _ _ => rfl, fun _ present => present⟩

theorem writes_setDocument (writes : engine.writeAlias kind = some name) (id : String) :
    Writes kind engine (engine.setDocument name index id source) where
  named := rfl
  reads := rfl
  writes := rfl
  kept other apart := by
    have different : other ≠ name := fun eq => apart (eq ▸ writes)
    exact update_of_ne different _ _
  present other present := by
    by_cases eq : other = name
    · subst eq
      simp [setDocument]
    · simpa [setDocument, update_of_ne eq] using present

theorem behind_eq_some (hf : engine.behind alias_ = some (name, index)) :
    alias_ = some name ∧ engine.indices name = some index := by
  obtain ⟨_, eq, rest⟩ := Option.bind_eq_some_iff.mp hf
  obtain ⟨_, h, both⟩ := Option.bind_eq_some_iff.mp rest
  cases both
  exact ⟨eq, h⟩

theorem writes_scriptedUpdate (kind : EntityKind) (id : String) (script : Source → Option Source) :
    Writes kind engine (engine.scriptedUpdate kind id script).1 := by
  unfold OpenSearch.scriptedUpdate
  split
  · exact .refl kind engine
  · rename_i name index hf
    split
    · exact .refl kind engine
    · exact writes_setDocument (behind_eq_some hf).1 _

theorem writes_delete (id : String) : Writes kind engine (engine.delete kind id).1 := by
  unfold OpenSearch.delete
  split
  · exact .refl kind engine
  · rename_i name index hf
    exact writes_setDocument (behind_eq_some hf).1 _

end OpenSearch

namespace Site

variable {kind : EntityKind} {site : Site} {document : IndexDocument} {id : String}

theorem Safe.written (safe : Safe kind name site) (h : site.engine.indices name = some index)
    (engine : site'.engine = site.engine.setDocument name index id stored) (here : site'.Owes id (stored.getD .empty))
    (ht : ∀ other ≠ id, ∀ source, site.Owes other source → site'.Owes other source) : Safe kind name site' := by
  obtain ⟨_, h', owes⟩ := safe.owes
  cases h.symm.trans h'
  constructor
  · rw [engine]
    exact safe.writes
  refine ⟨update index id stored, ?_, fun other => ?_⟩
  · rw [engine]
    exact update_self ..
  by_cases mine : other = id
  · subst mine
    rw [update_self]
    exact here
  · rw [update_of_ne mine]
    exact ht other mine _ (owes other)

theorem Safe.scripted (safe : Safe kind name site)
    (engine : site'.engine = (site.engine.scriptedUpdate kind id script).1)
    (here : ∀ source, site.Owes id source → site'.Owes id ((script source).getD source))
    (ht : ∀ other ≠ id, ∀ source, site.Owes other source → site'.Owes other source) : Safe kind name site' := by
  obtain ⟨index, h, owes⟩ := safe.owes
  refine safe.written h (engine.trans (OpenSearch.scriptedUpdate_eq safe.writes h id script)) ?_ ht
  rw [Option.getD_or]
  exact here _ (owes id)

theorem Safe.upsert (safe : Safe kind name site) (hk : document.kind = kind) (kept : document.id ∉ site.removed)
    (backlog : List IndexDocument) :
    Safe kind name { site with engine := (site.engine.upsert document).1, backlog } := by
  subst hk
  apply safe.scripted rfl
  · intro source owes
    exact (owes.content kept document).congr (fun _ => rfl) Iff.rfl
  · intro other _ source owes
    exact owes.congr (fun _ => rfl) Iff.rfl

theorem Safe.flip (safe : Safe kind name site) (auth : VisibilityAuthority) (id : String)
    (searchable : Searchable) (ver : DocVersion) :
    Safe kind name { site.said auth id ⟨ver, searchable.isVisible⟩ with
      engine := (site.engine.setSearchable auth kind id searchable ver).1 } := by
  apply safe.scripted rfl
  · intro source owes
    exact (owes.flip auth searchable ver).congr (fun _ => rfl) Iff.rfl
  · intro other ne source owes
    refine owes.congr (fun by_ => ?_) Iff.rfl
    exact standing_said_of_ne fun both => ne both.2.symm

theorem Safe.delete (safe : Safe kind name site) (id : String) :
    Safe kind name { site with engine := (site.engine.delete kind id).1, removed := id :: site.removed } := by
  obtain ⟨index, h, -⟩ := safe.owes
  refine safe.written h (OpenSearch.delete_eq safe.writes h id) (owes_empty (.inl mem_cons_self)) ?_
  intro other ne source owes
  refine owes.congr (fun _ => rfl) ?_
  simp [ne]

inductive Elapses (kind : EntityKind) (site : Site) : Arrival → Site → Prop where
  | upserted {document : IndexDocument} (kinds : document.kind = kind) (kept : document.id ∉ site.removed) :
      Elapses kind site (.upsert document) { site with engine := (site.engine.upsert document).1 }
  | flipped (authority : VisibilityAuthority) (id : String) (searchable : Searchable) (version : DocVersion) :
      Elapses kind site (.flip authority id searchable version)
        { site.said authority id ⟨version, searchable.isVisible⟩ with
          engine := (site.engine.setSearchable authority kind id searchable version).1 }
  | deleted {id : String} (gone : ∀ document ∈ site.source, document.id ≠ id) :
      Elapses kind site (.delete id)
        { site with engine := (site.engine.delete kind id).1, removed := id :: site.removed }
  | revised {documents : List IndexDocument}
      (current : ∀ document ∈ documents, document.kind = kind ∧ document.id ∉ site.removed) :
      Elapses kind site (.revise documents) { site with source := documents }

theorem current_iff : site.current kind document = true ↔ document.kind = kind ∧ document.id ∉ site.removed := by
  simp [Site.current]

theorem elapse_elapses (he : site.elapse kind arrival = some site') : Elapses kind site arrival site' := by
  cases arrival with
  | upsert _ =>
    simp only [Site.elapse] at he
    split at he
    · rename_i fits
      cases he
      exact .upserted (current_iff.mp fits).1 (current_iff.mp fits).2
    · cases he
  | flip authority id searchable version =>
    cases he
    exact .flipped authority id searchable version
  | delete _ =>
    simp only [Site.elapse] at he
    split at he
    · rename_i gone
      cases he
      exact .deleted (by simpa using gone)
    · cases he
  | revise _ =>
    simp only [Site.elapse] at he
    split at he
    · rename_i fits
      cases he
      exact .revised fun document mem => current_iff.mp (all_eq_true.mp fits document mem)
    · cases he

theorem Safe.elapse (safe : Safe kind name site) (he : Elapses kind site arrival site') : Safe kind name site' := by
  cases he with
  | upserted kinds kept => exact safe.upsert kinds kept site.backlog
  | flipped authority id searchable version => exact safe.flip authority id searchable version
  | deleted => exact safe.delete _
  | revised =>
    obtain ⟨index, h, owes⟩ := safe.owes
    exact ⟨safe.writes, index, h, fun id => (owes id).congr (fun _ => rfl) Iff.rfl⟩

theorem Elapses.writes (he : Elapses kind site arrival site') : OpenSearch.Writes kind site.engine site'.engine := by
  cases he with
  | upserted kinds =>
    rw [← kinds]
    exact OpenSearch.writes_scriptedUpdate ..
  | flipped => exact OpenSearch.writes_scriptedUpdate ..
  | deleted => exact OpenSearch.writes_delete ..
  | revised => exact .refl kind _

theorem Elapses.unasked (he : Elapses kind site arrival site') :
    site'.begun = site.begun ∧ site'.backlog = site.backlog := by
  cases he <;> exact ⟨rfl, rfl⟩

theorem Sound.elapse (inv : Sound kind site) (he : Elapses kind site arrival site') : Sound kind site' := by
  constructor
  · obtain ⟨name, writes, present⟩ := inv.writes
    refine ⟨name, ?_, he.writes.present name present⟩
    rw [he.writes.writes]
    exact writes
  · cases he with
    | upserted | flipped => exact inv.source
    | deleted gone =>
      intro document mem
      obtain ⟨kinds, kept⟩ := inv.source document mem
      refine ⟨kinds, ?_⟩
      rintro (_ | ⟨_, hi⟩)
      · exact gone document mem rfl
      · exact kept hi
    | revised current => exact current

theorem Elapses.current (he : Elapses kind site arrival site')
    (kept : document.kind = kind ∧ document.id ∉ site.removed)
    (hu : ∀ id, arrival = .delete id → document.id ≠ id) :
    document.kind = kind ∧ document.id ∉ site'.removed := by
  cases he with
  | upserted | flipped | revised => exact kept
  | deleted =>
    refine ⟨kept.1, ?_⟩
    rintro (_ | ⟨_, hi⟩)
    · exact hu _ rfl rfl
    · exact kept.2 hi

end Site

def cutOver (kind : EntityKind) (newIndex : String) (documentsBackfilled : Nat) : Rebuilding ReindexReport := do
  ask (.swapReadAlias kind newIndex)
  return { kind, newIndex, documentsBackfilled }

def fill (kind : EntityKind) (newIndex : String) (documents : List IndexDocument) (backfilled : Nat) :
    Rebuilding ReindexReport :=
  backfill documents backfilled >>= cutOver kind newIndex

def scanned (kind : EntityKind) (newIndex : String) : Rebuilding ReindexReport := do
  let documents ← ask (.scan kind)
  fill kind newIndex documents 0

def turned (kind : EntityKind) (newIndex : String) : Rebuilding ReindexReport := do
  ask (.swapWriteAlias kind newIndex)
  scanned kind newIndex

theorem fill_cons : fill kind newIndex (document :: rest) backfilled =
      ask (.upsert document) >>= fun _ => fill kind newIndex rest (backfilled + 1) := by
  unfold fill
  rw [backfill, Program.bind_assoc]

/-- What is left of the reindex, and what it may rely on. -/
inductive Stage (kind : EntityKind) (site : Site) (program : Rebuilding ReindexReport) : Prop where
  | asked (newSuffix : String) (is : program = reindex kind newSuffix)
  | created (newIndex : String) (is : program = turned kind newIndex)
      (fresh : site.engine.indices newIndex = some fun _ => none) (idle : site.engine.writeAlias kind ≠ some newIndex)
  | swapped (newIndex : String) (is : program = scanned kind newIndex) (safe : site.Safe kind newIndex)
  | filling (newIndex : String) (documents : List IndexDocument) (backfilled : Nat)
      (is : program = fill kind newIndex documents backfilled) (safe : site.Safe kind newIndex)
      (backlog : site.backlog = documents)
      (current : ∀ document ∈ documents, document.kind = kind ∧ document.id ∉ site.removed)
  | returned (report : ReindexReport) (is : program = .ok report) (safe : site.Safe kind report.newIndex)
      (reads : site.engine.readAlias kind = some report.newIndex)
  | failed (e : SearchError) (is : program = .error e)

namespace Stage

variable {kind : EntityKind} {site : Site}

theorem elapse (hs : Stage kind site program) (he : site.Elapses kind arrival site')
    (hu : ∀ id, arrival = .delete id → ∀ document ∈ site.backlog, document.id ≠ id) :
    Stage kind site' program := by
  cases hs with
  | asked newSuffix is => exact .asked newSuffix is
  | created newIndex is fresh idle =>
    refine .created newIndex is ?_ ?_
    · rw [he.writes.kept newIndex idle]
      exact fresh
    · rw [he.writes.writes]
      exact idle
  | swapped newIndex is safe => exact .swapped newIndex is (safe.elapse he)
  | filling newIndex documents backfilled is safe backlog current =>
    refine .filling newIndex documents backfilled is (safe.elapse he) (he.unasked.2.trans backlog) ?_
    intro document mem
    apply he.current (current document mem)
    intro id deletes
    exact hu id deletes document (backlog ▸ mem)
  | returned report is safe reads =>
    refine .returned report is (safe.elapse he) ?_
    rw [he.writes.reads]
    exact reads
  | failed e is => exact .failed e is

variable {op : Op} {next : Except SearchError op.Reply → Rebuilding ReindexReport}

/-- A call that is served leaves the site sound, and the reindex goes on from its answer. -/
structure Onward (kind : EntityKind) (site : Site) (op : Op)
    (next : Except SearchError op.Reply → Rebuilding ReindexReport) : Prop where
  sound : Site.Sound kind (site.serve op).1
  stage : Stage kind (site.serve op).1 (next (site.serve op).2)
  failed : ∀ e, next (.error e) = .error e
  begun : (site.serve op).1.begun = site.begun

theorem onward (hs : Site.Sound kind site) (hst : Stage kind site (.call op next)) (hr : site.ready op = true) :
    Onward kind site op next := by
  obtain ⟨written, writes, present⟩ := hs.writes
  cases hst with
  | asked newSuffix is =>
    cases is
    have none_ : site.engine.indices (site.engine.physical kind newSuffix) = none := by
      simpa [Site.ready] using hr
    have made : site.serve (.createIndexVersion kind newSuffix) = ({ site with engine := { site.engine with
        indices := update site.engine.indices (site.engine.physical kind newSuffix) (some fun _ => none) } },
        .ok (site.engine.physical kind newSuffix)) := by
      simp only [Site.serve, OpenSearch.createIndexVersion, none_]
    have apart : written ≠ site.engine.physical kind newSuffix := by
      rintro rfl
      rw [none_] at present
      cases present
    refine ⟨?_, ?_, fun _ => rfl, ?_⟩
    · rw [made]
      refine ⟨⟨written, writes, ?_⟩, hs.source⟩
      show (update site.engine.indices _ _ written).isSome = true
      rw [update_of_ne apart]
      exact present
    · rw [made]
      refine .created (site.engine.physical kind newSuffix) rfl (update_self ..) ?_
      rw [writes]
      exact fun eq => apart (Option.some.inj eq)
    · rw [made]
  | created newIndex is fresh =>
    cases is
    refine ⟨⟨⟨newIndex, update_self .., ?_⟩, hs.source⟩, ?_, fun _ => rfl, rfl⟩
    · show (site.engine.indices newIndex).isSome
      rw [fresh]
      rfl
    · refine .swapped newIndex rfl ⟨update_self .., _, fresh, fun id => ?_⟩
      by_cases gone : id ∈ site.removed
      · exact Site.owes_empty (.inl gone)
      · have visible : ∀ auth, site.hides auth id = false := fun _ => Site.unhidden hr gone
        exact Site.owes_empty (.inr visible)
  | swapped newIndex is safe =>
    cases is
    refine ⟨⟨hs.writes, hs.source⟩, ?_, fun _ => rfl, rfl⟩
    obtain ⟨index, h, owes⟩ := safe.owes
    refine .filling newIndex site.source 0 rfl ⟨safe.writes, index, h, ?_⟩ rfl hs.source
    exact fun id => (owes id).congr (fun _ => rfl) Iff.rfl
  | filling newIndex documents backfilled is safe backlog current =>
    cases documents with
    | nil =>
      cases is
      refine ⟨⟨hs.writes, hs.source⟩, ?_, fun _ => rfl, rfl⟩
      obtain ⟨index, h, owes⟩ := safe.owes
      refine .returned _ rfl ⟨safe.writes, index, h, ?_⟩ (update_self ..)
      exact fun id => (owes id).congr (fun _ => rfl) Iff.rfl
    | cons document rest =>
      cases is
      obtain ⟨kinds, kept⟩ := current document mem_cons_self
      have frame : OpenSearch.Writes kind site.engine (site.engine.upsert document).1 := by
        rw [← kinds]
        exact OpenSearch.writes_scriptedUpdate ..
      have tail : site.backlog.tail = rest := by rw [backlog]; rfl
      refine ⟨⟨⟨written, ?_, frame.present written present⟩, hs.source⟩, ?_, fun _ => rfl, rfl⟩
      · show (site.engine.upsert document).1.writeAlias kind = _
        rw [frame.writes]
        exact writes
      have ha : (site.serve (.upsert document)).2 = (site.engine.upsert document).2 := rfl
      rw [ha]
      cases (site.engine.upsert document).2 with
      | error e => exact .failed e rfl
      | ok =>
        refine .filling newIndex rest (backfilled + 1) rfl (safe.upsert kinds kept site.backlog.tail) tail ?_
        exact fun other mem => current other (.tail _ mem)
  | returned _ is | failed _ is => cases is

end Stage

structure Kept (kind : EntityKind) (pool : Rebuild) : Prop where
  sound : pool.world.Sound kind
  stage : ∀ id call, pool.calls id = some call → pool.world.begun = true ∧ Stage kind pool.world call.program
  alone : ∃ caller, ∀ id call, pool.calls id = some call → id = caller

theorem kept_of_init (hb : (rebuild kind).machine.init pool) : Kept kind pool := by
  have site := hb.1
  obtain ⟨name, serves⟩ := site.serves
  refine ⟨⟨⟨name, serves.writes, serves.exists_⟩, fun document mem => ⟨site.source document mem, ?_⟩⟩, ?_, ?_⟩
  · rw [site.silent.1]
    exact not_mem_nil
  · exact fun id call h => absurd h (Host.calls_of_init _ hb _)
  · exact ⟨0, fun id call h => absurd h (Host.calls_of_init _ hb _)⟩

theorem Kept.step {kind : EntityKind} {pool next : Rebuild} {move : Move String Arrival} (kept : Kept kind pool)
    (fits : uncrossed pool move = true) (hs : (rebuild kind).Steps pool move next) : Kept kind next := by
  cases hs with
  | @begun id newSuffix _ _ _ ha =>
    simp only [rebuild] at ha
    split at ha
    · cases ha
    rename_i unasked
    cases ha
    have none_ : ∀ other call, pool.calls other ≠ some call := by
      intro other call h
      exact unasked (kept.stage other call h).1
    refine ⟨⟨kept.sound.writes, kept.sound.source⟩, fun other call h => ?_, id, fun other call h => ?_⟩
    · rcases update_cases h with ⟨rfl, eq⟩ | ⟨-, hb⟩
      · cases eq
        exact ⟨rfl, .asked newSuffix rfl⟩
      · exact absurd hb (none_ other call)
    · rcases update_cases h with ⟨rfl, -⟩ | ⟨-, hb⟩
      · rfl
      · exact absurd hb (none_ other call)
  | @advanced id _ op next _ svc hw =>
    obtain ⟨begun, stage⟩ := kept.stage id _ hw
    have ready : pool.world.ready op = true := by simpa only [uncrossed, hw] using fits
    have ho := stage.onward kept.sound ready
    obtain ⟨caller, alone⟩ := kept.alone
    cases alone id _ hw
    have hr : ((siteServer.perform pool.world op svc).1.Sound kind) ∧
        (siteServer.perform pool.world op svc).1.begun = true ∧
        Stage kind (siteServer.perform pool.world op svc).1 (next (siteServer.perform pool.world op svc).2) := by
      cases svc with
      | served => exact ⟨ho.sound, ho.begun.trans begun, ho.stage⟩
      | refused => exact ⟨kept.sound, begun, .failed _ (ho.failed _)⟩
      | replyLost => exact ⟨ho.sound, ho.begun.trans begun, .failed _ (ho.failed _)⟩
    refine ⟨hr.1, fun other call h => ?_, id, fun other call h => ?_⟩
    · rcases update_cases h with ⟨rfl, eq⟩ | ⟨ne, hb⟩
      · cases eq
        exact hr.2
      · exact absurd (alone other call hb) ne
    · rcases update_cases h with ⟨rfl, -⟩ | ⟨-, hb⟩
      · rfl
      · exact alone other call hb
  | crashed =>
    obtain ⟨caller, alone⟩ := kept.alone
    exact ⟨kept.sound, fun other call h => kept.stage other call (of_update_none h), caller,
      fun other call h => alone other call (of_update_none h)⟩
  | @elapsed _ _ hc =>
    have elapsed := Site.elapse_elapses hc
    refine ⟨kept.sound.elapse elapsed, ?_, kept.alone⟩
    intro other call h
    obtain ⟨begun, stage⟩ := kept.stage other call h
    refine ⟨elapsed.unasked.1.trans begun, stage.elapse elapsed ?_⟩
    intro id deletes document mem
    subst deletes
    have ne := all_eq_true.mp (show pool.world.backlog.all _ = true from fits) document mem
    simpa using ne

/-- Once a reindex has returned, no search lists a document that an authority hides, and of one whose
deletion has arrived there is at most a placeholder, provided that the new index was new, that nobody
hid a document when the write alias was turned, and that no deletion crossed the backfill. -/
theorem uncrossed_reindex_reveals_nothing (kind : EntityKind) (start pool : Rebuild)
    (moves : List (Move String Arrival)) (begins : (rebuild kind).machine.init start)
    (fits : (rebuild kind).machine.Meets (fun pool move => uncrossed pool move = true) start moves)
    (ran : (rebuild kind).machine.run start moves = some pool) {caller : Nat}
    {call : Call String Op Op.Reply SearchError ReindexReport} {report : ReindexReport}
    (held : pool.calls caller = some call) (returned : call.returned = some report) (id : String) :
    (pool.world.hidden id = true → pool.world.engine.lists kind id = false) ∧
      (id ∈ pool.world.removed → pool.world.engine.lists kind id = false ∧
        ∀ source, pool.world.engine.document kind id = some source → source.Bare) := by
  have kept := Host.run_keeps (Kept kind) (fun kept fits stepped => kept.step fits stepped) (kept_of_init begins) fits ran
  have ended := Call.returned_eq_some.mp returned
  have owes : pool.world.Owes id ((pool.world.engine.document kind id).getD .empty) := by
    cases (kept.stage caller call held).2 with
    | asked _ is | created _ is | swapped _ is | failed _ is => rw [ended] at is; cases is
    | filling _ documents _ is =>
      cases documents with
      | nil => rw [ended] at is; cases is
      | cons => rw [ended, fill_cons] at is; cases is
    | returned _ _ safe reads =>
      obtain ⟨index, stored, owes⟩ := safe.owes
      simpa [OpenSearch.document, OpenSearch.behind, reads, stored] using owes id
  unfold OpenSearch.lists
  cases stored : pool.world.engine.document kind id with
  | none => exact ⟨fun _ => rfl, fun _ => ⟨rfl, fun _ found => by cases found⟩⟩
  | some source =>
    rw [stored] at owes
    refine ⟨fun hidden => owes.unlisted (.inl hidden), fun removed => ⟨owes.unlisted (.inr removed), ?_⟩⟩
    intro _ found
    cases found
    exact owes.bare removed

namespace Sample

def site : Site := ⟨engine, [post "text" 4], [], [], false, []⟩

theorem site_begins : site.Begins .post where
  serves := ⟨"search-posts-v1", rfl, rfl, rfl⟩
  empty _ := rfl
  source document member := by
    rw [mem_singleton.mp member]
    rfl
  silent := ⟨rfl, rfl⟩
  unasked := rfl

def quiet : Rebuild := ⟨site, fun _ => none⟩

theorem quiet_begins : (rebuild .post).machine.init quiet := ⟨site_begins, rfl⟩

def proceed (calls : Nat) : List (Move String Arrival) := List.replicate calls (.advance 0 .served)

/-- The post is hidden while the new index is being filled, and so is one that was deleted before. -/
def hiddenMeanwhile : List (Move String Arrival) :=
  [.elapse (.upsert (post "text" 4)), .elapse (.flip .moderation "post-2" .hidden 3), .elapse (.delete "post-2"),
    .begin 0 "v2"] ++ proceed 2 ++
    [.elapse (.flip .moderation "post-1" .hidden 9), .elapse (.flip .owner "post-2" .hidden 5)] ++ proceed 3

/-- The post is hidden before the new index is there. -/
def hiddenBefore : List (Move String Arrival) :=
  [.elapse (.upsert (post "text" 4)), .elapse (.flip .moderation "post-1" .hidden 9), .begin 0 "v2"] ++ proceed 5

/-- The post is deleted between the scan and its turn. -/
def deletedMeanwhile : List (Move String Arrival) :=
  [.elapse (.upsert (post "text" 4)), .begin 0 "v2"] ++ proceed 3 ++
    [.elapse (.revise []), .elapse (.delete "post-1")] ++ proceed 2

theorem hidden_meanwhile_stays_hidden : ∃ pool, (rebuild .post).machine.run quiet hiddenMeanwhile = some pool ∧
    pool.world.hidden "post-1" = true ∧ pool.world.engine.lists .post "post-1" = false ∧
    ∃ source, pool.world.engine.document .post "post-2" = some source ∧ source.Bare := by
  obtain ⟨pool, ran, hidden, removed, there, _, held, ended⟩ : ∃ pool,
      (rebuild .post).machine.run quiet hiddenMeanwhile = some pool ∧ pool.world.hidden "post-1" = true ∧
      "post-2" ∈ pool.world.removed ∧ (pool.world.engine.document .post "post-2").isSome = true ∧
      ∃ call, pool.calls 0 = some call ∧ call.returned.isSome = true := by decide +kernel
  have fits : (rebuild .post).machine.Meets (fun pool move => uncrossed pool move = true) quiet hiddenMeanwhile := by
    decide +kernel
  obtain ⟨_, returned⟩ := Option.isSome_iff_exists.mp ended
  obtain ⟨source, stored⟩ := Option.isSome_iff_exists.mp there
  have reveals := uncrossed_reindex_reveals_nothing .post quiet pool hiddenMeanwhile quiet_begins fits ran held returned
  exact ⟨pool, ran, hidden, (reveals "post-1").1 hidden, source, stored, ((reveals "post-2").2 removed).2 source stored⟩

/-- A reindex returns, and the post moderation had hidden is listed; so is the one whose deletion
arrived meanwhile. -/
theorem reindex_reveals :
    (∃ pool, (rebuild .post).machine.run quiet hiddenBefore = some pool ∧
      ((pool.calls 0).bind Call.returned).isSome ∧ pool.world.hidden "post-1" = true ∧
      pool.world.engine.lists .post "post-1" = true) ∧
    ∃ pool, (rebuild .post).machine.run quiet deletedMeanwhile = some pool ∧
      ((pool.calls 0).bind Call.returned).isSome ∧ "post-1" ∈ pool.world.removed ∧
      pool.world.engine.lists .post "post-1" = true := by
  decide +kernel

end Sample
end CorePlatform.Search
