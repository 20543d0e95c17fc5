import CorePlatform.Theory.LastWriter
import CorePlatform.Search.Values

/-! # The index

The engine holds physical indices of documents; a kind is read through one alias and written through
another. A write runs an atomic script on the stored source of one document, which leaves it alone
if a version guard says the write is stale. Content and the flag of each authority have guards of
their own, so a document is three registers in one source. -/

namespace CorePlatform.Search

open Theory Function List

inductive Value where
  | text (text : String)
  | texts (texts : List String)
  | flag (flag : Bool)
  | number (number : Int)
  | instant (instant : Int)
  deriving DecidableEq

/-- The fields of a document; a field that is null holds nothing. -/
abbrev Source := String → Option Value

namespace Source

def empty : Source := fun _ => none

def set (source : Source) (field : String) (value : Value) : Source := update source field (some value)

/-- Set where the field is null. -/
def seed (source : Source) (field : String) (value : Value) : Source :=
  if (source field).isNone then source.set field value else source

def setAll (source : Source) (entries : List (String × Value)) : Source :=
  entries.foldl (fun source entry => source.set entry.1 entry.2) source

/-- The guard of a write: a stored version that the write's own does not exceed. -/
def stale (source : Source) (field : String) (version : DocVersion) : Bool :=
  match source field with
  | some (.number stored) => decide ((version : Int) ≤ stored)
  | _ => false

theorem set_apply (source : Source) : source.set field value key = if key = field then some value else source key :=
  update_apply ..

theorem seed_apply (source : Source) :
    source.seed field value key = if key = field then some ((source field).getD value) else source key := by
  unfold seed
  cases h : source field with
  | none => exact set_apply source
  | some =>
    by_cases here : key = field
    · subst here
      simpa using h
    · simp [here]

theorem setAll_apply (entries : List (String × Value)) : ∀ source : Source,
    (entries.map Prod.fst).Nodup → source.setAll entries key = (entries.lookup key).or (source key) := by
  induction entries with
  | nil =>
    intro source _
    rfl
  | cons entry rest ih =>
    intro source distinct
    obtain ⟨field, value⟩ := entry
    obtain ⟨ha, distinct⟩ := nodup_cons.mp distinct
    have hl : (source.set field value).setAll rest key = (rest.lookup key).or ((source.set field value) key) :=
      ih _ distinct
    show (source.set field value).setAll rest key = _
    rw [hl, set_apply, lookup_cons]
    by_cases here : key = field
    · subst here
      have none_ : rest.lookup key = none := by
        rw [lookup_eq_none_iff]
        intro entry hi
        have different : key ≠ entry.1 := fun eq => ha (mem_map.mpr ⟨entry, hi, eq.symm⟩)
        simpa using different
      simp [none_]
    · have test : (key == field) = false := beq_eq_false_iff_ne.mpr here
      simp only [here, if_false, test]

end Source

def contentScript (contentVersion : DocVersion) (defaultSearchable : Bool) (doc : List (String × Value))
    (source : Source) : Option Source :=
  if source.stale "content_version" contentVersion then none
  else
    let source := source.setAll doc
    let source := source.set "content_version" (.number contentVersion)
    let source := source.seed "moderation_searchable" (.flag defaultSearchable)
    let source := source.seed "moderation_visibility_version" (.number 0)
    let source := source.seed "owner_searchable" (.flag defaultSearchable)
    some (source.seed "owner_visibility_version" (.number 0))

def visibilityScript (flagField versionField : String) (version : DocVersion) (searchable : Bool) (entityType : String)
    (source : Source) : Option Source :=
  if source.stale versionField version then none
  else
    let source := source.set flagField (.flag searchable)
    let source := source.set versionField (.number version)
    some (source.seed "entity_type" (.text entityType))

def contentSource : IndexDocument → List (String × Value)
  | .profile d => [
      ("entity_type", .text "profile"),
      ("author_id", .text d.authorId.1),
      ("handle", .text d.handle),
      ("display_name", .text d.displayName),
      ("bio", .text d.bio),
      ("avatar_key", .text d.avatarKey),
      ("verified", .flag d.verified),
      ("created_at", .instant d.createdAt),
      ("indexed_at", .instant d.indexedAt),
      ("popularity", .number d.popularity)]
  | .post d => [
      ("entity_type", .text "post"),
      ("author_id", .text d.authorId.1),
      ("caption", .text d.caption),
      ("hashtags", .texts d.hashtags),
      ("author_handle", .text d.authorHandle),
      ("thumbnail_key", .text d.thumbnailKey),
      ("created_at", .instant d.createdAt),
      ("indexed_at", .instant d.indexedAt),
      ("popularity", .number d.popularity)]
  | .hashtag d => [
      ("entity_type", .text "hashtag"),
      ("tag", .text d.tag),
      ("post_count", .number d.postCount),
      ("indexed_at", .instant d.indexedAt),
      ("popularity", .number d.popularity)]

abbrev Index := String → Option Source

structure OpenSearch where
  /-- what the names of its indices begin with -/
  indexPrefix : String
  indices : String → Option Index
  readAlias : EntityKind → Option String
  writeAlias : EntityKind → Option String

inductive WriteOutcome where
  | applied
  | rejectedStale

def plural : EntityKind → String
  | .profile => "profiles"
  | .post => "posts"
  | .hashtag => "hashtags"

namespace OpenSearch

variable (engine : OpenSearch)

def physical (kind : EntityKind) (suffix : String) : String := engine.indexPrefix ++ "-" ++ plural kind ++ "-" ++ suffix

def behind (alias_ : Option String) : Option (String × Index) := do
  let name ← alias_
  let index ← engine.indices name
  return (name, index)

def document (kind : EntityKind) (id : String) : Option Source :=
  (engine.behind (engine.readAlias kind)).bind fun behind => behind.2 id

def setDocument (name : String) (index : Index) (id : String) (source : Option Source) : OpenSearch :=
  { engine with indices := update engine.indices name (some (update index id source)) }

def scriptedUpdate (kind : EntityKind) (id : String) (script : Source → Option Source) :
    OpenSearch × Except SearchError WriteOutcome :=
  match engine.behind (engine.writeAlias kind) with
  | none => (engine, .error (.indexNotFound (plural kind)))
  | some (name, index) =>
    match script ((index id).getD .empty) with
    | none => (engine, .ok .rejectedStale)
    | some source => (engine.setDocument name index id (some source), .ok .applied)

def upsert (document : IndexDocument) : OpenSearch × Except SearchError WriteOutcome :=
  engine.scriptedUpdate document.kind document.id
    (contentScript document.version document.searchable.isVisible (contentSource document))

def setSearchable (authority : VisibilityAuthority) (kind : EntityKind) (id : String) (searchable : Searchable)
    (version : DocVersion) : OpenSearch × Except SearchError WriteOutcome :=
  engine.scriptedUpdate kind id
    (visibilityScript authority.flagField authority.versionField version searchable.isVisible kind.asStr)

/-- A document that is not there counts as deleted. -/
def delete (kind : EntityKind) (id : String) : OpenSearch × Except SearchError Unit :=
  match engine.behind (engine.writeAlias kind) with
  | none => (engine, .ok ())
  | some (name, index) => (engine.setDocument name index id none, .ok ())

def purgeByAuthor (authorId : AuthorId) : OpenSearch :=
  { engine with
    indices := fun name => (engine.indices name).map fun index id =>
      (index id).filter fun source => source "author_id" != some (.text authorId.1) }

end OpenSearch

/-- Documents that an authority has hidden are left out; a flag that is null hides nothing. -/
def Source.admitted (source : Source) : Bool :=
  !(source "moderation_searchable" == some (.flag false) || source "owner_searchable" == some (.flag false))

inductive ApplyOutcome where
  | indexed
  | visibilityUpdated
  | deleted
  | purged
  | staleIgnored
  | skipped (reason : SkipReason)

def OpenSearch.apply (engine : OpenSearch) : IndexMutation → OpenSearch × Except SearchError ApplyOutcome
  | .upsert document =>
    let (engine, outcome) := engine.upsert document
    (engine, outcome.map fun | .applied => .indexed | .rejectedStale => .staleIgnored)
  | .setSearchable authority kind id searchable version =>
    let (engine, outcome) := engine.setSearchable authority kind id searchable version
    (engine, outcome.map fun | .applied => .visibilityUpdated | .rejectedStale => .staleIgnored)
  | .delete kind id =>
    let (engine, outcome) := engine.delete kind id
    (engine, outcome.map fun _ => .deleted)
  | .purgeByAuthor authorId => (engine.purgeByAuthor authorId, .ok .purged)
  | .skip reason => (engine, .ok (.skipped reason))

def OpenSearch.applyAll (engine : OpenSearch) (mutations : List IndexMutation) : OpenSearch :=
  mutations.foldl (fun engine mutation => (engine.apply mutation).1) engine

end CorePlatform.Search
