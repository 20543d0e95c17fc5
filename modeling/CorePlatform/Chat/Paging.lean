import CorePlatform.Theory.Paging
import CorePlatform.Chat.Handlers

/-! # Reading a history to its end

A page walks back through the partitions, from the time of the message that ended the page before.
It gives up after ninety partitions, and a page that is not full carries no token, so a quiet time
longer than the walk ends the reading for good. -/

namespace CorePlatform.Chat

open Theory Server Option

section

variable {a : Cursor}

theorem Cursor.before_iff : a.before b = true ↔ a.1 < b.1 ∨ a.1 = b.1 ∧ a.2.toNat < b.2.toNat := by
  simp [Cursor.before, BitVec.lt_def]

theorem Cursor.not_before_iff : a.before b = false ↔ b.1 < a.1 ∨ b.1 = a.1 ∧ b.2.toNat ≤ a.2.toNat := by
  rw [← Bool.not_eq_true, Cursor.before_iff]
  omega

theorem Cursor.eq_of_not_before (left : a.before b = false) (hr : b.before a = false) : a = b := by
  rw [Cursor.not_before_iff] at left hr
  apply Prod.ext
  · omega
  · apply BitVec.eq_of_toNat_eq
    omega

end

def Newer (a b : MessageRow) : Prop := IdOrder.descending.clustered a b = true
  deriving Decidable

theorem newer_iff : Newer a b ↔ a.key.before b.key = false := by
  simp [Newer, IdOrder.clustered]

instance : Std.Total Newer where
  total a b := by
    rw [newer_iff, newer_iff, Cursor.not_before_iff, Cursor.not_before_iff]
    omega

instance : IsTrans MessageRow Newer where
  trans a b c ab bc := by
    rw [newer_iff, Cursor.not_before_iff] at ab bc ⊢
    omega

def newestFirst (log : List MessageRow) : List MessageRow := log.insertionSort Newer

/-- The messages a table can hold: one per key, with times of 64 bits, none of the future. The
number of the present partition has 32 bits. -/
structure IsLog (config : Config) (now : Int) (log : List MessageRow) : Prop where
  keyed : (log.map MessageRow.key).Nodup
  past : ∀ m ∈ log, m.createdAt ≤ now
  times : ∀ m ∈ log, -2 ^ 63 ≤ m.createdAt
  present : now < 2 ^ 63
  numbered : now < 2 ^ 31 * (max config.bucketHours 1 * 3600000 : Nat)

theorem IsLog.eq_of_key (hi : IsLog config now log) (ha : a ∈ log) (hb : b ∈ log) (eq : a.key = b.key) :
    a = b := List.inj_on_of_nodup_map hi.keyed ha hb eq

theorem mem_newestFirst : m ∈ newestFirst log ↔ m ∈ log := List.mem_insertionSort _

theorem newestFirst_sorted : (newestFirst log).Pairwise Newer := List.pairwise_insertionSort Newer log

theorem IsLog.eq_of_newer (hi : IsLog config now log) (ha : a ∈ log) (hb : b ∈ log) (ab : Newer a b)
    (ba : Newer b a) : a = b :=
  hi.eq_of_key ha hb (Cursor.eq_of_not_before (newer_iff.mp ab) (newer_iff.mp ba))

theorem IsLog.newestFirst_filter (hi : IsLog config now log) :
    newestFirst (log.filter p) = (newestFirst log).filter p := by
  apply List.Perm.eq_of_pairwise _ newestFirst_sorted (newestFirst_sorted.filter p)
  · exact (List.perm_insertionSort Newer _).trans ((List.perm_insertionSort Newer log).filter p).symm
  intro a b ha hb
  have ha : a ∈ log := List.mem_of_mem_filter (mem_newestFirst.mp ha)
  have hb : b ∈ log := mem_newestFirst.mp (List.mem_of_mem_filter hb)
  exact hi.eq_of_newer ha hb

theorem IsLog.strictly (hi : IsLog config now log) :
    (newestFirst log).Pairwise fun a b => b.key.before a.key = true := by
  have distinct : (newestFirst log).Nodup :=
    (List.perm_insertionSort Newer log).nodup_iff.mpr (List.Nodup.of_map _ hi.keyed)
  apply (newestFirst_sorted.and distinct).imp_of_mem
  intro a b ha hb ordered
  rw [← Bool.not_eq_false]
  intro not
  exact ordered.2 (hi.eq_of_newer (mem_newestFirst.mp ha) (mem_newestFirst.mp hb) ordered.1 (newer_iff.mpr not))

theorem IsLog.newestFirst_unique (hi : IsLog config now log) (eq : received.Perm log)
    (ho : received.Pairwise fun a b => b.key.before a.key = true) : received = newestFirst log := by
  apply List.Perm.eq_of_pairwise _ _ hi.strictly (eq.trans (List.perm_insertionSort Newer log).symm)
  · intro a b _ _ ab ba
    rw [Cursor.before_iff] at ab ba
    omega
  · exact ho

theorem IsLog.bucket_eq (hi : IsLog config now log) (past : ms ≤ now) :
    messageBucket ms config.bucketHours = max ms 0 / (max config.bucketHours 1 * 3600000 : Nat) := by
  have numbered := hi.numbered
  have positive : (0 : Int) < (max config.bucketHours 1 * 3600000 : Nat) := by omega
  unfold messageBucket
  generalize ((max config.bucketHours 1 * 3600000 : Nat) : Int) = width at *
  have low : 0 ≤ max ms 0 / width := Int.ediv_nonneg (by omega) (by omega)
  have high : max ms 0 / width < 2 ^ 31 := Int.ediv_lt_of_lt_mul positive (by omega)
  exact Int.bmod_eq_of_le (by omega) (by omega)

theorem IsLog.bucket_mono (hi : IsLog config now log) (le : a ≤ b) (past : b ≤ now) :
    messageBucket a config.bucketHours ≤ messageBucket b config.bucketHours := by
  rw [hi.bucket_eq past, hi.bucket_eq (le.trans past)]
  apply Int.ediv_le_ediv
  · omega
  · omega

abbrev MessageRow.bucket (config : Config) (m : MessageRow) : Int := messageBucket m.createdAt config.bucketHours

/-- After a page that ended at the cursor, the partitions hold `rest`, from the partition `start` backwards. -/
structure Left (config : Config) (log : List MessageRow) (cursor : Option Cursor) (start : Int)
    (rest : List MessageRow) : Prop where
  ordered : rest.Pairwise fun a b => b.bucket config ≤ a.bucket config
  back : ∀ m ∈ rest, m.bucket config ≤ start
  current : ∀ limit, selectBucket config log start limit cursor none =
    (rest.filter fun m => m.bucket config = start).take limit
  older : ∀ bucket, bucket < start → ∀ limit, selectBucket config log bucket limit none none =
    (rest.filter fun m => m.bucket config = bucket).take limit

section

variable {now : Int}

theorem IsLog.select (hi : IsLog config now log) (order : config.idOrder = .descending) (bucket : Int) (limit : Nat)
    (cursor : Option Cursor) : selectBucket config log bucket limit cursor none =
      ((newestFirst log).filter fun m =>
        decide (m.bucket config = bucket) && cursor.all fun c => m.key.before c).take limit := by
  rw [← hi.newestFirst_filter]
  simp only [selectBucket, order, all_none, Bool.and_true]
  rfl

theorem take_ends (last : (all.take n).getLast? = some x) : ∃ first, all = first ++ x :: all.drop n := by
  obtain ⟨first, ends⟩ := List.getLast?_eq_some_iff.mp last
  refine ⟨first, ?_⟩
  have whole := List.take_append_drop n all
  rw [ends, List.append_assoc] at whole
  exact whole.symm

/-- The time that the page after the first `n` messages starts from. -/
def startAfter (now : Int) (all : List MessageRow) (n : Nat) : Int :=
  ((all.take n).getLast?.map MessageRow.createdAt).getD now

theorem IsLog.ordered (hi : IsLog config now log) :
    (newestFirst log).Pairwise fun a b => b.bucket config ≤ a.bucket config := by
  apply hi.strictly.imp_of_mem
  intro a b ha _ newer
  rw [Cursor.before_iff] at newer
  exact hi.bucket_mono (show b.key.1 ≤ a.key.1 by omega) (hi.past a (mem_newestFirst.mp ha))

theorem IsLog.left_now (hi : IsLog config now log) (order : config.idOrder = .descending) :
    Left config log none (messageBucket now config.bucketHours) (newestFirst log) := by
  refine ⟨hi.ordered, ?_, ?_, ?_⟩
  · intro m mem
    exact hi.bucket_mono (hi.past m (mem_newestFirst.mp mem)) (Int.le_refl now)
  · intro limit
    simp [hi.select order]
  · intro bucket _ limit
    simp [hi.select order]

theorem IsLog.left_cursor (hi : IsLog config now log) (order : config.idOrder = .descending)
    (hw : newestFirst log = first ++ x :: rest) : Left config log (some x.key) (x.bucket config) rest := by
  have strictly := hi.strictly
  have ordered := hi.ordered
  have select := hi.select order
  rw [hw] at strictly ordered select
  obtain ⟨-, strictTail, strictFirst⟩ := List.pairwise_append.mp strictly
  obtain ⟨-, orderedTail, orderedFirst⟩ := List.pairwise_append.mp ordered
  obtain ⟨strictRest, -⟩ := List.pairwise_cons.mp strictTail
  obtain ⟨back, orderedRest⟩ := List.pairwise_cons.mp orderedTail
  have shown : ∀ m ∈ first ++ [x], m.key.before x.key = false ∧ x.bucket config ≤ m.bucket config := by
    intro m mem
    cases List.mem_append.mp mem with
    | inl he =>
      have newer := strictFirst m he x (.head _)
      refine ⟨?_, orderedFirst m he x (.head _)⟩
      rw [Cursor.before_iff] at newer
      rw [Cursor.not_before_iff]
      omega
    | inr same =>
      rw [List.mem_singleton.mp same, Cursor.not_before_iff]
      omega
  refine ⟨orderedRest, back, ?_, ?_⟩
  · intro limit
    rw [select, List.append_cons, List.filter_append, List.filter_eq_nil_iff.mpr, List.nil_append]
    · congr 1
      apply List.filter_congr
      intro m mem
      simp [strictRest m mem]
    · intro m mem
      simp [(shown m mem).1]
  intro bucket older limit
  rw [select, List.append_cons, List.filter_append, List.filter_eq_nil_iff.mpr, List.nil_append]
  · simp
  intro m mem
  have newer := (shown m mem).2
  simp only [all_none, Bool.and_true, decide_eq_true_eq]
  omega

theorem IsLog.left (hi : IsLog config now log) (order : config.idOrder = .descending) (n : Nat) :
    Left config log (tokenAfter (newestFirst log) MessageRow.key n)
      (messageBucket (startAfter now (newestFirst log) n) config.bucketHours) ((newestFirst log).drop n) := by
  cases last : ((newestFirst log).take n).getLast? with
  | none =>
    have whole := List.take_append_drop n (newestFirst log)
    rw [List.getLast?_eq_none_iff.mp last, List.nil_append] at whole
    simp only [tokenAfter, startAfter, last, map_none, getD_none, whole]
    exact hi.left_now order
  | some =>
    obtain ⟨_, whole⟩ := take_ends last
    simp only [tokenAfter, startAfter, last, map_some, getD_some]
    exact hi.left_cursor order whole

end

section

variable {formats : Formats} {config : Config} {log rest : List MessageRow} {start : Int} {w : World}
  {q : GetHistoryQuery} {target : Nat}

theorem execute_walk (left : Left config log cursor start rest) (stored : w.messages q.conversationId = log)
    {bucket : Int} {walks : Nat} (low : minBucket ≤ bucket - walks)
    (hp : first = true ∧ bucket = start ∨ first = false ∧ bucket < start) :
    (server config).execute (walk q.conversationId target cursor none minBucket walks bucket first out) w
      allServed = (w, .ok (out ++ (rest.filter fun m =>
        decide (bucket - walks < m.bucket config) && decide (m.bucket config ≤ bucket)).take
          (target - out.length))) := by
  induction walks generalizing bucket first out with
  | zero =>
    simp [walk]
  | succ walks ih =>
    by_cases full : out.length < target
    · have rows : selectBucket config log bucket (target - out.length) (if first then cursor else none) none =
          (rest.filter fun m => m.bucket config = bucket).take (target - out.length) := by
        cases hp with
        | inl here =>
          obtain ⟨rfl, rfl⟩ := here
          exact left.current _
        | inr here =>
          obtain ⟨rfl, older⟩ := here
          exact left.older bucket older _
      have parts : (rest.filter fun m =>
          decide (bucket - (walks + 1 : Nat) < m.bucket config) && decide (m.bucket config ≤ bucket)) =
          (rest.filter fun m => m.bucket config = bucket) ++ rest.filter fun m =>
            decide (bucket - 1 - walks < m.bucket config) && decide (m.bucket config ≤ bucket - 1) := by
        rw [← filter_or_eq_append]
        · apply List.filter_congr
          intro m _
          rw [Bool.eq_iff_iff]
          simp only [Bool.and_eq_true, Bool.or_eq_true, decide_eq_true_eq]
          omega
        · apply left.ordered.imp
          simp only [Bool.and_eq_true, decide_eq_true_eq, decide_eq_false_iff_not]
          omega
        · intro m _ here
          simp only [Bool.and_eq_false_iff, decide_eq_true_eq, decide_eq_false_iff_not] at here ⊢
          omega
      unfold walk
      rw [if_pos ⟨full, by omega⟩, execute_served rfl (show (server config).serve w _ = (w, .ok _) from rfl),
        stored, rows, parts]
      refine (ih (by omega) (.inr ⟨rfl, ?_⟩)).trans ?_
      · omega
      · rw [List.take_append, List.append_assoc, List.length_append, List.length_take]
        congr 5
        omega
    · unfold walk
      rw [if_neg fun both => full both.1, Nat.sub_eq_zero_of_le (by omega)]
      simp

/-- How many messages of what is left a page shows. -/
def shownOf (config : Config) (start : Int) (target : Nat) (rest : List MessageRow) : Nat :=
  min target (rest.countP fun m => decide (start - maxBucketWalk < m.bucket config))

theorem shownOf_le (config : Config) (start : Int) (target : Nat) (rest : List MessageRow) :
    shownOf config start target rest ≤ min target rest.length := by
  have most : rest.countP (fun m => decide (start - maxBucketWalk < m.bucket config)) ≤ rest.length :=
    List.countP_le_length
  unfold shownOf
  omega

theorem Left.near (left : Left config log cursor start rest) :
    (rest.filter fun m =>
      decide (start - maxBucketWalk < m.bucket config) && decide (m.bucket config ≤ start)).take target =
      rest.take (shownOf config start target rest) := by
  have near : (rest.filter fun m =>
      decide (start - maxBucketWalk < m.bucket config) && decide (m.bucket config ≤ start)) =
      rest.filter fun m => decide (start - maxBucketWalk < m.bucket config) := by
    apply List.filter_congr
    intro m mem
    simp [left.back m mem]
  rw [near, filter_eq_take, List.take_take]
  · rfl
  · apply left.ordered.imp
    simp only [decide_eq_true_eq]
    omega

theorem execute_startMs : (server config).execute (startMs cursor) w allServed =
    (w, .ok ((cursor.map Prod.fst).getD w.clock)) := by
  cases cursor with
  | none | some => rfl

theorem execute_listHistory {limit : Int} (hp : 0 < limit)
    (left : Left config log cursor (messageBucket ((cursor.map Prod.fst).getD w.clock) config.bucketHours) rest)
    (stored : w.messages q.conversationId = log) :
    let start := messageBucket ((cursor.map Prod.fst).getD w.clock) config.bucketHours
    let page := rest.take (shownOf config start limit.toNat rest)
    (server config).execute (listHistory config q.conversationId limit cursor none) w allServed =
      (w, .ok (page, if page.length = limit.toNat then page.getLast?.map MessageRow.key else none)) := by
  have target : (max limit 0).toNat = limit.toNat := by omega
  simp only [listHistory]
  rw [if_neg (by omega), execute_bind_served, execute_startMs]
  simp only
  rw [execute_bind_served, execute_walk left stored _ (.inl ⟨rfl, rfl⟩)]
  · simp only [List.nil_append, List.length_nil, Nat.sub_zero, target, left.near]
    rfl
  · exact Int.le_refl _

theorem decodeCursor_encodeCursor (low : -2 ^ 63 ≤ c.1) (high : c.1 < 2 ^ 63) :
    formats.decodeCursor (formats.encodeCursor c) = .ok c := by
  have plain : '_' ∉ (toString c.1).toList := by
    intro mem
    cases mem_toString mem with
    | inl sign => exact absurd sign (by decide)
    | inr digit => exact absurd digit (by decide)
  have cut : splitOnce '_' (formats.encodeCursor c) = some (toString c.1, formats.hyphenated c.2) := by
    apply splitOnce_eq plain
    simp [Formats.encodeCursor, String.toList_append]
  simp only [Formats.decodeCursor, cut, formats.parseI64_toString c.1 low high, formats.parseUuid_hyphenated]

/-- The conversation is there, the requester is one of its members, and this is its log. -/
structure World.Serves (w : World) (q : GetHistoryQuery) (log : List MessageRow) : Prop where
  found : ∃ c, w.conversations q.conversationId = some c
  member : ∃ p, w.members q.conversationId q.requesterId = some p
  stored : w.messages q.conversationId = log

/-- What the request returns at the world, with the token. -/
def pageAt (formats : Formats) (config : Config) (q : GetHistoryQuery) (w : World) (token : Option String) :
    Option (List MessageRow × Option String) :=
  match (server config).execute (getHistory formats config { q with pageToken := token }) w Server.allServed with
  | (_, .ok page) => some (page.messages, page.nextPageToken)
  | (_, .error _) => none

def pageSize (config : Config) (q : GetHistoryQuery) : Nat := (max (min q.limit config.maxPageSize) 1).toNat

theorem pageAt_eq (hs : w.Serves q log) {token : Option String} (hd : decodeToken formats token = .ok cursor)
    (left : Left config log cursor (messageBucket ((cursor.map Prod.fst).getD w.clock) config.bucketHours) rest) :
    let start := messageBucket ((cursor.map Prod.fst).getD w.clock) config.bucketHours
    let page := rest.take (shownOf config start (pageSize config q) rest)
    pageAt formats config q w token = some (page,
      (if page.length = pageSize config q then page.getLast?.map MessageRow.key else none).map
        formats.encodeCursor) := by
  intro start page
  obtain ⟨c, hf⟩ := hs.found
  obtain ⟨p, mem⟩ := hs.member
  have loaded : (server config).execute (loadConversation q.conversationId) w allServed = (w, .ok c) := by
    unfold loadConversation
    rw [execute_served rfl (show (server config).serve w _ = (w, .ok _) from rfl), hf]
    rfl
  have looked : (server config).serve w (.findMember q.conversationId q.requesterId) = (w, .ok (some p)) := by
    rw [← mem]
    rfl
  have hl := execute_listHistory (show 0 < max (min q.limit config.maxPageSize) 1 by omega) left hs.stored
  have read : (server config).execute (readPage formats config { q with pageToken := token } cursor none) w
      allServed = (w, .ok ⟨page, (if page.length = pageSize config q then
        page.getLast?.map MessageRow.key else none).map formats.encodeCursor⟩) := by
    unfold readPage
    rw [execute_bind_served, hl]
    rfl
  have ran : (server config).execute (getHistory formats config { q with pageToken := token }) w allServed =
      (server config).execute (readPage formats config { q with pageToken := token } cursor none) w
        allServed := by
    unfold getHistory
    rw [hd]
    refine Eq.trans (show _ = (server config).execute (loadConversation q.conversationId >>= _) w _ from rfl) ?_
    rw [execute_bind_served, loaded]
    exact execute_served rfl looked
  rw [pageAt, ran, read]

end

/-- Each message lies less than ninety partitions before the end of the page before its own, and on
the first page before the present. -/
def Near (config : Config) (now : Int) (size : Nat) (all : List MessageRow) : Prop :=
  ∀ k < all.length, ∀ m ∈ (all.drop (k * size)).take size,
    messageBucket (startAfter now all (k * size)) config.bucketHours - maxBucketWalk < m.bucket config

instance : Decidable (Near config now size all) :=
  inferInstanceAs (Decidable (∀ k < all.length, ∀ m ∈ (all.drop (k * size)).take size, _ < _))

section

variable {worlds : Nat → World}

theorem pageSize_pos : 0 < pageSize config q := by
  unfold pageSize
  omega

theorem decodeToken_tokenAfter (formats : Formats) {now : Int} (hi : IsLog config now log) :
    decodeToken formats (tokenAfter (newestFirst log) (fun m => formats.encodeCursor m.key) n) =
      .ok (tokenAfter (newestFirst log) MessageRow.key n) := by
  unfold tokenAfter
  cases last : ((newestFirst log).take n).getLast? with
  | none => rfl
  | some m =>
    have mem : m ∈ log := mem_newestFirst.mp (List.mem_of_mem_take (List.mem_of_getLast? last))
    have past := hi.past m mem
    have present := hi.present
    have decoded : formats.decodeCursor (formats.encodeCursor m.key) = .ok m.key :=
      decodeCursor_encodeCursor (hi.times m mem) (show m.createdAt < 2 ^ 63 by omega)
    simp only [map_some, decodeToken, decoded]
    rfl

theorem tokenAfter_add {τ : Type} {token : MessageRow → τ} (hp : 0 < size) (hw : n + size ≤ all.length) :
    ((all.drop n).take size).getLast?.map token = tokenAfter all token (n + size) := by
  unfold tokenAfter
  have some_ : (all.drop n).take size ≠ [] := by
    intro none_
    have length := congrArg List.length none_
    simp only [List.length_take, List.length_drop, List.length_nil] at length
    omega
  rw [List.take_add, List.getLast?_append_of_ne_nil _ some_]

theorem startAfter_clock {n : Nat} (hw : n ≤ all.length) (first : n = 0 → now = now') :
    startAfter now all n = startAfter now' all n := by
  unfold startAfter
  cases last : (all.take n).getLast? with
  | none =>
    have length := congrArg List.length (List.getLast?_eq_none_iff.mp last)
    simp only [List.length_take, List.length_nil] at length
    rw [first (by omega)]
  | some => rfl

theorem startAfter_eq {n : Nat} : ((tokenAfter all MessageRow.key n).map Prod.fst).getD now = startAfter now all n := by
  rw [tokenAfter, map_map]
  rfl

theorem paged (order : config.idOrder = .descending) (hi : IsLog config (worlds 0).clock log)
    (hs : ∀ k, (worlds k).Serves q log) :
    Paged (newestFirst log) (pageSize config q) (fun m => formats.encodeCursor m.key)
      (fun k => pageAt formats config q (worlds k))
      (fun k => shownOf config
        (messageBucket (startAfter (worlds 0).clock (newestFirst log) (k * pageSize config q)) config.bucketHours)
        (pageSize config q) ((newestFirst log).drop (k * pageSize config q))) := by
  refine ⟨pageSize_pos, ?_, ?_⟩
  · intro k
    rw [← List.length_drop]
    exact shownOf_le ..
  intro k within
  have clock : startAfter (worlds k).clock (newestFirst log) (k * pageSize config q) =
      startAfter (worlds 0).clock (newestFirst log) (k * pageSize config q) := by
    apply startAfter_clock within
    intro none_
    have first : k = 0 := by
      cases Nat.mul_eq_zero.mp none_ with
      | inl zero => exact zero
      | inr empty => exact absurd empty (Nat.ne_of_gt pageSize_pos)
    rw [first]
  have left := hi.left order (k * pageSize config q)
  rw [← clock, ← startAfter_eq] at left
  have page := pageAt_eq (hs k) (decodeToken_tokenAfter formats hi) left
  simp only [startAfter_eq, clock] at page
  rw [page]
  generalize messageBucket (startAfter (worlds 0).clock (newestFirst log) (k * pageSize config q)) _ = start
  have most := shownOf_le config start (pageSize config q) ((newestFirst log).drop (k * pageSize config q))
  generalize shownOf config start (pageSize config q) _ = shown at most
  have length : (((newestFirst log).drop (k * pageSize config q)).take shown).length = shown := by
    rw [List.length_take]
    omega
  rw [length]
  by_cases full : shown = pageSize config q
  · rw [if_pos full, if_pos full, Nat.succ_mul, ← tokenAfter_add pageSize_pos, full, map_map]
    · rfl
    · rw [List.length_drop] at most
      omega
  · rw [if_neg full, if_neg full]
    rfl

theorem shown_iff_near (hi : IsLog config (worlds 0).clock log) :
    (∀ k, k * pageSize config q < (newestFirst log).length → shownOf config
        (messageBucket (startAfter (worlds 0).clock (newestFirst log) (k * pageSize config q)) config.bucketHours)
        (pageSize config q) ((newestFirst log).drop (k * pageSize config q)) =
          min (pageSize config q) ((newestFirst log).length - k * pageSize config q)) ↔
      Near config (worlds 0).clock (pageSize config q) (newestFirst log) := by
  have positive : 0 < pageSize config q := pageSize_pos
  have each : ∀ start n, shownOf config start (pageSize config q) ((newestFirst log).drop n) =
      min (pageSize config q) ((newestFirst log).length - n) ↔
      ∀ m ∈ ((newestFirst log).drop n).take (pageSize config q), start - maxBucketWalk < m.bucket config := by
    intro start n
    have inOrder : ((newestFirst log).drop n).Pairwise fun a b =>
        decide (start - maxBucketWalk < b.bucket config) = true →
          decide (start - maxBucketWalk < a.bucket config) = true := by
      apply (hi.ordered.sublist (List.drop_sublist n _)).imp
      simp only [decide_eq_true_eq]
      omega
    rw [shownOf, ← List.length_drop, min_countP_eq_iff inOrder]
    simp only [decide_eq_true_eq]
  constructor
  · intro met k within m mem
    have left : k * pageSize config q < (newestFirst log).length := by
      have some_ := List.length_pos_of_mem (List.mem_of_mem_take mem)
      rw [List.length_drop] at some_
      omega
    exact (each _ _).mp (met k left) m mem
  · intro near k left
    have within : k < (newestFirst log).length := Nat.lt_of_le_of_lt (Nat.le_mul_of_pos_right k positive) left
    exact (each _ _).mpr (near k within)

end

/-- A member who asks for page after page, at whatever times, gets every message once and newest
first exactly if no page has to look back further than ninety partitions. -/
theorem history_is_complete_iff (formats : Formats) (config : Config) (order : config.idOrder = .descending)
    (q : GetHistoryQuery) (log : List MessageRow) (worlds : Nat → World)
    (isLog : IsLog config (worlds 0).clock log) (serves : ∀ k, (worlds k).Serves q log) :
    (∃ received, Collects (fun k => pageAt formats config q (worlds k)) 0 none received ∧
      received.Perm log ∧ received.Pairwise fun a b => b.key.before a.key = true) ↔
      Near config (worlds 0).clock (pageSize config q) (newestFirst log) := by
  rw [← shown_iff_near isLog, ← (paged order isLog serves).collects_iff]
  constructor
  · intro complete
    obtain ⟨_, collects, same, ordered⟩ := complete
    rw [← isLog.newestFirst_unique same ordered]
    exact collects
  · intro collects
    exact ⟨newestFirst log, collects, List.perm_insertionSort Newer log, isLog.strictly⟩

namespace Quiet

def config : Config := ⟨2, 1, .descending⟩

def message (hour : Int) (id : MessageId) : MessageRow := ⟨hour * 3600000, id, 1, .text, "hello", none, none⟩

def holding (log : List MessageRow) : World :=
  { Sample.settled with clock := 100 * 3600000, messages := fun id => if id = 1 then log else [] }

def query : GetHistoryQuery := ⟨1, 1, 50, none⟩

theorem holding_serves : (holding log).Serves query log :=
  ⟨⟨Sample.group, rfl⟩, ⟨⟨1, .owner, 0, none⟩, rfl⟩, rfl⟩

/-- Five messages, two of them of one time. -/
def busy : List MessageRow := [message 20 1, message 60 2, message 60 3, message 99 4, message 100 5]

theorem busy_is_read : ∃ received, Collects (fun _ => pageAt Sample.plain config query (holding busy)) 0 none received ∧
    received.Perm busy ∧ received.Pairwise fun a b => b.key.before a.key = true := by
  apply (history_is_complete_iff Sample.plain config rfl query busy (fun _ => holding busy) _ _).mpr
  · decide +kernel
  · exact ⟨by decide +kernel, by decide +kernel, by decide +kernel, by decide +kernel, by decide +kernel⟩
  · exact fun _ => holding_serves

/-- A message, and ninety-nine quiet hours before the next. -/
def sparse : List MessageRow := [message 1 1, message 100 2]

theorem first_message_is_left_behind :
    pageAt Sample.plain config query (holding sparse) none = some ([message 100 2], none) ∧
      ¬ ∃ received, Collects (fun _ => pageAt Sample.plain config query (holding sparse)) 0 none received ∧
        received.Perm sparse := by
  have page : pageAt Sample.plain config query (holding sparse) none = some ([message 100 2], none) := by
    decide +kernel
  refine ⟨page, fun complete => ?_⟩
  obtain ⟨_, collects, same⟩ := complete
  cases collects with
  | last answered =>
    cases answered
    exact absurd same.length_eq (by decide)
  | more answered =>
    cases answered

end Quiet
end CorePlatform.Chat
