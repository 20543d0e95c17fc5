import Mathlib.Data.List.Count
import CorePlatform.Counter.Stores

/-! # Flushing the same batch until it succeeds

A flush that fails is called again with the same batch. The ledger gates the other tiers, so a delta
that it took up in a failed attempt is skipped by all later ones. The tiers agree if and only if
every failed call was one that left the delta untouched or complete. -/

namespace CorePlatform.Counter.Retry

open Theory Server

abbrev Made := Server.Made Stores Op

/-- The calls that follow once the ledger has taken a delta up. -/
def following (delta : WindowDelta) : List Op :=
  match delta.key.metric.aggregation with
  | .sum => [.hincrby delta, .zincrby delta, .append delta]
  | .cardinality => if delta.uniqueMembers.isEmpty then [.append delta] else [.pfadd delta, .append delta]

/-- The calls that bring a delta to the tiers. -/
def tiers (delta : WindowDelta) : List Op := .flushWindow delta :: following delta

def accepts (s : Stores) : Op → Bool
  | .flushWindow delta => s.applies delta
  | .hincrby delta => fitsI64 ((s.counters delta.key.pair).getD 0 + delta.sum)
  | _ => true

def tookEffect (m : Made) : Bool := m.service.reaches && accepts m.before m.op

/-- How often a tier has received what the operation brings. -/
def received (op : Op) (made : List Made) : Nat := made.countP fun m => decide (m.op = op) && tookEffect m

/-- The batch is flushed again and again until a flush returns `Ok`. -/
inductive Retries (size : WindowSize) (deltas : List WindowDelta) : Stores → List Made → Stores → Prop where
  | done (ran : (server size).Runs (flush deltas) s made s' (.ok report)) : Retries size deltas s made s'
  | again (ran : (server size).Runs (flush deltas) s made between (.error e))
      (rest : Retries size deltas between later s') : Retries size deltas s (made ++ later) s'

/-- Each delta of the batch has reached the ledger, the hot tier and the series exactly once. -/
def ExactlyOnce (deltas : List WindowDelta) (made : List Made) : Prop :=
  ∀ delta ∈ deltas, ∀ op ∈ tiers delta, received op made = deltas.count delta

/-- The call leaves its delta where a later attempt can go on: not taken up, or complete. -/
def Harmless (m : Made) : Prop :=
  match m.op with
  | .flushWindow delta => m.service = .served ∨ m.before.applies delta = false ∨ m.service.reaches = false
  | .append _ => m.service.reaches = true
  | _ => m.service = .served ∧ accepts m.before m.op = true

/-- Perform operations one after the other, whatever they reply. -/
def inTurn {α : Type} : List Op → Calling α → Calling α
  | [], rest => rest
  | op :: ops, rest => do
      let _ ← Program.perform op
      inTurn ops rest

theorem flushFrom_cons_eq :
    flushFrom report (delta :: rest) = (Program.perform (Op.flushWindow delta) >>= fun out =>
      match out with
      | .applied => inTurn (following delta) (flushFrom { report with applied := report.applied + 1 } rest)
      | .alreadyApplied => flushFrom { report with alreadyApplied := report.alreadyApplied + 1 } rest) := by
  rw [flushFrom]
  congr 1
  funext out
  cases out with
  | alreadyApplied => rfl
  | applied =>
    simp only [applyDelta, following]
    cases delta.key.metric.aggregation with
    | sum => exact Program.bind_assoc _ _ _
    | cardinality => cases delta.uniqueMembers.isEmpty <;> rfl

def Hot (delta : WindowDelta) (op : Op) : Prop := op = .hincrby delta ∨ op = .zincrby delta ∨ op = .pfadd delta

theorem following_eq (delta : WindowDelta) :
    ∃ hot : List Op, following delta = hot ++ [.append delta] ∧ hot.Nodup ∧ ∀ op ∈ hot, Hot delta op := by
  unfold following Hot
  cases delta.key.metric.aggregation with
  | sum => exact ⟨[.hincrby delta, .zincrby delta], rfl, by simp, by simp⟩
  | cardinality =>
    cases delta.uniqueMembers.isEmpty with
    | true => exact ⟨[], rfl, List.nodup_nil, by simp⟩
    | false => exact ⟨[.pfadd delta], rfl, by simp, by simp⟩

theorem mem_following (mem : op ∈ following delta) : Hot delta op ∨ op = .append delta := by
  obtain ⟨_, eq, _, isHot⟩ := following_eq delta
  rw [eq, List.mem_append, List.mem_singleton] at mem
  exact mem.imp (isHot op) id

theorem flushWindow_notMem (delta : WindowDelta) : Op.flushWindow delta ∉ following delta := by
  intro mem
  rcases mem_following mem with (eq | eq | eq) | eq <;> cases eq

theorem following_nodup (delta : WindowDelta) : (following delta).Nodup := by
  obtain ⟨_, eq, distinct, isHot⟩ := following_eq delta
  rw [eq]
  refine List.nodup_append.mpr ⟨distinct, List.pairwise_singleton _ _, ?_⟩
  intro op mem last single equal
  rw [List.mem_singleton] at single
  subst single equal
  rcases isHot _ mem with eq | eq | eq <;> cases eq

def brings : Op → Option WindowDelta
  | .flushWindow delta | .hincrby delta | .zincrby delta | .pfadd delta | .append delta => some delta
  | _ => none

theorem brings_of_mem_following (mem : op ∈ following delta) : brings op = some delta := by
  rcases mem_following mem with (rfl | rfl | rfl) | rfl <;> rfl

theorem brings_of_mem_tiers (mem : op ∈ tiers delta) : brings op = some delta := by
  rcases List.mem_cons.mp mem with rfl | mem
  · rfl
  · exact brings_of_mem_following mem

variable {size : WindowSize} {delta : WindowDelta} {s s' : Stores} {op : Op} {made : List Made} {calls : List Made}

theorem fresh_of_applies (ha : s.applies delta = true) : delta.key ∉ s.windows := by
  simp only [Stores.applies, Bool.and_eq_true, decide_eq_true_eq] at ha
  exact ha.1

theorem perform_keeps_windows (other : ∀ delta, op ≠ .flushWindow delta) :
    ((server size).perform s op svc).1.windows = s.windows := by
  have served : ((server size).serve s op).1.windows = s.windows := by
    cases op with
    | flushWindow delta => exact absurd rfl (other delta)
    | hincrby =>
      simp only [server, Stores.hincrby]
      split <;> rfl
    | authoritativeCount =>
      simp only [server]
      split <;> rfl
    | _ => rfl
  cases svc with
  | served | replyLost => exact served
  | refused => rfl

theorem following_windows (mem : op ∈ following delta) :
    ((server size).perform s op service).1.windows = s.windows := by
  refine perform_keeps_windows ?_
  rintro _ rfl
  rcases mem_following mem with (eq | eq | eq) | eq <;> cases eq

theorem following_answer (mem : op ∈ following delta) :
    (∃ reply, ((server size).perform s op svc).2 = .ok reply) ↔ svc = .served ∧ accepts s op = true := by
  rcases mem_following mem with (rfl | rfl | rfl) | rfl <;> cases svc <;>
    simp only [Server.perform, server, Stores.hincrby, accepts] <;> simp
  split <;> simp_all

/-- A call of the following ones that went through. -/
def Fine (m : Made) : Prop := m.service = .served ∧ accepts m.before m.op = true

theorem Fine.tookEffect (fine : Fine m) : tookEffect m = true := by
  simp [Retry.tookEffect, fine.1, fine.2, Service.reaches]

theorem Fine.harmless (fine : Fine m) : Harmless m := by
  unfold Harmless
  split
  · exact .inl fine.1
  · simp [fine.1, Service.reaches]
  · exact fine

theorem inTurn_runs {α : Type} {rest : Calling α} {res : Except CounterError α} :
    ∀ {s : Stores} {made : List Made}, (∀ op ∈ ops, op ∈ following delta) →
      (server size).Runs (inTurn ops rest) s made s' res →
      (∃ calls later between, made = calls ++ later ∧ calls.map Made.op = ops ∧ (∀ m ∈ calls, Fine m) ∧
        between.windows = s.windows ∧ (server size).Runs rest between later s' res) ∨
      ∃ calls last post e, made = calls ++ [last] ∧ ops = calls.map Made.op ++ last.op :: post ∧
        (∀ m ∈ calls, Fine m) ∧ ¬ Fine last ∧ s'.windows = s.windows ∧ res = .error e := by
  induction ops with
  | nil =>
    intro s made _ ran
    exact .inl ⟨[], made, s, rfl, rfl, by simp, rfl, ran⟩
  | cons op ops ih =>
    intro s made members ran
    have mem := members op List.mem_cons_self
    rcases Runs.of_perform ran with ⟨svc, reply, made', ha, rfl, ho⟩ | ⟨svc, e, ha, rfl, rfl⟩
    · have fine : Fine ⟨s, op, svc⟩ := (following_answer mem).mp ⟨reply, congrArg Prod.snd ha⟩
      have kept : ((server size).perform s op svc).1.windows = s.windows := following_windows mem
      rcases ih (fun op h => members op (.tail _ h)) ho with
        ⟨calls, later, between, rfl, rfl, went, windows, ran⟩ |
        ⟨calls, last, post, e, rfl, rfl, went, hf, windows, rfl⟩
      · exact .inl ⟨⟨s, op, svc⟩ :: calls, later, between, rfl, rfl,
          List.forall_mem_cons.mpr ⟨fine, went⟩, windows.trans kept, ran⟩
      · exact .inr ⟨⟨s, op, svc⟩ :: calls, last, post, e, rfl, rfl,
          List.forall_mem_cons.mpr ⟨fine, went⟩, hf, windows.trans kept, rfl⟩
    · refine .inr ⟨[], ⟨s, op, svc⟩, ops, e, rfl, rfl, by simp, ?_, ?_, rfl⟩
      · intro fine
        obtain ⟨_, ok⟩ := (following_answer mem).mpr fine
        rw [ha] at ok
        cases ok
      · have kept : ((server size).perform s op svc).1.windows = s.windows := following_windows mem
        rw [ha] at kept
        exact kept

@[simp] theorem received_nil : received op [] = 0 := rfl

theorem received_append (first second : List Made) :
    received op (first ++ second) = received op first + received op second :=
  List.countP_append

theorem received_cons : received op (m :: made) = received op [m] + received op made :=
  received_append [m] made

theorem received_single (m : Made) : received op [m] = if m.op = op ∧ tookEffect m = true then 1 else 0 := by
  by_cases eq : m.op = op <;> cases effect : tookEffect m <;> simp [received, eq, effect]

theorem received_other (ho : ∀ m ∈ made, m.op ≠ op) : received op made = 0 := by
  refine List.countP_eq_zero.mpr fun m mem => ?_
  simp [ho m mem]

theorem received_fine (went : ∀ m ∈ calls, Fine m) : received op calls = (calls.map Made.op).count op := by
  induction calls with
  | nil => rfl
  | cons m _ ih =>
    obtain ⟨fine, went⟩ := List.forall_mem_cons.mp went
    rw [received_cons, ih went, received_single, List.map_cons, List.count_cons]
    simp only [fine.tookEffect, and_true]
    by_cases eq : m.op = op <;> simp [eq, Nat.add_comm]

/-- What the calls for one delta did: nothing, or the ledger took it up and the tiers got it iff no
call was harmful. -/
structure Head (delta : WindowDelta) (s between : Stores) (calls : List Made) : Prop where
  own : ∀ m ∈ calls, m.op ∈ tiers delta
  windows : between.windows = s.windows ∨ between.windows = delta.key :: s.windows
  untouched : delta.key ∈ s.windows ∨ delta.key ∉ between.windows →
    (∀ op ∈ tiers delta, received op calls = 0) ∧ ∀ m ∈ calls, Harmless m
  taken : delta.key ∉ s.windows → delta.key ∈ between.windows →
    ((∀ op ∈ tiers delta, received op calls = 1) ↔ ∀ m ∈ calls, Harmless m)

theorem head_untouched {svc : Service} (not : svc.reaches = false ∨ s.applies delta = false)
    (eq : s'.windows = s.windows) : Head delta s s' [⟨s, .flushWindow delta, svc⟩] := by
  have nothing : ∀ op ∈ tiers delta, received op [⟨s, .flushWindow delta, svc⟩] = 0 := by
    intro op _
    rw [received_single, if_neg]
    rintro ⟨_, effect⟩
    rcases not with not | not <;> simp [tookEffect, accepts, not] at effect
  refine ⟨by simp [tiers], .inl eq, fun _ => ⟨nothing, ?_⟩, ?_⟩
  · intro m mem
    rw [List.mem_singleton] at mem
    subst mem
    exact .inr (not.symm)
  · intro hf h
    rw [eq] at h
    exact absurd h hf

theorem head_unanswered {reason : String} (applied : s.applies delta = true)
    (hg : s'.windows = delta.key :: s.windows) :
    Head delta s s' [⟨s, .flushWindow delta, .replyLost reason⟩] := by
  have hf := fresh_of_applies applied
  refine ⟨by simp [tiers], .inr hg, ?_, fun _ _ => ?_⟩
  · rintro (hk | ha)
    · exact absurd hk hf
    · simp [hg] at ha
  constructor
  · intro all
    obtain ⟨_, eq, _, _⟩ := following_eq delta
    have once := all (.append delta) (by simp [tiers, eq])
    simp [received_single] at once
  · intro harmless
    have := harmless _ List.mem_cons_self
    simp [Harmless, applied, Service.reaches] at this

theorem head_complete (applied : s.applies delta = true) (hg : s'.windows = delta.key :: s.windows)
    (went : ∀ m ∈ calls, Fine m) (all : calls.map Made.op = following delta) :
    Head delta s s' (⟨s, .flushWindow delta, .served⟩ :: calls) := by
  have hf := fresh_of_applies applied
  have ledger : tookEffect ⟨s, .flushWindow delta, .served⟩ = true := by
    simp [tookEffect, accepts, applied, Service.reaches]
  have own : ∀ m ∈ calls, m.op ∈ following delta := by
    intro m mem
    rw [← all]
    exact List.mem_map_of_mem mem
  refine ⟨?_, .inr hg, ?_, fun _ _ => ⟨fun _ => ?_, fun _ => ?_⟩⟩
  · exact List.forall_mem_cons.mpr ⟨.head _, fun m mem => .tail _ (own m mem)⟩
  · rintro (hk | ha)
    · exact absurd hk hf
    · simp [hg] at ha
  · exact List.forall_mem_cons.mpr ⟨.inl rfl, fun m mem => (went m mem).harmless⟩
  intro op mem
  rw [received_cons, received_fine went, all, received_single]
  rcases List.mem_cons.mp mem with rfl | mem
  · rw [List.count_eq_zero_of_not_mem (flushWindow_notMem delta)]
    simp [ledger]
  · rw [List.count_eq_one_of_mem (following_nodup delta) mem, if_neg]
    rintro ⟨rfl, _⟩
    exact flushWindow_notMem delta mem

theorem append_late {calls : List Op} (hs : following delta = calls ++ op :: post) :
    Op.append delta ∉ calls ∧ (op = .append delta → post = []) := by
  obtain ⟨_, eq, _, _⟩ := following_eq delta
  have distinct := following_nodup delta
  have last : (op :: post).getLast? = some (.append delta) := by
    have ends : (following delta).getLast? = some (.append delta) := by simp [eq]
    rw [hs, List.getLast?_append_of_ne_nil _ (by simp)] at ends
    exact ends
  rw [hs] at distinct
  obtain ⟨_, rest, ne⟩ := List.nodup_append.mp distinct
  constructor
  · intro mem
    exact ne _ mem _ (List.mem_of_getLast? last) rfl
  rintro rfl
  cases post with
  | nil => rfl
  | cons =>
    rw [List.getLast?_cons_cons] at last
    exact absurd (List.mem_of_getLast? last) (List.nodup_cons.mp rest).1

theorem head_broken (applied : s.applies delta = true) (hg : s'.windows = delta.key :: s.windows)
    (went : ∀ m ∈ calls, Fine m) (hs : following delta = calls.map Made.op ++ last.op :: post)
    (hfa : ¬ Fine last) : Head delta s s' (⟨s, .flushWindow delta, .served⟩ :: (calls ++ [last])) := by
  have hf := fresh_of_applies applied
  have ledger : tookEffect ⟨s, .flushWindow delta, .served⟩ = true := by
    simp [tookEffect, accepts, applied, Service.reaches]
  have own : ∀ m ∈ calls ++ [last], m.op ∈ following delta := by
    intro m mem
    rw [hs]
    rcases List.mem_append.mp mem with h | single
    · exact List.mem_append_left _ (List.mem_map_of_mem h)
    · rw [List.mem_singleton] at single
      subst single
      exact List.mem_append_right _ List.mem_cons_self
  obtain ⟨late, ends⟩ := append_late hs
  have series : received (.append delta) (⟨s, .flushWindow delta, .served⟩ :: (calls ++ [last])) =
      received (.append delta) [last] := by
    rw [received_cons, received_append, received_fine went, List.count_eq_zero_of_not_mem late, received_single]
    simp
  refine ⟨?_, .inr hg, ?_, fun _ _ => ⟨fun all => ?_, fun harmless => ?_⟩⟩
  · exact List.forall_mem_cons.mpr ⟨.head _, fun m mem => .tail _ (own m mem)⟩
  · rintro (hk | ha)
    · exact absurd hk hf
    · simp [hg] at ha
  · -- The series got the delta, so the failed call is the series' own, and it was carried out.
    have once := all (.append delta) (List.mem_cons_of_mem _ (by
      obtain ⟨hot, eq, _, _⟩ := following_eq delta
      simp [eq]))
    rw [series, received_single] at once
    have effect : last.op = .append delta ∧ tookEffect last = true := by
      by_contra not
      rw [if_neg not] at once
      cases once
    refine List.forall_mem_cons.mpr ⟨.inl rfl, fun m mem => ?_⟩
    rcases List.mem_append.mp mem with h | single
    · exact (went m h).harmless
    rw [List.mem_singleton] at single
    subst single
    simp only [Harmless, effect.1]
    simp only [tookEffect, Bool.and_eq_true] at effect
    exact effect.2.1
  · have fine := harmless last (by simp)
    rcases mem_following (own last (by simp)) with hot | isAppend
    · refine absurd ?_ hfa
      rcases hot with eq | eq | eq <;> simpa [Harmless, eq, Fine] using fine
    have hr : tookEffect last = true := by
      simp only [Harmless, isAppend] at fine
      simp [tookEffect, fine, isAppend, accepts]
    have whole : following delta = calls.map Made.op ++ [last.op] := by
      rw [hs, ends isAppend]
    intro op mem
    rw [received_cons, received_append, received_fine went, received_single, received_single]
    simp only [hr, ledger, and_true]
    rcases List.mem_cons.mp mem with rfl | mem
    · have ne : Op.flushWindow delta ∉ calls.map Made.op := fun h =>
        flushWindow_notMem delta (whole ▸ List.mem_append_left _ h)
      simp [List.count_eq_zero_of_not_mem ne, isAppend]
    · have once := List.count_eq_one_of_mem (following_nodup delta) mem
      have other : Op.flushWindow delta ≠ op := by
        rintro rfl
        exact flushWindow_notMem delta mem
      by_cases eq : last.op = op <;> simp_all

theorem flushWindow_cases (hp : (server size).perform s (.flushWindow delta) svc = (after, ans)) :
    ((svc.reaches = false ∨ s.applies delta = false) ∧ after.windows = s.windows ∧
      (ans = .ok .alreadyApplied ∧ delta.key ∈ s.windows ∨ ∃ e, ans = .error e)) ∨
    (s.applies delta = true ∧ after.windows = delta.key :: s.windows ∧
      (svc = .served ∧ ans = .ok .applied ∨ ∃ reason e, svc = .replyLost reason ∧ ans = .error e)) := by
  cases svc with
  | refused =>
    cases hp
    exact .inl ⟨.inl rfl, rfl, .inr ⟨_, rfl⟩⟩
  | served =>
    simp only [Server.perform, server, Stores.flushWindow] at hp
    split at hp
    · rename_i hk
      cases hp
      exact .inl ⟨.inr (by simp [Stores.applies, hk]), rfl, .inl ⟨rfl, hk⟩⟩
    · rename_i hf
      split at hp
      · rename_i fits
        cases hp
        exact .inr ⟨by simp [Stores.applies, hf, fits], rfl, .inl ⟨rfl, rfl⟩⟩
      · rename_i not
        cases hp
        exact .inl ⟨.inr (by simp [Stores.applies, not]), rfl, .inr ⟨_, rfl⟩⟩
  | replyLost _ =>
    simp only [Server.perform, server, Stores.flushWindow] at hp
    split at hp
    · rename_i hk
      cases hp
      exact .inl ⟨.inr (by simp [Stores.applies, hk]), rfl, .inr ⟨_, rfl⟩⟩
    · rename_i hf
      split at hp
      · rename_i fits
        cases hp
        exact .inr ⟨by simp [Stores.applies, hf, fits], rfl, .inr ⟨_, _, rfl, rfl⟩⟩
      · rename_i not
        cases hp
        exact .inl ⟨.inr (by simp [Stores.applies, not]), rfl, .inr ⟨_, rfl⟩⟩

theorem head_runs {report : FlushReport} {rest : List WindowDelta}
    (ran : (server size).Runs (flushFrom report (delta :: rest)) s made s' res) :
    (∃ calls later between report', made = calls ++ later ∧ Head delta s between calls ∧
      delta.key ∈ between.windows ∧ (server size).Runs (flushFrom report' rest) between later s' res) ∨
    Head delta s s' made ∧ ∃ e, res = .error e := by
  rw [flushFrom_cons_eq] at ran
  rcases Runs.of_perform ran with ⟨svc, reply, made', ha, rfl, ho⟩ | ⟨svc, e, ha, rfl, rfl⟩
  · rcases flushWindow_cases ha with
      ⟨not, eq, ⟨replied, hk⟩ | ⟨e, replied⟩⟩ | ⟨applied, hg, ⟨rfl, replied⟩ | ⟨_, e, _, replied⟩⟩
    · cases replied
      exact .inl ⟨[_], made', _, _, rfl, head_untouched not eq, eq ▸ hk, ho⟩
    · cases replied
    · cases replied
      rcases inTurn_runs (fun _ mem => mem) ho with
        ⟨calls, later, between, rfl, all, went, windows, ho⟩ |
        ⟨calls, last, post, e, rfl, split, went, hf, windows, rfl⟩
      · have inv := windows.trans hg
        exact .inl ⟨_ :: calls, later, between, _, rfl, head_complete applied inv went all, by simp [inv], ho⟩
      · exact .inr ⟨head_broken applied (windows.trans hg) went split hf, e, rfl⟩
    · cases replied
  · refine .inr ⟨?_, e, rfl⟩
    rcases flushWindow_cases ha with
      ⟨not, eq, _⟩ | ⟨applied, hg, ⟨_, replied⟩ | ⟨reason, _, rfl, _⟩⟩
    · exact head_untouched not eq
    · cases replied
    · exact head_unanswered applied hg

/-- What any number of calls for a batch did to its deltas. -/
structure Attempt (deltas : List WindowDelta) (s s' : Stores) (made : List Made) : Prop where
  grows : ∀ key ∈ s.windows, key ∈ s'.windows
  concerns : ∀ m ∈ made, ∃ delta ∈ deltas, m.op ∈ tiers delta
  untouched : ∀ delta ∈ deltas, delta.key ∈ s.windows ∨ delta.key ∉ s'.windows →
    (∀ op ∈ tiers delta, received op made = 0) ∧ ∀ m ∈ made, m.op ∈ tiers delta → Harmless m
  taken : ∀ delta ∈ deltas, delta.key ∉ s.windows → delta.key ∈ s'.windows →
    ((∀ op ∈ tiers delta, received op made = 1) ↔ ∀ m ∈ made, m.op ∈ tiers delta → Harmless m)

theorem Attempt.refl : Attempt deltas s s [] where
  grows _ held := held
  concerns := by simp
  untouched := by simp
  taken _ _ fresh held := absurd held fresh

theorem Attempt.trans (hb : Attempt deltas s between first) (haf : Attempt deltas between s' later) :
    Attempt deltas s s' (first ++ later) where
  grows key held := haf.grows key (hb.grows key held)
  concerns m member := by
    rcases List.mem_append.mp member with held | held
    · exact hb.concerns m held
    · exact haf.concerns m held
  untouched delta member known := by
    obtain ⟨none_, harmless⟩ := hb.untouched delta member (known.imp_right fun ha held => ha (haf.grows _ held))
    obtain ⟨none_', harmless'⟩ := haf.untouched delta member (known.imp_left (hb.grows _))
    refine ⟨fun op own => by rw [received_append, none_ op own, none_' op own], fun m held own => ?_⟩
    exact (List.mem_append.mp held).elim (harmless m · own) (harmless' m · own)
  taken delta member hf held := by
    -- The ledger takes a delta up in one of the two parts, and the other leaves it alone.
    by_cases early : delta.key ∈ between.windows
    · obtain ⟨none_, harmless⟩ := haf.untouched delta member (.inl early)
      have iff_ := hb.taken delta member hf early
      simp only [received_append, List.mem_append]
      constructor
      · intro all m held own
        refine held.elim (fun held => iff_.mp (fun op own => ?_) m held own) (harmless m · own)
        simpa [none_ op own] using all op own
      · intro all op own
        rw [none_ op own, iff_.mpr (fun m held => all m (.inl held)) op own]
    obtain ⟨none_, harmless⟩ := hb.untouched delta member (.inr early)
    have iff_ := haf.taken delta member early held
    simp only [received_append, List.mem_append]
    constructor
    · intro all m held own
      refine held.elim (harmless m · own) (fun held => iff_.mp (fun op own => ?_) m held own)
      simpa [none_ op own] using all op own
    · intro all op own
      rw [none_ op own, iff_.mpr (fun m held => all m (.inr held)) op own]

theorem tiers_apart (own : op ∈ tiers delta) (also : op ∈ tiers other) : delta = other := by
  have eq := brings_of_mem_tiers own
  rw [brings_of_mem_tiers also] at eq
  exact (Option.some.inj eq).symm

theorem Head.attempt (distinct : (deltas.map WindowDelta.key).Nodup) (mem : delta ∈ deltas)
    (head : Head delta s s' made) : Attempt deltas s s' made where
  grows key held := by
    rcases head.windows with eq | hg
    · exact eq ▸ held
    · exact hg ▸ .tail _ held
  concerns m held := ⟨delta, mem, head.own m held⟩
  untouched other also known := by
    by_cases eq : other = delta
    · subst eq
      obtain ⟨none_, harmless⟩ := head.untouched known
      exact ⟨none_, fun m held _ => harmless m held⟩
    · refine ⟨fun op own => received_other fun m held equal => ?_, fun m held own => ?_⟩
      · exact eq (tiers_apart own (equal ▸ head.own m held))
      · exact absurd (tiers_apart own (head.own m held)) eq
  taken other also fresh held := by
    have eq : other.key = delta.key := by
      rcases head.windows with eq | hg
      · exact absurd (eq ▸ held) fresh
      · rw [hg] at held
        exact (List.mem_cons.mp held).resolve_right fresh
    obtain rfl := List.inj_on_of_nodup_map distinct also mem eq
    rw [head.taken fresh held]
    exact ⟨fun all m held _ => all m held, fun all m held => all m held (head.own m held)⟩

theorem flushFrom_attempt (distinct : (deltas.map WindowDelta.key).Nodup) :
    ∀ {report : FlushReport} {s : Stores} {made : List Made}, rest ⊆ deltas →
      (server size).Runs (flushFrom report rest) s made s' res →
      Attempt deltas s s' made ∧ (∀ report', res = .ok report' → ∀ delta ∈ rest, delta.key ∈ s'.windows) := by
  induction rest with
  | nil =>
    intro report s made _ ran
    cases ran
    exact ⟨.refl, by simp⟩
  | cons _ _ ih =>
    intro report s made part ran
    have mem := part List.mem_cons_self
    rcases head_runs ran with ⟨calls, hl, between, report', rfl, head, inv, ho⟩ | ⟨head, e, rfl⟩
    · obtain ⟨attempt, all⟩ := ih (fun _ h => part (.tail _ h)) ho
      refine ⟨(head.attempt distinct mem).trans attempt, fun report' ok => ?_⟩
      exact List.forall_mem_cons.mpr ⟨attempt.grows _ inv, all report' ok⟩
    · exact ⟨head.attempt distinct mem, by simp⟩

theorem Retries.attempt (distinct : (deltas.map WindowDelta.key).Nodup) (hr : Retries size deltas s made s') :
    Attempt deltas s s' made ∧ ∀ delta ∈ deltas, delta.key ∈ s'.windows := by
  induction hr with
  | done ran =>
    obtain ⟨att, all⟩ := flushFrom_attempt distinct (List.Subset.refl _) ran
    exact ⟨att, all _ rfl⟩
  | again ran _ ih =>
    exact ⟨(flushFrom_attempt distinct (List.Subset.refl _) ran).1.trans ih.1, ih.2⟩

/-- How often the ledger has recorded the window. -/
def recordings (key : WindowKey) (made : List Made) : Nat :=
  made.countP fun m =>
    match m.op with
    | .flushWindow delta => decide (delta.key = key) && tookEffect m
    | _ => false

theorem perform_windows (size : WindowSize) (key : WindowKey) (s : Stores) (op : Op) (svc : Service) :
    recordings key [⟨s, op, svc⟩] + (if key ∈ s.windows then 1 else 0) ≤
      if key ∈ ((server size).perform s op svc).1.windows then 1 else 0 := by
  cases op with
  | flushWindow delta =>
    have performed : (server size).perform s (.flushWindow delta) svc =
      (((server size).perform s (.flushWindow delta) svc).1, _) := rfl
    rcases flushWindow_cases performed with ⟨not, eq, _⟩ | ⟨applied, hg, _⟩
    · have nothing : tookEffect ⟨s, .flushWindow delta, svc⟩ = false := by
        rcases not with not | not <;> simp [tookEffect, accepts, not]
      simp [recordings, nothing, eq]
    · rw [hg]
      have hf := fresh_of_applies applied
      by_cases eq : delta.key = key
      · subst eq
        simp only [hf, if_false, List.mem_cons_self, if_true]
        exact List.countP_le_length
      · simp [recordings, eq, Ne.symm eq]
  | _ =>
    rw [perform_keeps_windows (by simp)]
    simp [recordings]

theorem recordings_append (key : WindowKey) (first later : List Made) :
    recordings key (first ++ later) = recordings key first + recordings key later :=
  List.countP_append

theorem runs_recordings (key : WindowKey) {α : Type} {prog : Calling α} {res : Except CounterError α}
    (ran : (server size).Runs prog s made s' res) :
    recordings key made + (if key ∈ s.windows then 1 else 0) ≤ if key ∈ s'.windows then 1 else 0 := by
  induction ran with
  | ok | error => simp [recordings]
  | @call op _ s _ made _ svc _ _ =>
    have step := perform_windows size key s op svc
    have both := recordings_append key [⟨s, op, svc⟩] made
    rw [List.singleton_append] at both
    omega

theorem Retries.recordings_le_one (key : WindowKey) (hr : Retries size deltas s made s') :
    recordings key made + (if key ∈ s.windows then 1 else 0) ≤ if key ∈ s'.windows then 1 else 0 := by
  induction hr with
  | done ran => exact runs_recordings key ran
  | again ran =>
    have step := runs_recordings key ran
    rw [recordings_append]
    omega

theorem received_le_recordings (delta : WindowDelta) (made : List Made) :
    received (.flushWindow delta) made ≤ recordings delta.key made := by
  refine List.countP_mono_left fun m _ hc => ?_
  simp only [Bool.and_eq_true, decide_eq_true_eq] at hc
  simp [hc.1, hc.2]

theorem received_add_le_recordings (made : List Made) (eq : delta.key = other.key) (ne : delta ≠ other) :
    received (.flushWindow delta) made + received (.flushWindow other) made ≤ recordings other.key made := by
  induction made with
  | nil => simp [recordings]
  | cons m made =>
    have first := received_le_recordings delta [m]
    have second := received_le_recordings other [m]
    have single : received (.flushWindow delta) [m] = 0 ∨ received (.flushWindow other) [m] = 0 := by
      by_cases isOther : m.op = .flushWindow other
      · refine .inl (received_other ?_)
        simp [isOther, Ne.symm ne]
      · exact .inr (received_other (by simp [isOther]))
    have both := recordings_append other.key [m] made
    rw [List.singleton_append] at both
    have left_ : received (.flushWindow delta) (m :: made) = _ := received_cons
    have right_ : received (.flushWindow other) (m :: made) = _ := received_cons
    rw [eq] at first
    omega

theorem ExactlyOnce.distinct (hr : Retries size deltas s made s') (once : ExactlyOnce deltas made) :
    (deltas.map WindowDelta.key).Nodup := by
  have atMost : ∀ key, recordings key made ≤ 1 := by
    intro key
    have bound := hr.recordings_le_one key
    split at bound <;> split at bound <;> omega
  have ledger : ∀ delta ∈ deltas, received (.flushWindow delta) made = deltas.count delta :=
    fun delta mem => once delta mem _ List.mem_cons_self
  have nodup : deltas.Nodup := by
    refine List.nodup_iff_count_le_one.mpr fun delta => ?_
    by_cases mem : delta ∈ deltas
    · rw [← ledger delta mem]
      exact Nat.le_trans (received_le_recordings delta made) (atMost _)
    · simp [List.count_eq_zero_of_not_mem mem]
  refine List.Nodup.map_on (fun delta mem other also eq => ?_) nodup
  by_contra ne
  have both := received_add_le_recordings made eq ne
  rw [ledger delta mem, ledger other also] at both
  have one := List.count_pos_iff.mpr mem
  have two := List.count_pos_iff.mpr also
  have bound := atMost other.key
  omega

/-- Flushed until it succeeds, a batch reaches each tier exactly once if and only if its deltas are
of different windows new to the ledger, and calls failed only by the ledger's refusal or the series'
lost answer. -/
theorem retries_exactly_once_iff (retries : Retries size deltas s made s') :
    ExactlyOnce deltas made ↔ (deltas.map WindowDelta.key).Nodup ∧ (∀ delta ∈ deltas, delta.key ∉ s.windows) ∧
      ∀ m ∈ made, Harmless m := by
  constructor
  · intro once
    have distinct := once.distinct retries
    obtain ⟨attempt, all⟩ := retries.attempt distinct
    have single : ∀ delta ∈ deltas, ∀ op ∈ tiers delta, received op made = 1 := by
      intro delta member op own
      rw [once delta member op own, List.count_eq_one_of_mem (List.Nodup.of_map _ distinct) member]
    have fresh : ∀ delta ∈ deltas, delta.key ∉ s.windows := by
      intro delta member known
      have none_ := (attempt.untouched delta member (.inl known)).1 _ List.mem_cons_self
      rw [single delta member _ List.mem_cons_self] at none_
      cases none_
    refine ⟨distinct, fresh, fun m held => ?_⟩
    obtain ⟨delta, member, own⟩ := attempt.concerns m held
    exact (attempt.taken delta member (fresh delta member) (all delta member)).mp (single delta member) m held own
  · rintro ⟨distinct, fresh, harmless⟩ delta member op own
    obtain ⟨attempt, all⟩ := retries.attempt distinct
    rw [List.count_eq_one_of_mem (List.Nodup.of_map _ distinct) member]
    exact (attempt.taken delta member (fresh delta member) (all delta member)).mpr
      (fun m held _ => harmless m held) op own

instance (m : Made) : Decidable (Harmless m) := by
  unfold Harmless
  split <;> infer_instance

private def tenSeconds : WindowSize := ⟨10000, by decide, by decide⟩

private def oneLike : WindowDelta := ⟨⟨⟨.post, "p1"⟩, .like, 7⟩, 1, []⟩

/-- The calls of a flush of one delta that fails at call `at_`, and of a second one that does not. -/
private def twoAttempts (at_ : Nat) : List Made :=
  let failing : Nat → Service := fun n => if n = at_ then .refused "connection reset" else .served
  let first := (server tenSeconds).execute (flush [oneLike]) .empty failing
  (server tenSeconds).calls (flush [oneLike]) .empty failing ++
    (server tenSeconds).calls (flush [oneLike]) first.1 allServed

private def afterTwoAttempts (at_ : Nat) : Stores :=
  let failing : Nat → Service := fun n => if n = at_ then .refused "connection reset" else .served
  let first := (server tenSeconds).execute (flush [oneLike]) .empty failing
  ((server tenSeconds).execute (flush [oneLike]) first.1 allServed).1

private theorem twoAttempts_retry {at_ : Nat} (soon : at_ = 0 ∨ at_ = 1) :
    Retries tenSeconds [oneLike] .empty (twoAttempts at_) (afterTwoAttempts at_) := by
  let failing : Nat → Service := fun n => if n = at_ then .refused "connection reset" else .served
  have first := (server tenSeconds).runs_execute (flush [oneLike]) .empty failing
  have second := (server tenSeconds).runs_execute (flush [oneLike])
    ((server tenSeconds).execute (flush [oneLike]) .empty failing).1 allServed
  rcases soon with rfl | rfl
  · exact .again (e := .flushFailed "connection reset") first (.done second)
  · exact .again (e := .cacheWriteFailed "connection reset") first (.done second)

theorem retries_exactly_once_ledger_refused :
    Retries tenSeconds [oneLike] .empty (twoAttempts 0) (afterTwoAttempts 0) ∧
      ExactlyOnce [oneLike] (twoAttempts 0) := by
  have retries := twoAttempts_retry (.inl rfl)
  exact ⟨retries, (retries_exactly_once_iff retries).mpr ⟨by decide, by decide, by decide⟩⟩

/-- The hash refuses a delta the ledger has just taken up; the second flush succeeds, and the hot
counter never gets it. -/
theorem retry_skips_hot_counter :
    Retries tenSeconds [oneLike] .empty (twoAttempts 1) (afterTwoAttempts 1) ∧
      (afterTwoAttempts 1).totals oneLike.key.pair = some 1 ∧
      (afterTwoAttempts 1).counters oneLike.key.pair = none ∧ ¬ ExactlyOnce [oneLike] (twoAttempts 1) := by
  refine ⟨twoAttempts_retry (.inr rfl), by decide, by decide, fun once => ?_⟩
  have hot := once oneLike List.mem_cons_self (.hincrby oneLike) (by decide)
  revert hot
  decide

end CorePlatform.Counter.Retry
