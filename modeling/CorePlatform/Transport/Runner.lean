import CorePlatform.Theory.Machine
import CorePlatform.Theory.Server
import CorePlatform.Transport.Message
import CorePlatform.Transport.Outcome

/-! # The at-least-once consumer

`run_consumer` takes one message at a time from the stream, processes it with bounded retry,
evacuates it to the dead-letter topic if it has to, and then commits past it.

The records of all partitions are given from the start, as what each offset holds, if anything. The
stream delivers a partition's records in the order of their offsets, partitions in any order. A
commit only queues a request at the client, and the broker gets to it later or never. -/

namespace CorePlatform.Transport.Runner

open Theory Function List

structure RetryPolicy where
  maxAttempts : UInt32 := 5

inductive Stage (T : Type) where
  | polling
  /-- `process` runs for the given time. -/
  | processing (msg : ConsumedMessage T) (event : T) (attempt : Nat)
  /-- Sleeps off the backoff after a failed attempt. -/
  | sleeping (msg : ConsumedMessage T) (event : T) (attempt : Nat)
  | evacuating (msg : ConsumedMessage T) (reasonKind reason : String) (attempts : Nat)
  | committing (msg : ConsumedMessage T)
  | returned (result : Except TransportError Unit)

/-- One message out of the stream and what became of it so far. -/
structure Delivery where
  source : TopicPartition
  offset : Nat
  /-- How often `process` was called for it. -/
  invoked : Nat
  outcomes : List ProcessOutcome
  /-- Its dead-letter publish failed. -/
  stranded : Bool

structure State (T : Type) where
  stage : Stage T
  /-- Where the run began in each partition. -/
  begun : TopicPartition → Nat
  position : TopicPartition → Nat
  /-- Newest first. -/
  deliveries : List Delivery
  published : List ProducerRecord
  requested : List (TopicPartition × Nat)
  committed : TopicPartition → Option Nat

inductive Action where
  | deliver (source : TopicPartition) (offset : Nat)
  | streamError (e : String)
  | streamEnd
  | outcome (result : ProcessOutcome)
  | wake
  | publish (nowMs : Int) (service : Service)
  | commit (service : Service)
  /-- The client refuses the offset of a commit. -/
  | offsetError (e : String)
  /-- The broker takes up one of the queued requests. -/
  | settle (source : TopicPartition) (next : Nat)

variable {T : Type}

def State.current (s : State T) (change : Delivery → Delivery) : List Delivery :=
  match s.deliveries with
  | [] => []
  | newest :: earlier => change newest :: earlier

section

variable (log : TopicPartition → Nat → Option Record) (decode : Bytes → Except String T)
  (policy : RetryPolicy)

/-- The record at `offset` is the first one of the partition from the position on. -/
def State.nextIs (s : State T) (source : TopicPartition) (offset : Nat) : Bool :=
  decide (s.position source ≤ offset) &&
    decide (∀ between < offset, s.position source ≤ between → log source between = none)

/-- A message arrives: an undecodable one is evacuated, any other is processed. -/
def arrive (msg : ConsumedMessage T) : Stage T × Nat :=
  match msg.payload with
  | .ok event => (.processing msg event 1, 1)
  | .error e => (.evacuating msg "decode" e.display 0, 0)

def step (s : State T) : Action → Option (State T)
  | .deliver source offset =>
    match s.stage, log source offset with
    | .polling, some record =>
      if s.nextIs log source offset then
        let (stage, invoked) := arrive (.ofRecord decode source offset record)
        some { s with
          stage
          position := update s.position source (offset + 1)
          deliveries := ⟨source, offset, invoked, [], false⟩ :: s.deliveries }
      else none
    | _, _ => none
  | .streamError e =>
    match s.stage with
    | .polling => some { s with stage := .returned (.error (.kafka (.consumer e))) }
    | _ => none
  | .streamEnd =>
    match s.stage with
    | .polling => some { s with stage := .returned (.ok ()) }
    | _ => none
  | .outcome result =>
    match s.stage with
    | .processing msg event attempt =>
      let deliveries := s.current fun d => { d with outcomes := d.outcomes ++ [result] }
      match result with
      | .done => some { s with stage := .committing msg, deliveries }
      | .reject reason => some { s with stage := .evacuating msg "reject" reason attempt, deliveries }
      | .retry reason =>
        if attempt ≥ policy.maxAttempts.toNat then
          some { s with stage := .evacuating msg "retry-exhausted" reason attempt, deliveries }
        else some { s with stage := .sleeping msg event attempt, deliveries }
    | _ => none
  | .wake =>
    match s.stage with
    | .sleeping msg event attempt =>
      some { s with
        stage := .processing msg event (attempt + 1)
        deliveries := s.current fun d => { d with invoked := d.invoked + 1 } }
    | _ => none
  | .publish nowMs service =>
    match s.stage with
    | .evacuating msg reasonKind reason attempts =>
      let letter := deadLetter msg reasonKind reason attempts nowMs
      match service with
      | .served => some { s with stage := .committing msg, published := letter :: s.published }
      | .refused e =>
        some { s with
          stage := .returned (.error (.kafka (.producer e)))
          deliveries := s.current fun d => { d with stranded := true } }
      | .replyLost e =>
        some { s with
          stage := .returned (.error (.kafka (.producer e)))
          published := letter :: s.published
          deliveries := s.current fun d => { d with stranded := true } }
    | _ => none
  | .commit service =>
    match s.stage with
    | .committing msg =>
      let requested := (msg.source, msg.offset + 1) :: s.requested
      match service with
      | .served => some { s with stage := .polling, requested }
      | .refused e => some { s with stage := .returned (.error (.kafka (.consumer e))) }
      | .replyLost e => some { s with stage := .returned (.error (.kafka (.consumer e))), requested }
    | _ => none
  | .offsetError e =>
    match s.stage with
    | .committing _ => some { s with stage := .returned (.error (.kafka (.config e))) }
    | _ => none
  | .settle source next =>
    if (source, next) ∈ s.requested then
      some { s with committed := update s.committed source (some next) }
    else none

/-- A run begins in each partition where the group had got to, or further on. -/
def machine : Machine (State T) Action where
  init s :=
    s.stage = .polling ∧ s.position = s.begun ∧ s.deliveries = [] ∧ s.published = [] ∧ s.requested = [] ∧
      ∀ source next, s.committed source = some next → next ≤ s.begun source
  step := step log decode policy

end

variable {log : TopicPartition → Nat → Option Record} {decode : Bytes → Except String T}
  {policy : RetryPolicy} {s next : State T} {source : TopicPartition} {offset : Nat}

theorem nextIs_iff :
    s.nextIs log source offset = true ↔ s.position source ≤ offset ∧
      ∀ between < offset, s.position source ≤ between → log source between = none := by
  simp [State.nextIs]

/-- The record was processed to the end, or is safe on the dead-letter topic. -/
def State.Settled (s : State T) (source : TopicPartition) (offset : Nat) (record : Record) : Prop :=
  (∃ d ∈ s.deliveries, d.source = source ∧ d.offset = offset ∧ .done ∈ d.outcomes) ∨
    ∃ letter ∈ s.published, Parks source offset record letter

def Stage.Busy : Stage T → Prop
  | .processing _ _ _ | .sleeping _ _ _ | .evacuating _ _ _ _ => True
  | .polling | .committing _ | .returned _ => False

/-- The newest message is still being worked on, or was left behind by a failed evacuation. -/
def State.Open (s : State T) (source : TopicPartition) (offset : Nat) : Prop :=
  ∃ d earlier, s.deliveries = d :: earlier ∧ d.source = source ∧ d.offset = offset ∧
    (s.stage.Busy ∨ d.stranded = true)

/-- The message at hand is the newest delivery, a record of the log. -/
def State.Holds (log : TopicPartition → Nat → Option Record) (decode : Bytes → Except String T)
    (s : State T) (msg : ConsumedMessage T) (also : Delivery → Record → Prop) : Prop :=
  ∃ d earlier record, s.deliveries = d :: earlier ∧ log d.source d.offset = some record ∧
    msg = .ofRecord decode d.source d.offset record ∧ s.begun d.source ≤ d.offset ∧
      d.offset < s.position d.source ∧ d.stranded = false ∧ also d record

/-- What the stage says about the newest delivery. -/
def State.Current (log : TopicPartition → Nat → Option Record) (decode : Bytes → Except String T)
    (policy : RetryPolicy) (s : State T) : Prop :=
  match s.stage with
  | .processing msg _ attempt =>
    s.Holds log decode msg fun d _ => d.invoked = attempt ∧ attempt ≤ max 1 policy.maxAttempts.toNat
  | .sleeping msg _ attempt =>
    s.Holds log decode msg fun d _ => d.invoked = attempt ∧ attempt < policy.maxAttempts.toNat
  | .evacuating msg _ _ _ => s.Holds log decode msg fun _ _ => True
  | .committing msg => s.Holds log decode msg fun d record => s.Settled d.source d.offset record
  | .polling | .returned _ => True

structure Consistent (log : TopicPartition → Nat → Option Record) (decode : Bytes → Except String T)
    (policy : RetryPolicy) (s : State T) : Prop where
  begins : ∀ source, s.begun source ≤ s.position source
  behind : ∀ {source offset record}, log source offset = some record → s.begun source ≤ offset →
    offset < s.position source → s.Settled source offset record ∨ s.Open source offset
  requests : ∀ {source next}, (source, next) ∈ s.requested →
    next ≤ s.position source ∧ (∀ {offset}, s.Open source offset → next ≤ offset) ∧
      ∀ {offset record}, log source offset = some record → s.begun source ≤ offset → offset < next →
        s.Settled source offset record
  commits : ∀ {source next}, s.committed source = some next → next ≤ s.begun source ∨ (source, next) ∈ s.requested
  current : s.Current log decode policy
  bounded : ∀ d ∈ s.deliveries, d.invoked ≤ max 1 policy.maxAttempts.toNat
  stranded : ∀ d ∈ s.deliveries, d.stranded = true →
    s.Open d.source d.offset ∧ s.begun d.source ≤ d.offset ∧ ∃ result, s.stage = .returned result

theorem start_consistent (initial : (machine log decode policy).init s) : Consistent log decode policy s := by
  obtain ⟨idle, hb, none_, _, unasked, within⟩ := initial
  constructor
  · intro source
    simp [hb]
  · intro source offset record _ from_ below
    rw [hb] at below
    omega
  · simp [unasked]
  · intro source next h
    exact .inl (within source next h)
  · simp [State.Current, idle]
  · simp [none_]
  · simp [none_]

theorem State.Settled.mono (hs : s.Settled source offset record) (hp : s.published ⊆ next.published)
    (hg : ∀ d ∈ s.deliveries, ∃ d' ∈ next.deliveries,
      d'.source = d.source ∧ d'.offset = d.offset ∧ d.outcomes ⊆ d'.outcomes) : next.Settled source offset record := by
  rcases hs with ⟨d, mem, atSource, atOffset, done⟩ | ⟨letter, mem, parks⟩
  · obtain ⟨d', member', sameSource, sameOffset, more⟩ := hg d mem
    exact .inl ⟨d', member', sameSource.trans atSource, sameOffset.trans atOffset, more done⟩
  · exact .inr ⟨letter, hp mem, parks⟩

/-- A change of the newest delivery that leaves its coordinates and keeps its outcomes. -/
structure Grows (change : Delivery → Delivery) : Prop where
  source : ∀ d, (change d).source = d.source
  offset : ∀ d, (change d).offset = d.offset
  outcomes : ∀ d, d.outcomes ⊆ (change d).outcomes

theorem Grows.member (hg : Grows change) :
    ∀ d ∈ s.deliveries, ∃ d' ∈ s.current change,
      d'.source = d.source ∧ d'.offset = d.offset ∧ d.outcomes ⊆ d'.outcomes := by
  intro d mem
  unfold State.current
  cases h : s.deliveries with
  | nil => simp [h] at mem
  | cons =>
    rw [h] at mem
    rcases mem_cons.mp mem with rfl | old
    · exact ⟨change d, .head _, hg.source d, hg.offset d, hg.outcomes d⟩
    · exact ⟨d, .tail _ old, rfl, rfl, List.Subset.refl _⟩

theorem grows_outcome : Grows fun d => { d with outcomes := d.outcomes ++ [result] } :=
  ⟨fun _ => rfl, fun _ => rfl, fun _ => subset_append_left _ _⟩

theorem grows_invoked : Grows fun d => { d with invoked := d.invoked + 1 } :=
  ⟨fun _ => rfl, fun _ => rfl, fun _ => List.Subset.refl _⟩

theorem grows_id : Grows id :=
  ⟨fun _ => rfl, fun _ => rfl, fun _ => List.Subset.refl _⟩

theorem grows_stranded : Grows fun d => { d with stranded := true } :=
  ⟨fun _ => rfl, fun _ => rfl, fun _ => List.Subset.refl _⟩

theorem State.current_cons (hn : s.deliveries = d :: earlier) (hc : Delivery → Delivery) :
    s.current hc = hc d :: earlier := by
  simp [State.current, hn]

theorem Consistent.moveOn (consistent : Consistent log decode policy s) (newest : s.deliveries = d :: earlier)
    (busy : s.stage.Busy) (hg : Grows change) (kept : s.published ⊆ published)
    (hb : s.begun d.source ≤ d.offset)
    (fate : stage.Busy ∨ (change d).stranded = true ∨ ∀ record, log d.source d.offset = some record →
      State.Settled { s with stage, published, deliveries := s.current change } d.source d.offset record)
    (hc : State.Current log decode policy { s with stage, published, deliveries := s.current change })
    (hbo : (change d).invoked ≤ max 1 policy.maxAttempts.toNat)
    (ends : (change d).stranded = true → ∃ result, stage = .returned result) :
    Consistent log decode policy { s with stage, published, deliveries := s.current change } := by
  have changed : s.current change = change d :: earlier := State.current_cons newest change
  have opened : s.Open d.source d.offset := ⟨d, earlier, newest, rfl, rfl, .inl busy⟩
  constructor
  · exact consistent.begins
  · intro source offset record stored from_ below
    rcases consistent.behind stored from_ below with settled | ⟨d', earlier', newest', rfl, rfl, _⟩
    · exact .inl (settled.mono kept hg.member)
    obtain ⟨rfl, rfl⟩ : d = d' ∧ earlier = earlier' := by simpa [newest] using newest'
    rcases fate with busy' | left_ | settled
    · exact .inr ⟨change d, earlier, changed, hg.source d, hg.offset d, .inl busy'⟩
    · exact .inr ⟨change d, earlier, changed, hg.source d, hg.offset d, .inr left_⟩
    · exact .inl (settled record stored)
  · intro source next asked
    obtain ⟨reached, behind, settled⟩ := consistent.requests asked
    refine ⟨reached, ?_, fun stored from_ below => (settled stored from_ below).mono kept hg.member⟩
    rintro offset ⟨d', earlier', newest', rfl, rfl, _⟩
    obtain ⟨rfl, rfl⟩ : change d = d' ∧ earlier = earlier' := by simpa [changed] using newest'
    rw [hg.source] at asked behind
    rw [hg.offset]
    exact behind opened
  · exact consistent.commits
  · exact hc
  · intro d' mem
    rw [show s.current change = change d :: earlier from changed] at mem
    rcases mem_cons.mp mem with rfl | old
    · exact hbo
    · exact consistent.bounded d' (newest ▸ .tail _ old)
  · intro d' mem left_
    rw [show s.current change = change d :: earlier from changed] at mem
    rcases mem_cons.mp mem with rfl | old
    · refine ⟨⟨change d, earlier, changed, rfl, rfl, .inr left_⟩, ?_, ends left_⟩
      rw [hg.source, hg.offset]
      exact hb
    · obtain ⟨_, _, _, over_⟩ := consistent.stranded d' (newest ▸ .tail _ old) left_
      rw [over_] at busy
      exact busy.elim

theorem State.current_id : s.current id = s.deliveries := by
  unfold State.current
  cases s.deliveries <;> rfl

section

variable (consistent : Consistent log decode policy s) (rest : ¬ s.stage.Busy)
  (unreturned : ∀ result, s.stage ≠ .returned result)

include consistent rest unreturned

theorem Consistent.closed : ¬ s.Open source offset := by
  rintro ⟨d, hea, newest, _, _, busy | left_⟩
  · exact rest busy
  · obtain ⟨_, _, result, he⟩ := consistent.stranded d (newest ▸ .head _) left_
    exact unreturned result he

theorem Consistent.settled {record : Record} (stored : log source offset = some record)
    (hf : s.begun source ≤ offset) (hb : offset < s.position source) : s.Settled source offset record :=
  (consistent.behind stored hf hb).resolve_right (consistent.closed rest unreturned)

end

section

variable (consistent : Consistent log decode policy s)

include consistent

theorem Consistent.takeUp (idle : s.stage = .polling) (stored : log source offset = some record)
    (ha : s.position source ≤ offset)
    (first : ∀ between < offset, s.position source ≤ between → log source between = none) :
    Consistent log decode policy { s with
      stage := (arrive (.ofRecord decode source offset record)).1
      position := update s.position source (offset + 1)
      deliveries :=
        ⟨source, offset, (arrive (.ofRecord decode source offset record)).2, [], false⟩ :: s.deliveries } := by
  generalize isMsg : ConsumedMessage.ofRecord decode source offset record = msg
  have begun : s.begun source ≤ offset := Nat.le_trans (consistent.begins source) ha
  have further : ∀ other, s.position other ≤ update s.position source (offset + 1) other := by
    intro other
    by_cases same : other = source
    · subst same
      rw [update_self]
      omega
    · exact Nat.le_of_eq (update_of_ne same _ _).symm
  have busy : (arrive msg).1.Busy := by
    unfold arrive
    cases msg.payload <;> trivial
  constructor
  · intro other
    exact Nat.le_trans (consistent.begins other) (further other)
  · intro other o r h from_ below
    by_cases hb : o < s.position other
    · have settled := consistent.settled (by simp [idle, Stage.Busy]) (by simp [idle]) h from_ hb
      exact .inl (settled.mono (List.Subset.refl _) fun d mem => ⟨d, .tail _ mem, rfl, rfl, List.Subset.refl _⟩)
    by_cases same : other = source
    · subst same
      simp only [update_self] at below
      have at_ : o = offset := by
        by_contra other_
        rw [first o (by omega) (by omega)] at h
        cases h
      subst at_
      exact .inr ⟨_, _, rfl, rfl, rfl, .inl busy⟩
    · simp only [update_of_ne same] at below
      omega
  · intro other next asked
    obtain ⟨hr, _, settled⟩ := consistent.requests asked
    refine ⟨Nat.le_trans hr (further other), ?_, ?_⟩
    · rintro o ⟨d, hea, newest, rfl, rfl, _⟩
      cases newest
      exact Nat.le_trans hr ha
    · intro o r h from_ below
      exact (settled h from_ below).mono (List.Subset.refl _)
        fun d mem => ⟨d, .tail _ mem, rfl, rfl, List.Subset.refl _⟩
  · exact consistent.commits
  · unfold State.Current arrive
    cases decoded : msg.payload with
    | ok =>
      refine ⟨_, _, record, rfl, stored, isMsg.symm, begun, ?_, rfl, by simp, by omega⟩
      simp
    | error =>
      refine ⟨_, _, record, rfl, stored, isMsg.symm, begun, ?_, rfl, trivial⟩
      simp
  · intro d mem
    rcases mem_cons.mp mem with rfl | old
    · unfold arrive
      cases msg.payload with
      | ok => exact Nat.le_max_left _ _
      | error => exact Nat.zero_le _
    · exact consistent.bounded d old
  · intro d mem left_
    rcases mem_cons.mp mem with rfl | old
    · cases left_
    · obtain ⟨_, _, _, he⟩ := consistent.stranded d old left_
      rw [idle] at he
      cases he

theorem Consistent.leave (rest : ¬ s.stage.Busy) (unreturned : ∀ result, s.stage ≠ .returned result)
    (hl : stage = .polling ∨ ∃ result, stage = .returned result) :
    Consistent log decode policy { s with stage } := by
  have quiet : ¬ stage.Busy := by
    rcases hl with rfl | ⟨result, rfl⟩ <;> exact id
  have whole : ∀ d ∈ s.deliveries, d.stranded ≠ true := by
    intro d mem left_
    obtain ⟨_, _, result, he⟩ := consistent.stranded d mem left_
    exact unreturned result he
  constructor
  · exact consistent.begins
  · intro source offset record stored from_ below
    exact .inl (consistent.settled rest unreturned stored from_ below)
  · intro source next asked
    obtain ⟨hr, _, settled⟩ := consistent.requests asked
    refine ⟨hr, ?_, settled⟩
    rintro offset ⟨d, hea, newest, _, _, busy | left_⟩
    · exact absurd busy quiet
    · exact absurd left_ (whole d (newest ▸ .head _))
  · exact consistent.commits
  · rcases hl with rfl | ⟨result, rfl⟩ <;> trivial
  · exact consistent.bounded
  · intro d mem left_
    exact absurd left_ (whole d mem)

theorem Consistent.request (hs : s.stage = .committing msg) :
    Consistent log decode policy { s with requested := (msg.source, msg.offset + 1) :: s.requested } := by
  have h := consistent.current
  simp only [State.Current, hs] at h
  obtain ⟨_, _, _, _, _, rfl, _, hr, _, _⟩ := h
  have rest : ¬ s.stage.Busy := by simp [hs, Stage.Busy]
  have unreturned : ∀ result, s.stage ≠ .returned result := by simp [hs]
  constructor
  · exact consistent.begins
  · exact consistent.behind
  · intro source next asked
    rcases mem_cons.mp asked with new | old
    · cases new
      refine ⟨hr, fun ho => absurd ho (consistent.closed rest unreturned), ?_⟩
      intro offset other h from_ below
      exact consistent.settled rest unreturned h from_ (Nat.lt_of_lt_of_le below hr)
    · exact consistent.requests old
  · intro source next h
    rcases consistent.commits h with hb | asked
    · exact .inl hb
    · exact .inr (.tail _ asked)
  · have h := consistent.current
    exact h
  · exact consistent.bounded
  · exact consistent.stranded

theorem Consistent.judged (busy : s.stage = .processing msg event attempt) (result : ProcessOutcome)
    (hs : (∃ reasonKind reason, stage = .evacuating msg reasonKind reason attempt) ∨
      stage = .sleeping msg event attempt ∧ attempt < policy.maxAttempts.toNat) :
    Consistent log decode policy { s with
      stage, deliveries := s.current fun d => { d with outcomes := d.outcomes ++ [result] } } := by
  have h := consistent.current
  simp only [State.Current, busy] at h
  obtain ⟨d, he, record, newest, stored, isMsg, begun, hr, whole, eq, within⟩ := h
  refine consistent.moveOn newest (by simp [busy, Stage.Busy]) grows_outcome (List.Subset.refl _) begun
    (.inl ?_) ?_ (eq ▸ within) (by simp [whole])
  · rcases hs with ⟨_, _, rfl⟩ | ⟨rfl, _⟩ <;> trivial
  have newest' := State.current_cons newest fun d => { d with outcomes := d.outcomes ++ [result] }
  rcases hs with ⟨_, _, rfl⟩ | ⟨rfl, left_⟩
  · exact ⟨_, he, record, newest', stored, isMsg, begun, hr, whole, trivial⟩
  · exact ⟨_, he, record, newest', stored, isMsg, begun, hr, whole, eq, left_⟩

theorem Consistent.processed (busy : s.stage = .processing msg event attempt) :
    Consistent log decode policy { s with
      stage := .committing msg, deliveries := s.current fun d => { d with outcomes := d.outcomes ++ [.done] } } := by
  have h := consistent.current
  simp only [State.Current, busy] at h
  obtain ⟨d, he, record, newest, stored, isMsg, begun, hr, whole, eq, within⟩ := h
  have done : ∀ r, log d.source d.offset = some r → State.Settled { s with
      stage := .committing msg, deliveries := s.current fun d => { d with outcomes := d.outcomes ++ [.done] } }
      d.source d.offset r := by
    intro r _
    have here : { d with outcomes := d.outcomes ++ [.done] } ∈ s.current fun d =>
        { d with outcomes := d.outcomes ++ [.done] } := by simp [State.current_cons newest]
    exact .inl ⟨_, here, rfl, rfl, by simp⟩
  refine consistent.moveOn newest (by simp [busy, Stage.Busy]) grows_outcome (List.Subset.refl _) begun
    (.inr (.inr done)) ?_ (eq ▸ within) (by simp [whole])
  exact ⟨_, he, record, State.current_cons newest _, stored, isMsg, begun, hr, whole, done record stored⟩

theorem Consistent.woken (ha : s.stage = .sleeping msg event att) :
    Consistent log decode policy { s with
      stage := .processing msg event (att + 1)
      deliveries := s.current fun d => { d with invoked := d.invoked + 1 } } := by
  have h := consistent.current
  simp only [State.Current, ha] at h
  obtain ⟨d, he, record, newest, stored, isMsg, begun, hr, whole, eq, _⟩ := h
  have within : d.invoked + 1 ≤ max 1 policy.maxAttempts.toNat := by omega
  refine consistent.moveOn newest (by simp [ha, Stage.Busy]) grows_invoked (List.Subset.refl _) begun
    (.inl trivial) ?_ within (by simp [whole])
  exact ⟨_, he, record, State.current_cons newest _, stored, isMsg, begun, hr, whole,
    congrArg (· + 1) eq, eq ▸ within⟩

theorem Consistent.parked (hl : s.stage = .evacuating msg reasonKind reason attempts) (nowMs : Int) :
    Consistent log decode policy { s with
      stage := .committing msg, published := deadLetter msg reasonKind reason attempts nowMs :: s.published } := by
  have h := consistent.current
  simp only [State.Current, hl] at h
  obtain ⟨d, earlier, record, newest, stored, isMsg, begun, reached, whole, _⟩ := h
  have safe : ∀ r, log d.source d.offset = some r → State.Settled { s with
      stage := .committing msg, published := deadLetter msg reasonKind reason attempts nowMs :: s.published
      deliveries := s.current id } d.source d.offset r := by
    intro r stored'
    cases stored.symm.trans stored'
    exact .inr ⟨_, .head _, isMsg ▸ deadLetter_parks decode⟩
  have moved := consistent.moveOn newest (by simp [hl, Stage.Busy]) grows_id (subset_cons_self _ _)
    begun (.inr (.inr safe)) ⟨d, earlier, record, State.current_cons newest _, stored, isMsg, begun, reached,
      whole, safe record stored⟩ (consistent.bounded d (newest ▸ .head _)) (by simp [whole])
  rwa [State.current_id] at moved

theorem Consistent.strand (hl : s.stage = .evacuating msg reasonKind reason attempts)
    (kept : s.published ⊆ published) :
    Consistent log decode policy { s with
      stage := .returned result, published, deliveries := s.current fun d => { d with stranded := true } } := by
  have h := consistent.current
  simp only [State.Current, hl] at h
  obtain ⟨d, _, _, newest, _, _, begun, _, _, _⟩ := h
  exact consistent.moveOn newest (by simp [hl, Stage.Busy]) grows_stranded kept begun (.inr (.inl rfl))
    trivial (consistent.bounded d (newest ▸ .head _)) (fun _ => ⟨_, rfl⟩)

theorem Consistent.settle (ha : (source, upTo) ∈ s.requested) :
    Consistent log decode policy { s with committed := update s.committed source (some upTo) } := by
  refine { consistent with commits := ?_ }
  intro other at_ h
  rcases update_cases h with ⟨rfl, eq⟩ | ⟨-, hb⟩
  · cases eq
    exact .inr ha
  · exact consistent.commits hb

theorem step_consistent (hs : step log decode policy s a = some next) : Consistent log decode policy next := by
  cases a with
  | deliver _ _ =>
    simp only [step] at hs
    split at hs
    · rename_i record idle stored
      split at hs
      · rename_i first
        obtain ⟨ahead, first⟩ := nextIs_iff.mp first
        cases hs
        exact consistent.takeUp idle stored ahead first
      · cases hs
    · cases hs
  | streamError _ | streamEnd =>
    simp only [step] at hs
    split at hs
    · rename_i idle
      cases hs
      exact consistent.leave (by simp [idle, Stage.Busy]) (by simp [idle]) (.inr ⟨_, rfl⟩)
    · cases hs
  | outcome result =>
    simp only [step] at hs
    split at hs
    · rename_i msg ev att busy
      cases result with
      | done =>
        cases hs
        exact consistent.processed busy
      | reject =>
        cases hs
        exact consistent.judged busy _ (.inl ⟨_, _, rfl⟩)
      | retry =>
        by_cases spent : att ≥ policy.maxAttempts.toNat
        · simp only [spent, if_true, Option.some.injEq] at hs
          subst hs
          exact consistent.judged busy _ (.inl ⟨_, _, rfl⟩)
        · simp only [spent, if_false, Option.some.injEq] at hs
          subst hs
          exact consistent.judged busy _ (.inr ⟨rfl, by omega⟩)
    · cases hs
  | wake =>
    simp only [step] at hs
    split at hs
    · rename_i asleep
      cases hs
      exact consistent.woken asleep
    · cases hs
  | publish nowMs svc =>
    simp only [step] at hs
    split at hs
    · rename_i leaving
      cases svc with
      | served =>
        cases hs
        exact consistent.parked leaving nowMs
      | refused =>
        cases hs
        exact consistent.strand leaving (List.Subset.refl _)
      | replyLost =>
        cases hs
        exact consistent.strand leaving (subset_cons_self _ _)
    · cases hs
  | commit svc =>
    simp only [step] at hs
    split at hs
    · rename_i settled
      have rest : ¬ s.stage.Busy := by simp [settled, Stage.Busy]
      have unreturned : ∀ result, s.stage ≠ .returned result := by simp [settled]
      cases svc with
      | served =>
        cases hs
        exact (consistent.request settled).leave rest unreturned (.inl rfl)
      | refused =>
        cases hs
        exact consistent.leave rest unreturned (.inr ⟨_, rfl⟩)
      | replyLost =>
        cases hs
        exact (consistent.request settled).leave rest unreturned (.inr ⟨_, rfl⟩)
    · cases hs
  | offsetError _ =>
    simp only [step] at hs
    split at hs
    · rename_i settled
      cases hs
      exact consistent.leave (by simp [settled, Stage.Busy]) (by simp [settled]) (.inr ⟨_, rfl⟩)
    · cases hs
  | settle _ _ =>
    simp only [step] at hs
    split at hs
    · rename_i asked
      cases hs
      exact consistent.settle asked
    · cases hs

end

theorem Reachable.consistent (hr : (machine log decode policy).Reachable s) : Consistent log decode policy s :=
  hr.invariant (Consistent log decode policy) (fun _ initial => start_consistent initial)
    fun _ _ _ consistent hs => step_consistent consistent hs

/-- Whatever the committed offset has passed was processed or is on the dead-letter topic; it never
passes a message that could not be evacuated; and none is tried too often. -/
theorem run_never_loses (reached : (machine log decode policy).Reachable s) :
    (∀ source next offset record, s.committed source = some next → log source offset = some record →
      s.begun source ≤ offset → offset < next → s.Settled source offset record) ∧
    (∀ d ∈ s.deliveries, d.stranded = true → ∀ next, s.committed d.source = some next → next ≤ d.offset) ∧
    ∀ d ∈ s.deliveries, d.invoked ≤ max 1 policy.maxAttempts.toNat := by
  have consistent := Reachable.consistent reached
  refine ⟨?_, ?_, consistent.bounded⟩
  · intro source next offset record committed stored begun below
    rcases consistent.commits committed with before | asked
    · omega
    · exact (consistent.requests asked).2.2 stored begun below
  intro d member left_ next committed
  obtain ⟨opened, _, _⟩ := consistent.stranded d member left_
  rcases consistent.commits committed with before | asked
  · omega
  · exact (consistent.requests asked).2.1 opened

private def posts : TopicPartition := ⟨"post.published", 0⟩

/-- An empty record, then one that holds the JSON text `null`. -/
private def sampleLog (source : TopicPartition) (offset : Nat) : Option Record :=
  if source = posts then [⟨none, none⟩, ⟨none, some [110, 117, 108, 108]⟩][offset]? else none

private def sampleDecode (bytes : Bytes) : Except String Unit :=
  if bytes = [110, 117, 108, 108] then .ok () else .error "expected value at line 1 column 1"

private def sampleStart : State Unit where
  stage := .polling
  begun _ := 0
  position _ := 0
  deliveries := []
  published := []
  requested := []
  committed _ := none

private def sampleTrace : List Action := [
  .deliver posts 0, .publish 0 .served, .commit .served,
  .deliver posts 1, .outcome (.retry "timed out"), .wake, .outcome .done, .commit .served,
  .settle posts 2]

theorem run_never_loses_sample : ∃ s : State Unit,
    (machine sampleLog sampleDecode {}).Reachable s ∧ s.committed posts = some 2 ∧ s.begun posts = 0 ∧
      (∀ offset record, sampleLog posts offset = some record → offset < 2 → s.Settled posts offset record) := by
  obtain ⟨s, ran, committed, begun⟩ : ∃ s, (machine sampleLog sampleDecode {}).run sampleStart sampleTrace = some s ∧
      s.committed posts = some 2 ∧ s.begun posts = 0 := by decide
  have reached : (machine sampleLog sampleDecode {}).Reachable s := by
    refine ⟨sampleStart, sampleTrace, ⟨rfl, rfl, rfl, rfl, rfl, ?_⟩, ran⟩
    intro source next held
    cases held
  refine ⟨s, reached, committed, begun, ?_⟩
  intro offset record stored below
  exact (run_never_loses reached).1 posts 2 offset record committed stored (by omega) below

end CorePlatform.Transport.Runner
