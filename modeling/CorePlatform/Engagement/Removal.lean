import Mathlib.Logic.Relation
import CorePlatform.Engagement.Ledger

/-! # Removing a reaction again and again

The script takes the live reaction away before the event of the removal is published. An attempt
that fails in between has used the reaction up: the next one finds none, and nobody tells the
ledger.
-/

namespace CorePlatform.Engagement

open Theory List Server

/-- The caller takes these answers for the end of the matter. -/
def concludes : Except EngagementError Unit → Bool
  | .ok _ | .error (.reactionNotFound _ _) => true
  | .error _ => false

/-- The ledger's row of a pair once everything that is published is consumed. -/
def World.settledRow (w : World) (pair : Pair) : Option LedgerRow :=
  (w.topic.drop w.consumed).foldl (fun row event => if event.pair = pair then event.ledgerRow else row) (w.ledger pair)

/-- The attempt finds a reaction that it can read, and the event of its removal is published. -/
def World.announces (formats : Formats) (w : World) (pair : Pair) (pattern : Nat → Service) : Bool :=
  match readReturned formats (w.redis.removeScript formats pair).2 with
  | .ok (some _) => (pattern 1).reaches
  | _ => false

variable {formats : Formats} {pair : Pair}

theorem settledRow_consume {w next : World} (hc : w.consume formats = some next) :
    next.settledRow pair = w.settledRow pair := by
  obtain ⟨ev, here, rfl⟩ := consume_cases hc
  obtain ⟨bound, rfl⟩ := List.getElem?_eq_some_iff.mp here
  simp only [World.settledRow]
  rw [List.drop_eq_getElem_cons bound, List.foldl_cons]
  congr 1
  by_cases eq : w.topic[w.consumed].pair = pair
  · subst eq
    simp
  · simp [eq, Ne.symm eq]

theorem reactions_removeScript (w : World) : (w.removeScript formats pair).1.redis.reactions pair = none := by
  simp only [World.removeScript, Redis.removeScript, Redis.swappedOut]
  cases h : w.redis.reactions pair with
  | none => exact h
  | some => simp

theorem settledRow_publish {w : World} (position : w.consumed ≤ w.topic.length) (eq : ev.pair = pair) :
    World.settledRow { w with topic := w.topic ++ [ev] } pair = ev.ledgerRow := by
  simp [World.settledRow, drop_append_of_le_length position, eq]

theorem attempt_spec (formats : Formats) (pair : Pair) (now : Int) {w : World}
    (position : w.consumed ≤ w.topic.length) (served : pat 0 = .served) :
    ∃ after ans, (server formats).execute (removeReaction formats pair now) w pat = (after, ans) ∧
      after.redis.reactions pair = none ∧
      after.settledRow pair = if w.announces formats pair pat then none else w.settledRow pair := by
  have gone : (w.removeScript formats pair).1.redis.reactions pair = none := reactions_removeScript w
  have ran : (server formats).serve w (.removeScript pair) =
    ((w.removeScript formats pair).1, .ok (w.redis.removeScript formats pair).2) := rfl
  unfold removeReaction atomicRemoveReaction World.announces
  rw [Program.bind_assoc, execute_served served ran]
  cases readReturned formats (w.redis.removeScript formats pair).2 with
  | error => exact ⟨_, _, rfl, gone, rfl⟩
  | ok removed =>
    cases removed with
    | none => exact ⟨_, _, rfl, gone, rfl⟩
    | some found =>
      refine ⟨_, _, execute_perform .., ?_⟩
      cases pat 1 with
      | refused => exact ⟨gone, rfl⟩
      | served | replyLost => exact ⟨gone, settledRow_publish position rfl⟩

theorem attempt_without (now : Int) {w : World} (hw : w.redis.reactions pair = none)
    (hv : pattern 0 = .served) :
    (server formats).execute (removeReaction formats pair now) w pattern =
      (w, .error (.reactionNotFound pair.1 pair.2)) := by
  have none_ : (server formats).serve w (.removeScript pair) = (w, .ok none) := by
    simp [server, World.serve, World.removeScript, Redis.removeScript, Redis.swappedOut, hw]
  unfold removeReaction atomicRemoveReaction
  rw [Program.bind_assoc, execute_served hv none_]
  rfl

theorem settledRow_consumed {w done : World}
    (hc : Relation.ReflTransGen (fun w next => w.consume formats = some next) w done)
    (all : done.consumed = done.topic.length) : done.ledger pair = w.settledRow pair := by
  have settled : done.settledRow pair = done.ledger pair := by simp [World.settledRow, all]
  rw [← settled]
  clear settled all
  induction hc with
  | refl => rfl
  | tail _ step ih => rw [settledRow_consume step, ih]

/-- A removal that is repeated until it returns is durable if and only if the ledger was to have no
row anyway, or the first attempt finds a reaction it can read and its removal's event is published. -/
theorem removal_durable_iff (formats : Formats) (pair : Pair) (w after done : World) (now : Int)
    (pattern : Nat → Service) (more : List (Int × (Nat → Service))) (position : w.consumed ≤ w.topic.length)
    (scripts : ∀ attempt ∈ (now, pattern) :: more, attempt.2 0 = .served)
    (ended : (server formats).retry concludes
      (((now, pattern) :: more).map fun attempt => (removeReaction formats pair attempt.1, attempt.2)) w = some after)
    (consumed : Relation.ReflTransGen (fun w next => w.consume formats = some next) after done)
    (all : done.consumed = done.topic.length) :
    done.ledger pair = none ↔ w.settledRow pair = none ∨ w.announces formats pair pattern = true := by
  obtain ⟨left_, answer, ran, gone, row⟩ := attempt_spec formats pair now position (scripts _ (.head _))
  have same : after = left_ := by
    simp only [List.map_cons, Server.retry, ran] at ended
    split at ended
    · exact (Option.some.inj ended).symm
    cases more with
    | nil => cases ended
    | cons next =>
      simp only [List.map_cons, Server.retry, attempt_without next.1 gone (scripts next (.tail _ (.head _))),
        concludes, if_true] at ended
      exact (Option.some.inj ended).symm
  rw [settledRow_consumed consumed all, same, row]
  split <;> simp_all

/-- A heart that both stores know of. -/
def hearted : World :=
  { Sample.empty with
    redis := { Sample.empty.redis with reactions := fun _ => some ("heart", "1") }
    ledger := fun _ => some ⟨1, 1, 1⟩ }

def unheard : Nat → Service := fun n => if n = 1 then .replyLost "timed out" else .served

/-- The first event is published and its answer is lost; the second attempt finds no reaction. -/
theorem removal_durable_published : ∃ after done,
    (server Sample.plain).retry concludes [(removeReaction Sample.plain (1, 2) 5, unheard),
      (removeReaction Sample.plain (1, 2) 6, Server.allServed)] hearted = some after ∧
      after.consume Sample.plain = some done ∧ done.ledger (1, 2) = none := by
  refine ⟨_, _, rfl, rfl, ?_⟩
  exact (removal_durable_iff Sample.plain (1, 2) hearted _ _ 5 unheard [(6, Server.allServed)] (Nat.le_refl _)
    (by decide) rfl (.single rfl) rfl).mpr (.inr (by decide))

/-- The first event is not published; the second attempt finds no reaction, and the ledger keeps its row. -/
theorem removal_unannounced : ∃ after, (server Sample.plain).retry concludes
    [(removeReaction Sample.plain (1, 2) 5, fun n => if n = 1 then .refused "broker unavailable" else .served),
      (removeReaction Sample.plain (1, 2) 6, Server.allServed)] hearted = some after ∧
      after.consumed = after.topic.length ∧ (after.ledger (1, 2)).isSome = true :=
  ⟨_, rfl, rfl, rfl⟩

end CorePlatform.Engagement
