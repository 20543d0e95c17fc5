import CorePlatform.Theory.Rows
import CorePlatform.Traffic.Lease

/-! # The budget of a window is not overspent

The count in the store covers everything ever granted for the key and the window: the checks let
through, the tokens in cells, and the grants on their way to a check. Turning a cell to another
window loses its tokens; nothing moves tokens between windows because a check that waits for the
store still holds the lock of its cell, and the cell is still at its window. -/

namespace CorePlatform.Traffic

open Theory Function Option

def Cell.worth (key : String) (window : Nat) (cell : Cell) : Nat :=
  if cell.key = key then cell.lease.tokens window else 0

def Phase.worth : Phase → Nat
  | .granted tokens => tokens
  | .returned (.ok .allow) => 1
  | _ => 0

theorem Phase.worth_answered_le (granted : Nat) (phase : Phase) :
    (phase.answered granted).worth ≤ phase.worth + granted := by
  cases phase with
  | claiming => exact Nat.le_add_left ..
  | queued | granted | returned | dropped => exact Nat.le_add_right ..

def Check.worth (quota : Quota) (key : String) (window : Nat) (check : Check) : Nat :=
  if check.key = key ∧ quota.window check.nowMs = window then check.phase.worth else 0

namespace Fleet

variable {ρ : Type} (quota : Quota)

/-- What was granted for the key and the window and is not lost. -/
def worth (f : Fleet ρ) (key : String) (window : Nat) : Nat :=
  Rows.total (Cell.worth key window) f.cells + Rows.total (Check.worth quota key window) f.checks

theorem allows_le_worth (f : Fleet ρ) (key : String) (window : Nat) :
    f.allows quota key window ≤ f.worth quota key window := by
  have hc : f.allows quota key window ≤ Rows.total (Check.worth quota key window) f.checks := by
    apply Rows.countP_le_total
    intro check passes
    simp only [Bool.and_eq_true, beq_iff_eq] at passes
    obtain ⟨mine, allowed⟩ := passes
    rw [Check.worth, if_pos mine]
    split at allowed
    · rename_i hr
      rw [hr]
      exact Nat.le_refl 1
    · cases allowed
  exact Nat.le_trans hc (Nat.le_add_left ..)

/-- Nothing is spent that the store has not counted. -/
structure Solvent (f : Fleet ρ) : Prop where
  placed : ∀ (replica : ρ) (key : String) (c : Nat), f.leases replica key = some c →
    ∃ cell, f.cells[c]? = some cell ∧ cell.key = key
  aimed : ∀ (i : Nat) (check : Check), f.checks[i]? = some check →
    ∃ cell, f.cells[check.cell]? = some cell ∧ cell.key = check.key
  held : ∀ (i : Nat) (check : Check) (cell : Cell), f.checks[i]? = some check → check.phase.holds = true →
    f.cells[check.cell]? = some cell → cell.holder = some i ∧ cell.lease.window = quota.window check.nowMs
  covered : ∀ (key : String) (window : Nat),
    f.worth quota key window ≤ Counter.current (f.store (windowKey key window))
  within : ∀ name : String, Counter.current (f.store name) ≤ quota.budget

theorem solvent_start : (start : Fleet ρ).Solvent quota where
  placed := by
    intro replica key c placed
    cases placed
  aimed := by
    intro i check held
    cases held
  held := by
    intro i check cell held
    cases held
  covered := fun _ _ => Nat.le_refl 0
  within := fun _ => Nat.zero_le _

variable {quota} {f : Fleet ρ}

theorem key_set {d : Nat} (hf : f.cells[c]? = some cell) (eq : new.key = cell.key)
    (there : f.cells[d]? = some kept) (hn : kept.key = key) :
    ∃ cell, (f.cells.set c new)[d]? = some cell ∧ cell.key = key := by
  rw [List.getElem?_set]
  by_cases here : c = d
  · subst here
    have within : c < f.cells.length := (List.getElem?_eq_some_iff.mp hf).1
    rw [hf] at there
    cases there
    rw [if_pos rfl, if_pos within]
    exact ⟨new, rfl, eq.trans hn⟩
  · rw [if_neg here]
    exact ⟨kept, there, hn⟩

section

variable (solvent : f.Solvent quota)

include solvent

theorem Solvent.put (held : f.checks[i]? = some check) (hf : f.cells[check.cell]? = some cell)
    (mine : ∀ j, cell.holder = some j → j = i) {holder : Option Nat}
    (hp : phase.holds = true → holder = some i ∧ lease.window = quota.window check.nowMs)
    (here : lease.tokens (quota.window check.nowMs) + phase.worth ≤
      cell.lease.tokens (quota.window check.nowMs) + check.phase.worth)
    (he : ∀ window, window ≠ quota.window check.nowMs → lease.tokens window ≤ cell.lease.tokens window) :
    ((f.putCell check.cell { cell with lease, holder }).putCheck i { check with phase, inFlight }).Solvent quota where
  placed := by
    intro replica key c placed
    obtain ⟨kept, there, hn⟩ := solvent.placed replica key c placed
    exact key_set hf rfl there hn
  aimed := by
    intro j other now
    have hb : ∃ kept, f.cells[other.cell]? = some kept ∧ kept.key = other.key := by
      rcases Rows.set_cases now with ⟨-, rfl⟩ | ⟨-, now⟩
      · exact solvent.aimed i check held
      · exact solvent.aimed j other now
    obtain ⟨kept, there, hn⟩ := hb
    exact key_set hf rfl there hn
  held := by
    intro j other kept now busy there
    rcases Rows.set_cases now with ⟨rfl, rfl⟩ | ⟨ne, now⟩
    · rcases Rows.set_cases there with ⟨-, rfl⟩ | ⟨hm, -⟩
      · exact hp busy
      · exact absurd rfl hm
    rcases Rows.set_cases there with ⟨eq, -⟩ | ⟨-, there⟩
    · -- Another check that holds this cell's lock would be its holder.
      have holder := (solvent.held j other cell now busy (eq ▸ hf)).1
      exact absurd (mine j holder) ne
    · exact solvent.held j other kept now busy there
  covered := by
    intro key window
    obtain ⟨_, there, hn⟩ := solvent.aimed i check held
    rw [hf] at there
    cases there
    have cells := Rows.total_set (Cell.worth key window) { cell with lease, holder } hf
    have checks := Rows.total_set (Check.worth quota key window) { check with phase, inFlight } held
    have both : Cell.worth key window { cell with lease, holder } +
          Check.worth quota key window { check with phase, inFlight } ≤
        Cell.worth key window cell + Check.worth quota key window check := by
      simp only [Cell.worth, Check.worth, hn]
      by_cases mine : check.key = key
      · by_cases now : quota.window check.nowMs = window
        · subst now
          simp only [mine, and_self, if_true]
          exact here
        · simp only [mine, now, and_false, if_true, if_false]
          exact he window (Ne.symm now)
      · simp only [mine, false_and, if_false]
        exact Nat.le_refl _
    have total := solvent.covered key window
    simp only [worth, putCell, putCheck] at total ⊢
    omega
  within := solvent.within

theorem Solvent.entered [DecidableEq ρ] (replica : ρ) (key : String) (nowMs : Nat) :
    (f.enter quota replica key nowMs).Solvent quota := by
  unfold enter
  cases lookup : f.leases replica key with
  | some c =>
    refine ⟨solvent.placed, ?_, ?_, ?_, solvent.within⟩
    · intro i check h
      rcases Rows.append_cases h with ⟨-, rfl⟩ | h
      · exact solvent.placed replica key c lookup
      · exact solvent.aimed i check h
    · intro i check cell h busy hf
      rcases Rows.append_cases h with ⟨-, rfl⟩ | h
      · cases busy
      · exact solvent.held i check cell h busy hf
    intro other window
    have total := solvent.covered other window
    simp only [worth, Rows.total_append] at total ⊢
    have idle : Check.worth quota other window ⟨key, nowMs, c, .queued, false⟩ = 0 := ite_self 0
    omega
  | none =>
    refine ⟨?_, ?_, ?_, ?_, solvent.within⟩
    · intro other name c placed
      rcases hang_cases placed with ⟨rfl, new⟩ | old
      · cases new
        exact ⟨_, List.getElem?_concat_length, rfl⟩
      · obtain ⟨cell, hf, hn⟩ := solvent.placed other name c old
        exact ⟨cell, Rows.append_of_found hf, hn⟩
    · intro i check h
      rcases Rows.append_cases h with ⟨-, rfl⟩ | h
      · exact ⟨_, List.getElem?_concat_length, rfl⟩
      · obtain ⟨cell, hf, hn⟩ := solvent.aimed i check h
        exact ⟨cell, Rows.append_of_found hf, hn⟩
    · intro i check cell h busy hf
      rcases Rows.append_cases h with ⟨-, rfl⟩ | h
      · cases busy
      · obtain ⟨kept, there, -⟩ := solvent.aimed i check h
        have eq : some kept = some cell := (Rows.append_of_found there).symm.trans hf
        cases eq
        exact solvent.held i check cell h busy there
    · intro other window
      have total := solvent.covered other window
      simp only [worth, hang, Rows.total_append] at total ⊢
      have idle : Check.worth quota other window ⟨key, nowMs, f.cells.length, .queued, false⟩ = 0 := ite_self 0
      have empty : Cell.worth other window ⟨key, ⟨quota.window nowMs, 0, false⟩, none⟩ = 0 := by
        simp [Cell.worth, Lease.tokens]
      omega

theorem Solvent.locked (h : f.checks[i]? = some check) (hf : f.cells[check.cell]? = some cell)
    (hw : check.phase = .queued) (free : cell.holder = none) : (f.lock quota i check cell).Solvent quota := by
  have mine : ∀ j, cell.holder = some j → j = i := by
    intro j ht
    rw [free] at ht
    cases ht
  have here := cell.lease.serve_tokens quota check.nowMs
  have elsewhere := cell.lease.serve_tokens_le quota check.nowMs
  have window := cell.lease.serve_window quota check.nowMs
  unfold lock
  revert here elsewhere window
  generalize cell.lease.serve quota check.nowMs = hv
  obtain ⟨_, decision⟩ := hv
  intro here elsewhere window
  cases decision with
  | none =>
    apply solvent.put h hf mine
    · intro _
      exact ⟨rfl, window⟩
    · rw [hw]
      exact here
    · intro other _
      exact elsewhere other
  | some decision =>
    apply solvent.put h hf mine
    · intro busy
      cases busy
    · rw [hw]
      cases decision with
      | allow | throttle => exact here
    · intro other _
      exact elsewhere other

theorem Solvent.released (h : f.checks[i]? = some check) (hf : f.cells[check.cell]? = some cell)
    (hp : check.phase.holds = true) (ends : phase.holds = false) (hw : phase.worth = 0) :
    (f.release i check cell phase).Solvent quota := by
  have holder := (solvent.held i check cell h hp hf).1
  apply solvent.put h hf
  · intro j ht
    rw [holder] at ht
    exact (some.inj ht).symm
  · intro busy
    rw [ends] at busy
    cases busy
  · rw [hw]
    exact Nat.le_add_right ..
  · intro other _
    exact Nat.le_refl _

theorem Solvent.replied (h : f.checks[i]? = some check) (hf : f.cells[check.cell]? = some cell)
    (ha : check.phase = .granted tokens) : (f.reply quota i check cell tokens).Solvent quota := by
  have hp : check.phase.holds = true := by rw [ha]; rfl
  obtain ⟨holder, window⟩ := solvent.held i check cell h hp hf
  have mine : ∀ j, cell.holder = some j → j = i := by
    intro j ht
    rw [holder] at ht
    exact (some.inj ht).symm
  cases tokens with
  | zero =>
    apply solvent.put h hf mine
    · intro busy
      cases busy
    · exact Nat.le_add_right ..
    · intro other _
      exact Nat.le_refl _
  | succ =>
    apply solvent.put h hf mine
    · intro busy
      cases busy
    · -- The cell is at the check's window, so the rest of the grant is put where it belongs.
      simp only [Lease.tokens, window, if_true, ha, Phase.worth]
      omega
    · intro other ne
      simp only [Lease.tokens, window, Ne.symm ne, if_false]
      exact Nat.le_refl _

theorem Solvent.settled (h : f.checks[i]? = some check)
    (hn : name = windowKey check.key (quota.window check.nowMs)) {claimed : Option Counter × Nat}
    (had : Counter.current claimed.1 = Counter.current (f.store name) + claimed.2)
    (hw : Counter.current claimed.1 ≤ quota.budget) : (f.settle i check name claimed).Solvent quota := by
  refine ⟨solvent.placed, ?_, ?_, ?_, ?_⟩
  · intro j other now
    rcases Rows.set_cases now with ⟨-, rfl⟩ | ⟨-, now⟩
    · exact solvent.aimed i check h
    · exact solvent.aimed j other now
  · intro j other cell now busy hf
    rcases Rows.set_cases now with ⟨rfl, rfl⟩ | ⟨-, now⟩
    · rw [Phase.answered_holds] at busy
      exact solvent.held j check cell h busy hf
    · exact solvent.held j other cell now busy hf
  · intro key window
    have checks := Rows.total_set (Check.worth quota key window)
      { check with phase := check.phase.answered claimed.2, inFlight := false } h
    have total := solvent.covered key window
    have ha := check.phase.worth_answered_le claimed.2
    simp only [worth, settle, putCheck] at total ⊢
    by_cases mine : check.key = key ∧ quota.window check.nowMs = window
    · obtain ⟨rfl, rfl⟩ := mine
      subst hn
      simp only [Check.worth, and_self, if_true] at checks
      rw [update_self, had]
      omega
    have hg : Counter.current (f.store (windowKey key window)) ≤
        Counter.current (update f.store name claimed.1 (windowKey key window)) := by
      by_cases here : windowKey key window = name
      · subst here
        rw [update_self, had]
        exact Nat.le_add_right ..
      · exact Nat.le_of_eq (congrArg Counter.current (update_of_ne here _ _).symm)
    simp only [Check.worth, mine, if_false] at checks
    omega
  · intro other
    by_cases here : other = name
    · subst here
      simp only [settle, update_self]
      exact hw
    · simp only [settle, update_of_ne here]
      exact solvent.within other

theorem Solvent.executed (h : f.checks[i]? = some check) : (f.execute quota i check).Solvent quota := by
  have hc := claimScript_spec (f.store (windowKey check.key (quota.window check.nowMs))) quota.budget quota.want
    quota.ttlMs (solvent.within _)
  exact solvent.settled h rfl hc.1 hc.2

theorem Solvent.gaveUp (h : f.checks[i]? = some check) :
    (f.putCheck i { check with phase := .dropped }).Solvent quota := by
  refine ⟨solvent.placed, ?_, ?_, ?_, solvent.within⟩
  · intro j other now
    rcases Rows.set_cases now with ⟨-, rfl⟩ | ⟨-, now⟩
    · exact solvent.aimed i check h
    · exact solvent.aimed j other now
  · intro j other cell now busy hf
    rcases Rows.set_cases now with ⟨-, rfl⟩ | ⟨-, now⟩
    · cases busy
    · exact solvent.held j other cell now busy hf
  intro key window
  have checks := Rows.total_set (Check.worth quota key window) { check with phase := .dropped } h
  have idle : Check.worth quota key window { check with phase := .dropped } = 0 := ite_self 0
  have total := solvent.covered key window
  simp only [worth, putCheck] at total ⊢
  omega

theorem Solvent.pruned [DecidableEq ρ] (replica : ρ) (key : String) (nowMs leaseMs : Nat) :
    (f.prune replica key nowMs leaseMs).Solvent quota := by
  have gone : (f.hang replica key none).Solvent quota := by
    refine { solvent with placed := ?_ }
    intro other name c placed
    rcases hang_cases placed with ⟨-, new⟩ | old
    · cases new
    · exact solvent.placed other name c old
  unfold prune
  split
  · split
    · exact solvent
    · split
      · exact solvent
      · exact gone
  · exact solvent

theorem step_solvent [DecidableEq ρ] (hs : f.step quota label = some next) : next.Solvent quota := by
  cases label with
  | enter replica key nowMs =>
    cases hs
    exact solvent.entered replica key nowMs
  | lock _ =>
    simp only [step, bind_eq_bind, bind_eq_some_iff] at hs
    obtain ⟨check, h, cell, hf, hs⟩ := hs
    split at hs
    · rename_i waits free
      cases hs
      exact solvent.locked h hf waits free
    · cases hs
  | execute _ =>
    simp only [step, bind_eq_bind, bind_eq_some_iff] at hs
    obtain ⟨check, h, hs⟩ := hs
    obtain ⟨sent, ⟨⟩⟩ := ite_none_right_eq_some.mp hs
    exact solvent.executed h
  | reply _ =>
    simp only [step, bind_eq_bind, bind_eq_some_iff] at hs
    obtain ⟨check, h, cell, hf, hs⟩ := hs
    split at hs
    · rename_i tokens ha
      cases hs
      exact solvent.replied h hf ha
    · cases hs
  | fail _ error =>
    simp only [step, bind_eq_bind, bind_eq_some_iff] at hs
    obtain ⟨check, h, cell, hf, hs⟩ := hs
    obtain ⟨hp, ⟨⟩⟩ := ite_none_right_eq_some.mp hs
    exact solvent.released h hf hp rfl rfl
  | drop _ =>
    simp only [step, bind_eq_bind, bind_eq_some_iff] at hs
    obtain ⟨_, h, _, hf, hs⟩ := hs
    split at hs
    · rename_i waits
      cases hs
      exact solvent.gaveUp h
    · rename_i claims
      cases hs
      exact solvent.released h hf (by rw [claims]; rfl) rfl rfl
    · rename_i tokens ha
      cases hs
      exact solvent.released h hf (by rw [ha]; rfl) rfl rfl
    · cases hs
    · cases hs
  | prune replica key nowMs leaseMs =>
    cases hs
    exact solvent.pruned replica key nowMs leaseMs

end

/-- However many replicas take part and however their checks and prunings interleave, a key's
requests are let through no more often in a window than its budget says. -/
theorem allows_within_budget [DecidableEq ρ] (quota : Quota) {labels : List (Label ρ)} {f : Fleet ρ}
    (ran : (machine quota).run start labels = some f) (key : String) (window : Nat) :
    f.allows quota key window ≤ windowBudget quota.rps (max quota.leaseMs 1) := by
  have reached : (machine quota).Reachable f := ⟨start, labels, rfl, ran⟩
  have solvent : f.Solvent quota := by
    apply reached.invariant (fun f => f.Solvent quota)
    · intro f begins
      cases begins
      exact solvent_start quota
    · intro f label next solvent stepped
      exact step_solvent solvent stepped
  calc f.allows quota key window ≤ f.worth quota key window := allows_le_worth quota f key window
    _ ≤ Counter.current (f.store (windowKey key window)) := solvent.covered key window
    _ ≤ quota.budget := solvent.within (windowKey key window)

/-- Two replicas share two requests a second; the third request finds the budget spent. -/
def shared : List (Label Bool) :=
  [.enter true "k" 10, .lock 0, .execute 0, .enter false "k" 20, .lock 1, .reply 0,
    .enter true "k" 30, .lock 2, .prune false "k" 2000 1000, .execute 1, .reply 1]

theorem shared_within_budget :
    ∃ f, (machine ⟨2, 2, 1000⟩).run start shared = some f ∧ f.allows ⟨2, 2, 1000⟩ "k" 0 = 2 ∧
      f.allows ⟨2, 2, 1000⟩ "k" 0 ≤ windowBudget 2 1000 := by
  obtain ⟨f, ran, both⟩ : ∃ f, (machine ⟨2, 2, 1000⟩).run start shared = some f ∧
      f.allows ⟨2, 2, 1000⟩ "k" 0 = 2 := by decide +kernel
  exact ⟨f, ran, both, allows_within_budget ⟨2, 2, 1000⟩ ran "k" 0⟩

end Fleet
end CorePlatform.Traffic
