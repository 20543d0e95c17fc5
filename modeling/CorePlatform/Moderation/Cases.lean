import CorePlatform.Theory.Conformance
import CorePlatform.Moderation.Requests

/-! # Cases under concurrent commands

A case is loaded, changed and saved in separate calls, and the save looks at no version: it writes
over whatever came in between. Every change raises the version by one. A save that finds the version
its handler loaded is therefore a change of the stored case, and nothing is lost. -/

namespace CorePlatform.Moderation

open Theory Option
open Auth (Uuid)

/-- The case that was asked for last, and what was found. -/
def loaded : Answers → Option (CaseId × Option Case)
  | [] => none
  | ⟨.findCase id, .ok found⟩ :: _ => some (id, found)
  | _ :: rest => loaded rest

/-- What an ingestion is to add, and to which case. -/
def Timed.submission (setup : Setup) : Timed → Option (CaseId × Except ModerationError Signal)
  | ⟨.ingestReport cmd _, now⟩ => some (setup.caseId cmd.subject, reportSignal cmd.category now)
  | ⟨.ingestSignal cmd _, now⟩ =>
    some (setup.caseId cmd.subject, Signal.new cmd.source cmd.category cmd.confidence now)
  | _ => none

/-- What is saved is a change of the case that was loaded, or a new one. -/
def Drafted (answers : Answers) (case : Case) : Prop :=
  match loaded answers with
  | some (_, some found) => found.Revises case
  | some (id, none) => case.id = id
  | none => False

/-- An ingestion saves what it loaded with its signal at the end. -/
def Extends (answers : Answers) (caseId : CaseId) (result : Except ModerationError Signal) (case : Case) : Prop :=
  ∃ found signal, loaded answers = some (caseId, found) ∧ result = .ok signal ∧
    case.signals = found.elim [] Case.signals ++ [signal]

def Asks (submission : Option (CaseId × Except ModerationError Signal)) (answers : Answers) : Op → Prop
  | .saveCase case =>
    Drafted answers case ∧ ∀ caseId result, submission = some (caseId, result) → Extends answers caseId result case
  | _ => True

/-- An ingestion that returns has saved a case, or has found a resolved one. -/
def Ends (submission : Option (CaseId × Except ModerationError Signal)) (answers : Answers) : Prop :=
  submission.isSome → (∃ case, ⟨.saveCase case, .ok ()⟩ ∈ answers) ∨
    ∃ id found, ⟨.findCase id, .ok (some found)⟩ ∈ answers ∧ found.status.isResolved = true

def Op.aboutCase : Op → Bool
  | .findCase _ | .saveCase _ => true
  | _ => false

/-- The program neither loads nor saves a case. -/
abbrev Quiet {α : Type} (program : Calling α) : Prop := Within (fun op => op.aboutCase = false) program

theorem quiet_of_aside (op : Op) (aside : op.aside = true) : op.aboutCase = false := by
  cases op <;> first | rfl | cases aside

theorem Aside.quiet {α : Type} {program : Calling α} (ha : Aside program) : Quiet program := ha.mono quiet_of_aside

theorem quiet_enforceUnlessDismissed :
    Quiet (enforceUnlessDismissed setup decision category correlationId enforcementId now) := by
  unfold enforceUnlessDismissed enforce strike
  split
  · refine .bind (.perform rfl fun ver => .lift fun enf => .perform rfl fun _ => ?_) fun _ => trivial
    exact .bind aside_flagActor.quiet fun _ =>
      .bind (.perform rfl fun _ => .op rfl) fun _ => .bind aside_publishAll.quiet fun _ => trivial
  · trivial

theorem quiet_screen : Quiet (screen setup cmd correlationId decisionId enforcementId now) := by
  refine .perform rfl fun hit => ?_
  cases hit with
  | none => trivial
  | some =>
    refine .lift fun decision => .bind aside_appendDecision.quiet fun _ => ?_
    refine .perform rfl fun ver => .lift fun enf => .perform rfl fun _ => ?_
    refine .bind aside_publishAll.quiet fun _ => .bind ?_ fun _ => trivial
    exact .perform rfl fun ledger => .bind (aside_flagOffender setup).quiet fun _ => .op rfl

section

variable {α β : Type} {ends : Answers → α → Prop}

theorem asks_quiet (hq : op.aboutCase = false) : Asks submission answers op := by
  cases op with
  | saveCase => cases hq
  | _ => trivial

theorem loaded_quiet (hq : op.aboutCase = false) : loaded (⟨op, ans⟩ :: answers) = loaded answers := by
  cases op with
  | findCase => cases hq
  | _ => rfl

theorem Quiet.conforms (hq : Quiet first)
    (ho : ∀ later value, loaded later = loaded answers → answers ⊆ later →
      (f value).Conforms (Asks submission) ends later) : (first >>= f).Conforms (Asks submission) ends answers := by
  have halfway : first.Conforms (Asks submission)
      (fun later _ => loaded later = loaded answers ∧ answers ⊆ later) answers := by
    refine .of_passes hq (fun later => loaded later = loaded answers ∧ answers ⊆ later) ?_ ?_ ?_ ?_
    · intro later op _ hq
      exact asks_quiet hq
    · intro later op reply good hq
      exact ⟨(loaded_quiet hq).trans good.1, List.subset_cons_of_subset _ good.2⟩
    · intro later value good
      exact good
    · exact ⟨rfl, List.Subset.refl _⟩
  exact halfway.bind fun later value good => ho later value good.1 good.2

theorem asks_save (hd : Drafted answers case) : Asks none answers (.saveCase case) := by
  refine ⟨hd, ?_⟩
  intro caseId res none
  cases none

theorem drafted_of_loaded {id : CaseId} {found : Case} (hk : loaded answers = some (id, some found))
    (hr : found.Revises case) : Drafted answers case := by
  unfold Drafted
  rw [hk]
  exact hr

theorem openCase_conforms : (openCase setup cmd correlationId now).Conforms (Asks none) (fun _ _ => True) [] := by
  apply Program.Conforms.perform trivial
  intro stored
  cases stored with
  | some => trivial
  | none => exact .perform (asks_save rfl) fun _ => aside_publishAll.quiet.conforms fun _ _ _ _ => trivial

theorem assignCase_conforms : (assignCase cmd).Conforms (Asks none) (fun _ _ => True) [] := by
  refine .perform trivial fun stored => .lift fun case got => .lift fun hc assigned => ?_
  cases found_ok got
  exact .perform (asks_save (drafted_of_loaded rfl (Case.assign_revises assigned))) fun _ => trivial

theorem decideCase_conforms :
    (decideCase setup cmd correlationId decisionId enforcementId now).Conforms (Asks none) (fun _ _ => True) [] := by
  refine .perform trivial fun stored => .lift fun case got => .lift fun _ _ => ?_
  cases found_ok got
  refine aside_checkActor.quiet.conforms fun _ _ checked _ => .lift fun decision _ => ?_
  refine aside_appendDecision.quiet.conforms fun _ _ appended _ => ?_
  refine quiet_enforceUnlessDismissed.conforms fun _ _ enforced _ => .lift fun hc resolved => ?_
  have hk := enforced.trans (appended.trans checked)
  have drafted := drafted_of_loaded hk (Case.resolve_revises resolved)
  exact .perform (asks_save drafted) fun _ => aside_publishAll.quiet.conforms fun _ _ _ _ => trivial

theorem changeCase_conforms (hr : ∀ case changed, change case = .ok changed → case.Revises changed) :
    (changeCase caseId change).Conforms (Asks none) (fun _ _ => True) answers := by
  apply Program.Conforms.perform trivial
  intro stored
  cases stored with
  | none => trivial
  | some case =>
    apply Program.Conforms.lift
    intro changed made
    refine ⟨asks_save (drafted_of_loaded rfl (hr case changed made)), fun ans => ?_⟩
    cases ans <;> trivial

theorem fileAppeal_conforms : (fileAppeal setup cmd appealId now).Conforms (Asks none) (fun _ _ => True) [] := by
  refine .perform trivial fun stored => .lift fun decision _ => .lift fun _ _ => .lift fun appeal _ => ?_
  refine .perform trivial fun _ => ?_
  exact (changeCase_conforms fun _ _ made => Case.markAppealed_revises made).bind fun _ _ _ => trivial

theorem resolveAppeal_conforms :
    (resolveAppeal setup cmd correlationId reversalId now).Conforms (Asks none) (fun _ _ => True) [] := by
  refine .perform trivial fun _ => .lift fun _ _ => .perform trivial fun _ => .lift fun orig _ => ?_
  refine .lift fun appeal _ => .perform trivial fun _ => ?_
  refine Quiet.conforms (within_reverseIfOverturned quiet_of_aside fun _ => rfl) fun _ reversal _ _ => ?_
  exact (changeCase_conforms fun _ _ made => Case.closeAppeal_revises made).bind fun _ _ _ =>
    aside_publishAll.quiet.conforms fun _ _ _ _ => trivial

theorem Ends.mono (he : Ends submission answers) (kept : answers ⊆ later) : Ends submission later := by
  intro ingests
  cases he ingests with
  | inl hv =>
    obtain ⟨case, mem⟩ := hv
    exact .inl ⟨case, kept mem⟩
  | inr resolved =>
    obtain ⟨id, hf, mem, settled⟩ := resolved
    exact .inr ⟨id, hf, kept mem, settled⟩

theorem Quiet.concludes (hq : Quiet program) (he : Ends submission answers) :
    program.Conforms (Asks submission) (fun later _ => Ends submission later) answers := by
  refine .of_passes hq (fun later => answers ⊆ later) ?_ ?_ ?_ (List.Subset.refl _)
  · intro later op _ hq
    exact asks_quiet hq
  · intro later op reply kept _
    exact List.subset_cons_of_subset _ kept
  · intro later value kept
    exact he.mono kept

theorem recordSignal_conforms (stored : Option Case) (opened : Case)
    (hfr : opened.id = caseId ∧ opened.status = .open_ ∧ opened.signals = []) (hq : ∀ value, Quiet (rest value)) :
    (recordSignal (stored.getD opened) signal >>= rest).Conforms (Asks (some (caseId, .ok signal)))
      (fun later _ => Ends (some (caseId, .ok signal)) later) (⟨.findCase caseId, .ok stored⟩ :: answers) := by
  unfold recordSignal
  split
  · rename_i changed added
    have drafted : Drafted (⟨.findCase caseId, .ok stored⟩ :: answers) changed := by
      cases stored with
      | some => exact Case.addSignal_revises added
      | none => exact (Case.addSignal_revises added).id.trans hfr.1
    have signals : changed.signals = stored.elim [] Case.signals ++ [signal] := by
      obtain ⟨-, rfl⟩ := Case.addSignal_ok added
      cases stored with
      | some => rfl
      | none => exact congrArg (· ++ [signal]) hfr.2.2
    rw [Program.bind_assoc]
    refine .perform ⟨drafted, ?_⟩ fun _ => ?_
    · intro id res submitted
      cases submitted
      exact ⟨stored, signal, rfl, rfl, signals⟩
    apply aside_publishAll.quiet.conforms
    intro later value _ kept
    apply Quiet.concludes (hq value)
    intro _
    exact .inl ⟨changed, kept (.head _)⟩
  · rename_i e refused
    have resolved := Case.addSignal_error refused
    apply Quiet.concludes (hq ())
    intro _
    cases stored with
    | some found => exact .inr ⟨caseId, found, .head _, resolved⟩
    | none =>
      rw [show (none : Option Case).getD opened = opened from rfl, hfr.2.1] at resolved
      cases resolved

theorem ingest_conforms {rest : Case → Calling α} (hq : ∀ case, Quiet (rest case)) :
    (openOrLoad setup subject cat corr now >>= fun case =>
      liftM res >>= fun signal => recordSignal case signal >>= fun _ => rest case).Conforms
      (Asks (some (setup.caseId subject, res))) (fun later _ => Ends (some (setup.caseId subject, res)) later)
      answers := by
  let ho := Case.new (setup.caseId subject) ⟨subject, cat, "default", "normal", now, corr⟩
  unfold openOrLoad
  rw [Program.bind_assoc]
  refine .perform trivial fun stored => ?_
  cases stored with
  | some found =>
    apply Program.Conforms.lift
    rintro signal rfl
    exact recordSignal_conforms (some found) ho ⟨rfl, rfl, rfl⟩ fun _ => hq found
  | none =>
    apply Program.Conforms.lift
    rintro signal rfl
    exact recordSignal_conforms none ho ⟨rfl, rfl, rfl⟩ fun _ => hq ho

theorem program_conforms (timed : Timed) :
    (timed.request.program setup timed.now).Conforms (Asks (timed.submission setup))
      (fun later _ => Ends (timed.submission setup) later) [] := by
  obtain ⟨req, now⟩ := timed
  have idle : ∀ later, Ends none later := fun later ingests => by cases ingests
  cases req with
  | openCase => exact openCase_conforms.bind fun _ _ _ => idle _
  | assignCase => exact assignCase_conforms.bind fun _ _ _ => idle _
  | decideCase => exact decideCase_conforms.bind fun _ _ _ => idle _
  | fileAppeal => exact fileAppeal_conforms.bind fun _ _ _ => idle _
  | resolveAppeal => exact resolveAppeal_conforms.bind fun _ _ _ => idle _
  | ingestReport cmd corr =>
    have conforms : (ingestReport setup cmd corr now).Conforms
        (Asks (some (setup.caseId cmd.subject, reportSignal cmd.category now)))
        (fun later _ => Ends (some (setup.caseId cmd.subject, reportSignal cmd.category now)) later) [] :=
      .lift fun _ _ => ingest_conforms fun _ => .perform rfl fun _ => trivial
    exact conforms.bind fun _ _ he => he
  | ingestSignal cmd corr =>
    have conforms : (ingestSignal setup cmd corr now).Conforms
        (Asks (some (setup.caseId cmd.subject, Signal.new cmd.source cmd.category cmd.confidence now)))
        (fun later _ => Ends (some (setup.caseId cmd.subject,
          Signal.new cmd.source cmd.category cmd.confidence now)) later) [] :=
      ingest_conforms fun _ => trivial
    exact conforms.bind fun _ _ he => he
  | screen =>
    exact quiet_screen.conforms fun _ _ _ _ => idle _

end

/-- A save finds the version that was loaded, and an ingestion does not find a resolved case. -/
def undisturbed (setup : Setup) (timed : Timed) (answers : Answers) (w : World) : Op → Bool
  | .saveCase case =>
    decide ((w.cases case.id).map Case.version = (loaded answers).bind fun found => found.2.map Case.version)
  | .findCase id => (timed.submission setup).isNone || (w.cases id).all fun row => ! row.status.isResolved
  | _ => true

/-- The calls that are carried out are undisturbed. -/
def locked (setup : Setup) (pool : Traffic) : Move Timed Happening → Bool
  | .advance id service =>
    match pool.calls id with
    | some ⟨timed, .call op _, answers⟩ => ! service.reaches || undisturbed setup timed answers pool.world op
    | _ => true
  | _ => true

/-- Every case that is stored stays or is revised. -/
def World.Advances (w w' : World) : Prop :=
  ∀ id row, w.cases id = some row → ∃ row', w'.cases id = some row' ∧ (row' = row ∨ row.Revises row')

/-- Cases stand under their own keys. -/
def World.Filed (w : World) : Prop := ∀ id row, w.cases id = some row → row.id = id

variable {w w' : World}

theorem World.Advances.of_same (eq : w'.cases = w.cases) : w.Advances w' := by
  intro id row h
  exact ⟨row, by rw [eq, h], .inl rfl⟩

/-- What an answer about a case says, for as long as no save is disturbed. -/
def Fact (setup : Setup) (timed : Timed) (w : World) : Answer → Prop
  | ⟨.findCase id, .ok (some found)⟩ =>
    found.id = id ∧ (∃ row, w.cases id = some row ∧ Reading Case.version found row.reconstitute) ∧
      ((timed.submission setup).isSome → found.status.isResolved = false)
  | ⟨.saveCase case, .ok _⟩ =>
    (∃ row, w.cases case.id = some row ∧ case.signals <+: row.signals) ∧
      ∀ caseId result, timed.submission setup = some (caseId, result) →
        case.id = caseId ∧ ∃ before signal, result = .ok signal ∧ case.signals = before ++ [signal]
  | _ => True

theorem Fact.advances (fact : Fact setup timed w entry) (ha : w.Advances w') : Fact setup timed w' entry := by
  unfold Fact at fact ⊢
  split
  · obtain ⟨keyed, ⟨row, h, reading⟩, unresolved⟩ := fact
    obtain ⟨row', held', change⟩ := ha _ _ h
    refine ⟨keyed, ⟨row', held', ?_⟩, unresolved⟩
    cases change with
    | inl eq => rwa [eq]
    | inr revises =>
      apply reading.newer
      show row.version < row'.version
      have raised := revises.version
      omega
  · obtain ⟨⟨_, h, kept⟩, added⟩ := fact
    obtain ⟨row', held', change⟩ := ha _ _ h
    refine ⟨⟨row', held', ?_⟩, added⟩
    cases change with
    | inl eq => rwa [eq]
    | inr revises => exact kept.trans revises.signals
  · trivial

/-- Two ingestions that saved the same case have put their signals in different places. -/
def Apart (setup : Setup) (pool : Traffic) : Prop :=
  ∀ {i j first second a b}, i ≠ j → pool.calls i = some first → pool.calls j = some second →
    (first.request.submission setup).isSome → (second.request.submission setup).isSome →
    ⟨.saveCase a, .ok ()⟩ ∈ first.heard → ⟨.saveCase b, .ok ()⟩ ∈ second.heard → a.id = b.id →
    a.signals.length ≠ b.signals.length

structure Kept (setup : Setup) (pool : Traffic) : Prop where
  filed : pool.world.Filed
  conforming : pool.Conforming (fun timed => Asks (timed.submission setup))
    (fun timed answers _ => Ends (timed.submission setup) answers)
  attested : pool.Attested (Fact setup)
  apart : Apart setup pool

theorem mem_of_loaded {id : CaseId} {found : Option Case} (hk : loaded answers = some (id, found)) :
    ⟨.findCase id, .ok found⟩ ∈ answers := by
  fun_induction loaded answers with
  | case1 => cases hk
  | case2 =>
    cases hk
    exact .head _
  | case3 _ _ _ ih => exact .tail _ (ih hk)

section

variable {id : Nat} {case : Case} {answers : Answers} {op : Op} {rest : Except ModerationError op.Reply → Calling Outcome}

/-- What an undisturbed save replaces. -/
inductive Replaces (answers : Answers) (case : Case) : Option Case → Prop where
  | nothing (known : loaded answers = some (case.id, none)) : Replaces answers case none
  | row (known : loaded answers = some (case.id, some row.reconstitute)) (revises : row.Revises (case.written row)) :
    Replaces answers case (some row)

theorem Kept.replaces (kept : Kept setup pool)
    (hw : pool.calls id = some ⟨timed, .call (.saveCase case) next, answers⟩)
    (hf : undisturbed setup timed answers pool.world (.saveCase case) = true) :
    Replaces answers case (pool.world.cases case.id) := by
  have drafted : Drafted answers case := (kept.conforming _ _ hw).1.1
  have eq := of_decide_eq_true hf
  unfold Drafted at drafted
  split at drafted
  · rename_i key before hk
    rw [hk] at eq
    obtain ⟨row, h, ver⟩ := map_eq_some_iff.mp eq
    have fact : Fact setup timed pool.world ⟨.findCase key, .ok (some before)⟩ :=
      kept.attested _ _ hw _ (mem_of_loaded hk)
    obtain ⟨keyed, ⟨_, held', reading⟩, -⟩ := fact
    have here : case.id = key := drafted.id.trans keyed
    subst here
    cases h.symm.trans held'
    have current : row.reconstitute = before := reading.same ver.symm
    subst current
    rw [h]
    exact .row hk ⟨rfl, drafted.status, drafted.signals, drafted.version⟩
  · rename_i key hk
    rw [hk] at eq
    subst drafted
    rw [map_eq_none_iff.mp eq]
    exact .nothing hk
  · exact drafted.elim

theorem Kept.saves (kept : Kept setup pool)
    (hw : pool.calls id = some ⟨timed, .call (.saveCase case) next, answers⟩)
    (hf : undisturbed setup timed answers pool.world (.saveCase case) = true)
    (hs : timed.submission setup = some (caseId, res)) :
    case.id = caseId ∧ ∃ signal, res = .ok signal ∧
      case.signals = (pool.world.cases case.id).elim [] Case.signals ++ [signal] := by
  obtain ⟨_, signal, hk, signed, signals⟩ := (kept.conforming _ _ hw).1.2 caseId res hs
  have replaces := kept.replaces hw hf
  generalize pool.world.cases case.id = h at replaces ⊢
  cases replaces with
  | nothing known' | row known' =>
    cases hk.symm.trans known'
    exact ⟨rfl, signal, signed, signals⟩

theorem saveCase_self (case : Case) :
    ∃ row, (w.saveCase case).cases case.id = some row ∧ row.signals = case.signals := by
  refine ⟨_, Function.update_self .., ?_⟩
  cases w.cases case.id <;> rfl

theorem Kept.saveCase_advances (kept : Kept setup pool)
    (hw : pool.calls id = some ⟨timed, .call (.saveCase case) next, answers⟩)
    (hf : undisturbed setup timed answers pool.world (.saveCase case) = true) :
    pool.world.Advances (pool.world.saveCase case) := by
  intro key row h
  by_cases here : key = case.id
  · subst here
    have replaces := kept.replaces hw hf
    rw [h] at replaces
    cases replaces with
    | row _ revises =>
      refine ⟨case.written row, ?_, .inr revises⟩
      simp [World.saveCase, h]
  · exact ⟨row, (Function.update_of_ne here ..).trans h, .inl rfl⟩

theorem World.Filed.saveCase (filed : w.Filed) : (w.saveCase case).Filed := by
  intro id row h
  cases update_cases h with
  | inl new =>
    obtain ⟨rfl, made⟩ := new
    cases stored : w.cases case.id with
    | none =>
      rw [stored] at made
      cases made
      rfl
    | some =>
      rw [stored] at made
      cases made
      have hn := filed _ _ stored
      exact hn
  | inr old => exact filed _ _ old.2

theorem Kept.serves (kept : Kept setup pool)
    (hw : pool.calls id = some ⟨timed, .call op rest, answers⟩)
    (hf : undisturbed setup timed answers pool.world op = true) :
    pool.world.Advances (pool.world.serve op).1 ∧ (pool.world.serve op).1.Filed ∧
      Fact setup timed (pool.world.serve op).1 ⟨op, (pool.world.serve op).2⟩ := by
  cases op with
  | saveCase case =>
    obtain ⟨row, h, signals⟩ := saveCase_self case
    have shown : case.signals <+: row.signals := signals ▸ List.prefix_refl row.signals
    refine ⟨kept.saveCase_advances hw hf, kept.filed.saveCase, ⟨row, h, shown⟩, ?_⟩
    intro caseId res submits
    obtain ⟨here, signal, signed, added⟩ := kept.saves hw hf submits
    exact ⟨here, _, signal, signed, added⟩
  | findCase key =>
    refine ⟨.of_same rfl, kept.filed, ?_⟩
    show Fact setup timed pool.world ⟨.findCase key, .ok ((pool.world.cases key).map Case.reconstitute)⟩
    cases h : pool.world.cases key with
    | none => trivial
    | some row =>
      simp only [undisturbed, h, all_some, Bool.or_eq_true, isNone_iff_eq_none, Bool.not_eq_true'] at hf
      have hn : row.reconstitute.id = key := kept.filed key row h
      refine ⟨hn, ⟨row, h, .refl _ _⟩, ?_⟩
      intro ingests
      cases hf with
      | inl none =>
        rw [none] at ingests
        cases ingests
      | inr unresolved => exact unresolved
  | _ => exact ⟨.of_same rfl, kept.filed, trivial⟩

theorem fact_error : Fact setup timed w ⟨op, .error e⟩ := by
  cases op <;> trivial

theorem Kept.performs (kept : Kept setup pool)
    (hw : pool.calls id = some ⟨timed, .call op rest, answers⟩)
    (fits : locked setup pool (.advance id svc) = true) :
    pool.world.Advances (server.perform pool.world op svc).1 ∧ (server.perform pool.world op svc).1.Filed ∧
      Fact setup timed (server.perform pool.world op svc).1 ⟨op, (server.perform pool.world op svc).2⟩ := by
  simp only [locked, hw] at fits
  cases svc with
  | served => exact kept.serves hw fits
  | refused => exact ⟨.of_same rfl, kept.filed, fact_error⟩
  | replyLost =>
    obtain ⟨advances, filed, -⟩ := kept.serves hw fits
    exact ⟨advances, filed, fact_error⟩

theorem answered_save (ha : (⟨op, (server.perform w op svc).2⟩ : Answer) =
      ⟨.saveCase case, .ok ()⟩) : op = .saveCase case ∧ svc = .served := by
  have eq : op = .saveCase case := congrArg Sigma.fst ha
  subst eq
  have ans := eq_of_heq (Sigma.mk.inj ha).2
  cases svc with
  | served => exact ⟨rfl, rfl⟩
  | refused | replyLost => cases ans

theorem Kept.place_new (kept : Kept setup pool)
    (hw : pool.calls id = some ⟨timed, .call op rest, answers⟩)
    (fits : locked setup pool (.advance id service) = true) (h : pool.calls j = some other)
    (submits : (timed.submission setup).isSome) (hv : (⟨.saveCase a, .ok ()⟩ : Answer) =
      ⟨op, (server.perform pool.world op service).2⟩) (he : ⟨.saveCase b, .ok ()⟩ ∈ other.heard)
    (eq : a.id = b.id) : b.signals.length < a.signals.length := by
  obtain ⟨rfl, rfl⟩ := answered_save hv.symm
  simp only [locked, hw] at fits
  obtain ⟨⟨_, _⟩, submitted⟩ := isSome_iff_exists.mp submits
  obtain ⟨-, _, -, signals⟩ := kept.saves hw fits submitted
  have fact : Fact setup other.request pool.world ⟨.saveCase b, .ok ()⟩ := kept.attested _ _ h _ he
  obtain ⟨⟨_, stored, hb⟩, -⟩ := fact
  rw [eq, stored] at signals
  have shorter := hb.length_le
  rw [signals]
  simp only [elim_some, List.length_append, List.length_singleton]
  omega

theorem Kept.apart_step (kept : Kept setup pool) (fits : locked setup pool move = true)
    (hs : (host setup).Steps pool move next) : Apart setup next := by
  cases hs with
  | begun =>
    intro i j first second a b ne heldFirst heldSecond ingests ingests' hv saved' eq
    cases update_cases heldFirst with
    | inl new =>
      cases new.2
      cases hv
    | inr old =>
      cases update_cases heldSecond with
      | inl new =>
        cases new.2
        cases saved'
      | inr old' => exact kept.apart ne old.2 old'.2 ingests ingests' hv saved' eq
  | advanced _ waiting =>
    intro i j first second a b ne heldFirst heldSecond ingests ingests' hv saved' eq
    cases update_cases heldFirst with
    | inl new =>
      obtain ⟨rfl, made⟩ := new
      cases made
      have other : pool.calls j = some second := (Function.update_of_ne (Ne.symm ne) ..).symm.trans heldSecond
      cases List.mem_cons.mp hv with
      | inl head => exact Nat.ne_of_gt (kept.place_new waiting fits other ingests head saved' eq)
      | inr tail => exact kept.apart ne waiting other ingests ingests' tail saved' eq
    | inr old =>
      cases update_cases heldSecond with
      | inl new =>
        obtain ⟨rfl, made⟩ := new
        cases made
        cases List.mem_cons.mp saved' with
        | inl head => exact Nat.ne_of_lt (kept.place_new waiting fits old.2 ingests' head hv eq.symm)
        | inr tail => exact kept.apart ne old.2 waiting ingests ingests' hv tail eq
      | inr old' => exact kept.apart ne old.2 old'.2 ingests ingests' hv saved' eq
  | crashed =>
    intro i j first second a b ne heldFirst heldSecond
    exact kept.apart ne (of_update_none heldFirst) (of_update_none heldSecond)
  | elapsed => exact kept.apart

theorem happen_cases : (w.happen ev).cases = w.cases := by
  cases ev <;> rfl

theorem Kept.advances (kept : Kept setup pool) (fits : locked setup pool move = true)
    (hs : (host setup).Steps pool move next) : pool.world.Advances next.world ∧ next.world.Filed := by
  cases hs with
  | begun _ ha =>
    obtain ⟨-, rfl, -⟩ := host_accept ha
    exact ⟨.of_same rfl, kept.filed⟩
  | advanced service waiting => exact (kept.performs waiting fits).imp_right And.left
  | crashed => exact ⟨.of_same rfl, kept.filed⟩
  | elapsed hc =>
    cases hc
    refine ⟨.of_same happen_cases, ?_⟩
    rw [World.Filed, happen_cases]
    exact kept.filed

theorem Kept.step (kept : Kept setup pool) (fits : locked setup pool move = true)
    (hs : (host setup).Steps pool move next) : Kept setup next where
  filed := (kept.advances fits hs).2
  conforming := by
    apply kept.conforming.step hs
    intro id timed world prog _ ha
    obtain ⟨-, -, rfl⟩ := host_accept ha
    exact program_conforms timed
  attested := by
    have advances := (kept.advances fits hs).1
    apply kept.attested.step hs
    · intro req entry fact
      exact fact.advances advances
    · rintro id req op rest heard svc rfl hw
      exact (kept.performs hw fits).2.2
  apart := kept.apart_step fits hs

end

/-- The status of every stored case stays or takes a permitted step. -/
def World.StatusSteps (w w' : World) : Prop :=
  ∀ id row, w.cases id = some row → ∃ row', w'.cases id = some row' ∧
    (row'.status = row.status ∨ row.status.canTransitionTo row'.status = true)

theorem World.Advances.statusSteps (ha : w.Advances w') : w.StatusSteps w' := by
  intro id row h
  obtain ⟨row', held', change⟩ := ha id row h
  refine ⟨row', held', ?_⟩
  cases change with
  | inl same => exact .inl (congrArg Case.status same)
  | inr revises => exact revises.status

/-- The case was decided at some time. -/
def CaseStatus.isSettled : CaseStatus → Bool
  | .open_ | .triaged => false
  | _ => true

theorem CaseStatus.settled_of_resolved {status : CaseStatus} (hr : status.isResolved = true) :
    status.isSettled = true := by
  revert hr
  cases status <;> decide

theorem CaseStatus.settled_of_transition {before : CaseStatus} (hs : before.isSettled = true)
    (ha : before.canTransitionTo after = true) : after.isSettled = true := by
  revert hs ha
  cases before <;> cases after <;> decide

def World.Settled (w : World) (id : CaseId) : Prop := ∃ row, w.cases id = some row ∧ row.status.isSettled = true

theorem World.StatusSteps.settled (hs : w.StatusSteps w') (hse : w.Settled caseId) : w'.Settled caseId := by
  obtain ⟨row, h, hd⟩ := hse
  obtain ⟨row', held', change⟩ := hs caseId row h
  refine ⟨row', held', ?_⟩
  cases change with
  | inl eq => rwa [eq]
  | inr allowed => exact CaseStatus.settled_of_transition hd allowed

/-- The step takes every stored case through a permitted change of status, if any. -/
def Permitted (setup : Setup) (before : Traffic) (move : Move Timed Happening) : Prop :=
  ∀ after, (host setup).machine.step before move = some after → before.world.StatusSteps after.world

theorem settled_stays (hp : (host setup).machine.Meets (Permitted setup) passed moves)
    (ran : (host setup).machine.run passed moves = some pool) (hse : passed.world.Settled caseId) :
    pool.world.Settled caseId := by
  have stays : ∀ (s : Traffic) move next, s.world.Settled caseId → Permitted setup s move →
      (host setup).machine.step s move = some next → next.world.Settled caseId :=
    fun _ _ next hd step hs => (step next hs).settled hd
  exact Machine.run_keeps stays hse hp ran

/-- Where an ingestion has put its signal. -/
def place : Answers → Nat
  | [] => 0
  | ⟨.saveCase case, .ok _⟩ :: _ => case.signals.length - 1
  | _ :: rest => place rest

theorem place_of_saved (hv : ∃ case, ⟨.saveCase case, .ok ()⟩ ∈ answers) :
    ∃ case, ⟨.saveCase case, .ok ()⟩ ∈ answers ∧ place answers = case.signals.length - 1 := by
  fun_induction place answers with
  | case1 =>
    obtain ⟨case, mem⟩ := hv
    cases mem
  | case2 case => exact ⟨case, .head _, rfl⟩
  | case3 _ _ other ih =>
    obtain ⟨case, mem⟩ := hv
    cases List.mem_cons.mp mem with
    | inl head => exact absurd head.symm (other case ())
    | inr tail =>
      obtain ⟨case, mem, placed⟩ := ih ⟨case, tail⟩
      exact ⟨case, .tail _ mem, placed⟩

/-- The ingestion of a signal for the case has returned. -/
def Ingested (setup : Setup) (pool : Traffic) (id : Nat) (caseId : CaseId) (result : Except ModerationError Signal) :
    Prop :=
  ∃ call outcome, pool.calls id = some call ∧ call.returned = some outcome ∧
    call.request.submission setup = some (caseId, result)

section

variable {pool : Traffic} {id : Nat}

/-- The place in a pool. -/
def slot (pool : Traffic) (id : Nat) : Nat :=
  (pool.calls id).elim 0 fun call => place call.heard

theorem Kept.ingested (kept : Kept setup pool) (hi : Ingested setup pool id caseId res) :
    ∃ call case, pool.calls id = some call ∧ call.request.submission setup = some (caseId, res) ∧
      ⟨.saveCase case, .ok ()⟩ ∈ call.heard ∧ slot pool id = case.signals.length - 1 := by
  obtain ⟨call, _, h, hr, submits⟩ := hi
  have conforms := kept.conforming _ _ h
  rw [Call.returned_eq_some.mp hr] at conforms
  have he : Ends (call.request.submission setup) call.heard := conforms
  rw [submits] at he
  have hv : ∃ case, ⟨.saveCase case, .ok ()⟩ ∈ call.heard := by
    cases he rfl with
    | inl hv => exact hv
    | inr resolved =>
      obtain ⟨key, found, mem, settled⟩ := resolved
      have fact : Fact setup call.request pool.world ⟨.findCase key, .ok (some found)⟩ :=
        kept.attested _ _ h _ mem
      have unresolved := fact.2.2 (by rw [submits]; rfl)
      rw [settled] at unresolved
      cases unresolved
  obtain ⟨case, mem, placed⟩ := place_of_saved hv
  refine ⟨call, case, h, submits, mem, ?_⟩
  simp only [slot, h, elim_some, placed]

theorem Kept.recorded (kept : Kept setup pool) (hi : Ingested setup pool id caseId res) :
    ∃ signal row, res = .ok signal ∧ pool.world.cases caseId = some row ∧
      row.signals[slot pool id]? = some signal := by
  obtain ⟨call, case, h, submits, mem, placed⟩ := kept.ingested hi
  have fact : Fact setup call.request pool.world ⟨.saveCase case, .ok ()⟩ := kept.attested _ _ h _ mem
  obtain ⟨⟨row, stored, shown⟩, added⟩ := fact
  obtain ⟨rfl, _, signal, signed, signals⟩ := added caseId res submits
  obtain ⟨_, eq⟩ := shown
  refine ⟨signal, row, signed, stored, ?_⟩
  rw [placed, ← eq, signals]
  simp

theorem Kept.slots_apart (kept : Kept setup pool) (ne : i ≠ j) (hi : Ingested setup pool i caseId first)
    (ingested' : Ingested setup pool j caseId second) : slot pool i ≠ slot pool j := by
  obtain ⟨call, a, h, submits, mem, placed⟩ := kept.ingested hi
  obtain ⟨call', b, held', submits', member', placed'⟩ := kept.ingested ingested'
  have fact : Fact setup call.request pool.world ⟨.saveCase a, .ok ()⟩ := kept.attested _ _ h _ mem
  have fact' : Fact setup call'.request pool.world ⟨.saveCase b, .ok ()⟩ := kept.attested _ _ held' _ member'
  obtain ⟨here, _, _, -, signals⟩ := fact.2 _ _ submits
  obtain ⟨here', _, _, -, signals'⟩ := fact'.2 _ _ submits'
  have lengths := kept.apart ne h held' (by rw [submits]; rfl) (by rw [submits']; rfl) mem member'
    (here.trans here'.symm)
  rw [placed, placed', signals, signals']
  rw [signals, signals'] at lengths
  simpa using lengths

theorem kept_of_init (hb : (host setup).machine.init pool) : Kept setup pool := by
  have idle : ∀ id, pool.calls id = none := fun id => congrFun hb.2 id
  refine ⟨fun _ _ h => hb.1.cases_ h, ?_, ?_, ?_⟩
  · simp [Pool.Conforming, idle]
  · simp [Pool.Attested, idle]
  · simp [Apart, idle]

end

/-- Where saves are undisturbed, every ingestion that returned has its signal in the stored case, in
its own place; the status of a case only takes permitted steps; and a resolved case is never open or
triaged again. -/
theorem undisturbed_saves_keep (setup : Setup) (start pool : Traffic)
    (moves : List (Move Timed Happening)) (begins : (host setup).machine.init start)
    (undisturbed : (host setup).machine.Meets (fun pool move => locked setup pool move = true) start moves)
    (ran : (host setup).machine.run start moves = some pool) :
    (∃ slot : Nat → Nat,
      (∀ id caseId result, Ingested setup pool id caseId result →
        ∃ signal row, result = .ok signal ∧ pool.world.cases caseId = some row ∧
          row.signals[slot id]? = some signal) ∧
      ∀ i j caseId first second, i ≠ j → Ingested setup pool i caseId first → Ingested setup pool j caseId second →
        slot i ≠ slot j) ∧
    (host setup).machine.Meets (Permitted setup) start moves ∧
    ∀ earlier later passed, moves = earlier ++ later → (host setup).machine.run start earlier = some passed →
      ∀ id row, passed.world.cases id = some row → row.status.isResolved = true →
        ∃ row', pool.world.cases id = some row' ∧ row'.status ≠ .open_ ∧ row'.status ≠ .triaged := by
  have steps : ∀ s move next, Kept setup s → locked setup s move = true →
      (host setup).machine.step s move = some next → Kept setup next :=
    fun _ _ _ kept fits stepped => kept.step fits (Host.step_steps stepped)
  have kept : Kept setup pool := Machine.run_keeps steps (kept_of_init begins) undisturbed ran
  have permitted : (host setup).machine.Meets (Permitted setup) start moves := by
    refine Machine.meets_of_keeps (Kept setup) steps ?_ (kept_of_init begins) undisturbed
    intro s move kept fits next stepped
    exact (kept.advances fits (Host.step_steps stepped)).1.statusSteps
  refine ⟨⟨slot pool, fun id caseId result ingested => kept.recorded ingested,
    fun i j caseId first second differ ingested ingested' => kept.slots_apart differ ingested ingested'⟩, permitted, ?_⟩
  intro earlier later passed split reached id row held resolved
  rw [split] at ran permitted
  rw [Machine.run_append, reached] at ran
  obtain ⟨row', held', decided⟩ :=
    settled_stays (permitted.rest reached) ran ⟨row, held, CaseStatus.settled_of_resolved resolved⟩
  refine ⟨row', held', ?_, ?_⟩
  · intro open_
    rw [open_] at decided
    cases decided
  · intro triaged
    rw [triaged] at decided
    cases decided

namespace Docket

def post : SubjectRef := ⟨.post, "p9", 9, "wall", by decide⟩

def setup : Setup := ⟨.standard, fun _ => 90⟩

def case : Case := { Case.new 90 ⟨post, .spam, "default", "normal", 0, 1⟩ with pendingEvents := [] }

def start : Traffic where
  world := { World.empty with cases := fun id => if id = 90 then some case else none }
  calls := fun _ => none

theorem begins : (host setup).machine.init start := by
  refine ⟨⟨?_, ?_, ?_⟩, rfl⟩
  · intro id row h
    simp only [start] at h
    split at h
    · rename_i eq
      cases h
      exact eq.symm
    · cases h
  · intro actorId ledger h
    cases h
  · intro row mem
    cases mem

def signal (source : String) : Timed := ⟨.ingestSignal ⟨post, source, .spam, ⟨1, by decide⟩⟩ 2, 5⟩

def dismiss : Timed := ⟨.decideCase ⟨90, .noAction, .spam, "not spam", "rev-1", "2026.09.1"⟩ 3 91 92, 6⟩

def advances (ids : List Nat) : List (Move Timed Happening) := ids.map fun id => .advance id .served

/-- The second ingestion loads the case once the first has saved it. -/
def inTurn : List (Move Timed Happening) :=
  [.begin 0 (signal "text"), .begin 1 (signal "image"), .begin 2 dismiss] ++ advances [0, 0, 1, 1, 2, 2, 2, 2, 2]

/-- Both load it before either saves it. -/
def overlapping : List (Move Timed Happening) :=
  [.begin 0 (signal "text"), .begin 1 (signal "image")] ++ advances [0, 1, 0, 1]

/-- The case is dismissed between the load and the save of an ingestion. -/
def dismissed : List (Move Timed Happening) :=
  [.begin 0 (signal "text"), .begin 1 dismiss] ++ advances [0, 1, 1, 1, 1, 1]

def sources (pool : Traffic) : Option (List String) :=
  (pool.world.cases 90).map fun row => row.signals.map Signal.source

def status (pool : Traffic) : Option CaseStatus := (pool.world.cases 90).map Case.status

theorem inTurn_keeps : ∃ pool, (host setup).machine.run start inTurn = some pool ∧
    sources pool = some ["text", "image"] ∧ status pool = some .dismissed ∧
    ∃ slot : Nat → Nat, ∀ id caseId result, Ingested setup pool id caseId result →
      ∃ signal row, result = .ok signal ∧ pool.world.cases caseId = some row ∧
        row.signals[slot id]? = some signal := by
  obtain ⟨pool, ran, sources, status⟩ : ∃ pool, (host setup).machine.run start inTurn = some pool ∧
      sources pool = some ["text", "image"] ∧ status pool = some .dismissed := by decide +kernel
  have fits : (host setup).machine.Meets (fun pool move => locked setup pool move = true) start inTurn := by
    decide +kernel
  obtain ⟨slot, recorded, -⟩ := (undisturbed_saves_keep setup start pool inTurn begins fits ran).1
  exact ⟨pool, ran, sources, status, slot, recorded⟩

/-- A signal is lost whose ingestion returned, and a case that was dismissed is open again. -/
theorem overlapping_saves_lose :
    (∃ pool row lost, (host setup).machine.run start overlapping = some pool ∧
      (pool.calls 0).bind Call.returned = some (.ingested 90) ∧
      (signal "text").submission setup = some (90, .ok lost) ∧
      pool.world.cases 90 = some row ∧ lost ∉ row.signals) ∧
    ∃ before after, (host setup).machine.run start dismissed = some before ∧
      (host setup).machine.run start (dismissed ++ advances [0]) = some after ∧
      status before = some .dismissed ∧ status after = some .open_ := by
  obtain ⟨pool, ran, returned, row, held, lost⟩ : ∃ pool, (host setup).machine.run start overlapping = some pool ∧
      (pool.calls 0).bind Call.returned = some (.ingested 90) ∧ ∃ row, pool.world.cases 90 = some row ∧
        (⟨"text", .spam, ⟨1, by decide⟩, 5⟩ : Signal) ∉ row.signals := by decide +kernel
  refine ⟨⟨pool, row, _, ran, returned, by decide +kernel, held, lost⟩, ?_⟩
  simp only [exists_and_left]
  decide +kernel

end Docket
end CorePlatform.Moderation
