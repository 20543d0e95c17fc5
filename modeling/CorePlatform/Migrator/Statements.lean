import Mathlib.Data.List.TakeWhile
import CorePlatform.Audit.Values

/-! # Splitting a migration file

One pass with one character of lookahead. Every quote turns the literal mode on or off, so that a
doubled one comes to nothing. A comment is skipped, and the end of its line is white space.
-/

namespace CorePlatform.Migrator

open List

open Audit (isWhitespace)

def trim (text : List Char) : List Char :=
  ((text.dropWhile isWhitespace).reverse.dropWhile isWhitespace).reverse

def push (current : List Char) : List String :=
  let stmt := trim current
  if stmt = [] then [] else [String.ofList stmt]

def split : List Char → (inString : Bool) → (current : List Char) → List String
  | [], _, current => push current
  | c :: rest, true, current =>
    if c = '\x27' ∧ rest.head? = some '\x27' then split rest.tail true (current ++ [c, '\x27'])
    else split rest (c ≠ '\x27') (current ++ [c])
  | c :: rest, false, current =>
    if c = '-' ∧ rest.head? = some '-' then split (rest.tail.dropWhile (· ≠ '\n')) false current
    else if c = ';' then push current ++ split rest false []
    else split rest (c = '\x27') (current ++ [c])
termination_by chars => chars.length
decreasing_by
  all_goals
    have := (List.dropWhile_sublist (l := rest.tail) (· ≠ '\n')).length_le
    grind

def splitStatements (content : String) : List String := split content.toList false []

def escape (inside : List Char) : List Char := inside.flatMap fun c => if c = '\x27' then [c, c] else [c]

/-- Literals and characters outside of them, without the start of a comment. -/
inductive Lexed : List Char → Prop where
  | nil : Lexed []
  | literal (inside : List Char) : Lexed rest → Lexed ('\x27' :: escape inside ++ '\x27' :: rest)
  | plain : c ≠ '\x27' → c ≠ ';' → (c = '-' → rest.head? ≠ some '-') → Lexed rest → Lexed (c :: rest)

structure IsStatement (text : List Char) : Prop where
  lexed : Lexed text
  nonBlank : text ≠ []
  leading : text.dropWhile isWhitespace = text
  trailing : text.reverse.dropWhile isWhitespace = text.reverse

abbrev White (text : List Char) : Prop := ∀ c ∈ text, isWhitespace c = true

/-- A file that writes statements in order. A comment goes to the end of its line or of the file. -/
inductive Writes : List String → List Char → Prop where
  | nil : Writes [] []
  | white : White gap → Writes stmts file → Writes stmts (gap ++ file)
  | empty : Writes stmts file → Writes stmts (';' :: file)
  | comment : '\n' ∉ text → (∀ c ∈ file.head?, c = '\n') → Writes stmts file →
      Writes stmts ('-' :: '-' :: text ++ file)
  | statement : IsStatement text → Writes stmts file → Writes (String.ofList text :: stmts) (text ++ ';' :: file)
  | last : IsStatement text → White rest → Writes [String.ofList text] (text ++ rest)

theorem split_quoted : split (c :: rest) true current = split rest (c ≠ '\x27') (current ++ [c]) := by
  rw [split]
  split
  · obtain ⟨rfl, next⟩ := ‹_ ∧ _›
    obtain ⟨rest, rfl⟩ := head?_eq_some_iff.mp next
    simp [split]
  · rfl

theorem split_escape : split (escape inside ++ rest) true current = split rest true (current ++ escape inside) := by
  induction inside generalizing current with
  | nil => simp [escape]
  | cons c inside ih =>
    by_cases quote : c = '\x27'
    · have next : split ('\x27' :: (escape inside ++ rest)) false (current ++ ['\x27']) =
          split (escape inside ++ rest) true (current ++ ['\x27', '\x27']) := by simp [split]
      simp_all [escape, split_quoted]
    · simp_all [escape, split_quoted]

theorem split_plain (hq : c ≠ '\x27') (hs : c ≠ ';') (hc : c = '-' → rest.head? ≠ some '-') :
    split (c :: rest) false current = split rest false (current ++ [c]) := by
  rw [split, if_neg fun h => hc h.1 h.2, if_neg hs]
  simp [hq]

theorem split_lexed (lexed : Lexed text) (next : rest.head? ≠ some '-') :
    split (text ++ rest) false current = split rest false (current ++ text) := by
  induction lexed generalizing current with
  | nil => simp
  | literal inside _ ih => simp [split, split_escape, split_quoted, ih]
  | @plain c text hq hs hc _ ih =>
    have hc : c = '-' → (text ++ rest).head? ≠ some '-' := by cases text <;> simp_all
    simp [split_plain hq hs hc, ih]

theorem split_white (hw : White gap) : split (gap ++ rest) false current = split rest false (current ++ gap) := by
  induction gap generalizing current with
  | nil => simp
  | cons c gap ih =>
    obtain ⟨hc, hw⟩ := forall_mem_cons.mp hw
    have other : ∀ d, isWhitespace d = false → c ≠ d := by
      rintro d hd rfl
      simp [hc] at hd
    have minus := other '-' (by decide)
    simp [split_plain (other '\x27' (by decide)) (other ';' (by decide)) (absurd · minus), ih hw]

theorem push_white (hw : White gap) : push gap = [] := by
  simp [push, trim, dropWhile_eq_nil_iff.mpr hw]

theorem push_statement (hw : White gap) (ht : IsStatement text) (hr : White rest) :
    push (gap ++ text ++ rest) = [String.ofList text] := by
  have eq : trim (gap ++ text ++ rest) = text := by
    simp_all [trim, dropWhile_append, ht.leading, ht.trailing, ht.nonBlank]
  rw [push, eq, if_neg ht.nonBlank]

theorem split_writes (writes : Writes stmts file) (hw : White gap) : split file false gap = stmts := by
  induction writes generalizing gap with
  | nil => simpa [split] using push_white hw
  | white hg _ ih =>
    rw [split_white hg]
    exact ih (forall_mem_append.mpr ⟨hw, hg⟩)
  | empty _ ih => simpa [split, push_white hw] using ih (forall_mem_nil _)
  | @comment text _ file hn hf _ ih =>
    have skipped : (text ++ file).dropWhile (· ≠ '\n') = file := by
      rw [dropWhile_append_of_pos (by grind)]
      cases file <;> simp_all
    rw [cons_append, cons_append, split, if_pos (by simp), tail_cons, skipped]
    exact ih hw
  | statement ht _ ih =>
    rw [split_lexed ht.lexed (by simp)]
    have pushed := push_statement hw ht (forall_mem_nil _)
    rw [append_nil] at pushed
    simpa [split, pushed] using ih (forall_mem_nil _)
  | @last text rest ht hr =>
    have next : rest.head? ≠ some '-' := by
      intro minus
      exact absurd (hr _ (mem_of_head? minus)) (by decide)
    rw [split_lexed ht.lexed next, ← append_nil rest, split_white hr, split]
    exact push_statement hw ht hr

/-- The splitter reads back what a file writes. -/
theorem splitStatements_inverts (writes : Writes stmts file) : splitStatements (String.ofList file) = stmts := by
  rw [splitStatements, String.toList_ofList]
  exact split_writes writes (List.forall_mem_nil _)

/-- A semicolon in a literal with a doubled quote, and one in a comment. -/
theorem splitStatements_inverts_literal : splitStatements "'a''b;';--;\nq" = ["'a''b;'", "q"] :=
  splitStatements_inverts (.statement ⟨.literal ['a', '\x27', 'b', ';'] .nil, by decide, by decide, by decide⟩
    (@Writes.comment [';'] _ _ (by decide) (by simp)
      (@Writes.white ['\n'] _ _ (List.forall_mem_singleton.mpr rfl)
        (@Writes.last ['q'] _ ⟨.plain (by decide) (by decide) (by decide) .nil, by decide, by decide, by decide⟩
          (List.forall_mem_nil _)))))

end CorePlatform.Migrator
