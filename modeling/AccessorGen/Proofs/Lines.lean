import AccessorGen.Text.Bytes
import AccessorGen.Text.Lines
import Mathlib.Data.List.Basic

/-!
# Texts of lines

`unlines` is a text of lines with a line feed behind each of them. A text is made of the lines before any of its pieces,
the piece itself and what follows it (`eq_append_of_splitOn_eq`), and what a diagnostic shows of the text at that place
is the piece, without the carriage return that belongs to its line end (`lines_getD`).
-/

namespace AccessorGen

open Text

/-! ## Lines and line feeds -/

section LineFeeds

/-- A text of lines, each with a line feed behind it. -/
def unlines (lines : List (List Char)) : List Char :=
  lines.flatMap (· ++ ['\n'])

/-- Lines before other pieces have a line feed behind each of them. -/
theorem intercalate_append {later : List (List Char)} (h : later ≠ []) : ∀ lines : List (List Char),
    ['\n'].intercalate (lines ++ later) = unlines lines ++ ['\n'].intercalate later
  | [] => rfl
  | line :: lines => by
    have ih := intercalate_append h lines
    rw [List.cons_append, List.intercalate_cons_of_ne_nil (by simp [h]), ih]
    simp [unlines]

/-- Behind the last line feed stands the empty text. -/
theorem unlines_eq_intercalate (lines : List (List Char)) : unlines lines = ['\n'].intercalate (lines ++ [[]]) := by
  rw [intercalate_append (by simp)]
  simp

/-- Lines without a line feed can be told apart. -/
theorem splitOn_unlines {lines : List (List Char)} (h : ∀ line ∈ lines, '\n' ∉ line) :
    (unlines lines).splitOn '\n' = lines ++ [[]] := by
  rw [unlines_eq_intercalate]
  refine List.splitOn_intercalate '\n' ?_ (by simp)
  intro line hl
  rcases List.mem_append.mp hl with hl | hl
  · exact h line hl
  · simp [List.mem_singleton.mp hl]

/-- Texts of lines one after the other are the text of all lines. -/
theorem flatMap_unlines {α : Type} (f : α → List (List Char)) (xs : List α) :
    xs.flatMap (fun x => unlines (f x)) = unlines (xs.flatMap f) := by
  simp only [unlines, List.flatMap_assoc]

/-- The bytes of a text of lines, and one for each line feed. -/
theorem byteLength_unlines_cons (line : List Char) (lines : List (List Char)) :
    byteLength (unlines (line :: lines)) = byteLength line + 1 + byteLength (unlines lines) := by
  rw [unlines, List.flatMap_cons, byteLength_append, byteLength_append]
  rfl

/-- Lines without a line feed have one line feed each. -/
theorem count_unlines : ∀ {lines : List (List Char)}, (∀ line ∈ lines, '\n' ∉ line) →
    (unlines lines).count '\n' = lines.length
  | [], _ => rfl
  | line :: lines, h => by
    obtain ⟨hline, h⟩ := List.forall_mem_cons.mp h
    have ih := count_unlines h
    rw [unlines] at ih ⊢
    rw [List.flatMap_cons, List.count_append, List.count_append, ih, List.count_eq_zero.mpr hline]
    simp [Nat.add_comm]

/-- Nothing stands behind the last line feed of a text of lines. -/
theorem takeWhile_reverse_unlines (lines : List (List Char)) :
    (unlines lines).reverse.takeWhile (· ≠ '\n') = [] := by
  rcases List.eq_nil_or_concat lines with rfl | ⟨front, line, rfl⟩
  · rfl
  · simp [unlines, List.concat_eq_append]

end LineFeeds

/-! ## The pieces of a text -/

section Pieces

/-- The separator stands in none of the pieces. -/
theorem not_mem_of_mem_splitOn {a : Char} : ∀ {s piece : List Char}, piece ∈ s.splitOn a → a ∉ piece
  | [], piece, h => by
    rw [List.splitOn_nil, List.mem_singleton] at h
    simp [h]
  | c :: s, piece, h => by
    rw [List.splitOn_cons_eq_if_modifyHead] at h
    split at h
    · rcases List.mem_cons.mp h with rfl | h
      · simp
      · exact not_mem_of_mem_splitOn h
    · rename_i hc
      obtain ⟨first, pieces, hs⟩ := List.exists_cons_of_ne_nil (List.splitOn_ne_nil a s)
      rw [hs, List.modifyHead_cons] at h
      rcases List.mem_cons.mp h with rfl | h
      · have hfirst : a ∉ first := not_mem_of_mem_splitOn (s := s) (hs ▸ List.mem_cons_self)
        have hne : a ≠ c := by
          rintro rfl
          exact hc (beq_self_eq_true a)
        exact List.not_mem_cons_of_ne_of_not_mem hne hfirst
      · exact not_mem_of_mem_splitOn (s := s) (hs ▸ List.mem_cons_of_mem first h)

variable {raw piece : List Char} {before later : List (List Char)}

/-- A text is made of the lines before a piece, the piece, and what follows it, which starts with a line feed unless the
piece is the last one. -/
theorem eq_append_of_splitOn_eq (h : raw.splitOn '\n' = before ++ piece :: later) :
    ∃ after, raw = unlines before ++ piece ++ after ∧ (later ≠ [] → after.head? = some '\n') := by
  have hraw : ['\n'].intercalate (raw.splitOn '\n') = raw := List.intercalate_splitOn '\n'
  rw [h, intercalate_append (List.cons_ne_nil _ _)] at hraw
  rcases eq_or_ne later [] with rfl | hne
  · refine ⟨[], ?_, fun h => absurd rfl h⟩
    rw [← hraw]
    simp
  · refine ⟨'\n' :: ['\n'].intercalate later, ?_, fun _ => rfl⟩
    rw [← hraw, List.intercalate_cons_of_ne_nil hne]
    simp

end Pieces

/-! ## Shown lines -/

section ShownLines

/-- What is shown of a piece: after the last piece there is no line end that a carriage return could belong to. -/
def shownPiece (piece : List Char) (later : List (List Char)) : List Char :=
  if later = [] then piece else dropCarriageReturn piece

/-- A carriage return at the end is dropped from the last part of a line, unless that part is empty. -/
theorem dropCarriageReturn_append {front : List Char} (h : front.getLast? ≠ some '\r') (s : List Char) :
    dropCarriageReturn (front ++ s) = front ++ dropCarriageReturn s := by
  rcases eq_or_ne s [] with rfl | hne
  · rw [List.append_nil, dropCarriageReturn, if_neg h]
    simp [dropCarriageReturn]
  · rw [dropCarriageReturn, dropCarriageReturn, List.getLast?_append_of_ne_nil _ hne,
      List.dropLast_append_of_ne_nil hne]
    split <;> rfl

/-- Dropping a carriage return adds nothing. -/
theorem mem_of_mem_dropCarriageReturn {c : Char} {s : List Char} (h : c ∈ dropCarriageReturn s) : c ∈ s := by
  unfold dropCarriageReturn at h
  split at h
  · exact List.dropLast_subset s h
  · exact h

/-- Lines before other pieces are shown one by one. -/
theorem shownLines_append {later : List (List Char)} (h : later ≠ []) : ∀ before : List (List Char),
    shownLines (before ++ later) = before.map dropCarriageReturn ++ shownLines later
  | [] => rfl
  | p :: before => by
    have ih := shownLines_append h before
    obtain ⟨q, ps, hq⟩ := List.exists_cons_of_ne_nil (show before ++ later ≠ [] by simp [h])
    rw [List.cons_append, hq, shownLines, ← hq, ih, List.map_cons, List.cons_append]

/-- A piece with something in it is shown before those that follow it. -/
theorem shownLines_cons {piece : List Char} (h : piece ≠ []) (later : List (List Char)) :
    shownLines (piece :: later) = shownPiece piece later :: shownLines later := by
  cases later with
  | nil => simp [shownLines, shownPiece, h]
  | cons q later => simp [shownLines, shownPiece]

variable {raw piece : List Char} {before later : List (List Char)}

/-- The lines of a text, seen from one of its pieces with something in it. -/
theorem lines_eq (h : raw.splitOn '\n' = before ++ piece :: later) (hne : piece ≠ []) :
    lines raw = before.map dropCarriageReturn ++ shownPiece piece later :: shownLines later := by
  rw [lines, h, shownLines_append (List.cons_ne_nil _ _), shownLines_cons hne]

/-- The line with the number of a piece shows that piece. -/
theorem lines_getD (h : raw.splitOn '\n' = before ++ piece :: later) (hne : piece ≠ []) :
    (lines raw).getD before.length [] = shownPiece piece later := by
  rw [lines_eq h hne]
  simp

end ShownLines

end AccessorGen
