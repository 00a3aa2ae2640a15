import AccessorGen.Diagnostic.Position
import AccessorGen.Proofs.Lines
import Mathlib.Algebra.GroupWithZero.Nat

/-!
# Positions in a text

- The walk to an offset takes one step for each character that starts before it (`walk_eq_foldl`), and every step goes
  to the position after one character more (`after_concat`). So it ends where counting line feeds and characters leads
  (`foldl_step_start`, `positionAt_of_lt`);
- between two parts of a text, the position is the one right after the first part (`positionAt_append`): its line is
  known from the lines in front of it, and its column from the characters since (`after_unlines`);
- at the end of the text the column counts bytes (`column_atEnd`), which are as many as the characters exactly if these
  are ASCII characters (`byteLength_eq_length_iff`).
-/

namespace AccessorGen

open Text

namespace Position

/-- The characters of a text that start before byte `offset`. -/
def charsBefore (offset : Nat) : List Char → List Char
  | [] => []
  | c :: s => if offset = 0 then [] else c :: charsBefore (offset - c.utf8Size) s

theorem charsBefore_zero (s : List Char) : charsBefore 0 s = [] := by
  cases s with
  | nil => rfl
  | cons c s => rfl

/-- The position right after the given characters: lines are counted by line feeds, columns by characters. -/
def after (passed : List Char) : Position where
  line := (passed.count '\n' + 1).toUInt32
  column := ((passed.reverse.takeWhile (· ≠ '\n')).length + 1).toUInt32

end Position

section Characters

/-- A text has as many bytes as characters exactly if all of them are ASCII characters. -/
theorem byteLength_eq_length_iff : ∀ {s : List Char}, byteLength s = s.length ↔ ∀ c ∈ s, c.toNat < 128
  | [] => by simp
  | c :: s => by
    have ih := byteLength_eq_length_iff (s := s)
    have hpos := c.utf8Size_pos
    have hle := length_le_byteLength s
    have hascii : c.utf8Size = 1 ↔ c.toNat < 128 := by
      rw [Char.utf8Size_eq_one_iff, UInt32.le_iff_toNat_le]
      exact Nat.lt_succ_iff.symm
    rw [List.forall_mem_cons, ← ih, ← hascii, byteLength_cons, List.length_cons]
    omega

/-- An offset inside a character or at its end is behind the start of that character. -/
theorem charsBefore_inside (rest : List Char) {c : Char} : ∀ (before : List Char) {offset : Nat},
    byteLength before < offset → offset ≤ byteLength before + c.utf8Size →
    Position.charsBefore offset (before ++ c :: rest) = before ++ [c]
  | [], offset, hlt, hle => by
    have hne : offset ≠ 0 := by
      rw [byteLength_nil] at hlt
      omega
    have hzero : offset - c.utf8Size = 0 := by
      rw [byteLength_nil] at hle
      omega
    rw [List.nil_append, Position.charsBefore, if_neg hne, hzero, Position.charsBefore_zero, List.nil_append]
  | d :: before, offset, hlt, hle => by
    rw [byteLength_cons] at hlt hle
    have ih : Position.charsBefore (offset - d.utf8Size) (before ++ c :: rest) = before ++ [c] :=
      charsBefore_inside rest before (by omega) (by omega)
    rw [List.cons_append, Position.charsBefore, if_neg (by omega), ih, List.cons_append]

/-- The characters that start before the end of the first part of a text are those of that part. -/
theorem charsBefore_append (rest before : List Char) :
    Position.charsBefore (byteLength before) (before ++ rest) = before := by
  rcases List.eq_nil_or_concat before with rfl | ⟨front, c, rfl⟩
  · exact Position.charsBefore_zero rest
  · have hpos := c.utf8Size_pos
    have hbytes : byteLength (front ++ [c]) = byteLength front + c.utf8Size := by simp
    rw [List.concat_eq_append, hbytes, List.append_assoc, List.singleton_append]
    exact charsBefore_inside rest front (by omega) (Nat.le_refl _)

end Characters

section Walking

theorem toUInt32_succ (n : Nat) : (n + 1).toUInt32 = n.toUInt32 + 1 :=
  UInt32.ofNat_add n 1

namespace Position

/-- One character more takes the position one step on, also where the counters wrap around. -/
theorem after_concat (passed : List Char) (c : Char) : after (passed ++ [c]) = (after passed).step c := by
  unfold after step
  rw [List.count_append, List.reverse_append, List.reverse_singleton, List.singleton_append]
  by_cases hc : c = '\n'
  · -- the characters since the last line feed are none again
    subst hc
    rw [if_pos rfl, List.count_singleton_self, List.takeWhile_cons_of_neg (by simp), toUInt32_succ (_ + 1)]
    rfl
  · have hcount : [c].count '\n' = 0 := by simp [hc]
    rw [if_neg hc, hcount, Nat.add_zero, List.takeWhile_cons_of_pos (by simpa using hc), List.length_cons,
      toUInt32_succ (_ + 1)]

/-- From the position after a text, the steps lead to the position after the longer one. -/
theorem foldl_step_after (front passed : List Char) : passed.foldl step (after front) = after (front ++ passed) := by
  induction passed generalizing front with
  | nil => rw [List.foldl_nil, List.append_nil]
  | cons c passed ih => rw [List.foldl_cons, ← after_concat, ih, List.append_assoc, List.singleton_append]

theorem foldl_step_start (passed : List Char) : passed.foldl step start = after passed :=
  foldl_step_after [] passed

/-- The walk takes a step for every character that starts before the offset, and then stops. -/
theorem walk_eq_foldl (offset : Nat) (s : List Char) (index : Nat) (p : Position) :
    walk offset index p s = (charsBefore (offset - index) s).foldl step p := by
  induction s generalizing index p with
  | nil => rfl
  | cons c s ih =>
    rw [walk, charsBefore]
    by_cases hstop : offset ≤ index
    · rw [if_pos hstop, if_pos (by omega)]
      rfl
    · rw [if_neg hstop, if_neg (by omega), ih, List.foldl_cons, Nat.sub_sub]

/-- On its way, the walk stands behind each of these characters once, at the position that their steps lead to. -/
theorem walk_append (offset : Nat) (rest passed : List Char) (index : Nat) (p : Position)
    (h : passed <+: charsBefore (offset - index) (passed ++ rest)) :
    walk offset index p (passed ++ rest) = walk offset (index + byteLength passed) (passed.foldl step p) rest := by
  induction passed generalizing index p with
  | nil => rw [List.nil_append, byteLength_nil, Nat.add_zero, List.foldl_nil]
  | cons c passed ih =>
    rw [List.cons_append, charsBefore] at h
    by_cases hstop : offset ≤ index
    · -- the walk would have stopped already, without passing a character
      rw [if_pos (by omega)] at h
      exact absurd (List.prefix_nil.mp h) (List.cons_ne_nil c passed)
    · rw [if_neg (by omega), List.cons_prefix_cons, Nat.sub_sub] at h
      rw [List.cons_append, walk, if_neg hstop, ih _ _ h.2, byteLength_cons, List.foldl_cons, Nat.add_assoc]

end Position

end Walking

section Positions

/-- **Inside a text the walk counts what stands before the offset.** -/
theorem positionAt_of_lt {source : List Char} {offset : UInt32} (h : offset.toNat < byteLength source) :
    positionAt source offset = .after (Position.charsBefore offset.toNat source) := by
  rw [positionAt, if_neg (Nat.not_le_of_lt h), Position.walk_eq_foldl, Position.foldl_step_start, Nat.sub_zero]

/-- The position between two parts of a text, if the second is not empty. -/
theorem positionAt_append {before rest : List Char} (hne : rest ≠ []) {offset : UInt32}
    (h : offset.toNat = byteLength before) : positionAt (before ++ rest) offset = .after before := by
  have hrest := length_le_byteLength rest
  have hpos := List.length_pos_iff.mpr hne
  rw [positionAt_of_lt (by rw [h, byteLength_append]; omega), h, charsBefore_append]

variable {raw passed : List Char} {before : List (List Char)}

/-- The counters of a position have the values that they count, unless they outgrow their words. -/
theorem toNat_after {passed : List Char} (hfit : passed.length < 2 ^ 32 - 1) :
    (Position.after passed).line.toNat = passed.count '\n' + 1 ∧
      (Position.after passed).column.toNat = (passed.reverse.takeWhile (· ≠ '\n')).length + 1 := by
  have hcount : passed.count '\n' ≤ passed.length := List.count_le_length
  have hsince : (passed.reverse.takeWhile (· ≠ '\n')).length ≤ passed.reverse.length :=
    (List.takeWhile_prefix _).length_le
  rw [List.length_reverse] at hsince
  exact ⟨UInt32.toNat_ofNat_of_lt' (show _ < 2 ^ 32 by omega), UInt32.toNat_ofNat_of_lt' (show _ < 2 ^ 32 by omega)⟩

/-- The position after some lines and a part of the next one. -/
theorem after_unlines (hbefore : ∀ line ∈ before, '\n' ∉ line) (hpassed : '\n' ∉ passed)
    (hfit : (unlines before ++ passed).length < 2 ^ 32 - 1) :
    (Position.after (unlines before ++ passed)).line.toNat = before.length + 1 ∧
      (Position.after (unlines before ++ passed)).column.toNat = passed.length + 1 := by
  have hcount : (unlines before ++ passed).count '\n' = before.length := by
    rw [List.count_append, count_unlines hbefore, List.count_eq_zero.mpr hpassed, Nat.add_zero]
  have hsince : (unlines before ++ passed).reverse.takeWhile (· ≠ '\n') = passed.reverse := by
    have hall : ∀ c ∈ passed.reverse, decide (c ≠ '\n') = true := by
      intro c hc
      rw [decide_eq_true_eq]
      rintro rfl
      exact hpassed (List.mem_reverse.mp hc)
    rw [List.reverse_append, List.takeWhile_append_of_pos hall, takeWhile_reverse_unlines, List.append_nil]
  have hafter := toNat_after hfit
  rwa [hcount, hsince, List.length_reverse] at hafter

/-- The column at the end of a text whose last line is not empty counts the bytes of that line. -/
theorem column_atEnd {piece : List Char} (h : raw.splitOn '\n' = before ++ [piece]) (hne : piece ≠ [])
    (hfit : byteLength raw < 2 ^ 32 - 1) : (Position.atEnd raw).column.toNat = byteLength piece + 1 := by
  have hlast : (lines raw).getLastD [] = piece := by
    rw [lines_eq h hne]
    simp [shownLines, shownPiece]
  obtain ⟨after, hraw, -⟩ := eq_append_of_splitOn_eq h
  have hbytes := congrArg byteLength hraw
  simp only [byteLength_append] at hbytes
  have hcolumn : (Position.atEnd raw).column = (byteLength piece + 1).toUInt32 := by
    rw [Position.atEnd, hlast, toUInt32_succ]
  rw [hcolumn]
  exact UInt32.toNat_ofNat_of_lt' (show _ < 2 ^ 32 by omega)

end Positions

end AccessorGen
