import AccessorGen.Proofs.Position
import Mathlib.Data.Nat.Init

/-!
# Offsets and positions

Inside a text, positions and the offsets between characters are two names for the same places:

- the position of an offset counts the line feeds before it and the characters since the last of them
  (`Position.IsAfter`, `after_isAfter`), and on the way there (`positionAt_eq_walk`) the counters fit their words
  because no more characters are counted than there are bytes before the offset (`length_charsBefore_le`);
- going to the line and the column leads back to the offset (`offsetOf?_after`);
- a later offset has a later position (`precedes_after_append`);
- an offset inside a character counts as the one behind the character (`charsBefore_inside`).

`positionAt_exact` puts these together.
-/

namespace AccessorGen

open Text

/-! ## Places in a text -/

/-- The offset lies between two characters of a text, or at one of its ends. -/
def IsBoundary (source : List Char) (offset : Nat) : Prop :=
  ∃ before rest, source = before ++ rest ∧ offset = byteLength before

theorem isBoundary_iff {source : List Char} {offset : Nat} :
    IsBoundary source offset ↔ ∃ k < source.length + 1, offset = byteLength (source.take k) := by
  constructor
  · rintro ⟨before, rest, rfl, rfl⟩
    exact ⟨before.length, by rw [List.length_append]; omega, by rw [List.take_left]⟩
  · rintro ⟨k, -, rfl⟩
    exact ⟨source.take k, source.drop k, (List.take_append_drop k source).symm, rfl⟩

instance (source : List Char) (offset : Nat) : Decidable (IsBoundary source offset) :=
  decidable_of_iff _ isBoundary_iff.symm

/-- The offset is inside a character, and `next` is the first one behind it. -/
structure IsNextBoundary (source : List Char) (offset next : Nat) : Prop where
  isBoundary : IsBoundary source next
  lt : offset < next
  inside : ∀ k, offset ≤ k → k < next → ¬ IsBoundary source k

namespace Position

/-- The position is the one behind the given text: its line counts line feeds, and its column counts the characters
since the last of them or since the start. -/
structure IsAfter (passed : List Char) (p : Position) : Prop where
  line_eq : p.line.toNat = passed.count '\n' + 1
  column_eq : ∃ front since, passed = front ++ since ∧ (front = [] ∨ front.getLast? = some '\n') ∧ '\n' ∉ since ∧
    p.column.toNat = since.length + 1

/-- The first position comes before the second: by its line, and in the same line by its column. -/
def Precedes (p q : Position) : Prop :=
  p.line < q.line ∨ p.line = q.line ∧ p.column < q.column

/-- The offset to which a position leads: to the piece with the number of the line, and as many characters on as the
column tells. One step behind the last character of a piece is its line feed. -/
def offsetOf? (source : List Char) (p : Position) : Option Nat :=
  let before := p.line.toNat - 1
  match (source.splitOn '\n')[before]? with
  | none => none
  | some piece =>
    if p.column.toNat - 1 ≤ piece.length then
      some (byteLength (unlines ((source.splitOn '\n').take before)) + byteLength (piece.take (p.column.toNat - 1)))
    else none

end Position

/-! ## Counting -/

section Counting

/-- A text is made of lines and of what stands behind the last line feed. -/
theorem exists_unlines_append (s : List Char) :
    ∃ lines since, s = unlines lines ++ since ∧ (∀ line ∈ lines, '\n' ∉ line) ∧ '\n' ∉ since := by
  have hmem : ∀ piece ∈ s.splitOn '\n', '\n' ∉ piece := fun _ => not_mem_of_mem_splitOn
  obtain ⟨lines, since, hs⟩ := (List.eq_nil_or_concat (s.splitOn '\n')).resolve_left (List.splitOn_ne_nil '\n' s)
  have hjoin : ['\n'].intercalate (s.splitOn '\n') = s := List.intercalate_splitOn '\n'
  rw [hs, List.concat_eq_append] at hmem hjoin
  rw [intercalate_append (List.cons_ne_nil _ _), List.intercalate_singleton] at hjoin
  exact ⟨lines, since, hjoin.symm, fun line hl => hmem line (List.mem_append_left _ hl), hmem since (by simp)⟩

/-- A text of lines is empty or ends in a line feed. -/
theorem unlines_eq_nil_or (lines : List (List Char)) : unlines lines = [] ∨ (unlines lines).getLast? = some '\n' := by
  rcases List.eq_nil_or_concat lines with rfl | ⟨front, line, rfl⟩
  · exact .inl rfl
  · exact .inr (by simp [unlines, List.concat_eq_append])

/-- The counters are right for any text that they do not outgrow. -/
theorem after_isAfter {passed : List Char} (hfit : passed.length < 2 ^ 32 - 1) :
    (Position.after passed).IsAfter passed := by
  obtain ⟨lines, since, rfl, hlines, hsince⟩ := exists_unlines_append passed
  obtain ⟨hline, hcolumn⟩ := after_unlines hlines hsince hfit
  refine ⟨?_, unlines lines, since, rfl, unlines_eq_nil_or lines, hsince, hcolumn⟩
  rw [hline, List.count_append, count_unlines hlines, List.count_eq_zero.mpr hsince, Nat.add_zero]

/-- Each of the characters before an offset has a byte before it. -/
theorem length_charsBefore_le : ∀ (s : List Char) (offset : Nat), (Position.charsBefore offset s).length ≤ offset
  | [], offset => by simp [Position.charsBefore]
  | c :: s, offset => by
    have ih := length_charsBefore_le s (offset - c.utf8Size)
    have hpos := c.utf8Size_pos
    rw [Position.charsBefore]
    split
    · simp
    · rw [List.length_cons]
      omega

end Counting

/-! ## Going back -/

section GoingBack

/-- The pieces of a text, seen from a place in it. -/
theorem splitOn_unlines_append {lines : List (List Char)} (hlines : ∀ line ∈ lines, '\n' ∉ line) {since : List Char}
    (hsince : '\n' ∉ since) (rest : List Char) :
    ∃ piece later, (unlines lines ++ since ++ rest).splitOn '\n' = lines ++ (since ++ piece) :: later := by
  obtain ⟨piece, later, hrest⟩ := List.exists_cons_of_ne_nil (List.splitOn_ne_nil '\n' rest)
  have hmem : ∀ p ∈ piece :: later, '\n' ∉ p := fun p hp => not_mem_of_mem_splitOn (hrest ▸ hp)
  have hjoin : ['\n'].intercalate (piece :: later) = rest := by
    rw [← hrest]
    exact List.intercalate_splitOn '\n'
  have htext : unlines lines ++ since ++ rest = ['\n'].intercalate (lines ++ (since ++ piece) :: later) := by
    rw [intercalate_append (List.cons_ne_nil _ _), ← hjoin]
    cases later with
    | nil => simp
    | cons q later => simp [List.intercalate_cons_cons]
  refine ⟨piece, later, ?_⟩
  rw [htext]
  refine List.splitOn_intercalate '\n' ?_ (by simp)
  intro p hp
  rcases List.mem_append.mp hp with hp | hp
  · exact hlines p hp
  · rcases List.mem_cons.mp hp with rfl | hp
    · simp [hsince, hmem piece List.mem_cons_self]
    · exact hmem p (List.mem_cons_of_mem _ hp)

/-- Going to the position behind the first part of a text leads to the end of that part. -/
theorem offsetOf?_after {before : List Char} (hfit : before.length < 2 ^ 32 - 1) (rest : List Char) :
    Position.offsetOf? (before ++ rest) (.after before) = some (byteLength before) := by
  obtain ⟨lines, since, rfl, hlines, hsince⟩ := exists_unlines_append before
  obtain ⟨hline, hcolumn⟩ := after_unlines hlines hsince hfit
  obtain ⟨piece, later, hpieces⟩ := splitOn_unlines_append hlines hsince rest
  have hat : (lines ++ (since ++ piece) :: later)[lines.length]? = some (since ++ piece) := by simp
  rw [Position.offsetOf?, hline, hcolumn, hpieces, Nat.add_sub_cancel, Nat.add_sub_cancel]
  simp only [hat, List.take_left, byteLength_append]
  rw [if_pos (by simp)]

end GoingBack

/-! ## Order -/

section Order

/-- The position behind a longer text comes later. -/
theorem precedes_after_append {passed more : List Char} (hne : more ≠ [])
    (hfit : (passed ++ more).length < 2 ^ 32 - 1) : (Position.after passed).Precedes (.after (passed ++ more)) := by
  have hlength : (passed ++ more).length = passed.length + more.length := List.length_append
  obtain ⟨hline, hcolumn⟩ := toNat_after (show passed.length < 2 ^ 32 - 1 by omega)
  obtain ⟨hline', hcolumn'⟩ := toNat_after hfit
  rw [List.count_append] at hline'
  by_cases hfeed : '\n' ∈ more
  · have hcount := List.count_pos_iff.mpr hfeed
    exact .inl (UInt32.lt_iff_toNat_lt.mpr (by omega))
  · have hcount : more.count '\n' = 0 := List.count_eq_zero.mpr hfeed
    have hall : ∀ c ∈ more.reverse, decide (c ≠ '\n') = true := by
      intro c hc
      rw [decide_eq_true_eq]
      rintro rfl
      exact hfeed (List.mem_reverse.mp hc)
    have hpos := List.length_pos_iff.mpr hne
    rw [List.reverse_append, List.takeWhile_append_of_pos hall, List.length_append, List.length_reverse] at hcolumn'
    refine .inr ⟨UInt32.toNat.inj (by omega), UInt32.lt_iff_toNat_lt.mpr (by omega)⟩

/-- Of two beginnings of a text, the one with fewer bytes is the beginning of the other. -/
theorem exists_append_of_byteLength_lt {before rest before' rest' : List Char} (h : before ++ rest = before' ++ rest')
    (hlt : byteLength before < byteLength before') : ∃ more, more ≠ [] ∧ before' = before ++ more := by
  rcases List.append_eq_append_iff.mp h with ⟨more, rfl, -⟩ | ⟨more, rfl, -⟩
  · refine ⟨more, ?_, rfl⟩
    rintro rfl
    simp at hlt
  · rw [byteLength_append] at hlt
    omega

end Order

/-! ## All offsets of a text -/

section Offsets

variable {source : List Char}

/-- The text behind an offset inside a text is not empty, and what stands before it can be counted. -/
theorem rest_ne_nil {before rest : List Char} (hfit : byteLength (before ++ rest) < 2 ^ 32)
    (hlt : byteLength before < byteLength (before ++ rest)) : rest ≠ [] ∧ before.length < 2 ^ 32 - 1 := by
  have hle := length_le_byteLength before
  rw [byteLength_append] at hfit hlt
  refine ⟨?_, by omega⟩
  rintro rfl
  rw [byteLength_nil] at hlt
  omega

theorem precedes_positionAt (hfit : byteLength source < 2 ^ 32) {o o' : UInt32} (ho : IsBoundary source o.toNat)
    (ho' : IsBoundary source o'.toNat) (hlt : o < o') (hend : o'.toNat < byteLength source) :
    (positionAt source o).Precedes (positionAt source o') := by
  obtain ⟨before, rest, rfl, hb⟩ := ho
  obtain ⟨before', rest', hs, hb'⟩ := ho'
  rw [UInt32.lt_iff_toNat_lt, hb, hb'] at hlt
  obtain ⟨more, hmore, rfl⟩ := exists_append_of_byteLength_lt hs hlt
  rw [hb'] at hend
  obtain ⟨hrest, -⟩ := rest_ne_nil hfit (by omega)
  rw [hs] at hfit hend
  obtain ⟨hrest', hlength⟩ := rest_ne_nil hfit hend
  rw [positionAt_append hrest hb, hs, positionAt_append hrest' hb']
  exact precedes_after_append hmore hlength

theorem positionAt_inside {o next : UInt32} (h : IsNextBoundary source o.toNat next.toNat)
    (hend : next.toNat < byteLength source) : positionAt source o = positionAt source next := by
  obtain ⟨passed, rest, rfl, hp⟩ := h.isBoundary
  rcases List.eq_nil_or_concat passed with rfl | ⟨before, c, rfl⟩
  · rw [byteLength_nil] at hp
    exact absurd h.lt (by omega)
  · -- the character that ends at the boundary starts before the offset, which lies inside it
    rw [List.concat_eq_append] at hp hend ⊢
    have hbytes : byteLength (before ++ [c]) = byteLength before + c.utf8Size := by simp
    have hpos := c.utf8Size_pos
    have hstart : byteLength before < o.toNat := by
      by_contra hle
      exact h.inside _ (by omega) (by omega) ⟨before, c :: rest, by simp, rfl⟩
    have hlt := h.lt
    have hchars : ∀ k, byteLength before < k → k ≤ next.toNat →
        Position.charsBefore k (before ++ [c] ++ rest) = before ++ [c] := by
      intro k hk hle
      rw [List.append_assoc, List.singleton_append]
      exact charsBefore_inside rest before hk (by omega)
    rw [positionAt_of_lt (by omega), positionAt_of_lt hend, hchars _ hstart (by omega),
      hchars _ (by omega) (Nat.le_refl _)]

/-- Behind characters before the offset, the rest of the walk starts at the position after them. -/
theorem positionAt_eq_walk {o : UInt32} (hlt : o.toNat < byteLength source) {passed rest : List Char}
    (hsource : source = passed ++ rest) (hpassed : passed <+: Position.charsBefore o.toNat source) :
    positionAt source o = .walk o.toNat (byteLength passed) (.after passed) rest := by
  subst hsource
  rw [positionAt, if_neg (Nat.not_le_of_lt hlt), Position.walk_append _ _ _ _ _ hpassed, Nat.zero_add,
    Position.foldl_step_start]

/-- **Positions are exact**: the position of an offset between characters inside a text counts what stands before it,
and going there leads back to the offset; later offsets have later positions; an offset inside a character has the
position of the next one between characters, if that still lies inside the text; and on the way to any offset no
counter outgrows its word. -/
theorem positionAt_exact (source : List Char) (hfit : byteLength source < 2 ^ 32) :
    (∀ (o : UInt32) (before rest : List Char), source = before ++ rest → o.toNat = byteLength before →
        o.toNat < byteLength source →
        (positionAt source o).IsAfter before ∧ Position.offsetOf? source (positionAt source o) = some o.toNat) ∧
      (∀ o o' : UInt32, IsBoundary source o.toNat → IsBoundary source o'.toNat → o < o' →
        o'.toNat < byteLength source → (positionAt source o).Precedes (positionAt source o')) ∧
      (∀ o next : UInt32, IsNextBoundary source o.toNat next.toNat → next.toNat < byteLength source →
        positionAt source o = positionAt source next) ∧
      ∀ o : UInt32, o.toNat < byteLength source → ∀ passed, passed <+: Position.charsBefore o.toNat source →
        (Position.after passed).IsAfter passed ∧ ∀ rest, source = passed ++ rest →
          positionAt source o = .walk o.toNat (byteLength passed) (.after passed) rest := by
  refine ⟨?_, fun o o' => precedes_positionAt hfit, fun o next => positionAt_inside, ?_⟩
  · rintro o before rest rfl ho hlt
    rw [ho] at hlt ⊢
    obtain ⟨hrest, hlength⟩ := rest_ne_nil hfit hlt
    rw [positionAt_append hrest ho]
    exact ⟨after_isAfter hlength, offsetOf?_after hlength rest⟩
  · intro o hlt passed hpassed
    have hle := hpassed.length_le
    have hchars := length_charsBefore_le source o.toNat
    exact ⟨after_isAfter (by omega), fun rest hsource => positionAt_eq_walk hlt hsource hpassed⟩

/-- A text with characters of one, two and three bytes. Its second line starts at offset 4 with a character of three
bytes, so that the next one stands at offset 7, and 5 counts as that. -/
theorem positionAt_exact_wide :
    byteLength "é;\n日x".toList < 2 ^ 32 ∧ (positionAt "é;\n日x".toList 7).IsAfter "é;\n日".toList ∧
      Position.offsetOf? "é;\n日x".toList (positionAt "é;\n日x".toList 7) = some 7 ∧
      (positionAt "é;\n日x".toList 4).Precedes (positionAt "é;\n日x".toList 7) ∧
      positionAt "é;\n日x".toList 5 = positionAt "é;\n日x".toList 7 := by
  have hfit : byteLength "é;\n日x".toList < 2 ^ 32 := by decide
  have hnext : IsNextBoundary "é;\n日x".toList (5 : UInt32).toNat (7 : UInt32).toNat :=
    ⟨by decide, by decide, by decide⟩
  obtain ⟨hexact, horder, hinside, -⟩ := positionAt_exact "é;\n日x".toList hfit
  obtain ⟨hafter, hwalk⟩ := hexact 7 "é;\n日".toList "x".toList (by decide) (by decide) (by decide)
  exact ⟨hfit, hafter, hwalk, horder 4 7 (by decide) (by decide) (by decide) (by decide),
    hinside 5 7 hnext (by decide)⟩

end Offsets

end AccessorGen
