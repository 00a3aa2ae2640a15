import AccessorGen.Generate
import Mathlib.Algebra.GroupWithZero.Nat
import Mathlib.Data.List.Forall2

/-!
# Where the source lines of a text stand

- Trimming cuts blanks off both ends and nothing else (`exists_trim_eq`), so the place of a trimmed piece is known
  from the bytes in front of it (`ofPiece_line`, `ofPiece_start`, `ofPiece_stop`);
- the source lines of a text are its numbered lines that are not blank, each with its number and with the span where
  it stands (`sourceLines_forall₂`);
- there are none exactly if the text is blank (`sourceLines_eq_nil_iff`);
- the source lines of two texts with a line feed between them are those of the first and those of the second, moved
  (`sourceLines_append`).
-/

namespace AccessorGen

open Text

/-! ## Pieces -/

section Pieces

/-- Trimming cuts the blanks in front off, and blanks at the end. -/
theorem eq_takeWhile_append_trim (piece : List Char) :
    ∃ trail, piece = piece.takeWhile isBlank ++ trim piece ++ trail ∧ ∀ c ∈ trail, isBlank c := by
  refine ⟨((trimStart piece).reverse.takeWhile isBlank).reverse, ?_, ?_⟩
  · have he : trimStart piece = trim piece ++ ((trimStart piece).reverse.takeWhile isBlank).reverse := by
      rw [trim, trimEnd, ← List.reverse_append, List.takeWhile_append_dropWhile, List.reverse_reverse]
    rw [List.append_assoc, ← he]
    exact List.takeWhile_append_dropWhile.symm
  · intro c hc
    exact List.all_eq_true.mp List.all_takeWhile c (List.mem_reverse.mp hc)

/-- The bytes that trimming cuts off in front are those of the blanks there. -/
theorem byteLength_sub_trimStart (piece : List Char) :
    byteLength piece - byteLength (trimStart piece) = byteLength (piece.takeWhile isBlank) := by
  have hs : piece = piece.takeWhile isBlank ++ trimStart piece := List.takeWhile_append_dropWhile.symm
  have hb := congrArg byteLength hs
  rw [byteLength_append] at hb
  omega

/-- Trimming cuts blanks off both ends, and the bytes that the front loses are those in front of the trimmed
text. -/
theorem exists_trim_eq (piece : List Char) :
    ∃ lead trail, piece = lead ++ trim piece ++ trail ∧ (∀ c ∈ lead, isBlank c) ∧ (∀ c ∈ trail, isBlank c) ∧
      byteLength piece - byteLength (trimStart piece) = byteLength lead := by
  obtain ⟨trail, hp, ht⟩ := eq_takeWhile_append_trim piece
  exact ⟨piece.takeWhile isBlank, trail, hp, List.all_eq_true.mp List.all_takeWhile, ht,
    byteLength_sub_trimStart piece⟩

/-- A text that is not empty has a byte. -/
theorem byteLength_pos {s : List Char} (h : s ≠ []) : 0 < byteLength s := by
  have := length_le_byteLength s
  have := List.length_pos_iff.mpr h
  omega

/-- A piece that is not blank has a byte. -/
theorem byteLength_pos_of_trim {piece : List Char} (h : trim piece ≠ []) : 0 < byteLength piece := by
  refine byteLength_pos ?_
  rintro rfl
  exact h rfl

/-- The bytes of several pieces with line feeds between them. -/
theorem byteLength_intercalate_cons {piece : List Char} {pieces : List (List Char)} (h : pieces ≠ []) :
    byteLength (['\n'].intercalate (piece :: pieces)) =
      byteLength piece + 1 + byteLength (['\n'].intercalate pieces) := by
  rw [List.intercalate_cons_of_ne_nil h, byteLength_append, byteLength_append]
  rfl

/-- The trimmed pieces of a text that are not blank, each with the number of its line. -/
def numberedLines (raw : List Char) : List (Nat × List Char) :=
  ((raw.splitOn '\n').zipIdx 1).filterMap fun (piece, number) => (trim? piece).map (number, ·)

/-- Numbers of lines only grow. -/
theorem numberedLines_pairwise (raw : List Char) : (numberedLines raw).Pairwise (·.1 < ·.1) := by
  have h : ((raw.splitOn '\n').zipIdx 1).Pairwise (·.2 < ·.2) := by
    rw [← List.pairwise_map, List.zipIdx_map_snd]
    exact List.pairwise_lt_range' 1
  refine h.filterMap _ ?_
  intro x y hxy l hl l' hl'
  obtain ⟨t, -, rfl⟩ := Option.map_eq_some_iff.mp hl
  obtain ⟨t', -, rfl⟩ := Option.map_eq_some_iff.mp hl'
  exact hxy

end Pieces

/-! ## Spans -/

section Spans

/-- The span lies between characters of `raw`, and the text between them is `text`. -/
def Span.Shows (span : Span) (raw text : List Char) : Prop :=
  ∃ before after, raw = before ++ text ++ after ∧ span.start.toNat = byteLength before ∧
    span.stop.toNat = byteLength (before ++ text)

/-- A span that shows something is not empty and does not go beyond the text. -/
theorem Span.Shows.bounds {span : Span} {raw text : List Char} (h : span.Shows raw text) (ht : text ≠ []) :
    span.start < span.stop ∧ span.stop.toNat ≤ byteLength raw := by
  obtain ⟨before, after, rfl, hs, he⟩ := h
  have := byteLength_pos ht
  rw [UInt32.lt_iff_toNat_lt, hs, he]
  simp only [byteLength_append]
  omega

namespace SourceLine

variable {number offset : Nat} {piece : List Char}

/-- The number of a piece is kept if it fits a word. -/
theorem ofPiece_line (h : number < 2 ^ 32) : (ofPiece number offset piece).location.line.toNat = number :=
  UInt32.toNat_ofNat_of_lt' h

/-- The span of a piece starts after its leading blanks. -/
theorem ofPiece_start (h : offset + byteLength piece < 2 ^ 32) :
    (ofPiece number offset piece).location.span.start.toNat =
      offset + (byteLength piece - byteLength (trimStart piece)) :=
  UInt32.toNat_ofNat_of_lt' (show _ < 2 ^ 32 by omega)

/-- The span of a piece ends where its trimmed text does. -/
theorem ofPiece_stop (h : offset + byteLength piece < 2 ^ 32) :
    (ofPiece number offset piece).location.span.stop.toNat =
      offset + (byteLength piece - byteLength (trimStart piece)) + byteLength (trim piece) := by
  obtain ⟨lead, trail, hp, -, -, hl⟩ := exists_trim_eq piece
  have hb := congrArg byteLength hp
  simp only [byteLength_append] at hb
  exact UInt32.toNat_ofNat_of_lt' (show _ < 2 ^ 32 by omega)

/-- The span of a piece shows its trimmed text. -/
theorem ofPiece_shows {before after : List Char} (h : byteLength (before ++ piece ++ after) < 2 ^ 32) :
    (ofPiece number (byteLength before) piece).location.span.Shows (before ++ piece ++ after) (trim piece) := by
  obtain ⟨lead, trail, hp, -, -, hl⟩ := exists_trim_eq piece
  have hfit : byteLength before + byteLength piece < 2 ^ 32 := by
    simp only [byteLength_append] at h
    omega
  refine ⟨before ++ lead, trail ++ after, ?_, ?_, ?_⟩
  · conv => lhs; rw [hp]
    simp only [List.append_assoc]
  · rw [ofPiece_start hfit, hl, byteLength_append]
  · rw [ofPiece_stop hfit, hl, byteLength_append, byteLength_append]

end SourceLine

end Spans

/-! ## The lines of a text -/

section Lines

/-- The source line has the given number and text, and shows the text in `raw`. -/
structure SourceLine.IsAt (raw : List Char) (line : Nat × List Char) (l : SourceLine) : Prop where
  text_eq : l.text = line.2
  text_ne_nil : line.2 ≠ []
  line_eq : l.location.line.toNat = line.1
  shows : l.location.span.Shows raw line.2

/-- A piece that is not blank is a source line at its place. A line has no higher number than there are bytes in
front of it, and one more, so that the number fits a word if the text does. -/
theorem SourceLine.ofPiece_isAt {number : Nat} {before piece after : List Char}
    (hfit : byteLength (before ++ piece ++ after) < 2 ^ 32) (hnum : number ≤ byteLength before + 1)
    (hne : trim piece ≠ []) :
    (ofPiece number (byteLength before) piece).IsAt (before ++ piece ++ after) (number, trim piece) := by
  have hpos := byteLength_pos_of_trim hne
  have hlt : number < 2 ^ 32 := by
    simp only [byteLength_append] at hfit
    omega
  exact ⟨rfl, hne, ofPiece_line hlt, ofPiece_shows hfit⟩

/-- The source lines among the pieces after `before` are the pieces that are not blank, at their places. -/
theorem SourceLine.ofPieces_forall₂ {raw : List Char} (hfit : byteLength raw < 2 ^ 32) :
    ∀ (pieces : List (List Char)) (number : Nat) (before : List Char), raw = before ++ ['\n'].intercalate pieces →
      number ≤ byteLength before + 1 →
      List.Forall₂ (IsAt raw) ((pieces.zipIdx number).filterMap fun (piece, n) => (trim? piece).map (n, ·))
        (ofPieces number (byteLength before) pieces)
  | [], number, before, _, _ => .nil
  | piece :: pieces, number, before, hraw, hnum => by
    -- what follows the piece starts with a line feed unless the piece is the last one
    obtain ⟨after, hpiece, hlater⟩ : ∃ after, raw = before ++ piece ++ after ∧
        (pieces ≠ [] → after = '\n' :: ['\n'].intercalate pieces) := by
      rcases eq_or_ne pieces [] with rfl | h
      · exact ⟨[], by simpa using hraw, fun h => absurd rfl h⟩
      · refine ⟨'\n' :: ['\n'].intercalate pieces, ?_, fun _ => rfl⟩
        rw [hraw, List.intercalate_cons_of_ne_nil h]
        simp
    have ih : List.Forall₂ (IsAt raw)
        ((pieces.zipIdx (number + 1)).filterMap fun (piece, n) => (trim? piece).map (n, ·))
        (ofPieces (number + 1) (byteLength before + byteLength piece + 1) pieces) := by
      rcases eq_or_ne pieces [] with rfl | h
      · exact .nil
      · have hb : byteLength (before ++ piece ++ ['\n']) = byteLength before + byteLength piece + 1 := by
          simp only [byteLength_append]
          rfl
        rw [← hb]
        refine ofPieces_forall₂ hfit pieces (number + 1) (before ++ piece ++ ['\n']) ?_ (by omega)
        rw [hpiece, hlater h]
        simp
    rw [List.zipIdx_cons, ofPieces]
    by_cases ht : trim piece = []
    · rw [List.filterMap_cons_none (by simp [trim?, ht])]
      simpa [ht] using ih
    · rw [List.filterMap_cons_some (b := (number, trim piece)) (by simp [trim?, ht])]
      simp only [List.isEmpty_iff, ht, ↓reduceIte]
      refine .cons ?_ ih
      rw [hpiece] at hfit ⊢
      exact ofPiece_isAt hfit hnum ht

/-- The source lines of a text are its numbered lines, each at its place. -/
theorem sourceLines_forall₂ {raw : List Char} (h : byteLength raw < 2 ^ 32) :
    List.Forall₂ (SourceLine.IsAt raw) (numberedLines raw) (sourceLines raw) :=
  SourceLine.ofPieces_forall₂ h (raw.splitOn '\n') 1 [] (by simp) (by simp)

end Lines

/-! ## Blank texts -/

section BlankTexts

/-- Pieces with line feeds between them are blank if each of them is. -/
theorem intercalate_blank_iff : ∀ pieces : List (List Char),
    (∀ c ∈ ['\n'].intercalate pieces, isBlank c) ↔ ∀ piece ∈ pieces, trim piece = []
  | [] => by simp
  | piece :: pieces => by
    have ih := intercalate_blank_iff pieces
    rw [List.forall_mem_cons, trim_eq_nil_iff, ← ih]
    rcases eq_or_ne pieces [] with rfl | h
    · simp
    · rw [List.intercalate_cons_of_ne_nil h]
      simp only [List.forall_mem_append, List.forall_mem_singleton]
      have hn : isBlank '\n' := by decide
      simp [hn]

/-- Pieces have no source line exactly if all of them are blank. -/
theorem SourceLine.ofPieces_eq_nil_iff : ∀ (pieces : List (List Char)) (number offset : Nat),
    ofPieces number offset pieces = [] ↔ ∀ piece ∈ pieces, trim piece = []
  | [], number, offset => by simp [ofPieces]
  | piece :: pieces, number, offset => by
    have ih := ofPieces_eq_nil_iff pieces (number + 1) (offset + byteLength piece + 1)
    rw [ofPieces, List.forall_mem_cons]
    by_cases ht : trim piece = []
    · simp [ht, ih]
    · simp [ht]

/-- A text has no source line exactly if it is blank. -/
theorem sourceLines_eq_nil_iff {raw : List Char} : sourceLines raw = [] ↔ ∀ c ∈ raw, isBlank c := by
  rw [sourceLines, SourceLine.ofPieces_eq_nil_iff, ← intercalate_blank_iff, List.intercalate_splitOn]

end BlankTexts

/-! ## Two texts -/

section TwoTexts

/-- A text has one more piece than line feeds. -/
theorem length_splitOn (a : Char) : ∀ s : List Char, (s.splitOn a).length = s.count a + 1
  | [] => rfl
  | c :: s => by
    have ih := length_splitOn a s
    rw [List.splitOn_cons_eq_if_modifyHead, List.count_cons]
    by_cases h : c = a
    · simp [h, ih]
    · simp [h, ih]

/-- The bytes of pieces, each with the line feed after it. -/
def piecesBytes (pieces : List (List Char)) : Nat :=
  (pieces.map fun piece => byteLength piece + 1).sum

/-- Pieces have the bytes of the text they make up, and one for the line feed after the last. -/
theorem piecesBytes_eq : ∀ {pieces : List (List Char)}, pieces ≠ [] →
    piecesBytes pieces = byteLength (['\n'].intercalate pieces) + 1
  | [piece], _ => by simp [piecesBytes]
  | piece :: q :: pieces, _ => by
    have ih := piecesBytes_eq (List.cons_ne_nil q pieces)
    rw [byteLength_intercalate_cons (by simp)]
    simp only [piecesBytes, List.map_cons, List.sum_cons] at ih ⊢
    omega

/-- The source lines among more pieces go on where the first ones end. -/
theorem SourceLine.ofPieces_append (later : List (List Char)) : ∀ (pieces : List (List Char)) (number offset : Nat),
    ofPieces number offset (pieces ++ later) =
      ofPieces number offset pieces ++ ofPieces (number + pieces.length) (offset + piecesBytes pieces) later
  | [], number, offset => by simp [ofPieces, piecesBytes]
  | piece :: pieces, number, offset => by
    have ih := ofPieces_append later pieces (number + 1) (offset + byteLength piece + 1)
    have hn : number + 1 + pieces.length = number + (piece :: pieces).length := by
      rw [List.length_cons]
      omega
    have ho : offset + byteLength piece + 1 + piecesBytes pieces = offset + piecesBytes (piece :: pieces) := by
      simp only [piecesBytes, List.map_cons, List.sum_cons]
      omega
    rw [List.cons_append, ofPieces, ofPieces, ih, hn, ho]
    split
    · rfl
    · rw [List.cons_append]

/-- The second location is the first, `lines` further down and `bytes` further on. -/
structure Location.Moved (lines bytes : Nat) (l l' : Location) : Prop where
  line_eq : l'.line.toNat = l.line.toNat + lines
  start_eq : l'.span.start.toNat = l.span.start.toNat + bytes
  stop_eq : l'.span.stop.toNat = l.span.stop.toNat + bytes

/-- The second source line has the text of the first, `lines` further down and `bytes` further on. -/
structure SourceLine.Moved (lines bytes : Nat) (l l' : SourceLine) : Prop where
  text_eq : l'.text = l.text
  location : l.location.Moved lines bytes l'.location

/-- Pieces that start later give the same source lines, moved. -/
theorem SourceLine.ofPieces_moved {lines bytes : Nat} : ∀ (pieces : List (List Char)) (number offset : Nat),
    number + lines ≤ offset + bytes + 1 → offset + bytes + byteLength (['\n'].intercalate pieces) < 2 ^ 32 →
    List.Forall₂ (Moved lines bytes) (ofPieces number offset pieces)
      (ofPieces (number + lines) (offset + bytes) pieces)
  | [], number, offset, _, _ => .nil
  | piece :: pieces, number, offset, hnum, hfit => by
    have hpiece : offset + bytes + byteLength piece < 2 ^ 32 := by
      rcases eq_or_ne pieces [] with rfl | h
      · simpa using hfit
      · rw [byteLength_intercalate_cons h] at hfit
        omega
    have ih : List.Forall₂ (Moved lines bytes) (ofPieces (number + 1) (offset + byteLength piece + 1) pieces)
        (ofPieces (number + lines + 1) (offset + bytes + byteLength piece + 1) pieces) := by
      rcases eq_or_ne pieces [] with rfl | h
      · exact .nil
      · rw [byteLength_intercalate_cons h] at hfit
        rw [show number + lines + 1 = number + 1 + lines by omega,
          show offset + bytes + byteLength piece + 1 = offset + byteLength piece + 1 + bytes by omega]
        exact ofPieces_moved pieces (number + 1) (offset + byteLength piece + 1) (by omega) (by omega)
    rw [ofPieces, ofPieces]
    by_cases ht : trim piece = []
    · simpa [ht] using ih
    · simp only [List.isEmpty_iff, ht, ↓reduceIte]
      have hpos := byteLength_pos_of_trim ht
      refine .cons ⟨rfl, ?_, ?_, ?_⟩ ih
      · rw [ofPiece_line (by omega), ofPiece_line (by omega)]
      · rw [ofPiece_start hpiece, ofPiece_start (by omega)]
        omega
      · rw [ofPiece_stop hpiece, ofPiece_stop (by omega)]
        omega

/-- The source lines of two texts with a line feed between them are those of the first, and those of the second as
far down and as far on as the first reaches. -/
theorem sourceLines_append {a b : List Char} (h : byteLength (a ++ '\n' :: b) < 2 ^ 32) :
    ∃ later, sourceLines (a ++ '\n' :: b) = sourceLines a ++ later ∧
      List.Forall₂ (SourceLine.Moved (a.count '\n' + 1) (byteLength a + 1)) (sourceLines b) later := by
  have hbytes : byteLength (a ++ '\n' :: b) = byteLength a + 1 + byteLength b := by
    rw [byteLength_append, byteLength_cons, Nat.add_assoc]
    rfl
  refine ⟨SourceLine.ofPieces (1 + (a.count '\n' + 1)) (0 + (byteLength a + 1)) (b.splitOn '\n'), ?_, ?_⟩
  · have hp : piecesBytes (a.splitOn '\n') = byteLength a + 1 := by
      rw [piecesBytes_eq (by simp), List.intercalate_splitOn]
    rw [sourceLines, List.splitOn_append_cons_self, SourceLine.ofPieces_append, length_splitOn, hp, sourceLines]
  · have hc : a.count '\n' ≤ byteLength a := Nat.le_trans List.count_le_length (length_le_byteLength a)
    refine SourceLine.ofPieces_moved (b.splitOn '\n') 1 0 (by omega) ?_
    rw [List.intercalate_splitOn]
    omega

end TwoTexts

end AccessorGen
