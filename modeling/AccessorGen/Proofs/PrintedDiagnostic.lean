import AccessorGen.Diagnostic.Format
import AccessorGen.Proofs.Outcome
import AccessorGen.Proofs.Position
import AccessorGen.Proofs.SourceLines

/-!
# Where a printed diagnostic points

Lines are counted when a text is taken apart, when the position of a diagnostic is looked up, and when the line to show
is picked. A source line is one of the pieces of its text (`SourceLine.exists_isPiece`), and from the piece it follows
that the three agree: the position of the line has its number (`SourceLine.IsPiece.positionAt_start`), and the line with
that number shows the piece (`SourceLine.IsPiece.format_eq`). So every printed diagnostic names the right place and
shows the right line (`locates_of_mem_diagnostics`).
-/

namespace AccessorGen

open Text

/-! ## The pieces of a text -/

/-- The piece of a text that makes up the line with the given number. -/
def pieceAt (raw : List Char) (number : Nat) : List Char :=
  (raw.splitOn '\n').getD (number - 1) []

/-- The piece with the given number without the carriage return that belongs to its line end, if it has one. -/
def excerptAt (raw : List Char) (number : Nat) : List Char :=
  if number < (raw.splitOn '\n').length then dropCarriageReturn (pieceAt raw number) else pieceAt raw number

/-- The blanks in front of a piece. -/
def indentation (piece : List Char) : List Char :=
  piece.takeWhile isBlank

/-- A trimmed text does not end in a blank. -/
theorem not_isBlank_getLast?_trim (s : List Char) : ∀ c ∈ (trim s).getLast?, ¬ isBlank c := by
  intro c hc
  have hstop := List.head?_dropWhile_not isBlank (trimStart s).reverse
  rw [trim, trimEnd, List.getLast?_reverse] at hc
  rw [hc] at hstop
  simpa using hstop

/-- The source line is the given piece of a text. -/
structure SourceLine.IsPiece (raw : List Char) (before : List (List Char)) (piece : List Char)
    (later : List (List Char)) (l : SourceLine) : Prop where
  pieces_eq : raw.splitOn '\n' = before ++ piece :: later
  text_eq : l.text = trim piece
  text_ne_nil : trim piece ≠ []
  line_eq : l.location.line.toNat = before.length + 1
  start_eq : l.location.span.start.toNat = byteLength (unlines before ++ indentation piece)
  stop_eq : l.location.span.stop.toNat = byteLength (unlines before ++ (indentation piece ++ trim piece))

section Pieces

/-- A source line among pieces is one of the pieces. -/
theorem SourceLine.exists_of_mem_ofPieces {l : SourceLine} : ∀ {pieces : List (List Char)} {number offset : Nat},
    l ∈ ofPieces number offset pieces → ∃ before piece later, pieces = before ++ piece :: later ∧
      trim piece ≠ [] ∧ l = ofPiece (number + before.length) (offset + byteLength (unlines before)) piece
  | [], number, offset, h => by cases h
  | piece :: pieces, number, offset, h => by
    have hlater : l ∈ ofPieces (number + 1) (offset + byteLength piece + 1) pieces →
        ∃ before p later, piece :: pieces = before ++ p :: later ∧
          trim p ≠ [] ∧ l = ofPiece (number + before.length) (offset + byteLength (unlines before)) p := by
      intro h
      obtain ⟨before, p, later, rfl, hne, rfl⟩ := exists_of_mem_ofPieces h
      refine ⟨piece :: before, p, later, rfl, hne, ?_⟩
      have hn : number + 1 + before.length = number + (piece :: before).length := by
        rw [List.length_cons]
        omega
      have ho : offset + byteLength piece + 1 + byteLength (unlines before) =
          offset + byteLength (unlines (piece :: before)) := by
        rw [byteLength_unlines_cons]
        omega
      rw [hn, ho]
    rw [ofPieces] at h
    split at h
    · exact hlater h
    · rename_i ht
      rcases List.mem_cons.mp h with rfl | h
      · exact ⟨[], piece, pieces, rfl, by simpa using ht, rfl⟩
      · exact hlater h

/-- Every source line of a text is one of its pieces. -/
theorem SourceLine.exists_isPiece {raw : List Char} (hfit : byteLength raw < 2 ^ 32) {l : SourceLine}
    (h : l ∈ sourceLines raw) : ∃ before piece later, l.IsPiece raw before piece later := by
  obtain ⟨before, piece, later, hp, hne, rfl⟩ := exists_of_mem_ofPieces h
  obtain ⟨after, hraw, -⟩ := eq_append_of_splitOn_eq hp
  have hbytes := congrArg byteLength hraw
  simp only [byteLength_append] at hbytes
  have hpos := byteLength_pos_of_trim hne
  -- there are no more lines than bytes in front of the piece, so its number fits a word
  have hlines : before.length ≤ byteLength (unlines before) := by
    rw [← count_unlines fun line hl => not_mem_of_mem_splitOn (hp ▸ List.mem_append_left _ hl)]
    exact Nat.le_trans List.count_le_length (length_le_byteLength _)
  refine ⟨before, piece, later, hp, rfl, hne, ?_, ?_, ?_⟩
  · rw [ofPiece_line (by omega), Nat.add_comm]
  · rw [ofPiece_start (by omega), byteLength_sub_trimStart, Nat.zero_add, byteLength_append, indentation]
  · rw [ofPiece_stop (by omega), byteLength_sub_trimStart, Nat.zero_add, byteLength_append, byteLength_append,
      indentation, Nat.add_assoc]

end Pieces

/-! ## The place of a source line -/

/-- A diagnostic printed with its place, the line that it shows and the line below that. -/
def Diagnostic.printed (origin : List Char) (number column : Nat) (excerpt below : List Char) (d : Diagnostic) :
    List Char :=
  origin ++ [':'] ++ decimal number ++ [':'] ++ decimal column ++ ": ".toList
    ++ d.severity.label ++ ": ".toList ++ d.message
    ++ "\n  ".toList ++ decimal number ++ " | ".toList ++ excerpt
    ++ ['\n'] ++ below

/-- The line below the excerpt: a gutter as wide as the number of the line, spaces and marks. -/
def underlineLine (number : Nat) (marks : List Char) : List Char :=
  "  ".toList ++ List.replicate (decimal number).length ' ' ++ " | ".toList ++ marks

/-- There is no line feed below the excerpt. -/
theorem lineFeed_not_mem_underlineLine (number : Nat) (content : List Char) (first stop : Nat) :
    '\n' ∉ underlineLine number (underline content first stop) := by
  simp [underlineLine, underline]

namespace SourceLine.IsPiece

variable {raw piece : List Char} {before later : List (List Char)} {l : SourceLine}

/-- No line before the piece holds a line feed, and neither does the piece. -/
theorem not_mem (h : l.IsPiece raw before piece later) : (∀ line ∈ before, '\n' ∉ line) ∧ '\n' ∉ piece := by
  have hall : ∀ line ∈ before ++ piece :: later, '\n' ∉ line := by
    intro line hl
    rw [← h.pieces_eq] at hl
    exact not_mem_of_mem_splitOn hl
  refine ⟨fun line hl => hall line (by simp [hl]), hall piece (by simp)⟩

/-- The number of a source line is that of its piece. -/
theorem pieceAt_eq (h : l.IsPiece raw before piece later) : pieceAt raw l.location.line.toNat = piece := by
  rw [pieceAt, h.line_eq, h.pieces_eq]
  simp

/-- What is shown of the piece of a source line. -/
theorem excerptAt_eq (h : l.IsPiece raw before piece later) :
    excerptAt raw l.location.line.toNat = shownPiece piece later := by
  rw [excerptAt, h.pieceAt_eq, h.line_eq, h.pieces_eq, shownPiece, List.length_append, List.length_cons]
  rcases eq_or_ne later [] with rfl | hne
  · simp
  · have := List.length_pos_iff.mpr hne
    rw [if_pos (by omega), if_neg hne]

/-- The piece has something in it. -/
theorem piece_ne_nil (h : l.IsPiece raw before piece later) : piece ≠ [] := by
  rintro rfl
  exact h.text_ne_nil rfl

/-- Blanks stand around the trimmed text of the piece, also where it is shown. -/
theorem exists_shownPiece_eq (h : l.IsPiece raw before piece later) :
    ∃ trail, shownPiece piece later = indentation piece ++ trim piece ++ trail ∧ ∀ c ∈ trail, isBlank c := by
  obtain ⟨trail, hp, ht⟩ := eq_takeWhile_append_trim piece
  rcases eq_or_ne later [] with rfl | hne
  · exact ⟨trail, by rw [shownPiece, if_pos rfl]; exact hp, ht⟩
  · have hlast : (indentation piece ++ trim piece).getLast? ≠ some '\r' := by
      rw [List.getLast?_append_of_ne_nil _ h.text_ne_nil]
      intro hr
      exact not_isBlank_getLast?_trim piece '\r' hr (by decide)
    refine ⟨dropCarriageReturn trail, ?_, fun c hc => ht c (mem_of_mem_dropCarriageReturn hc)⟩
    rw [shownPiece, if_neg hne, ← dropCarriageReturn_append hlast]
    exact congrArg dropCarriageReturn hp

/-- The text around a source line. Something follows the line if it ends before the text does; otherwise its piece is
the last one and ends with it. -/
theorem exists_raw_eq (h : l.IsPiece raw before piece later) : ∃ rest,
    raw = unlines before ++ (indentation piece ++ trim piece) ++ rest ∧
      (l.location.span.stop.toNat < byteLength raw → rest ≠ []) ∧
      (¬ l.location.span.stop.toNat < byteLength raw → later = [] ∧ piece = indentation piece ++ trim piece) := by
  obtain ⟨trail, hp, -⟩ := eq_takeWhile_append_trim piece
  obtain ⟨after, hraw, hafter⟩ := eq_append_of_splitOn_eq h.pieces_eq
  have hrest : raw = unlines before ++ (indentation piece ++ trim piece) ++ (trail ++ after) := by
    rw [hraw]
    nth_rewrite 1 [hp]
    simp [indentation]
  have hbytes := congrArg byteLength hrest
  rw [byteLength_append, ← h.stop_eq] at hbytes
  refine ⟨trail ++ after, hrest, ?_, ?_⟩
  · intro hlt hnil
    rw [hnil, byteLength_nil] at hbytes
    omega
  · intro hge
    have hnil : trail ++ after = [] := by
      by_contra hne
      have := byteLength_pos hne
      omega
    obtain ⟨rfl, rfl⟩ := List.append_eq_nil_iff.mp hnil
    refine ⟨?_, by simpa [indentation] using hp⟩
    by_contra hne
    cases hafter hne

/-- A source line starts in the line with its number, after the blanks in front of it. -/
theorem positionAt_start (h : l.IsPiece raw before piece later) (hfit : byteLength raw < 2 ^ 32 - 1) :
    (positionAt raw l.location.span.start).line.toNat = l.location.line.toNat ∧
      (positionAt raw l.location.span.start).column.toNat = (indentation piece).length + 1 := by
  obtain ⟨hbefore, hpiece⟩ := h.not_mem
  obtain ⟨rest, hraw, -⟩ := h.exists_raw_eq
  have hraw' : raw = (unlines before ++ indentation piece) ++ (trim piece ++ rest) := by
    rw [hraw]
    simp
  have hbytes := congrArg byteLength hraw'
  rw [byteLength_append] at hbytes
  have hindent : '\n' ∉ indentation piece := fun hm => hpiece ((List.takeWhile_sublist _).subset hm)
  have hposition : positionAt raw l.location.span.start = .after (unlines before ++ indentation piece) := by
    rw [hraw']
    exact positionAt_append (by simp [h.text_ne_nil]) h.start_eq
  have hchars := length_le_byteLength (unlines before ++ indentation piece)
  rw [hposition, h.line_eq]
  exact after_unlines hbefore hindent (by omega)

/-- A printed diagnostic about a source line names the number of the line and the column where it starts, and shows
the piece that it stands in. -/
theorem format_eq (h : l.IsPiece raw before piece later) (hfit : byteLength raw < 2 ^ 32 - 1) {d : Diagnostic}
    (hd : d.location = some l.location) (origin : List Char) : d.format raw origin =
      d.printed origin l.location.line.toNat ((indentation piece).length + 1) (shownPiece piece later)
        (underlineLine l.location.line.toNat (underline (shownPiece piece later)
          ((indentation piece).length + 1) (positionAt raw l.location.span.stop).column.toNat)) := by
  obtain ⟨hline, hcolumn⟩ := h.positionAt_start hfit
  have hcontent : (lines raw).getD (l.location.line.toNat - 1) [] = shownPiece piece later := by
    rw [h.line_eq, Nat.add_sub_cancel]
    exact lines_getD h.pieces_eq h.piece_ne_nil
  rw [Diagnostic.format, hd, Diagnostic.printed, underlineLine]
  simp only [hline, hcolumn, hcontent, List.append_assoc]
  rfl

end SourceLine.IsPiece

/-! ## Diagnostics of a text -/

section Diagnostics

variable {raw : List Char} {className : Option (List Char)} {d : Diagnostic} {location : Location}

/-- A diagnostic of a text that has a location is about the source line there. -/
theorem exists_isPiece_of_mem_diagnostics (hfit : byteLength raw < 2 ^ 32)
    (hd : d ∈ (generate raw className).diagnostics) (hl : d.location = some location) :
    ∃ text before piece later kind, (SourceLine.mk text location).IsPiece raw before piece later ∧
      kind ≠ .emptyInput ∧ d = .ofLine kind text location := by
  by_cases hnil : sourceLines raw = []
  · rw [generate_of_eq_nil className hnil] at hd
    cases List.mem_singleton.mp hd
    cases hl
  · obtain ⟨l, hmem, kind, hkind, rfl⟩ := mem_diagnostics_of_ne_nil hnil hd
    cases hl
    obtain ⟨before, piece, later, hpiece⟩ := SourceLine.exists_isPiece hfit hmem
    exact ⟨l.text, before, piece, later, kind, hpiece, hkind, rfl⟩

/-- The printed diagnostic names the line with the given number and the column where its text starts, shows that line,
and quotes text that stands there between blanks. -/
structure Diagnostic.Locates (raw origin : List Char) (number : Nat) (d : Diagnostic) : Prop where
  number_bounds : 1 ≤ number ∧ number ≤ (raw.splitOn '\n').length
  summary_eq : d.summary = d.severity.label ++ " at line ".toList ++ decimal number ++ ": ".toList ++ d.message
  format_eq : ∃ below, '\n' ∉ below ∧ d.format raw origin =
    d.printed origin number ((indentation (pieceAt raw number)).length + 1) (excerptAt raw number) below
  quoted : ∃ wording trail, '"' ∉ wording ∧ d.message = wording ++ ['"'] ++ trim (pieceAt raw number) ++ ['"'] ∧
    excerptAt raw number = indentation (pieceAt raw number) ++ trim (pieceAt raw number) ++ trail ∧
    trim (pieceAt raw number) ≠ [] ∧ (∀ c ∈ indentation (pieceAt raw number), isBlank c) ∧ ∀ c ∈ trail, isBlank c

/-- **A printed diagnostic names the right place and shows the right line**, whichever way lines are counted. -/
theorem locates_of_mem_diagnostics (raw : List Char) (className : Option (List Char)) (origin : List Char)
    (h : byteLength raw < 2 ^ 32 - 1) (d : Diagnostic) (hd : d ∈ (generate raw className).diagnostics)
    (location : Location) (hl : d.location = some location) : d.Locates raw origin location.line.toNat := by
  obtain ⟨text, before, piece, later, kind, hpiece, hkind, rfl⟩ := exists_isPiece_of_mem_diagnostics (by omega) hd hl
  obtain ⟨wording, hquote, hmessage⟩ := exists_message_eq hkind text
  obtain ⟨trail, hshown, htrail⟩ := hpiece.exists_shownPiece_eq
  have hat := hpiece.pieceAt_eq
  have hexcerpt := hpiece.excerptAt_eq
  have htext := hpiece.text_eq
  dsimp only at hat hexcerpt htext
  refine ⟨?_, rfl, ?_, ?_⟩
  · have := hpiece.line_eq
    rw [hpiece.pieces_eq, List.length_append, List.length_cons]
    dsimp only at this
    omega
  · rw [hat, hexcerpt]
    exact ⟨_, lineFeed_not_mem_underlineLine _ _ _ _, hpiece.format_eq h hl origin⟩
  · rw [hat, hexcerpt]
    refine ⟨wording, trail, hquote, ?_, hshown, hpiece.text_ne_nil, List.all_eq_true.mp List.all_takeWhile, htrail⟩
    rw [← htext]
    exact hmessage

/-- A line behind a wide blank, after a blank line, with carriage returns before the line feeds. -/
theorem locates_carriageReturns :
    byteLength "int a_b;\r\n\r\n\u3000bad \r\n".toList < 2 ^ 32 - 1 ∧
      Diagnostic.ofLine .grammarMismatch "bad".toList ⟨3, ⟨15, 18⟩⟩ ∈
        (generate "int a_b;\r\n\r\n\u3000bad \r\n".toList none).diagnostics ∧
      (Diagnostic.ofLine .grammarMismatch "bad".toList ⟨3, ⟨15, 18⟩⟩).Locates
        "int a_b;\r\n\r\n\u3000bad \r\n".toList "a.decl".toList 3 := by
  have hfit : byteLength "int a_b;\r\n\r\n\u3000bad \r\n".toList < 2 ^ 32 - 1 := by decide
  have hd : Diagnostic.ofLine .grammarMismatch "bad".toList ⟨3, ⟨15, 18⟩⟩ ∈
      (generate "int a_b;\r\n\r\n\u3000bad \r\n".toList none).diagnostics := by decide +kernel
  exact ⟨hfit, hd, locates_of_mem_diagnostics _ none "a.decl".toList hfit _ hd ⟨3, ⟨15, 18⟩⟩ rfl⟩

end Diagnostics

end AccessorGen
