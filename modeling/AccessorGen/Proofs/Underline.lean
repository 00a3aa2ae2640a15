import AccessorGen.Proofs.PrintedDiagnostic

/-!
# What a printed diagnostic underlines

The marks below the line of a diagnostic start below the offending text, and there is one for each character of it as
long as something follows the text (`SourceLine.IsPiece.underline_eq`). Where it ends with the whole source, the column
of its end counts bytes, so that the marks are right only for ASCII characters: `underlinesText_iff` says so, and
`not_underlinesText_umlauts` shows a line with too many marks.
-/

namespace AccessorGen

open Text

/-! ## Marks -/

/-- The marks below a line if the columns make sense there. -/
theorem underline_of_lt {content : List Char} {n stop : Nat} (hlt : n + 1 < stop)
    (hle : stop ≤ byteLength content + 1) :
    underline content (n + 1) stop = List.replicate n ' ' ++ List.replicate (stop - (n + 1)) '^' := by
  simp only [underline, if_pos (And.intro hlt hle), Nat.add_sub_cancel]

/-- The number of marks below a source line: one for each of its characters, but at the end of the text one for each
byte of its piece behind as many bytes as there are blanks in front. -/
def markCount (raw piece : List Char) (stop : Nat) : Nat :=
  if stop < byteLength raw then (trim piece).length else byteLength piece - (indentation piece).length

namespace SourceLine.IsPiece

variable {raw piece : List Char} {before later : List (List Char)} {l : SourceLine}

/-- Where a source line ends, the column counts its characters, but its bytes at the end of the text. -/
theorem column_stop (h : l.IsPiece raw before piece later) (hfit : byteLength raw < 2 ^ 32 - 1) :
    (positionAt raw l.location.span.stop).column.toNat =
      (if l.location.span.stop.toNat < byteLength raw then (indentation piece ++ trim piece).length
        else byteLength piece) + 1 := by
  obtain ⟨hbefore, hpiece⟩ := h.not_mem
  obtain ⟨rest, hraw, hlt, hge⟩ := h.exists_raw_eq
  split
  · rename_i hstop
    have hbytes := congrArg byteLength hraw
    rw [byteLength_append] at hbytes
    have htext : '\n' ∉ indentation piece ++ trim piece := by
      obtain ⟨trail, hp, -⟩ := eq_takeWhile_append_trim piece
      intro hm
      rw [hp] at hpiece
      exact hpiece (List.mem_append_left _ hm)
    have hposition : positionAt raw l.location.span.stop =
        .after (unlines before ++ (indentation piece ++ trim piece)) := by
      rw [hraw]
      exact positionAt_append (hlt hstop) h.stop_eq
    have hchars := length_le_byteLength (unlines before ++ (indentation piece ++ trim piece))
    rw [hposition]
    exact (after_unlines hbefore htext (by omega)).2
  · rename_i hstop
    obtain ⟨rfl, -⟩ := hge hstop
    rw [positionAt, if_pos (Nat.le_of_not_lt hstop)]
    exact column_atEnd h.pieces_eq h.piece_ne_nil hfit

/-- The marks below a source line stand behind as many spaces as there are blanks in front of it. -/
theorem underline_eq (h : l.IsPiece raw before piece later) (hfit : byteLength raw < 2 ^ 32 - 1) :
    underline (shownPiece piece later) ((indentation piece).length + 1)
        (positionAt raw l.location.span.stop).column.toNat =
      List.replicate (indentation piece).length ' ' ++
        List.replicate (markCount raw piece l.location.span.stop.toNat) '^' := by
  obtain ⟨rest, -, -, hge⟩ := h.exists_raw_eq
  have htext := List.length_pos_iff.mpr h.text_ne_nil
  rw [h.column_stop hfit, markCount]
  split
  · obtain ⟨trail, hshown, -⟩ := h.exists_shownPiece_eq
    have hbytes := congrArg byteLength hshown
    rw [byteLength_append] at hbytes
    have hchars := length_le_byteLength (indentation piece ++ trim piece)
    rw [List.length_append] at hchars ⊢
    rw [underline_of_lt (by omega) (by omega), Nat.add_sub_add_right, Nat.add_sub_cancel_left]
  · rename_i hstop
    obtain ⟨rfl, hpiece⟩ := hge hstop
    have hchars := length_le_byteLength piece
    have hlength := congrArg List.length hpiece
    rw [List.length_append] at hlength
    rw [shownPiece, if_pos rfl, underline_of_lt (by omega) (Nat.le_refl _), Nat.add_sub_add_right]

/-- There is one mark for each character of the source line exactly if the line ends before the text does or its piece
has ASCII characters only. -/
theorem markCount_eq_iff (h : l.IsPiece raw before piece later) :
    markCount raw piece l.location.span.stop.toNat = (trim piece).length ↔
      l.location.span.stop.toNat < byteLength raw ∨ ∀ c ∈ piece, c.toNat < 128 := by
  obtain ⟨rest, -, -, hge⟩ := h.exists_raw_eq
  rw [markCount]
  split
  · rename_i hstop
    exact iff_of_true rfl (.inl hstop)
  · rename_i hstop
    obtain ⟨-, hpiece⟩ := hge hstop
    have hchars := length_le_byteLength piece
    have hlength := congrArg List.length hpiece
    rw [List.length_append] at hlength
    rw [← byteLength_eq_length_iff]
    omega

end SourceLine.IsPiece

/-! ## The last line of a printed diagnostic -/

/-- The last line of a text. -/
def lastLine (s : List Char) : List Char :=
  (s.splitOn '\n').getLastD []

/-- What stands behind the last line feed is the last line. -/
theorem lastLine_append {s : List Char} (h : '\n' ∉ s) (front : List Char) : lastLine (front ++ ['\n'] ++ s) = s := by
  rw [lastLine, List.append_assoc, List.singleton_append, List.splitOn_append_cons_self, List.splitOn_eq_singleton h]
  simp

/-- The printed diagnostic has one mark below each character of the line with the given number, as far as the line is
not blank at its ends, and no others. -/
def Diagnostic.UnderlinesText (raw origin : List Char) (number : Nat) (d : Diagnostic) : Prop :=
  lastLine (d.format raw origin) = underlineLine number
    (List.replicate (indentation (pieceAt raw number)).length ' ' ++
      List.replicate (trim (pieceAt raw number)).length '^')

instance (raw origin : List Char) (number : Nat) (d : Diagnostic) : Decidable (d.UnderlinesText raw origin number) :=
  inferInstanceAs (Decidable (_ = _))

/-- The last line of a printed diagnostic about a source line. -/
theorem SourceLine.IsPiece.lastLine_format {raw piece : List Char} {before later : List (List Char)} {l : SourceLine}
    (h : l.IsPiece raw before piece later) (hfit : byteLength raw < 2 ^ 32 - 1) {d : Diagnostic}
    (hd : d.location = some l.location) (origin : List Char) :
    lastLine (d.format raw origin) = underlineLine l.location.line.toNat
      (List.replicate (indentation piece).length ' ' ++
        List.replicate (markCount raw piece l.location.span.stop.toNat) '^') := by
  rw [h.format_eq hfit hd, Diagnostic.printed, lastLine_append (lineFeed_not_mem_underlineLine _ _ _ _),
    h.underline_eq hfit]

/-- **The marks are right unless bytes are counted**: a printed diagnostic underlines exactly the offending text if and
only if the text is followed by something or stands in a line of ASCII characters. -/
theorem underlinesText_iff (raw : List Char) (className : Option (List Char)) (origin : List Char)
    (h : byteLength raw < 2 ^ 32 - 1) (d : Diagnostic) (hd : d ∈ (generate raw className).diagnostics)
    (location : Location) (hl : d.location = some location) :
    d.UnderlinesText raw origin location.line.toNat ↔
      location.span.stop.toNat < byteLength raw ∨ ∀ c ∈ pieceAt raw location.line.toNat, c.toNat < 128 := by
  obtain ⟨text, before, piece, later, kind, hpiece, -, -⟩ := exists_isPiece_of_mem_diagnostics (by omega) hd hl
  have hat : pieceAt raw location.line.toNat = piece := hpiece.pieceAt_eq
  rw [Diagnostic.UnderlinesText, hpiece.lastLine_format h hl, hat, ← hpiece.markCount_eq_iff, underlineLine,
    underlineLine, List.append_cancel_left_eq, List.append_cancel_left_eq]
  constructor
  · intro heq
    simpa using congrArg List.length heq
  · intro heq
    rw [heq]

/-- A line with two letters of two bytes is underlined right if a line feed follows. -/
theorem underlinesText_lineFeed :
    byteLength "int größe;\n".toList < 2 ^ 32 - 1 ∧
      Diagnostic.ofLine .grammarMismatch "int größe;".toList ⟨1, ⟨0, 12⟩⟩ ∈
        (generate "int größe;\n".toList none).diagnostics ∧
      (Diagnostic.ofLine .grammarMismatch "int größe;".toList ⟨1, ⟨0, 12⟩⟩).UnderlinesText
        "int größe;\n".toList "<stdin>".toList 1 := by
  have hfit : byteLength "int größe;\n".toList < 2 ^ 32 - 1 := by decide
  have hd : Diagnostic.ofLine .grammarMismatch "int größe;".toList ⟨1, ⟨0, 12⟩⟩ ∈
      (generate "int größe;\n".toList none).diagnostics := by decide +kernel
  exact ⟨hfit, hd, (underlinesText_iff _ none "<stdin>".toList hfit _ hd ⟨1, ⟨0, 12⟩⟩ rfl).mpr (.inl (by decide))⟩

/-- Without a line feed behind it, the same line has two marks too many: one for each of its twelve bytes. -/
theorem not_underlinesText_umlauts :
    Diagnostic.ofLine .grammarMismatch "int größe;".toList ⟨1, ⟨0, 12⟩⟩ ∈
        (generate "int größe;".toList none).diagnostics ∧
      lastLine ((Diagnostic.ofLine .grammarMismatch "int größe;".toList ⟨1, ⟨0, 12⟩⟩).format
        "int größe;".toList "<stdin>".toList) = "    | ^^^^^^^^^^^^".toList ∧
      ¬ (Diagnostic.ofLine .grammarMismatch "int größe;".toList ⟨1, ⟨0, 12⟩⟩).UnderlinesText
        "int größe;".toList "<stdin>".toList 1 := by
  decide +kernel

end AccessorGen
