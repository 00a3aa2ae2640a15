import AccessorGen.Proofs.Underline

/-!
# Line endings

A text may end its lines with a line feed alone or with a carriage return before it, and both give the same
(`generate_crlf`). The pieces of the text with carriage returns are those of the text without, each with a carriage
return behind it but the last (`splitOn_crlf`). From there the carriage return is lost in three ways:

- trimming cuts it off as a blank, so that the source lines have the same texts and the same numbers, and only the spans
  drift apart (`SourceLine.ofPieces_crlf`);
- a line that is shown goes without it (`shownPiece_endedPiece`);
- it stands behind the offending text, so that it adds no mark below that and only makes something follow where a line
  feed does already (`SourceLine.IsPiece.markCount_endedPiece`).
-/

namespace AccessorGen

open Text

/-! ## Carriage returns at the ends of lines -/

/-- The text with a carriage return in front of every line feed. -/
def crlf (raw : List Char) : List Char :=
  raw.flatMap fun c => if c = '\n' then ['\r', '\n'] else [c]

/-- The piece with a carriage return behind it, unless it is the last one. -/
def endedPiece (piece : List Char) (later : List (List Char)) : List Char :=
  if later = [] then piece else piece ++ ['\r']

/-- The pieces with a carriage return behind each of them but the last. -/
def crlfPieces : List (List Char) → List (List Char)
  | [] => []
  | piece :: later => endedPiece piece later :: crlfPieces later

section Pieces

variable {piece : List Char} {later : List (List Char)}

theorem crlfPieces_eq_nil_iff : crlfPieces later = [] ↔ later = [] := by
  cases later <;> simp [crlfPieces]

/-- A character in front of the first piece stays there. -/
theorem crlfPieces_modifyHead (c : Char) (pieces : List (List Char)) :
    crlfPieces (pieces.modifyHead (c :: ·)) = (crlfPieces pieces).modifyHead (c :: ·) := by
  cases pieces with
  | nil => rfl
  | cons piece later =>
    rw [List.modifyHead_cons, crlfPieces, crlfPieces, List.modifyHead_cons, endedPiece, endedPiece]
    split
    · rfl
    · rw [List.cons_append]

/-- Carriage returns in front of the line feeds of a text are those at the ends of its pieces. -/
theorem splitOn_crlf : ∀ raw : List Char, (crlf raw).splitOn '\n' = crlfPieces (raw.splitOn '\n')
  | [] => rfl
  | c :: raw => by
    have ih := splitOn_crlf raw
    by_cases hc : c = '\n'
    · have hcrlf : crlf (c :: raw) = '\r' :: '\n' :: crlf raw := by simp [crlf, hc]
      rw [hcrlf, hc, List.splitOn_cons_eq_if_modifyHead, List.splitOn_cons_eq_if_modifyHead,
        List.splitOn_cons_eq_if_modifyHead, ih]
      simp [crlfPieces, endedPiece]
    · have hcrlf : crlf (c :: raw) = c :: crlf raw := by simp [crlf, hc]
      have hne : (c == '\n') = false := beq_false_of_ne hc
      rw [hcrlf, List.splitOn_cons_eq_if_modifyHead, List.splitOn_cons_eq_if_modifyHead, ih, hne]
      exact (crlfPieces_modifyHead c _).symm

/-- The pieces around a piece. -/
theorem crlfPieces_append : ∀ before : List (List Char),
    crlfPieces (before ++ piece :: later) =
      before.map (· ++ ['\r']) ++ endedPiece piece later :: crlfPieces later
  | [] => rfl
  | first :: before => by
    have ih := crlfPieces_append before
    have hended : endedPiece first (before ++ piece :: later) = first ++ ['\r'] := if_neg (by simp)
    rw [List.cons_append, crlfPieces, ih, hended, List.map_cons, List.cons_append]

/-- A blank at the end of a text is cut off with the others. -/
theorem trim_append_blank {c : Char} (hc : isBlank c) (s : List Char) : trim (s ++ [c]) = trim s := by
  by_cases hs : trimStart s = []
  · have hall := trimStart_eq_nil_iff.mp hs
    have hall' : ∀ c' ∈ s ++ [c], isBlank c' := by
      intro c' hm
      rcases List.mem_append.mp hm with hm | hm
      · exact hall c' hm
      · rw [List.mem_singleton.mp hm]
        exact hc
    rw [trim_eq_nil_iff.mpr hall, trim_eq_nil_iff.mpr hall']
  · have hstart : trimStart (s ++ [c]) = trimStart s ++ [c] := by
      rw [trimStart] at hs ⊢
      rw [List.dropWhile_append, if_neg (by simpa using hs), trimStart]
    rw [trim, trim, hstart, trimEnd, trimEnd, List.reverse_append, List.reverse_singleton, List.singleton_append,
      List.dropWhile_cons_of_pos hc]

theorem trim_endedPiece : trim (endedPiece piece later) = trim piece := by
  rw [endedPiece]
  split
  · rfl
  · exact trim_append_blank (by decide) piece

/-- A piece that is not blank keeps the blanks in front of it. -/
theorem indentation_endedPiece (h : trim piece ≠ []) : indentation (endedPiece piece later) = indentation piece := by
  rw [endedPiece]
  split
  · rfl
  · rw [indentation, List.takeWhile_append, if_neg]
    · rfl
    · intro hlength
      apply h
      have hself : piece.takeWhile isBlank = piece := (List.takeWhile_prefix isBlank).eq_of_length hlength
      rw [trim_eq_nil_iff, ← hself]
      exact List.all_eq_true.mp List.all_takeWhile

/-- A piece without carriage returns is shown as it is, with a carriage return behind it or without. -/
theorem shownPiece_endedPiece (h : '\r' ∉ piece) :
    shownPiece (endedPiece piece later) (crlfPieces later) = shownPiece piece later := by
  have hpiece : dropCarriageReturn piece = piece := if_neg fun hlast => h (List.mem_of_getLast? hlast)
  have hended : dropCarriageReturn (piece ++ ['\r']) = piece := by simp [dropCarriageReturn]
  simp only [shownPiece, endedPiece, crlfPieces_eq_nil_iff, hpiece]
  split
  · rfl
  · exact hended

/-- A text does not get shorter. -/
theorem byteLength_le_crlf : ∀ raw : List Char, byteLength raw ≤ byteLength (crlf raw)
  | [] => Nat.le_refl 0
  | c :: raw => by
    have ih := byteLength_le_crlf raw
    have hcons : crlf (c :: raw) = (if c = '\n' then ['\r', '\n'] else [c]) ++ crlf raw := List.flatMap_cons
    rw [hcons, byteLength_append, byteLength_cons]
    split
    · rename_i hc
      rw [hc]
      show 1 + byteLength raw ≤ 2 + byteLength (crlf raw)
      omega
    · rw [byteLength_cons, byteLength_nil]
      omega

end Pieces

/-! ## Source lines -/

/-- The second source line is the first, but its span may be another. -/
structure SourceLine.UpToSpan (l l' : SourceLine) : Prop where
  text_eq : l'.text = l.text
  line_eq : l'.location.line = l.location.line

section SourceLines

/-- Pieces with carriage returns give the same source lines, wherever they start. -/
theorem SourceLine.ofPieces_crlf : ∀ (pieces : List (List Char)) (number offset offset' : Nat),
    List.Forall₂ UpToSpan (ofPieces number offset pieces) (ofPieces number offset' (crlfPieces pieces))
  | [], number, offset, offset' => .nil
  | piece :: later, number, offset, offset' => by
    have ih := ofPieces_crlf later (number + 1) (offset + byteLength piece + 1)
      (offset' + byteLength (endedPiece piece later) + 1)
    rw [crlfPieces, ofPieces, ofPieces, trim_endedPiece]
    split
    · exact ih
    · exact .cons ⟨trim_endedPiece, rfl⟩ ih

/-- The source lines of a text are the same with carriage returns. -/
theorem sourceLines_crlf (raw : List Char) :
    List.Forall₂ SourceLine.UpToSpan (sourceLines raw) (sourceLines (crlf raw)) := by
  rw [sourceLines, sourceLines, splitOn_crlf]
  exact SourceLine.ofPieces_crlf (raw.splitOn '\n') 1 0 0

namespace SourceLine.IsPiece

variable {raw piece : List Char} {before later : List (List Char)} {l l' : SourceLine}

/-- The piece of a source line, with carriage returns. -/
theorem endedPiece_of_upToSpan (h : l.IsPiece raw before piece later) (hl : l.UpToSpan l')
    (h' : ∃ before' piece' later', l'.IsPiece (crlf raw) before' piece' later') :
    l'.IsPiece (crlf raw) (before.map (· ++ ['\r'])) (endedPiece piece later) (crlfPieces later) := by
  obtain ⟨before', piece', later', h'⟩ := h'
  have hlength : before'.length = (before.map (· ++ ['\r'])).length := by
    have hline := h.line_eq
    have hline' := h'.line_eq
    rw [hl.line_eq] at hline'
    rw [List.length_map]
    omega
  have hpieces := h'.pieces_eq
  rw [splitOn_crlf, h.pieces_eq, crlfPieces_append] at hpieces
  obtain ⟨rfl, hrest⟩ := List.append_inj hpieces hlength.symm
  obtain ⟨rfl, rfl⟩ := List.cons.inj hrest
  exact h'

/-- A source line ends before its text does exactly if another piece or a blank follows. -/
theorem stop_lt_iff (h : l.IsPiece raw before piece later) :
    l.location.span.stop.toNat < byteLength raw ↔ later ≠ [] ∨ piece ≠ indentation piece ++ trim piece := by
  obtain ⟨-, -, -, hge⟩ := h.exists_raw_eq
  constructor
  · intro hlt
    by_contra hnot
    obtain ⟨rfl, hpiece⟩ : later = [] ∧ piece = indentation piece ++ trim piece := by tauto
    have hraw : ['\n'].intercalate (raw.splitOn '\n') = raw := List.intercalate_splitOn '\n'
    rw [h.pieces_eq, intercalate_append (List.cons_ne_nil _ _), List.intercalate_singleton] at hraw
    rw [h.stop_eq, ← hpiece, hraw] at hlt
    omega
  · intro hnot
    by_contra hlt
    obtain ⟨hlater, hpiece⟩ := hge hlt
    tauto

/-- A carriage return behind a source line adds no mark. -/
theorem markCount_endedPiece (h : l.IsPiece raw before piece later)
    (h' : l'.IsPiece (crlf raw) (before.map (· ++ ['\r'])) (endedPiece piece later) (crlfPieces later)) :
    markCount (crlf raw) (endedPiece piece later) l'.location.span.stop.toNat =
      markCount raw piece l.location.span.stop.toNat := by
  rw [markCount, markCount, trim_endedPiece]
  rcases eq_or_ne later [] with rfl | hne
  · have hpiece : endedPiece piece [] = piece := rfl
    have hiff := h'.stop_lt_iff
    rw [hpiece, crlfPieces, ← h.stop_lt_iff] at hiff
    rw [hpiece, if_congr hiff rfl rfl]
  · rw [if_pos (h.stop_lt_iff.mpr (.inl hne)),
      if_pos (h'.stop_lt_iff.mpr (.inl (mt crlfPieces_eq_nil_iff.mp hne)))]

/-- A diagnostic about a source line is printed the same with carriage returns. -/
theorem format_crlf (h : l.IsPiece raw before piece later)
    (h' : l'.IsPiece (crlf raw) (before.map (· ++ ['\r'])) (endedPiece piece later) (crlfPieces later))
    (hr : '\r' ∉ raw) (hfit : byteLength (crlf raw) < 2 ^ 32 - 1) (kind : Diagnostic.Kind) (origin : List Char) :
    (Diagnostic.ofLine kind l.text l'.location).format (crlf raw) origin =
      (Diagnostic.ofLine kind l.text l.location).format raw origin := by
  have hraw := byteLength_le_crlf raw
  have hpiece : '\r' ∉ piece := by
    obtain ⟨after, hsplit, -⟩ := eq_append_of_splitOn_eq h.pieces_eq
    intro hm
    apply hr
    rw [hsplit]
    simp [hm]
  have hline : l'.location.line.toNat = l.location.line.toNat := by
    rw [h.line_eq, h'.line_eq, List.length_map]
  rw [h'.format_eq hfit rfl, h.format_eq (by omega) rfl, h'.underline_eq hfit, h.underline_eq (by omega),
    markCount_endedPiece h h', indentation_endedPiece h.text_ne_nil, shownPiece_endedPiece hpiece, hline]
  rfl

end SourceLine.IsPiece

/-- Two source lines that match: the second is the first, and its piece is that of the first with carriage returns. -/
structure SourceLine.MatchesCrlf (raw : List Char) (l l' : SourceLine) : Prop extends l.UpToSpan l' where
  isPiece : ∃ before piece later, l.IsPiece raw before piece later ∧
    l'.IsPiece (crlf raw) (before.map (· ++ ['\r'])) (endedPiece piece later) (crlfPieces later)

/-- The source lines of a text match those with carriage returns, one by one. -/
theorem sourceLines_matchesCrlf (raw : List Char) (hfit : byteLength (crlf raw) < 2 ^ 32) :
    List.Forall₂ (SourceLine.MatchesCrlf raw) (sourceLines raw) (sourceLines (crlf raw)) := by
  have hraw := byteLength_le_crlf raw
  obtain ⟨hlength, hzip⟩ := List.forall₂_iff_zip.mp (sourceLines_crlf raw)
  refine List.forall₂_iff_zip.mpr ⟨hlength, ?_⟩
  intro l l' hm
  have hl := hzip hm
  obtain ⟨hmem, hmem'⟩ := List.of_mem_zip hm
  obtain ⟨before, piece, later, hpiece⟩ := SourceLine.exists_isPiece (by omega) hmem
  exact ⟨hl, before, piece, later, hpiece, hpiece.endedPiece_of_upToSpan hl (SourceLine.exists_isPiece hfit hmem')⟩

end SourceLines

/-! ## Outputs -/

/-- The second declaration is the first, but its span may be another. -/
structure Declaration.UpToSpan (d d' : Declaration) : Prop where
  line_eq : d'.location.line = d.location.line
  eq_with : d' = { d with location := d'.location }

/-- The second diagnostic is the first, but its span may be another. -/
structure Diagnostic.UpToSpan (e e' : Diagnostic) : Prop where
  line_eq : e'.location.map (·.line) = e.location.map (·.line)
  eq_with : e' = { e with location := e'.location }

/-- The second output is the first, but the spans of its results may be others. -/
structure Generated.UpToSpan (g g' : Generated) : Prop where
  accessors_eq : g'.accessors = g.accessors
  inline_eq : g'.inline = g.inline
  initializers_eq : g'.initializers = g.initializers
  declarations : List.Forall₂ Declaration.UpToSpan g.declarations g'.declarations
  diagnostics : List.Forall₂ Diagnostic.UpToSpan g.diagnostics g'.diagnostics

section Outputs

variable {raw : List Char} {l l' : SourceLine}

/-- A source line with another span gives the declaration of the line, with that span. -/
theorem SourceLine.UpToSpan.declaration? (h : l.UpToSpan l') :
    Option.Rel Declaration.UpToSpan l.outcome.declaration? l'.outcome.declaration? := by
  apply rel_declaration? h.text_eq
  intro d
  exact ⟨h.line_eq, rfl⟩

/-- A matching source line gives the diagnostic of the line, with another span and printed the same. -/
theorem SourceLine.MatchesCrlf.diagnostic? (h : l.MatchesCrlf raw l') (hr : '\r' ∉ raw)
    (hfit : byteLength (crlf raw) < 2 ^ 32 - 1) (origin : List Char) :
    Option.Rel (fun e e' => e.UpToSpan e' ∧ e'.format (crlf raw) origin = e.format raw origin)
      l.outcome.diagnostic? l'.outcome.diagnostic? := by
  obtain ⟨before, piece, later, hpiece, hpiece'⟩ := h.isPiece
  apply rel_diagnostic? h.text_eq
  intro kind
  exact ⟨⟨congrArg some h.line_eq, rfl⟩, hpiece.format_crlf hpiece' hr hfit kind origin⟩

/-- Results that are the same up to their spans make up the same output up to its spans. -/
theorem Generated.ofDeclarations_upToSpan (className : Option (List Char)) {ds ds' : List Declaration}
    {es es' : List Diagnostic} (hd : List.Forall₂ Declaration.UpToSpan ds ds')
    (he : List.Forall₂ Diagnostic.UpToSpan es es') :
    (ofDeclarations className ds es).UpToSpan (ofDeclarations className ds' es') := by
  have hsame : ∀ d d', Declaration.UpToSpan d d' → d.SameCode d' := by
    intro d d' h
    rw [h.eq_with]
    exact ⟨rfl, rfl, rfl, rfl, rfl, rfl, rfl⟩
  obtain ⟨hacc, hinl, hini⟩ := ofDeclarations_texts_eq className (hd.imp hsame) es es'
  exact ⟨hacc.symm, hinl.symm, hini.symm, hd, he⟩

/-- **Line endings do not matter**: with a carriage return before every line feed, a text gives the same code and, up to
their spans, the same declarations and diagnostics, and the diagnostics are printed the same. -/
theorem generate_crlf (raw : List Char) (className : Option (List Char)) (origin : List Char) (hr : '\r' ∉ raw)
    (hfit : byteLength (crlf raw) < 2 ^ 32 - 1) :
    (generate raw className).UpToSpan (generate (crlf raw) className) ∧
      (generate (crlf raw) className).diagnostics.map (·.format (crlf raw) origin) =
        (generate raw className).diagnostics.map (·.format raw origin) := by
  have hlines := sourceLines_matchesCrlf raw (by omega)
  by_cases hnil : sourceLines raw = []
  · -- the error for a text without declarations shows nothing of the text
    have hnil' : sourceLines (crlf raw) = [] := by
      rw [hnil] at hlines
      exact List.forall₂_nil_left_iff.mp hlines
    rw [generate_of_eq_nil className hnil, generate_of_eq_nil className hnil']
    refine ⟨Generated.ofDeclarations_upToSpan _ .nil (.cons ⟨rfl, rfl⟩ .nil), ?_⟩
    simp only [Generated.ofDeclarations, List.map_cons, List.map_nil, Diagnostic.format, Diagnostic.emptyInput]
  · have hnil' : sourceLines (crlf raw) ≠ [] := by
      intro h
      rw [h] at hlines
      exact hnil (List.forall₂_nil_right_iff.mp hlines)
    have hds := List.rel_filterMap (fun _ _ hl => hl.declaration?) (sourceLines_crlf raw)
    have hes := List.rel_filterMap (fun _ _ hl => hl.diagnostic? hr hfit origin) hlines
    rw [generate_of_ne_nil className hnil, generate_of_ne_nil className hnil']
    refine ⟨Generated.ofDeclarations_upToSpan _ hds (hes.imp fun _ _ h => h.1), ?_⟩
    show List.map _ (List.filterMap _ _) = List.map _ (List.filterMap _ _)
    rw [← List.forall₂_eq_eq_eq, List.forall₂_map_left_iff, List.forall₂_map_right_iff]
    exact (hes.imp fun _ _ h => h.2).flip

/-- A line behind a wide blank and one with wide letters at the end of the text. -/
theorem generate_crlf_umlauts :
    '\r' ∉ "int a_b;\n\n\u3000bad \n größe".toList ∧
      byteLength (crlf "int a_b;\n\n\u3000bad \n größe".toList) < 2 ^ 32 - 1 ∧
      (generate "int a_b;\n\n\u3000bad \n größe".toList none).UpToSpan
        (generate (crlf "int a_b;\n\n\u3000bad \n größe".toList) none) ∧
      (generate (crlf "int a_b;\n\n\u3000bad \n größe".toList) none).diagnostics.map
        (·.format (crlf "int a_b;\n\n\u3000bad \n größe".toList) "a.decl".toList) =
      ["a.decl:3:2: warning: Invalid declaration: \"bad\"\n  3 | \u3000bad \n    |  ^^^".toList,
       "a.decl:4:2: warning: Invalid declaration: \"größe\"\n  4 |  größe\n    |  ^^^^^^^".toList] := by
  have hr : '\r' ∉ "int a_b;\n\n\u3000bad \n größe".toList := by decide
  have hfit : byteLength (crlf "int a_b;\n\n\u3000bad \n größe".toList) < 2 ^ 32 - 1 := by decide
  obtain ⟨hsame, hprinted⟩ := generate_crlf _ none "a.decl".toList hr hfit
  refine ⟨hr, hfit, hsame, hprinted.trans ?_⟩
  decide +kernel

end Outputs

end AccessorGen
