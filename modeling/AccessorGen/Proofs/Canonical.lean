import AccessorGen.Proofs.Accepted
import AccessorGen.Proofs.SourceLines

/-!
# Canonical texts

A declaration can be written in many ways. `Declaration.canonical` is one of them: single spaces, the star before the
name, the size without leading zeros and nothing else. Writing all declarations of a text in this way and generating
again gives the same code and no diagnostic (`generate_canonicalText`).

The canonical text is read part by part (`lexKinds_type`, `lexKinds_sizeText`) as a head and a size of the grammar, so
that it is parsed as what it was written for (`parseLine_canonical`); and since it has neither line feeds nor blanks at
its ends, each of many such texts is a source line (`map_text_sourceLines`).
-/

namespace AccessorGen

open Text

/-- A size in brackets, or nothing. -/
def sizeText : Option Nat → List Char
  | some n => '[' :: decimal n ++ [']']
  | none => []

/-- The declaration written in one way. -/
def Declaration.canonical (d : Declaration) : List Char :=
  d.dataType ++ [' '] ++ (if d.isPointer then ['*'] else []) ++ d.variableName ++ sizeText d.arraySize ++ [';']

/-- The declarations written in one way, one on each line. -/
def Generated.canonicalText (g : Generated) : List Char :=
  ['\n'].intercalate (g.declarations.map (·.canonical))

/-- The second declaration is the first, read from its canonical text. -/
def Declaration.Reprinted (d d' : Declaration) : Prop :=
  d' = { d with location := d'.location, rawLine := d.canonical }

/-! ## Tokens -/

section Tokens

open QualifiedWord

variable {s : List Char}

/-- Words that are glued to one before them do not go on with it. -/
theorem head?_gluedText (hs : ∀ c ∈ s.head?, ¬ isWordChar c) (ws : List (List Char)) :
    ∀ c ∈ (gluedText ws ++ s).head?, ¬ isWordChar c := by
  cases ws with
  | nil => exact hs
  | cons w ws =>
    rintro _ ⟨⟩
    decide

/-- Glued words are read as their tokens. -/
theorem lexKinds_gluedText (hs : ∀ c ∈ s.head?, ¬ isWordChar c) : ∀ {ws : List (List Char)}, (∀ w ∈ ws, IsWord w) →
    lexKinds (gluedText ws ++ s) = gluedTokens ws ++ lexKinds s
  | [], _ => rfl
  | w :: ws, hw => by
    obtain ⟨hw, hws⟩ := List.forall_mem_cons.mp hw
    have ih := lexKinds_gluedText hs hws
    have hcons : gluedText (w :: ws) ++ s = ':' :: ':' :: (w ++ (gluedText ws ++ s)) := by simp [gluedText]
    rw [hcons, lexKinds_doubleColon, lexKinds_word hw (head?_gluedText hs ws), ih]
    rfl

/-- A qualified word is read as its tokens. -/
theorem lexKinds_qualified {q : QualifiedWord} (hq : q.IsProper) (hs : ∀ c ∈ s.head?, ¬ isWordChar c) :
    lexKinds (q.text ++ s) = q.tokens ++ lexKinds s := by
  rw [text, List.append_assoc, lexKinds_word hq.1 (head?_gluedText hs q.glued), lexKinds_gluedText hs hq.2]
  rfl

/-- A type and the space behind it are read as the tokens of its words. -/
theorem lexKinds_type : ∀ {type : List QualifiedWord}, type ≠ [] → (∀ q ∈ type, q.IsProper) →
    lexKinds ([' '].intercalate (type.map (·.text)) ++ ' ' :: s) = type.flatMap (·.tokens) ++ lexKinds s
  | [q], _, hproper => by
    have hq := hproper q List.mem_cons_self
    rw [List.map_singleton, List.intercalate_singleton, lexKinds_qualified hq (by simp; decide),
      lexKinds_blank (by decide)]
    simp
  | q :: r :: type, _, hproper => by
    obtain ⟨hq, hproper⟩ := List.forall_mem_cons.mp hproper
    have ih := lexKinds_type (List.cons_ne_nil r type) hproper
    rw [List.map_cons] at ih
    rw [List.map_cons, List.map_cons, List.intercalate_cons_cons, List.append_assoc, List.append_assoc,
      lexKinds_qualified hq (by simp; decide), List.singleton_append, lexKinds_blank (by decide), ih]
    simp

/-- A size is read as the tokens of one. -/
theorem lexKinds_sizeText {size : Option Nat} (h : ∀ n, size = some n → 1 ≤ n ∧ n ≤ 4294967295) :
    ∃ group, SizeGroup group size ∧ lexKinds (sizeText size ++ s) = group ++ lexKinds s := by
  cases size with
  | none => exact ⟨[], .absent, rfl⟩
  | some n =>
    obtain ⟨hpos, hfits⟩ := h n rfl
    have hdigit : ∀ c ∈ decimal n, c.isDigit := fun c hc => Nat.isDigit_of_mem_toDigits (by decide) (by decide) hc
    have hword : IsWord (decimal n) := by
      refine ⟨Nat.toDigits_ne_nil, ?_⟩
      intro c hc
      simp [isWordChar, Char.isAlphanum, hdigit c hc]
    refine ⟨[.openBracket, .word (decimal n), .closeBracket], ?_, ?_⟩
    · have hg := SizeGroup.present (decimal n) hdigit (by simpa using hpos) (by simpa using hfits)
      rwa [value_decimal] at hg
    · have hcons : sizeText (some n) ++ s = '[' :: (decimal n ++ ']' :: s) := by simp [sizeText]
      rw [hcons, lexKinds_char (by decide) (by decide) (by decide) (by decide), lexKinds_word hword (by simp; decide),
        lexKinds_char (by decide) (by decide) (by decide) (by decide)]
      rfl

/-- A star before a name is read as one. -/
theorem lexKinds_star (isPointer : Bool) : lexKinds ((if isPointer then ['*'] else []) ++ s) =
    (if isPointer then [.star] else []) ++ lexKinds s := by
  cases isPointer with
  | false => rfl
  | true => exact lexKinds_char (by decide) (by decide) (by decide) (by decide)

/-- The tokens before the size in a canonical text. -/
def canonicalHead (type : List QualifiedWord) (isPointer : Bool) (name : List Char) : List TokenKind :=
  type.flatMap (·.tokens) ++ (if isPointer then [.star] else []) ++ [.word name]

/-- The canonical text of an accepted declaration is a head, a size and a semicolon. -/
theorem lexKinds_canonical {d : Declaration} (h : d.Accepted) :
    ∃ type group, type ≠ [] ∧ d.dataType = [' '].intercalate (type.map (·.text)) ∧ SizeGroup group d.arraySize ∧
      lexKinds d.canonical = canonicalHead type d.isPointer d.variableName ++ group ++ [.semicolon] := by
  obtain ⟨type, hne, hproper, ht⟩ := h.type
  obtain ⟨group, hgroup, hsize⟩ := lexKinds_sizeText (s := [';']) h.size
  refine ⟨type, group, hne, ht, hgroup, ?_⟩
  have hcanonical : d.canonical = [' '].intercalate (type.map (·.text)) ++ ' ' ::
      ((if d.isPointer then ['*'] else []) ++ (d.variableName ++ (sizeText d.arraySize ++ [';']))) := by
    simp [Declaration.canonical, ht]
  have hstop : ∀ c ∈ (sizeText d.arraySize ++ [';']).head?, ¬ isWordChar c := by
    cases d.arraySize with
    | none => simp [sizeText]; decide
    | some n => simp [sizeText]; decide
  have hend : lexKinds [';'] = [.semicolon] := by
    rw [lexKinds_char (by decide) (by decide) (by decide) (by decide), lexKinds_nil]
    rfl
  rw [hcanonical, lexKinds_type hne hproper, lexKinds_star, lexKinds_word h.name hstop, hsize, hend, canonicalHead]
  simp

end Tokens

/-! ## Parsing -/

section Parsing

/-- The head of a canonical text has a star if it is that of a pointer. -/
theorem contains_star_canonicalHead (type : List QualifiedWord) (isPointer : Bool) (name : List Char) :
    (canonicalHead type isPointer name).contains .star = isPointer := by
  have hstar := star_not_mem_tokens type
  cases isPointer <;> simp [canonicalHead, hstar]

/-- The head of a canonical text is in the grammar. -/
theorem exists_isHead_canonicalHead {type : List QualifiedWord} (hne : type ≠ []) (isPointer : Bool)
    (name : List Char) :
    ∃ type', IsHead (canonicalHead type isPointer name) type' name ∧ type.map (·.text) = type'.map (·.text) := by
  have hcount := List.count_eq_zero.mpr (star_not_mem_tokens type)
  refine exists_isHead_iff.mpr ⟨?_, readHead_eq_some_iff.mpr ⟨_, rfl, ?_⟩, by simpa using hne⟩
  · cases isPointer <;> simp [canonicalHead, hcount]
  · rw [readTypeWords_tokens]
    cases isPointer <;> simp [readTypeWords]

/-- The canonical text of an accepted declaration is parsed as what it was written for. -/
theorem parseLine_canonical {d : Declaration} (h : d.Accepted) (location : Location) :
    parseLine d.canonical location = .ok { d with location, rawLine := d.canonical } := by
  obtain ⟨type, group, hne, ht, hgroup, hlex⟩ := lexKinds_canonical h
  obtain ⟨type', hhead, htext⟩ := exists_isHead_canonicalHead hne d.isPointer d.variableName
  have hparse := (parseTokens_eq_ok_iff (lexKinds_spec d.canonical).2 _).mpr
    ⟨_, group, type', d.variableName, d.arraySize, hlex, hgroup, hhead, rfl⟩
  rw [contains_star_canonicalHead, ← htext] at hparse
  simp only [parseLine, hparse, DeclarationShape.dataType, ← ht]

/-- A declaration is resolved by what it says, however it is written. -/
theorem resolve_rewritten {d : Declaration} (h : d.Accepted) (location : Location) (rawLine : List Char) :
    ({ d with location, rawLine } : ParsedDeclaration).resolve = .ok { d with location, rawLine } := by
  have hd := (resolve_eq_ok_iff.mp h.resolved).2
  refine resolve_eq_ok_iff.mpr ⟨category_eq_ok_iff.mpr h.category_cases, ?_⟩
  conv => lhs; rw [hd]

/-- The canonical text of an accepted declaration gives the declaration again. -/
theorem result_canonical {d : Declaration} (h : d.Accepted) (location : Location) :
    (SourceLine.mk d.canonical location).outcome.result = .ok { d with location, rawLine := d.canonical } := by
  simp only [SourceLine.outcome, parseLine_canonical h, ParsedDeclaration.outcome, resolve_rewritten h]

end Parsing

/-! ## Source lines -/

section Lines

/-- The text of a type starts with a word character. -/
theorem IsTypeText.exists_cons {s : List Char} (hs : IsTypeText s) : ∃ c rest, s = c :: rest ∧ isWordChar c := by
  obtain ⟨type, hne, hproper, rfl⟩ := hs
  obtain ⟨q, type, rfl⟩ := List.exists_cons_of_ne_nil hne
  obtain ⟨⟨hfirst, hchars⟩, -⟩ := hproper q List.mem_cons_self
  obtain ⟨c, w, hw⟩ := List.exists_cons_of_ne_nil hfirst
  rw [hw] at hchars
  obtain ⟨hc, -⟩ := List.forall_mem_cons.mp hchars
  have hpieces : ∃ rest, [' '].intercalate ((q :: type).map (·.text)) = q.text ++ rest := by
    cases type with
    | nil => exact ⟨[], by simp⟩
    | cons r type => exact ⟨_, by rw [List.map_cons, List.map_cons, List.intercalate_cons_cons, List.append_assoc]⟩
  obtain ⟨rest, hrest⟩ := hpieces
  refine ⟨c, w ++ QualifiedWord.gluedText q.glued ++ rest, ?_, hc⟩
  rw [hrest, QualifiedWord.text, hw]
  rfl

/-- A text without blanks at its ends is trimmed. -/
theorem trim_eq_self {s : List Char} (hh : ∀ c ∈ s.head?, ¬ isBlank c) (hl : ∀ c ∈ s.getLast?, ¬ isBlank c) :
    trim s = s := by
  obtain ⟨lead, trail, hs, hlead, htrail, -⟩ := exists_trim_eq s
  have hlead : lead = [] := by
    cases lead with
    | nil => rfl
    | cons c lead =>
      rw [hs] at hh
      exact absurd (hlead c List.mem_cons_self) (hh c rfl)
  have htrail : trail = [] := by
    rcases List.eq_nil_or_concat trail with rfl | ⟨front, c, rfl⟩
    · rfl
    · rw [hs, List.concat_eq_append, ← List.append_assoc, List.getLast?_concat] at hl
      exact absurd (htrail c (by simp)) (hl c rfl)
  rw [hlead, htrail, List.nil_append, List.append_nil] at hs
  exact hs.symm

/-- The source lines among pieces have the texts of the pieces that are not blank. -/
theorem SourceLine.map_text_ofPieces : ∀ (pieces : List (List Char)) (number offset : Nat),
    (ofPieces number offset pieces).map (·.text) = pieces.filterMap trim?
  | [], number, offset => rfl
  | piece :: pieces, number, offset => by
    have ih := map_text_ofPieces pieces (number + 1) (offset + byteLength piece + 1)
    rw [ofPieces]
    by_cases ht : trim piece = []
    · rw [List.filterMap_cons_none (by simp [trim?, ht])]
      simpa [ht] using ih
    · rw [List.filterMap_cons_some (b := trim piece) (by simp [trim?, ht])]
      simp only [List.isEmpty_iff, ht, ↓reduceIte, List.map_cons, ih]
      rfl

/-- A canonical text is a line of its own: it has no line feed, and there is nothing to trim. -/
theorem canonical_isLine {d : Declaration} (h : d.Accepted) :
    '\n' ∉ d.canonical ∧ trim? d.canonical = some d.canonical := by
  constructor
  · have ht : '\n' ∉ d.dataType := h.not_mem_dataType (by decide) (by decide) (by decide)
    have hn : '\n' ∉ d.variableName := fun hm => absurd (h.name.2 _ hm) (by decide)
    have hs : '\n' ∉ sizeText d.arraySize := by
      cases d.arraySize with
      | none => simp [sizeText]
      | some n =>
        have hdigits : '\n' ∉ decimal n := fun hm =>
          absurd (Nat.isDigit_of_mem_toDigits (by decide) (by decide) hm) (by decide)
        simp [sizeText, hdigits]
    have hstar : '\n' ∉ (if d.isPointer then ['*'] else []) := by
      cases d.isPointer <;> simp
    simp [Declaration.canonical, ht, hn, hs, hstar]
  · obtain ⟨c, rest, hc, hword⟩ := h.type.exists_cons
    have htrim : trim d.canonical = d.canonical := by
      apply trim_eq_self
      · rw [Declaration.canonical, hc]
        rintro _ ⟨⟩
        exact not_isBlank_of_isWordChar hword
      · rw [Declaration.canonical, List.getLast?_concat]
        rintro _ ⟨⟩
        decide
    rw [trim?, htrim, if_neg (by simp [Declaration.canonical])]

/-- The source lines of canonical texts are these texts. -/
theorem map_text_sourceLines {ds : List Declaration} (hne : ds ≠ []) (h : ∀ d ∈ ds, d.Accepted) :
    (sourceLines (['\n'].intercalate (ds.map (·.canonical)))).map (·.text) = ds.map (·.canonical) := by
  have hlines : ∀ line ∈ ds.map (·.canonical), '\n' ∉ line ∧ trim? line = some line := by
    intro line hl
    obtain ⟨d, hd, rfl⟩ := List.mem_map.mp hl
    exact canonical_isLine (h d hd)
  rw [sourceLines, SourceLine.map_text_ofPieces,
    List.splitOn_intercalate '\n' (fun line hl => (hlines line hl).1) (by simpa using hne)]
  rw [List.filterMap_congr fun line hl => (hlines line hl).2, List.filterMap_some]

end Lines

/-! ## Generating again -/

section Generating

/-- A declaration says the same when it is read from its canonical text. -/
theorem Declaration.Reprinted.sameCode {d d' : Declaration} (h : d.Reprinted d') : d.SameCode d' := by
  rw [h]
  exact ⟨rfl, rfl, rfl, rfl, rfl, rfl, rfl⟩

/-- Lines with the canonical texts of declarations give these declarations and nothing else. -/
theorem reprinted_of_lines {ds : List Declaration} {ls : List SourceLine}
    (h : List.Forall₂ (fun d l => d.canonical = l.text) ds ls) (hds : ∀ d ∈ ds, d.Accepted) :
    List.Forall₂ Declaration.Reprinted ds (ls.filterMap (·.outcome.declaration?)) ∧
      ls.filterMap (·.outcome.diagnostic?) = [] := by
  induction h with
  | nil => exact ⟨.nil, rfl⟩
  | @cons d l ds ls hl _ ih =>
    obtain ⟨hd, hds⟩ := List.forall_mem_cons.mp hds
    obtain ⟨ihd, ihe⟩ := ih hds
    have hr : l.outcome.result = .ok { d with location := l.location, rawLine := d.canonical } := by
      have := result_canonical hd l.location
      rwa [hl] at this ⊢
    constructor
    · rw [List.filterMap_cons_some (by rw [LineOutcome.declaration?, hr])]
      exact .cons rfl ihd
    · rw [List.filterMap_cons_none (by rw [LineOutcome.diagnostic?, hr]), ihe]

/-- **Canonical texts are a normal form**: the declarations of a text, written in one way, give the same code again,
the same declarations but for where and how they are written, and no diagnostic. -/
theorem generate_canonicalText (raw : List Char) (className : Option (List Char))
    (h : (generate raw className).declarations ≠ []) :
    (generate (generate raw className).canonicalText className).diagnostics = [] ∧
      (generate (generate raw className).canonicalText className).accessors = (generate raw className).accessors ∧
      (generate (generate raw className).canonicalText className).inline = (generate raw className).inline ∧
      (generate (generate raw className).canonicalText className).initializers =
        (generate raw className).initializers ∧
      List.Forall₂ Declaration.Reprinted (generate raw className).declarations
        (generate (generate raw className).canonicalText className).declarations := by
  have haccepted : ∀ d ∈ (generate raw className).declarations, d.Accepted :=
    fun d hd => accepted_of_mem_declarations hd
  have htexts := map_text_sourceLines h haccepted
  have hne : sourceLines (generate raw className).canonicalText ≠ [] := by
    intro hnil
    rw [Generated.canonicalText] at hnil
    rw [hnil] at htexts
    exact h (List.map_eq_nil_iff.mp htexts.symm)
  have hlines : List.Forall₂ (fun d l => d.canonical = l.text) (generate raw className).declarations
      (sourceLines (generate raw className).canonicalText) := by
    have heq := htexts.symm
    rw [← List.forall₂_eq_eq_eq, List.forall₂_map_left_iff, List.forall₂_map_right_iff] at heq
    exact heq
  obtain ⟨hds, hes⟩ := reprinted_of_lines hlines haccepted
  obtain ⟨hacc, hinl, hini⟩ := Generated.ofDeclarations_texts_eq (className.bind trim?)
    (hds.imp fun _ _ hd => hd.sameCode) (generate raw className).diagnostics []
  rw [generate_of_ne_nil className hne, hes]
  have hself := generate_eq_ofDeclarations raw className className
  refine ⟨rfl, ?_, ?_, ?_, hds⟩
  · rw [hself]
    exact hacc.symm
  · rw [hself]
    exact hinl.symm
  · rw [hself]
    exact hini.symm

/-- Odd spacing, a comment, leading zeros, a star at the type, and a line that is rejected. -/
theorem generate_canonicalText_oddSpacing :
    (generate "char\tmcac_Buf [ 007 ] ; // a\nbad\nstd :: string*pmes_Name;".toList none).canonicalText =
        "char mcac_Buf[7];\nstd::string *pmes_Name;".toList ∧
      (generate "char mcac_Buf[7];\nstd::string *pmes_Name;".toList none).diagnostics = [] ∧
      (generate "char mcac_Buf[7];\nstd::string *pmes_Name;".toList none).accessors =
        (generate "char\tmcac_Buf [ 007 ] ; // a\nbad\nstd :: string*pmes_Name;".toList none).accessors := by
  have htext : (generate "char\tmcac_Buf [ 007 ] ; // a\nbad\nstd :: string*pmes_Name;".toList none).canonicalText =
      "char mcac_Buf[7];\nstd::string *pmes_Name;".toList := by decide +kernel
  have h := generate_canonicalText "char\tmcac_Buf [ 007 ] ; // a\nbad\nstd :: string*pmes_Name;".toList none
    (by decide +kernel)
  rw [htext] at h
  exact ⟨htext, h.1, h.2.1⟩

end Generating

end AccessorGen
