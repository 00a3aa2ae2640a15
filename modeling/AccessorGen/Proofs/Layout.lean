import AccessorGen.Declaration.Parser
import AccessorGen.Proofs.Lexer

/-!
# Layouts of a line

A layout writes down tokens with blanks in front of each of them, blanks at the end, and perhaps a comment. Blanks may
be left out where a token does not run on into what follows it (`Layout.IsValid`).

- Reading undoes writing: a valid layout is read as its tokens, each at its place (`scan_layout`);
- every text is a valid layout of its tokens (`exists_layout`), so that all that reading does to a text can be read off
  from a layout;
- how tokens are laid out has no say in what they declare (`lex_layout`).
-/

namespace AccessorGen

open Text

/-! ## What tokens are written as -/

/-- A character that is a token of its own, of no kind with a name. -/
def IsOther (c : Char) : Prop :=
  ¬ isBlank c ∧ ¬ isWordChar c ∧ c ∉ ['*', '[', ']', ';']

instance : DecidablePred IsOther := fun c =>
  inferInstanceAs (Decidable (¬ isBlank c ∧ ¬ isWordChar c ∧ c ∉ ['*', '[', ']', ';']))

namespace TokenKind

/-- The kinds that are read from some text. -/
def IsLexeme : TokenKind → Prop
  | word w => IsWord w
  | other c => IsOther c
  | eof => False
  | star | openBracket | closeBracket | doubleColon | semicolon => True

instance : DecidablePred IsLexeme
  | word w => inferInstanceAs (Decidable (IsWord w))
  | other c => inferInstanceAs (Decidable (IsOther c))
  | eof => .isFalse id
  | star | openBracket | closeBracket | doubleColon | semicolon => .isTrue trivial

/-- The two tokens would be read as something else if no blank stood between them. -/
def needsGap : TokenKind → TokenKind → Bool
  | word _, word _ => true
  | other ':', other ':' => true
  | other ':', doubleColon => true
  | other '/', other '/' => true
  | _, _ => false

/-- The token would be read as something else if the character stood right behind it. -/
def runsOn : TokenKind → Char → Bool
  | word _, c => isWordChar c
  | other ':', c => c == ':'
  | other '/', c => c == '/'
  | _, _ => false

variable {k k' : TokenKind} {c d : Char}

/-- The three ways in which a token runs on. -/
theorem runsOn_iff : k.runsOn c ↔
    (∃ w, k = word w ∧ isWordChar c) ∨ (k = other ':' ∧ c = ':') ∨ (k = other '/' ∧ c = '/') := by
  unfold runsOn
  split <;> simp_all

/-- No token runs on into a blank. -/
theorem not_runsOn_of_isBlank (h : isBlank c) : ¬ k.runsOn c := by
  rw [runsOn_iff]
  rintro (⟨w, -, hc⟩ | ⟨-, rfl⟩ | ⟨-, rfl⟩)
  · exact not_isBlank_of_isWordChar hc h
  · exact absurd h (by decide)
  · exact absurd h (by decide)

/-- Only a lone slash runs on into a comment. -/
theorem runsOn_slash_iff : k.runsOn '/' ↔ k = other '/' := by
  rw [runsOn_iff]
  simp [show isWordChar '/' = false by decide]

/-- The pairs of tokens that need a gap. -/
theorem needsGap_iff : k.needsGap k' ↔ (∃ w w', k = word w ∧ k' = word w') ∨
    (k = other ':' ∧ (k' = other ':' ∨ k' = doubleColon)) ∨ (k = other '/' ∧ k' = other '/') := by
  unfold needsGap
  split <;> simp_all

/-- A token runs on into a character that is not part of a word exactly if it needs a gap before its kind. -/
theorem runsOn_eq_needsGap (hc : ¬ isWordChar c) (hw : ∀ w, k' ≠ word w)
    (hcolon : c = ':' ↔ k' = other ':' ∨ k' = doubleColon) (hslash : c = '/' ↔ k' = other '/') :
    k.runsOn c = k.needsGap k' := by
  rw [Bool.eq_iff_iff, runsOn_iff, needsGap_iff, hcolon, hslash]
  simp [hc, hw]

/-- A token runs on into another one exactly if the two need a gap. -/
theorem exists_text_eq_cons (h : k'.IsLexeme) :
    ∃ c rest, k'.text = c :: rest ∧ ∀ k : TokenKind, k.runsOn c = k.needsGap k' := by
  cases k' with
  | word w =>
    obtain ⟨c, w, rfl⟩ := List.exists_cons_of_ne_nil h.1
    have hc : isWordChar c := h.2 c List.mem_cons_self
    have hcolon : c ≠ ':' := by rintro rfl; exact absurd hc (by decide)
    have hslash : c ≠ '/' := by rintro rfl; exact absurd hc (by decide)
    refine ⟨c, w, rfl, fun k => ?_⟩
    rw [Bool.eq_iff_iff, runsOn_iff, needsGap_iff]
    simp [hc, hcolon, hslash]
  | other d => exact ⟨d, [], rfl, fun k => runsOn_eq_needsGap h.2.1 (by simp) (by simp) (by simp)⟩
  | star | openBracket | closeBracket | semicolon | doubleColon =>
    exact ⟨_, _, rfl, fun k => runsOn_eq_needsGap (by decide) (by simp) (by decide) (by decide)⟩
  | eof => exact absurd h id

/-- A character that is neither blank nor part of a word is the text of its kind. -/
theorem ofChar_isLexeme (hb : ¬ isBlank c) (hw : ¬ isWordChar c) :
    (ofChar c).IsLexeme ∧ (ofChar c).text = [c] := by
  unfold ofChar
  split
  · exact ⟨trivial, rfl⟩
  · exact ⟨trivial, rfl⟩
  · exact ⟨trivial, rfl⟩
  · exact ⟨trivial, rfl⟩
  · exact ⟨⟨hb, hw, by simp_all⟩, rfl⟩

/-- A character runs on only as the first of two colons or slashes. -/
theorem runsOn_ofChar (h : (ofChar c).runsOn d) : (c = '/' ∧ d = '/') ∨ (c = ':' ∧ d = ':') := by
  have hofChar : ∀ {e}, ofChar c = other e → c = e := by
    intro e he
    unfold ofChar at he
    split at he <;> simp_all
  rcases runsOn_iff.mp h with ⟨w, hw, -⟩ | ⟨hk, rfl⟩ | ⟨hk, rfl⟩
  · exact absurd hw ((ofChar_cases c).2 w)
  · exact .inr ⟨hofChar hk, rfl⟩
  · exact .inl ⟨hofChar hk, rfl⟩

end TokenKind

/-- A token is read from its text if it does not run on into what follows. -/
theorem scan_lexeme {k : TokenKind} (hk : k.IsLexeme) {s : List Char} (hs : ∀ c ∈ s.head?, ¬ k.runsOn c)
    {offset : Nat} : scan offset (k.text ++ s) =
      ⟨k, .ofNat offset (offset + byteLength k.text)⟩ :: scan (offset + byteLength k.text) s := by
  cases k with
  | word w => exact scan_word hk hs
  | star | openBracket | closeBracket | semicolon =>
    exact scan_char (by decide) (by decide) (by simp) (by simp)
  | doubleColon => exact scan_doubleColon
  | other c =>
    obtain ⟨hb, hw, hc⟩ := hk
    have hkind : TokenKind.ofChar c = .other c := by
      unfold TokenKind.ofChar
      split <;> simp_all
    have hslash : ¬ (c = '/' ∧ s.head? = some '/') := by
      rintro ⟨rfl, hd⟩
      exact hs '/' hd rfl
    have hcolon : ¬ (c = ':' ∧ s.head? = some ':') := by
      rintro ⟨rfl, hd⟩
      exact hs ':' hd rfl
    rw [TokenKind.text, List.singleton_append, scan_char hb hw hslash hcolon, hkind]
    rfl
  | eof => exact absurd hk id

/-- Blanks are passed over. -/
theorem scan_blanks {s : List Char} : ∀ {blanks : List Char}, (∀ c ∈ blanks, isBlank c) → ∀ offset,
    scan offset (blanks ++ s) = scan (offset + byteLength blanks) s
  | [], _, offset => rfl
  | c :: blanks, h, offset => by
    obtain ⟨hc, h⟩ := List.forall_mem_cons.mp h
    rw [List.cons_append, scan_blank hc, scan_blanks h, byteLength_cons, Nat.add_assoc]

/-! ## Layouts -/

/-- A way to write down tokens: each of them with the blanks in front of it, and the end of the line with the blanks in
front of it and the text of a comment if there is one. -/
inductive Layout where
  | token (blanks : List Char) (kind : TokenKind) (rest : Layout)
  | finish (blanks : List Char) (comment : Option (List Char))

namespace Layout

/-- The kinds of the tokens that are written down. -/
def kinds : Layout → List TokenKind
  | token _ kind rest => kind :: rest.kinds
  | finish _ _ => []

/-- What is written down. -/
def text : Layout → List Char
  | token blanks kind rest => blanks ++ kind.text ++ rest.text
  | finish blanks (some comment) => blanks ++ ['/', '/'] ++ comment
  | finish blanks none => blanks

/-- The layout may follow a token of the given kind: it starts with a blank if it has to. -/
def Follows (k : TokenKind) : Layout → Prop
  | token blanks kind _ => k.needsGap kind → blanks ≠ []
  | finish blanks comment => comment.isSome → k = .other '/' → blanks ≠ []

instance (k : TokenKind) : DecidablePred (Follows k)
  | token blanks kind _ => inferInstanceAs (Decidable (k.needsGap kind → blanks ≠ []))
  | finish blanks comment => inferInstanceAs (Decidable (comment.isSome → k = .other '/' → blanks ≠ []))

/-- What should be blank is, the tokens can be read, and no token runs on into what follows it. -/
def IsValid : Layout → Prop
  | token blanks kind rest => (∀ c ∈ blanks, isBlank c) ∧ kind.IsLexeme ∧ rest.Follows kind ∧ rest.IsValid
  | finish blanks _ => ∀ c ∈ blanks, isBlank c

instance : DecidablePred IsValid := go
where
  go : (l : Layout) → Decidable l.IsValid
    | token blanks kind rest =>
      have := go rest
      decidable_of_iff (blanks.all isBlank ∧ kind.IsLexeme ∧ rest.Follows kind ∧ rest.IsValid)
        (by rw [IsValid, List.all_eq_true])
    | finish blanks _ => decidable_of_iff (blanks.all isBlank) (by rw [IsValid, List.all_eq_true])

/-- The tokens of a layout that starts at byte `offset`, each at its place. -/
def tokens (offset : Nat) : Layout → List Token
  | token blanks kind rest =>
    let start := offset + byteLength blanks
    let stop := start + byteLength kind.text
    ⟨kind, .ofNat start stop⟩ :: rest.tokens stop
  | finish _ _ => []

/-- The kinds of the tokens are those that are written down. -/
theorem map_kind_tokens : ∀ (l : Layout) (offset : Nat), (l.tokens offset).map (·.kind) = l.kinds
  | token blanks kind rest, offset => by rw [tokens, List.map_cons, map_kind_tokens rest, kinds]
  | finish blanks comment, offset => rfl

/-- No token runs on into a text that starts with blanks. -/
theorem not_runsOn_blanks {blanks s : List Char} (hb : ∀ c ∈ blanks, isBlank c) (hne : blanks ≠ []) {k : TokenKind} :
    ∀ c ∈ (blanks ++ s).head?, ¬ k.runsOn c := by
  obtain ⟨c, blanks, rfl⟩ := List.exists_cons_of_ne_nil hne
  rintro _ ⟨⟩
  exact TokenKind.not_runsOn_of_isBlank (hb c List.mem_cons_self)

/-- A layout may follow a token exactly if the token does not run on into it. -/
theorem follows_iff {l : Layout} (hl : l.IsValid) {k : TokenKind} :
    l.Follows k ↔ ∀ c ∈ l.text.head?, ¬ k.runsOn c := by
  cases l with
  | token blanks kind rest =>
    obtain ⟨hb, hk, -⟩ := hl
    rw [text, List.append_assoc]
    by_cases hne : blanks = []
    · obtain ⟨c, t, ht, hc⟩ := TokenKind.exists_text_eq_cons hk
      simp [Follows, hne, ht, hc]
    · exact iff_of_true (fun _ => hne) (not_runsOn_blanks hb hne)
  | finish blanks comment =>
    by_cases hne : blanks = []
    · cases comment with
      | none => simp [Follows, text, hne]
      | some comment => simp [Follows, text, hne, ← TokenKind.runsOn_slash_iff]
    · refine iff_of_true (fun _ _ => hne) ?_
      cases comment with
      | none =>
        rw [text, ← List.append_nil blanks]
        exact not_runsOn_blanks hl hne
      | some comment =>
        rw [text, List.append_assoc]
        exact not_runsOn_blanks hl hne

end Layout

/-! ## Reading and writing -/

section Reading

open Layout

/-- **Reading undoes writing**: a valid layout is read as its tokens, each at its place, and `eof` at its end. -/
theorem scan_layout : ∀ {l : Layout}, l.IsValid → ∀ offset, scan offset l.text =
    l.tokens offset ++ [⟨.eof, .ofNat (offset + byteLength l.text) (offset + byteLength l.text)⟩]
  | token blanks kind rest, ⟨hb, hk, hf, hrest⟩, offset => by
    have hstop : offset + byteLength (token blanks kind rest).text =
        offset + byteLength blanks + byteLength kind.text + byteLength rest.text := by
      simp only [text, byteLength_append, Nat.add_assoc]
    rw [hstop, text, List.append_assoc, scan_blanks hb, scan_lexeme hk ((follows_iff hrest).mp hf),
      scan_layout hrest, tokens, List.cons_append]
  | finish blanks none, hb, offset => by
    have := scan_blanks (s := []) hb offset
    rwa [List.append_nil, scan] at this
  | finish blanks (some comment), hb, offset => by
    rw [text, List.append_assoc, scan_blanks hb, byteLength_append, ← Nat.add_assoc]
    exact scan_comment

/-- One more blank in front of a layout. -/
def Layout.indent (c : Char) : Layout → Layout
  | token blanks kind rest => token (c :: blanks) kind rest
  | finish blanks comment => finish (c :: blanks) comment

/-- A blank in front of a layout is part of it. -/
theorem indent_spec {c : Char} (hc : isBlank c) {l : Layout} (hl : l.IsValid) :
    (l.indent c).IsValid ∧ (l.indent c).text = c :: l.text := by
  cases l with
  | token blanks kind rest =>
    obtain ⟨hb, hrest⟩ := hl
    refine ⟨⟨List.forall_mem_cons.mpr ⟨hc, hb⟩, hrest⟩, ?_⟩
    simp [Layout.indent, text]
  | finish blanks comment =>
    refine ⟨List.forall_mem_cons.mpr ⟨hc, hl⟩, ?_⟩
    cases comment <;> simp [Layout.indent, text]

/-- Every text is a valid layout. -/
theorem exists_layout (s : List Char) : ∃ l : Layout, l.IsValid ∧ l.text = s := by
  -- one case for each way in which a text can start: its end, a blank, a word, a comment, two colons, another character
  fun_induction scan 0 s with
  | case1 offset => exact ⟨finish [] none, by simp [IsValid], rfl⟩
  | case2 offset c rest hb ih =>
    obtain ⟨l, hl, rfl⟩ := ih
    exact ⟨l.indent c, indent_spec hb hl⟩
  | case3 offset c rest hb hw stop ih =>
    obtain ⟨l, hl, hrest⟩ := ih
    have hword : IsWord (c :: rest.takeWhile isWordChar) :=
      ⟨List.cons_ne_nil _ _, List.forall_mem_cons.mpr ⟨hw, List.all_eq_true.mp List.all_takeWhile⟩⟩
    have hf : l.Follows (.word (c :: rest.takeWhile isWordChar)) := by
      rw [follows_iff hl, hrest]
      intro d hd hr
      have hstop := List.head?_dropWhile_not isWordChar rest
      rw [hd] at hstop
      exact absurd hr (by simpa [TokenKind.runsOn] using hstop)
    refine ⟨token [] (.word (c :: rest.takeWhile isWordChar)) l, ⟨by simp, hword, hf, hl⟩, ?_⟩
    simp [text, TokenKind.text, hrest]
  | case4 offset c rest hb hw hc stop =>
    obtain ⟨rfl, hr⟩ := hc
    obtain ⟨comment, rfl⟩ := List.head?_eq_some_iff.mp hr
    exact ⟨finish [] (some comment), by simp [IsValid], rfl⟩
  | case5 offset c rest hb hw hc hd ih =>
    obtain ⟨l, hl, hrest⟩ := ih
    obtain ⟨rfl, hr⟩ := hd
    obtain ⟨rest, rfl⟩ := List.head?_eq_some_iff.mp hr
    have hf : l.Follows .doubleColon := (follows_iff hl).mpr fun d _ => by simp [TokenKind.runsOn]
    refine ⟨token [] .doubleColon l, ⟨by simp, trivial, hf, hl⟩, ?_⟩
    simp [text, TokenKind.text, hrest]
  | case6 offset c rest hb hw hc hd ih =>
    obtain ⟨l, hl, rfl⟩ := ih
    obtain ⟨hk, htext⟩ := TokenKind.ofChar_isLexeme hb hw
    have hf : l.Follows (.ofChar c) := by
      rw [follows_iff hl]
      intro d hhead hr
      rcases TokenKind.runsOn_ofChar hr with ⟨rfl, rfl⟩ | ⟨rfl, rfl⟩
      · exact hc ⟨rfl, hhead⟩
      · exact hd ⟨rfl, hhead⟩
    refine ⟨token [] (.ofChar c) l, ⟨by simp, hk, hf, hl⟩, ?_⟩
    simp [text, htext]

end Reading

/-! ## Declarations -/

section Declarations

/-- Two results of reading a line say the same: the same declaration, wherever it stands and however it is written, or
the same reason for there being none. -/
def SameReading : Except Diagnostic ParsedDeclaration → Except Diagnostic ParsedDeclaration → Prop
  | .ok d, .ok d' => d.dataType = d'.dataType ∧ d.variableName = d'.variableName ∧ d.isPointer = d'.isPointer ∧
      d.arraySize = d'.arraySize
  | .error e, .error e' => e.kind = e'.kind
  | _, _ => False

/-- Lines with the same kinds of tokens say the same. -/
theorem sameReading_of_lexKinds_eq {line line' : List Char} (h : lexKinds line = lexKinds line')
    (location location' : Location) : SameReading (parseLine line location) (parseLine line' location') := by
  unfold parseLine
  rw [h]
  cases parseTokens (lexKinds line') with
  | error kind => rfl
  | ok shape => exact ⟨rfl, rfl, rfl, rfl⟩

/-- The kinds of a valid layout are those that are read from it. -/
theorem lexKinds_layout {l : Layout} (hl : l.IsValid) : lexKinds l.text = l.kinds := by
  have h := lex_kinds l.text
  rw [lex, scan_layout hl, List.map_append, l.map_kind_tokens] at h
  exact (List.append_cancel_right h).symm

/-- **Layouts do not matter**: the text of a valid layout is read as its tokens and the end of the line, and lines that
differ in their layout alone say the same wherever they stand. -/
theorem lex_layout (l : Layout) (hl : l.IsValid) :
    (lex l.text).map (·.kind) = l.kinds ++ [.eof] ∧
      ∀ l' : Layout, l'.IsValid → l'.kinds = l.kinds → ∀ location location',
        SameReading (parseLine l.text location) (parseLine l'.text location') := by
  constructor
  · rw [lex_kinds, lexKinds_layout hl]
  · intro l' hl' hkinds location location'
    apply sameReading_of_lexKinds_eq
    rw [lexKinds_layout hl, lexKinds_layout hl', hkinds]

/-- A pointer with its star at the name and a comment of three slashes, and with its star at the type. -/
theorem lex_layout_pointer :
    ∃ l l' : Layout, l.text = "int *a;///".toList ∧ l'.text = "int* a ;".toList ∧ l.IsValid ∧ l'.IsValid ∧
      l'.kinds = l.kinds ∧
      (lex l.text).map (·.kind) = [.word "int".toList, .star, .word ['a'], .semicolon, .eof] ∧
      SameReading (parseLine l.text default) (parseLine l'.text default) := by
  let l : Layout := .token [] (.word "int".toList) (.token [' '] .star (.token [] (.word ['a'])
    (.token [] .semicolon (.finish [] (some ['/'])))))
  let l' : Layout := .token [] (.word "int".toList) (.token [] .star (.token [' '] (.word ['a'])
    (.token [' '] .semicolon (.finish [] none))))
  have hl : l.IsValid := by decide
  have hl' : l'.IsValid := by decide
  obtain ⟨hlex, hsame⟩ := lex_layout l hl
  exact ⟨l, l', by decide, by decide, hl, hl', rfl, hlex, hsame l' hl' rfl default default⟩

end Declarations

end AccessorGen
