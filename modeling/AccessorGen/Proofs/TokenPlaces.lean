import AccessorGen.Proofs.Layout
import AccessorGen.Proofs.SourceLines

/-!
# Where the tokens of a line stand

Nothing of a line gets lost when it is read (`lex_places`): each token stands at its span with its own text, words are
as long as they can be, the spans follow each other, and there is nothing but blanks between them, and perhaps a comment
before the end.

A line is the text of a layout (`exists_layout`), so each part is an induction over a layout that starts behind a part
of the line that is already read.
-/

namespace AccessorGen

open Text

/-! ## Places -/

/-- The token stands in the line between the two given parts of it, and if it is a word, neither part has a word
character next to it. -/
structure Token.StandsBetween (line before after : List Char) (t : Token) : Prop where
  isLexeme : t.kind.IsLexeme
  line_eq : line = before ++ t.kind.text ++ after
  start_eq : t.span.start.toNat = byteLength before
  stop_eq : t.span.stop.toNat = byteLength (before ++ t.kind.text)
  maximal : ∀ w, t.kind = .word w → (∀ c ∈ before.getLast?, ¬ isWordChar c) ∧ ∀ c ∈ after.head?, ¬ isWordChar c

/-- The spans between tokens, the first from byte `stop` on. -/
def gapsFrom (stop : UInt32) : List Token → List Span
  | [] => []
  | t :: ts => ⟨stop, t.span.start⟩ :: gapsFrom t.span.stop ts

/-- No word goes on from one part of a line into the next. -/
def NoWordAcross (before after : List Char) : Prop :=
  ∀ c ∈ before.getLast?, ∀ d ∈ after.head?, isWordChar c → ¬ isWordChar d

section Parts

variable {k : TokenKind}

/-- Byte offsets below `2 ^ 32` are kept by a span. -/
theorem Span.toNat_ofNat {start stop : Nat} (h : start ≤ stop) (hfit : stop < 2 ^ 32) :
    (Span.ofNat start stop).start.toNat = start ∧ (Span.ofNat start stop).stop.toNat = stop :=
  ⟨UInt32.toNat_ofNat_of_lt' (Nat.lt_of_le_of_lt h hfit), UInt32.toNat_ofNat_of_lt' hfit⟩

/-- A token is read from some text. -/
theorem TokenKind.IsLexeme.text_ne_nil (h : k.IsLexeme) : k.text ≠ [] := by
  obtain ⟨c, rest, ht, -⟩ := TokenKind.exists_text_eq_cons h
  rw [ht]
  exact List.cons_ne_nil c rest

/-- Only a word ends in a word character. -/
theorem TokenKind.IsLexeme.exists_eq_word (h : k.IsLexeme) {c : Char} (hc : c ∈ k.text.getLast?) (hw : isWordChar c) :
    ∃ w, k = .word w := by
  cases k with
  | word w => exact ⟨w, rfl⟩
  | other d =>
    cases hc
    exact absurd hw h.2.1
  | star | openBracket | closeBracket | semicolon | doubleColon =>
    cases hc
    exact absurd hw (by decide)
  | eof => exact absurd h id

/-- No word goes on from a token into a layout that may follow it. -/
theorem noWordAcross_of_follows (hk : k.IsLexeme) {l : Layout} (hl : l.IsValid) (hf : l.Follows k)
    (before : List Char) : NoWordAcross (before ++ k.text) l.text := by
  intro c hc d hd hw
  rw [List.getLast?_append_of_ne_nil _ hk.text_ne_nil] at hc
  obtain ⟨w, rfl⟩ := hk.exists_eq_word hc hw
  exact (Layout.follows_iff hl).mp hf d hd

/-- A word stands apart from the blanks before it, and from what stands before these if no word goes on there. -/
theorem not_isWordChar_getLast? {before blanks w after : List Char} (hb : ∀ c ∈ blanks, isBlank c) (hw : IsWord w)
    (h : NoWordAcross before (blanks ++ w ++ after)) : ∀ c ∈ (before ++ blanks).getLast?, ¬ isWordChar c := by
  intro c hc
  rcases eq_or_ne blanks [] with rfl | hne
  · obtain ⟨d, w, rfl⟩ := List.exists_cons_of_ne_nil hw.1
    intro hword
    rw [List.append_nil] at hc
    exact h c hc d rfl hword (hw.2 d List.mem_cons_self)
  · rw [List.getLast?_append_of_ne_nil _ hne] at hc
    intro hword
    exact not_isBlank_of_isWordChar hword (hb c (List.mem_of_getLast? hc))

/-- A token that stands somewhere has a span that is not empty and lies in the line. -/
theorem Token.StandsBetween.bounds {line before after : List Char} {t : Token} (h : t.StandsBetween line before after) :
    t.span.start < t.span.stop ∧ t.span.stop.toNat ≤ byteLength line := by
  have hshows : t.span.Shows line t.kind.text := ⟨before, after, h.line_eq, h.start_eq, h.stop_eq⟩
  exact hshows.bounds h.isLexeme.text_ne_nil

end Parts

/-! ## The tokens of a layout -/

namespace Layout

variable {line : List Char}

/-- The first token of a layout stands in the line. -/
theorem standsBetween_token (hfit : byteLength line < 2 ^ 32) {before blanks : List Char} {kind : TokenKind}
    {rest : Layout} (hline : line = before ++ (token blanks kind rest).text) (hl : (token blanks kind rest).IsValid)
    (hacross : NoWordAcross before (token blanks kind rest).text) :
    Token.StandsBetween line (before ++ blanks) rest.text
      ⟨kind, .ofNat (byteLength before + byteLength blanks)
        (byteLength before + byteLength blanks + byteLength kind.text)⟩ := by
  obtain ⟨hb, hk, hf, hrest⟩ := hl
  have hbytes := congrArg byteLength hline
  simp only [text, byteLength_append] at hbytes
  obtain ⟨hstart, hstop⟩ := Span.toNat_ofNat (Nat.le_add_right (byteLength before + byteLength blanks)
    (byteLength kind.text)) (by omega)
  refine ⟨hk, by rw [hline]; simp [text], ?_, ?_, ?_⟩
  · rw [hstart, byteLength_append]
  · rw [hstop, byteLength_append, byteLength_append]
  · rintro w rfl
    exact ⟨not_isWordChar_getLast? hb hk hacross, (follows_iff hrest).mp hf⟩

/-- The tokens of a layout stand in the line. -/
theorem standsBetween_of_mem_tokens (hfit : byteLength line < 2 ^ 32) : ∀ {l : Layout} {before : List Char},
    line = before ++ l.text → l.IsValid → NoWordAcross before l.text →
    ∀ t ∈ l.tokens (byteLength before), ∃ before after, t.StandsBetween line before after
  | token blanks kind rest, before, hline, hl, hacross, t, ht => by
    have hfirst := standsBetween_token hfit hline hl hacross
    obtain ⟨-, hk, hf, hrest⟩ := hl
    rcases List.mem_cons.mp ht with rfl | ht
    · exact ⟨before ++ blanks, rest.text, hfirst⟩
    -- the rest follows this token, so no word goes on from the token into it
    · rw [← byteLength_append, ← byteLength_append] at ht
      exact standsBetween_of_mem_tokens hfit hfirst.line_eq hrest (noWordAcross_of_follows hk hrest hf _) t ht
  | finish blanks comment, before, _, _, _, t, ht => by cases ht

/-- The tokens of a layout do not start before it does. -/
theorem le_start_of_mem_tokens : ∀ {l : Layout} {offset : Nat}, offset + byteLength l.text < 2 ^ 32 →
    ∀ t ∈ l.tokens offset, offset ≤ t.span.start.toNat
  | token blanks kind rest, offset, hfit, t, ht => by
    simp only [text, byteLength_append] at hfit
    rcases List.mem_cons.mp ht with rfl | ht
    · rw [(Span.toNat_ofNat (Nat.le_add_right _ _) (by omega)).1]
      exact Nat.le_add_right _ _
    · have := le_start_of_mem_tokens (by omega) t ht
      omega
  | finish blanks comment, offset, _, t, ht => by cases ht

/-- The tokens of a layout follow each other. -/
theorem tokens_pairwise : ∀ {l : Layout} {offset : Nat}, offset + byteLength l.text < 2 ^ 32 →
    (l.tokens offset).Pairwise (·.span.stop ≤ ·.span.start)
  | token blanks kind rest, offset, hfit => by
    simp only [text, byteLength_append] at hfit
    refine List.pairwise_cons.mpr ⟨?_, tokens_pairwise (by omega)⟩
    intro t ht
    rw [UInt32.le_iff_toNat_le, (Span.toNat_ofNat (Nat.le_add_right _ _) (by omega)).2]
    exact le_start_of_mem_tokens (by omega) t ht
  | finish blanks comment, offset, _ => .nil

/-- The blanks before each token of a layout. -/
def gaps : Layout → List (List Char)
  | token blanks _ rest => blanks :: rest.gaps
  | finish _ _ => []

/-- The end of a layout, where there are no more tokens. -/
def ending : Layout → List Char
  | token _ _ rest => rest.ending
  | finish blanks comment => (finish blanks comment).text

/-- What stands before the tokens of a layout is blank, and before `eof` there may be a comment. -/
theorem gaps_blank : ∀ {l : Layout}, l.IsValid → (∀ gap ∈ l.gaps, ∀ c ∈ gap, isBlank c) ∧
    ∃ blanks, (∀ c ∈ blanks, isBlank c) ∧ (l.ending = blanks ∨ ∃ comment, l.ending = blanks ++ "//".toList ++ comment)
  | token blanks kind rest, ⟨hb, _, _, hrest⟩ => by
    obtain ⟨hgaps, hending⟩ := gaps_blank hrest
    exact ⟨List.forall_mem_cons.mpr ⟨hb, hgaps⟩, hending⟩
  | finish blanks none, hb => ⟨by simp [gaps], blanks, hb, .inl rfl⟩
  | finish blanks (some comment), hb => ⟨by simp [gaps], blanks, hb, .inr ⟨comment, rfl⟩⟩

/-- The spans between the tokens of a layout show what stands there. -/
theorem gapsFrom_tokens (hfit : byteLength line < 2 ^ 32) : ∀ {l : Layout} {before : List Char} {stop : UInt32},
    line = before ++ l.text → stop.toNat = byteLength before → ∀ {eof : Token},
    eof.span.start.toNat = byteLength line →
    List.Forall₂ (·.Shows line ·) (gapsFrom stop (l.tokens (byteLength before) ++ [eof])) (l.gaps ++ [l.ending])
  | token blanks kind rest, before, stop, hline, hstop, eof, heof => by
    have hrest : line = before ++ blanks ++ kind.text ++ rest.text := by
      rw [hline]
      simp [text]
    have hbytes := congrArg byteLength hrest
    simp only [byteLength_append] at hbytes
    obtain ⟨hs, he⟩ := Span.toNat_ofNat (Nat.le_add_right (byteLength before + byteLength blanks)
      (byteLength kind.text)) (by omega)
    refine .cons ⟨before, kind.text ++ rest.text, ?_, hstop, ?_⟩ ?_
    · rw [hrest]
      simp
    · rw [byteLength_append]
      exact hs
    · rw [← byteLength_append, ← byteLength_append] at he ⊢
      exact gapsFrom_tokens hfit hrest he heof
  | finish blanks comment, before, stop, hline, hstop, eof, heof => by
    refine .cons ⟨before, [], ?_, hstop, ?_⟩ .nil
    · rw [hline, List.append_nil]
      rfl
    · rw [heof, hline]
      rfl

end Layout

/-! ## The tokens of a line -/

/-- **Nothing gets lost**: the tokens of a line are tokens that stand in it one after the other, and `eof` at its end.
Between them, and before the first, there are only blanks, and blanks and perhaps a comment before `eof`. -/
theorem lex_places (line : List Char) (h : byteLength line < 2 ^ 32) :
    ∃ tokens eof, lex line = tokens ++ [eof] ∧
      eof.kind = .eof ∧ eof.span.start.toNat = byteLength line ∧ eof.span.stop.toNat = byteLength line ∧
      (∀ t ∈ tokens, t.kind ≠ .eof ∧ t.span.start < t.span.stop ∧ t.span.stop.toNat ≤ byteLength line ∧
        ∃ before after, t.StandsBetween line before after) ∧
      tokens.Pairwise (·.span.stop ≤ ·.span.start) ∧
      ∃ gaps ending, List.Forall₂ (·.Shows line ·) (gapsFrom 0 (lex line)) (gaps ++ [ending]) ∧
        (∀ gap ∈ gaps, ∀ c ∈ gap, isBlank c) ∧
        ∃ blanks, (∀ c ∈ blanks, isBlank c) ∧
          (ending = blanks ∨ ∃ comment, ending = blanks ++ "//".toList ++ comment) := by
  obtain ⟨l, hl, rfl⟩ := exists_layout line
  have hlex := scan_layout hl 0
  rw [Nat.zero_add] at hlex
  obtain ⟨hstart, hstop⟩ := Span.toNat_ofNat (Nat.le_refl (byteLength l.text)) h
  refine ⟨_, _, hlex, rfl, hstart, hstop, ?_, Layout.tokens_pairwise (by omega), l.gaps, l.ending, ?_,
    Layout.gaps_blank hl⟩
  · intro t ht
    obtain ⟨before, after, hstands⟩ := Layout.standsBetween_of_mem_tokens h (List.nil_append l.text).symm hl
      (by simp [NoWordAcross]) t ht
    refine ⟨?_, hstands.bounds.1, hstands.bounds.2, before, after, hstands⟩
    intro heof
    have := hstands.isLexeme
    rw [heof] at this
    exact this
  · rw [lex, hlex]
    exact Layout.gapsFrom_tokens h (List.nil_append l.text).symm rfl hstart

/-- A line with a wide blank in front, three colons in a row, and a comment right behind the last token. -/
theorem lex_places_wide :
    byteLength "\u3000a:::é//b".toList < 2 ^ 32 ∧
      ∃ tokens eof, lex "\u3000a:::é//b".toList = tokens ++ [eof] ∧ eof.span.start.toNat = 12 ∧
        (∀ t ∈ tokens, ∃ before after, t.StandsBetween "\u3000a:::é//b".toList before after) ∧
        tokens.Pairwise (·.span.stop ≤ ·.span.start) := by
  have hfit : byteLength "\u3000a:::é//b".toList < 2 ^ 32 := by decide
  obtain ⟨tokens, eof, hlex, -, hstart, -, hstands, hpairwise, -⟩ := lex_places _ hfit
  exact ⟨hfit, tokens, eof, hlex, hstart, fun t ht => (hstands t ht).2.2.2, hpairwise⟩

end AccessorGen
