import AccessorGen.Proofs.Grammar

/-!
# Why a line is rejected

Three reasons compete for a line that is not a declaration: its form, its size, and that nothing is left beside its
star. The form comes first, then the size, then the rest (`rejection?_iff`).

A form is a shape (`IsShaped`) with a sound head (`IsSound`). The shape is that of the readers of the grammar
(`isShaped_iff`). Soundness sums up the reading of the type words, which goes from token to token and knows only
whether a word was read and whether a `::` came last: one step of it is `isTypeTokens_cons`, the whole run
`readTypeWords_isSome_iff`.
-/

namespace AccessorGen

open Text

/-- Why a line is rejected, if it is. -/
def rejection? (line : List Char) (location : Location) : Option Diagnostic.Kind :=
  match parseLine line location with
  | .ok _ => none
  | .error e => some e.kind

/-! ## Shapes -/

/-- The tokens are a head, a size in brackets or nothing, and the only semicolon. The size is there if a closing bracket
stands before the semicolon, and the last opening bracket opens it. -/
structure IsShaped (tokens head : List TokenKind) (size : Option (List TokenKind)) : Prop where
  tokens_eq : tokens = head ++ bracketed size ++ [.semicolon]
  semicolon_not_mem : .semicolon ∉ head ++ bracketed size
  closeBracket_not_last : size = none → head.getLast? ≠ some .closeBracket
  openBracket_not_mem : ∀ inner, size = some inner → .openBracket ∉ inner

/-- The shape is what the readers of the statement and of its size find. -/
theorem isShaped_iff {tokens head : List TokenKind} {size : Option (List TokenKind)} :
    IsShaped tokens head size ↔ ∃ body, statementBody tokens = some body ∧ splitSize body = some (head, size) := by
  simp only [statementBody_eq_some_iff, splitSize_eq_some_iff]
  constructor
  · rintro ⟨rfl, hs, hc, ho⟩
    exact ⟨head ++ bracketed size, ⟨rfl, hs⟩, rfl, hc, ho⟩
  · rintro ⟨_, ⟨rfl, hs⟩, rfl, hc, ho⟩
    exact ⟨rfl, hs, hc, ho⟩

/-! ## Reading type words -/

section TypeTokens

/-- A word, a `::` or a star. -/
def TokenKind.IsHeadToken (k : TokenKind) : Prop :=
  (∃ w, k = .word w) ∨ k = .doubleColon ∨ k = .star

/-- The tokens can be read as words of a type. `started` says that a word was read before them and `joining` that a
`::` stands right before them. -/
structure IsTypeTokens (started joining : Prop) (tokens : List TokenKind) : Prop where
  isHeadToken : ∀ k ∈ tokens, k.IsHeadToken
  joined : joining → ∃ w rest, tokens = .word w :: rest
  colons : ∀ before after, tokens = before ++ .doubleColon :: after →
    (started ∨ ∃ w, .word w ∈ before) ∧ ∃ w rest, after = .word w :: rest

/-- One token more: a `::` needs a word before it, and right behind a `::` stands a word. -/
theorem isTypeTokens_cons {started joining : Prop} {k : TokenKind} {tokens : List TokenKind} :
    IsTypeTokens started joining (k :: tokens) ↔
      k.IsHeadToken ∧ (joining → ∃ w, k = .word w) ∧ (k = .doubleColon → started) ∧
        IsTypeTokens (started ∨ ∃ w, k = .word w) (k = .doubleColon) tokens := by
  constructor
  · rintro ⟨hk, hj, hc⟩
    obtain ⟨hk, hks⟩ := List.forall_mem_cons.mp hk
    have hfirst : k = .doubleColon → started ∧ ∃ w rest, tokens = .word w :: rest := by
      rintro rfl
      simpa using hc [] tokens rfl
    refine ⟨hk, fun h => ?_, fun h => (hfirst h).1, hks, fun h => (hfirst h).2, ?_⟩
    · obtain ⟨w, rest, he⟩ := hj h
      exact ⟨w, (List.cons.inj he).1⟩
    · intro before after he
      obtain ⟨hs, hw⟩ := hc (k :: before) after (by rw [he, List.cons_append])
      refine ⟨?_, hw⟩
      rcases hs with hs | ⟨w, hw⟩
      · exact .inl (.inl hs)
      · rcases List.mem_cons.mp hw with rfl | hw
        · exact .inl (.inr ⟨w, rfl⟩)
        · exact .inr ⟨w, hw⟩
  · rintro ⟨hk, hj, hstart, hks, hjoin, hc⟩
    refine ⟨List.forall_mem_cons.mpr ⟨hk, hks⟩, fun h => ?_, ?_⟩
    · obtain ⟨w, rfl⟩ := hj h
      exact ⟨w, tokens, rfl⟩
    · intro before after he
      rcases List.cons_eq_append_iff.mp he with ⟨rfl, hrest⟩ | ⟨before', rfl, hrest⟩
      · obtain ⟨rfl, rfl⟩ := List.cons.inj hrest
        exact ⟨.inl (hstart rfl), hjoin rfl⟩
      · obtain ⟨hs, hw⟩ := hc before' after hrest
        refine ⟨?_, hw⟩
        rcases hs with (hs | ⟨w, rfl⟩) | ⟨w, hw⟩
        · exact .inl hs
        · exact .inr ⟨w, List.mem_cons_self⟩
        · exact .inr ⟨w, List.mem_cons_of_mem _ hw⟩

/-- No token at all can be read unless a `::` was left open. -/
theorem isTypeTokens_nil {started joining : Prop} : IsTypeTokens started joining [] ↔ ¬ joining := by
  constructor
  · rintro ⟨-, hj, -⟩ h
    obtain ⟨w, rest, he⟩ := hj h
    cases he
  · intro h
    exact ⟨by simp, fun hj => absurd hj h, by simp⟩

/-- The reader goes through exactly the tokens that can be read as words of a type. -/
theorem readTypeWords_isSome_iff : ∀ (tokens : List TokenKind) (words : List (List Char)) (joining : Bool),
    (readTypeWords words joining tokens).isSome ↔ IsTypeTokens (words ≠ []) joining tokens
  | [], words, joining => by
    rw [isTypeTokens_nil]
    cases joining <;> simp [readTypeWords]
  | .word w :: tokens, words, joining => by
    have ih := fun latest before => readTypeWords_isSome_iff tokens (latest :: before) false
    rw [isTypeTokens_cons]
    cases joining <;> cases words <;> simp [readTypeWords, TokenKind.IsHeadToken, ih]
  | .doubleColon :: tokens, words, joining => by
    have ih := fun latest before => readTypeWords_isSome_iff tokens (latest :: before) true
    rw [isTypeTokens_cons]
    cases joining <;> cases words <;> simp [readTypeWords, TokenKind.IsHeadToken, ih]
  | .star :: tokens, words, joining => by
    have ih := readTypeWords_isSome_iff tokens words false
    rw [isTypeTokens_cons]
    cases joining <;> simp [readTypeWords, TokenKind.IsHeadToken, ih]
  | .openBracket :: tokens, words, joining => by simp [isTypeTokens_cons, readTypeWords, TokenKind.IsHeadToken]
  | .closeBracket :: tokens, words, joining => by simp [isTypeTokens_cons, readTypeWords, TokenKind.IsHeadToken]
  | .semicolon :: tokens, words, joining => by simp [isTypeTokens_cons, readTypeWords, TokenKind.IsHeadToken]
  | .other c :: tokens, words, joining => by simp [isTypeTokens_cons, readTypeWords, TokenKind.IsHeadToken]
  | .eof :: tokens, words, joining => by simp [isTypeTokens_cons, readTypeWords, TokenKind.IsHeadToken]

/-- The words that are read, with the stars among the tokens passed over, are qualified words of the same parts. -/
theorem exists_type_of_readTypeWords {tokens : List TokenKind} {words : List (List Char)}
    (h : readTypeWords [] false tokens = some words) :
    ∃ type : List QualifiedWord, words = type.map (·.text) ∧
      ∀ w, .word w ∈ tokens ↔ .word w ∈ type.flatMap (·.tokens) := by
  obtain ⟨-, hread⟩ := (readTypeWords_filter tokens [] false words).mp h
  obtain ⟨type, htokens, hwords⟩ := exists_of_readTypeWords (by simp) hread
  refine ⟨type, hwords, fun w => ?_⟩
  rw [← htokens]
  simp

/-- Tokens that are read as no word at all have none among them. -/
theorem readTypeWords_eq_nil_iff {tokens : List TokenKind} {words : List (List Char)}
    (h : readTypeWords [] false tokens = some words) : words = [] ↔ ∀ w, .word w ∉ tokens := by
  obtain ⟨type, rfl, hmem⟩ := exists_type_of_readTypeWords h
  simp only [hmem, List.map_eq_nil_iff]
  constructor
  · rintro rfl w hw
    cases hw
  · intro hno
    by_contra hne
    obtain ⟨q, type, rfl⟩ := List.exists_cons_of_ne_nil hne
    exact hno q.first (List.mem_flatMap.mpr ⟨q, List.mem_cons_self, List.mem_cons_self⟩)

/-- The words that are read from proper tokens are not empty. -/
theorem ne_nil_of_mem_readTypeWords {tokens : List TokenKind} {words : List (List Char)}
    (h : readTypeWords [] false tokens = some words) (hk : ∀ k ∈ tokens, k.IsProper) : ∀ w ∈ words, w ≠ [] := by
  obtain ⟨type, rfl, hmem⟩ := exists_type_of_readTypeWords h
  intro w hw
  obtain ⟨q, hq, rfl⟩ := List.mem_map.mp hw
  have hfirst : .word q.first ∈ tokens := (hmem _).mpr (List.mem_flatMap.mpr ⟨q, hq, List.mem_cons_self⟩)
  apply QualifiedWord.text_ne_nil
  intro hnil
  exact (hk _ hfirst).2 (by rw [hnil])

end TypeTokens

/-! ## Heads -/

/-- The tokens before the size can be those of a declaration: words, `::` and at most one star, with a word or the star
at the end. Every `::` has a word before it and right behind it a word that is not the last token. Without a star there
is a word before the last token. -/
structure IsSound (head : List TokenKind) : Prop where
  ne_nil : head ≠ []
  count_star : head.count .star ≤ 1
  isHeadToken : ∀ k ∈ head, k.IsHeadToken
  last : (∃ w, head.getLast? = some (.word w)) ∨ head.getLast? = some .star
  colons : ∀ before after, head = before ++ .doubleColon :: after →
    (∃ w, .word w ∈ before) ∧ ∃ w rest, after = .word w :: rest ∧ rest ≠ []
  type_word : .star ∉ head → ∃ w, .word w ∈ head.dropLast

/-- Without its star the head has no name or no type. -/
def StripsToNothing (head : List TokenKind) : Prop :=
  head.getLast? = some .star ∨ ∀ w, .word w ∉ head.dropLast

section Heads

variable {front : List TokenKind} {last : TokenKind}

/-- A head is sound if the tokens before its last one can be read as words of a type. -/
theorem isSound_concat : IsSound (front ++ [last]) ↔
    (front ++ [last]).count .star ≤ 1 ∧ ((∃ w, last = .word w) ∨ last = .star) ∧ IsTypeTokens False False front ∧
      (.star ∉ front ++ [last] → ∃ w, .word w ∈ front) := by
  constructor
  · rintro ⟨-, hcount, hk, hlast, hcolons, htype⟩
    simp only [List.getLast?_concat, Option.some.injEq, List.dropLast_concat] at hlast htype
    refine ⟨hcount, hlast, ⟨fun k hm => hk k (List.mem_append_left _ hm), False.elim, ?_⟩, htype⟩
    rintro before after rfl
    obtain ⟨hw, w, rest, he, hne⟩ := hcolons before (after ++ [last]) (by simp)
    refine ⟨.inr hw, ?_⟩
    -- the word behind the `::` is not the last token, so it is among those before it
    cases after with
    | nil =>
      obtain ⟨-, rfl⟩ := List.cons.inj he
      exact absurd rfl hne
    | cons k after =>
      obtain ⟨rfl, -⟩ := List.cons.inj he
      exact ⟨w, after, rfl⟩
  · rintro ⟨hcount, hlast, ⟨hk, -, hcolons⟩, htype⟩
    refine ⟨by simp, hcount, ?_, by simpa using hlast, ?_, by simpa using htype⟩
    · intro k hm
      rcases List.mem_append.mp hm with hm | hm
      · exact hk k hm
      · rw [List.mem_singleton.mp hm]
        rcases hlast with hw | hs
        · exact .inl hw
        · exact .inr (.inr hs)
    · intro before after he
      rcases List.eq_nil_or_concat after with rfl | ⟨after, k, rfl⟩
      · -- the last token is no `::`
        obtain ⟨-, hl⟩ := List.append_inj' he rfl
        obtain ⟨rfl, -⟩ := List.cons.inj hl
        simp at hlast
      · rw [List.concat_eq_append] at he ⊢
        rw [← List.cons_append, ← List.append_assoc] at he
        obtain ⟨hf, -⟩ := List.append_inj' he rfl
        obtain ⟨hw, w, rest, rfl⟩ := hcolons before after hf
        exact ⟨by simpa using hw, w, rest ++ [k], rfl, by simp⟩

/-- A head is read as the words before its last token, and the name if that is a word. -/
theorem readHead_concat_eq_some_iff {words : List (List Char)} {name : Option (List Char)} :
    readHead (front ++ [last]) = some (words, name) ↔
      readTypeWords [] false front = some words ∧
        ((∃ w, last = .word w ∧ name = some w) ∨ last = .star ∧ name = none) := by
  unfold readHead
  rw [List.getLast?_concat, List.dropLast_concat]
  cases last <;> simp [@eq_comm _ _ name]

/-- A head is sound exactly if the reader goes through it. -/
theorem isSound_iff {head : List TokenKind} : IsSound head ↔
    head.count .star ≤ 1 ∧ ∃ words name, readHead head = some (words, name) ∧
      (head.contains .star = false → words ≠ []) := by
  rcases List.eq_nil_or_concat head with rfl | ⟨front, last, rfl⟩
  · refine iff_of_false (fun h => h.ne_nil rfl) ?_
    rintro ⟨-, words, name, h, -⟩
    cases h
  · rw [List.concat_eq_append, isSound_concat]
    have hread := readTypeWords_isSome_iff front [] false
    simp only [ne_eq, not_true_eq_false, Bool.false_eq_true, Option.isSome_iff_exists] at hread
    have hstar : (front ++ [last]).contains .star = false ↔ .star ∉ front ++ [last] := by
      rw [← Bool.not_eq_true, List.contains_iff_mem]
    simp only [readHead_concat_eq_some_iff, hstar, ← hread]
    refine and_congr_right fun _ => ?_
    constructor
    · rintro ⟨hlast, ⟨words, hw⟩, htype⟩
      have hne : .star ∉ front ++ [last] → words ≠ [] := by
        intro hs hnil
        obtain ⟨w, hm⟩ := htype hs
        exact (readTypeWords_eq_nil_iff hw).mp hnil w hm
      rcases hlast with ⟨w, hl⟩ | hl
      · exact ⟨words, some w, ⟨hw, .inl ⟨w, hl, rfl⟩⟩, hne⟩
      · exact ⟨words, none, ⟨hw, .inr ⟨hl, rfl⟩⟩, hne⟩
    · rintro ⟨words, name, ⟨hw, hlast⟩, hne⟩
      refine ⟨?_, ⟨words, hw⟩, fun hs => ?_⟩
      · rcases hlast with ⟨w, hl, -⟩ | ⟨hl, -⟩
        · exact .inl ⟨w, hl⟩
        · exact .inr hl
      · by_contra hno
        exact hne hs ((readTypeWords_eq_nil_iff hw).mpr fun w hm => hno ⟨w, hm⟩)

end Heads

/-! ## Verdicts -/

section Verdicts

variable {tokens head : List TokenKind} {size : Option (List TokenKind)}

/-- Tokens without a shape and a sound head are rejected for their form. -/
theorem parseTokens_of_not_sound (h : ¬ ∃ head size, IsShaped tokens head size ∧ IsSound head) :
    parseTokens tokens = .error .grammarMismatch := by
  have hform : readForm tokens = none := by
    rw [Option.eq_none_iff_forall_ne_some]
    rintro ⟨words, name, isPointer, size⟩ hf
    obtain ⟨body, head, hb, hs, hc, hh, hw, rfl⟩ := readForm_eq_some_iff.mp hf
    exact h ⟨head, size, isShaped_iff.mpr ⟨body, hb, hs⟩, isSound_iff.mpr ⟨hc, words, name, hh, hw⟩⟩
  simp only [parseTokens, hform]

/-- A shape with a sound head is a form. -/
theorem exists_readForm_eq (hs : IsShaped tokens head size) (hh : IsSound head) :
    ∃ words name, readForm tokens = some (words, name, head.contains .star, size) ∧
      readHead head = some (words, name) := by
  obtain ⟨body, hb, hsplit⟩ := isShaped_iff.mp hs
  obtain ⟨hc, words, name, hread, hw⟩ := isSound_iff.mp hh
  exact ⟨words, name, readForm_eq_some_iff.mpr ⟨body, head, hb, hsplit, hc, hread, hw, rfl⟩, hread⟩

/-- Of a head of proper tokens nothing is left exactly if it has no words or no name. -/
theorem stripsToNothing_iff {words : List (List Char)} {name : Option (List Char)} (hk : ∀ k ∈ head, k.IsProper)
    (h : readHead head = some (words, name)) :
    StripsToNothing head ↔ [' '].intercalate words = [] ∨ name.getD [] = [] := by
  rcases List.eq_nil_or_concat head with rfl | ⟨front, last, rfl⟩
  · cases h
  · rw [List.concat_eq_append] at h hk ⊢
    obtain ⟨hread, hlast⟩ := readHead_concat_eq_some_iff.mp h
    obtain ⟨hfront, hproper⟩ := List.forall_mem_append.mp hk
    have htype : [' '].intercalate words = [] ↔ ∀ w, .word w ∉ front := by
      rw [← readTypeWords_eq_nil_iff hread]
      constructor
      · intro hnil
        by_contra hne
        exact intercalate_ne_nil hne (ne_nil_of_mem_readTypeWords hread hfront) hnil
      · rintro rfl
        rfl
    have hname : name.getD [] = [] ↔ last = .star := by
      rcases hlast with ⟨w, rfl, rfl⟩ | ⟨rfl, rfl⟩
      · have hw : w ≠ [] := by
          rintro rfl
          exact (hproper _ List.mem_cons_self).2 rfl
        simpa using hw
      · simp
    rw [StripsToNothing, List.getLast?_concat, List.dropLast_concat, Option.some.injEq, htype, hname, or_comm]

/-- A size in brackets that is not in the grammar is rejected as such. -/
theorem readSize?_eq_error (h : ¬ ∃ n, SizeGroup (bracketed size) n) : readSize? size = .error .invalidArraySize := by
  cases hr : readSize? size with
  | ok n => exact absurd ⟨n, readSize?_eq_ok_iff.mp hr⟩ h
  | error kind =>
    unfold readSize? at hr
    split at hr
    · cases hr
    · split at hr <;> cases hr
      rfl

variable {line : List Char} {location : Location}

/-- What is read from the tokens of a line decides why it is rejected. -/
theorem rejection?_of_parseTokens_error {kind : Diagnostic.Kind} (h : parseTokens (lexKinds line) = .error kind) :
    rejection? line location = some kind := by
  simp only [rejection?, parseLine, h]
  rfl

/-- The verdict on a form: the size is looked at first, then what is left of the head. -/
theorem rejection?_cases (location : Location) (hs : IsShaped (lexKinds line) head size) (hh : IsSound head) :
    ((¬ ∃ n, SizeGroup (bracketed size) n) ∧ rejection? line location = some .invalidArraySize) ∨
      ((∃ n, SizeGroup (bracketed size) n) ∧ StripsToNothing head ∧
        rejection? line location = some .emptyAfterStrip) ∨
      ((∃ n, SizeGroup (bracketed size) n) ∧ ¬ StripsToNothing head ∧ rejection? line location = none) := by
  obtain ⟨words, name, hform, hread⟩ := exists_readForm_eq hs hh
  have hproper : ∀ k ∈ head, k.IsProper := by
    intro k hm
    apply (lexKinds_spec line).2
    rw [hs.tokens_eq]
    simp [hm]
  have hstrip : StripsToNothing head ↔ (([' '].intercalate words).isEmpty || (name.getD []).isEmpty) = true := by
    rw [stripsToNothing_iff hproper hread, Bool.or_eq_true, List.isEmpty_iff, List.isEmpty_iff]
  by_cases hsize : ∃ n, SizeGroup (bracketed size) n
  · obtain ⟨n, hn⟩ := hsize
    have hok := readSize?_eq_ok_iff.mpr hn
    by_cases hnothing : StripsToNothing head
    · refine .inr (.inl ⟨⟨n, hn⟩, hnothing, rejection?_of_parseTokens_error ?_⟩)
      simp only [parseTokens, hform, hok]
      exact if_pos (hstrip.mp hnothing)
    · refine .inr (.inr ⟨⟨n, hn⟩, hnothing, ?_⟩)
      have hshape : parseTokens (lexKinds line) = .ok ⟨words, name.getD [], head.contains .star, n⟩ := by
        simp only [parseTokens, hform, hok]
        exact if_neg (mt hstrip.mpr hnothing)
      simp only [rejection?, parseLine, hshape]
  · refine .inl ⟨hsize, rejection?_of_parseTokens_error ?_⟩
    simp only [parseTokens, hform, readSize?_eq_error hsize]

/-- **Why a line is rejected**: for its form if its tokens have no shape with a sound head; otherwise for its size if
there are brackets with anything but a positive 32-bit number; otherwise because nothing is left beside its star; and
otherwise not at all. -/
theorem rejection?_iff (line : List Char) (location : Location) :
    (rejection? line location = some .grammarMismatch ↔
        ¬ ∃ head size, IsShaped (lexKinds line) head size ∧ IsSound head) ∧
      ∀ head size, IsShaped (lexKinds line) head size → IsSound head →
        (rejection? line location = some .invalidArraySize ↔ ¬ ∃ n, SizeGroup (bracketed size) n) ∧
        ((∃ n, SizeGroup (bracketed size) n) →
          (rejection? line location = some .emptyAfterStrip ↔ StripsToNothing head) ∧
          (rejection? line location = none ↔ ¬ StripsToNothing head)) := by
  constructor
  · constructor
    · rintro hr ⟨head, size, hs, hh⟩
      rcases rejection?_cases location hs hh with ⟨-, hr'⟩ | ⟨-, -, hr'⟩ | ⟨-, -, hr'⟩
      · cases hr.symm.trans hr'
      · cases hr.symm.trans hr'
      · cases hr.symm.trans hr'
    · intro h
      exact rejection?_of_parseTokens_error (parseTokens_of_not_sound h)
  · intro head size hs hh
    rcases rejection?_cases location hs hh with ⟨hn, hr⟩ | ⟨hn, hst, hr⟩ | ⟨hn, hst, hr⟩
    · simp [hr, hn]
    · simp [hr, hn, hst]
    · simp [hr, hn, hst]

/-- A star without a type: a wrong size is found before that, and a `::` in front of the star before either. -/
theorem rejection?_star :
    rejection? "* x[0];".toList default = some .invalidArraySize ∧
      rejection? "* x[1];".toList default = some .emptyAfterStrip ∧
      rejection? "std:: *[0];".toList default = some .grammarMismatch := by
  have hsound : IsSound [.star, .word ['x']] := by
    show IsSound ([.star] ++ [.word ['x']])
    refine isSound_concat.mpr ⟨by decide, .inl ⟨['x'], rfl⟩, ?_, by simp⟩
    simp [isTypeTokens_cons, isTypeTokens_nil, TokenKind.IsHeadToken]
  have hzero : IsShaped (lexKinds "* x[0];".toList) [.star, .word ['x']] (some [.word ['0']]) :=
    ⟨by decide +kernel, by decide, by simp, by simp⟩
  have hone : IsShaped (lexKinds "* x[1];".toList) [.star, .word ['x']] (some [.word ['1']]) :=
    ⟨by decide +kernel, by decide, by simp, by simp⟩
  have hcolons : ¬ ∃ head size, IsShaped (lexKinds "std:: *[0];".toList) head size ∧ IsSound head := by
    rintro ⟨head, size, hs, hh⟩
    obtain ⟨body, hbody, hsplit⟩ := isShaped_iff.mp hs
    rw [show lexKinds "std:: *[0];".toList = [.word "std".toList, .doubleColon, .star, .openBracket, .word ['0'],
      .closeBracket, .semicolon] by decide +kernel] at hbody
    cases hbody
    cases hsplit
    obtain ⟨-, w, rest, he, -⟩ := hh.colons [.word "std".toList] [.star] rfl
    cases he
  refine ⟨?_, ?_, (rejection?_iff _ _).1.mpr hcolons⟩
  · refine ((rejection?_iff _ _).2 _ _ hzero hsound).1.mpr ?_
    rintro ⟨n, hn⟩
    cases readSize?_eq_ok_iff.mpr hn
  · have hn : SizeGroup (bracketed (some [.word ['1']])) (some 1) := readSize?_eq_ok_iff.mp rfl
    exact (((rejection?_iff _ _).2 _ _ hone hsound).2 ⟨_, hn⟩).1.mpr (.inr (by simp))

end Verdicts

end AccessorGen
