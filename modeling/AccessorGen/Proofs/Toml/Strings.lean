import AccessorGen.Toml.Quoted
import AccessorGen.Toml.Writer

/-!
# Strings are read as they were written

- A character is written as itself, as a backslash and a letter, or by its code point (`escapeChar_cases`), and both
  readers of basic strings undo each of the three (`basicString_escapeChar`, `basicLines_escapeChar`);
- in three quotes, a quote of the string is followed by two more only where the string ends
  (`escapeLines_quotes`, `longestRun_quotes`);
- hence each form is read back (`quoted_basicLine`, `quoted_literalLine`, `quoted_basicLines`,
  `quoted_literalLines`), so that any form that fits a string will do (`StringForm.Fits`, `quoted_write`), and the form
  that is chosen for a string fits it (`fits_of`).
-/

namespace AccessorGen.Toml

/-! ## Characters -/

section Characters

/-- Control characters are below DEL, so each of them can be looked at. -/
theorem codePoint?_of_isControl {c : Char} (h : isControl c) :
    codePoint? ['0', '0', upperHexDigit (c.toNat / 16), upperHexDigit (c.toNat % 16)] = some c := by
  have hall : ∀ n < 128, isControl (.ofNat n) →
      codePoint? ['0', '0', upperHexDigit (n / 16), upperHexDigit (n % 16)] = some (.ofNat n) := by decide
  have hlt : c.toNat < 128 := by
    simp only [isControl, Bool.or_eq_true, Bool.and_eq_true, decide_eq_true_eq] at h
    omega
  have := hall c.toNat hlt
  rw [Char.ofNat_toNat] at this
  exact this h

/-- What is no control character, line feed, quote or backslash stands in a string as it is. -/
theorem isPlain_of_not_isControl {c : Char} (h : isControl c = false) (hn : c ≠ '\n') : isPlain c := by
  by_cases ht : c = '\t'
  · simp [isPlain, ht]
  · simp only [isControl, ht, hn, Bool.or_eq_false_iff, ne_eq, not_false_eq_true, decide_true, Bool.and_true,
      decide_eq_false_iff_not] at h
    simp only [isPlain, Bool.or_eq_true, Bool.and_eq_true, decide_eq_true_eq]
    exact .inr ⟨by omega, h.2⟩

theorem ne_carriageReturn_of_not_isControl {c : Char} (h : isControl c = false) : c ≠ '\r' := by
  rintro rfl
  exact absurd h (by decide)

/-- A character is written as a backslash and its letter, by its code point, or as it is. -/
theorem escapeChar_cases (c : Char) :
    (∃ e, escapeChar c = ['\\', e] ∧ escapedChar? e = some c ∧ e ≠ 'u' ∧ e ≠ 'U') ∨
      (∃ d₃ d₄, escapeChar c = ['\\', 'u', '0', '0', d₃, d₄] ∧ codePoint? ['0', '0', d₃, d₄] = some c) ∨
      escapeChar c = [c] ∧ c ≠ '"' ∧ c ≠ '\\' ∧ c ≠ '\n' ∧ c ≠ '\r' ∧ isPlain c := by
  unfold escapeChar
  split
  · exact .inl ⟨'b', rfl, rfl, by decide, by decide⟩
  · exact .inl ⟨'t', rfl, rfl, by decide, by decide⟩
  · exact .inl ⟨'n', rfl, rfl, by decide, by decide⟩
  · exact .inl ⟨'f', rfl, rfl, by decide, by decide⟩
  · exact .inl ⟨'r', rfl, rfl, by decide, by decide⟩
  · exact .inl ⟨'"', rfl, rfl, by decide, by decide⟩
  · exact .inl ⟨'\\', rfl, rfl, by decide, by decide⟩
  · rename_i hb ht hn hf hr hq hs
    split
    · rename_i hc
      exact .inr (.inl ⟨_, _, rfl, codePoint?_of_isControl hc⟩)
    · rename_i hc
      exact .inr (.inr ⟨rfl, hq, hs, hn, hr, isPlain_of_not_isControl (by simpa using hc) hn⟩)

/-- No character starts with a quote when it is escaped. -/
theorem head?_escapeChar (c : Char) (s : List Char) : (escapeChar c ++ s).head? ≠ some '"' := by
  rcases escapeChar_cases c with ⟨e, h, -⟩ | ⟨d₃, d₄, h, -⟩ | ⟨h, hq, -⟩
  · simp [h]
  · simp [h]
  · simpa [h] using hq

/-- A basic string on one line holds a character as it is escaped. -/
theorem basicString_escapeChar (c : Char) (s : List Char) :
    basicString (escapeChar c ++ s) = prepend c (basicString s) := by
  rcases escapeChar_cases c with ⟨e, h, he, hu, hU⟩ | ⟨d₃, d₄, h, hd⟩ | ⟨h, hq, hs, -, -, hp⟩
  · rw [h]
    simp only [List.cons_append, List.nil_append]
    rw [basicString, he, Option.bind_some]
    · exact fun _ _ _ _ _ hu' _ => hu hu'
    · exact fun _ _ _ _ _ _ _ _ _ hU' _ => hU hU'
  · rw [h]
    simp [basicString, hd]
  · rw [h]
    simp only [List.cons_append, List.nil_append]
    rw [basicString, if_pos ⟨hp, hs⟩]
    · exact hq
    · exact fun _ _ hs' _ => hs hs'

/-- A basic string of several lines holds a character as it is escaped. -/
theorem basicLines_escapeChar (c : Char) (s : List Char) :
    basicLines .text (escapeChar c ++ s) = prepend c (basicLines .text s) := by
  rcases escapeChar_cases c with ⟨e, h, he, hu, hU⟩ | ⟨d₃, d₄, h, hd⟩ | ⟨h, hq, hs, hn, hr, hp⟩
  · rw [h, List.cons_append, List.cons_append, List.nil_append, basicLines.eq_def]
    simp only [ne_eq, not_true_eq_false, false_and, Char.reduceEq, reduceCtorEq, ↓reduceIte]
    split
    · rename_i h'
      exact absurd (List.cons.inj h').1 hu
    · rename_i h'
      exact absurd (List.cons.inj h').1 hU
    · rename_i h'
      obtain ⟨rfl, rfl⟩ := List.cons.inj h'
      rw [he]
    · rename_i h'
      cases h'
  · rw [h]
    simp [basicLines, hd]
  · rw [h, List.singleton_append, basicLines.eq_def]
    simp only [ne_eq, not_true_eq_false, false_and, hq, hs, hn, hr, hp, reduceCtorEq, ↓reduceIte]

end Characters

/-! ## Strings on one line -/

section OneLine

theorem basicString_escapeLine (rest : List Char) :
    ∀ s, basicString (escapeLine s ++ '"' :: rest) = some (s, rest)
  | [] => rfl
  | c :: s => by
    rw [escapeLine, List.flatMap_cons, List.append_assoc, basicString_escapeChar]
    exact congrArg (prepend c) (basicString_escapeLine rest s)

theorem literalString_append (rest : List Char) :
    ∀ s : List Char, (∀ c ∈ s, c ≠ '\'' ∧ isPlain c) → literalString (s ++ '\'' :: rest) = some (s, rest)
  | [], _ => rfl
  | c :: s, h => by
    obtain ⟨⟨hq, hp⟩, hs⟩ := List.forall_mem_cons.mp h
    rw [List.cons_append, literalString, if_pos hp, literalString_append rest s hs]
    · rfl
    · exact hq

end OneLine

/-! ## Strings of several lines -/

section SeveralLines

theorem closeQuotes_replicate {q : Char} {rest : List Char} (hrest : rest.head? ≠ some q) :
    ∀ {k : Nat}, k ≤ 2 → closeQuotes q (List.replicate k q ++ rest) = (List.replicate k q, rest)
  | 0, _ => by
    cases rest with
    | nil => rfl
    | cons c rest =>
      have hc : c ≠ q := by simpa using hrest
      simp [closeQuotes, hc]
  | 1, _ => by
    cases rest with
    | nil => simp [closeQuotes]
    | cons c rest =>
      have hc : c ≠ q := by simpa using hrest
      simp [closeQuotes, hc]
  | 2, _ => by simp [closeQuotes, List.replicate]

/-! ### With escapes -/

theorem basicLines_newline (s : List Char) : basicLines .text ('\n' :: s) = prepend '\n' (basicLines .text s) := by
  rw [basicLines.eq_def]
  simp

theorem basicLines_close (s : List Char) :
    basicLines .text ('"' :: '"' :: '"' :: s) = some (closeQuotes '"' s) := by
  rw [basicLines.eq_def]
  simp

theorem basicLines_quote {s : List Char} (h : ¬ ∃ t, s = '"' :: '"' :: t) :
    basicLines .text ('"' :: s) = prepend '"' (basicLines .text s) := by
  rw [basicLines.eq_def]
  simp only [ne_eq, not_true_eq_false, false_and, Char.reduceEq, reduceCtorEq, ↓reduceIte]
  split
  · rename_i t
    exact absurd ⟨t, rfl⟩ h
  · rfl

/-- Only a quote that is not the third in a row is written as a quote. -/
theorem eq_quote_of_escapeLines {run : Nat} {c : Char} {s w t : List Char}
    (h : escapeLines run (c :: s) ++ w = '"' :: t) :
    c = '"' ∧ run ≠ 2 ∧ escapeLines (run + 1) s ++ w = t := by
  have hhead : (escapeLines run (c :: s) ++ w).head? = some '"' := by rw [h]; rfl
  by_cases hq : c = '"'
  · subst hq
    by_cases h2 : run = 2
    · simp [escapeLines, h2] at hhead
    · rw [escapeLines, if_pos rfl, if_neg h2, List.cons_append] at h
      exact ⟨rfl, h2, (List.cons.inj h).2⟩
  · rw [escapeLines, if_neg hq] at hhead
    split at hhead
    · simp at hhead
    · rw [List.append_assoc] at hhead
      exact absurd hhead (head?_escapeChar c _)

/-- Right after a quote, two quotes in a row are written only where the string ends: they are quotes of its own, one
at most, and closing ones. -/
theorem escapeLines_quotes {run : Nat} (hpos : 1 ≤ run) (hle : run ≤ 2) {s rest t : List Char}
    (h : escapeLines run s ++ '"' :: '"' :: '"' :: rest = '"' :: '"' :: t) :
    ∃ k ≤ 1, s = List.replicate k '"' ∧ t = List.replicate (k + 1) '"' ++ rest := by
  match s, h with
  | [], h =>
    have ht : '"' :: rest = t := by simpa [escapeLines] using h
    exact ⟨0, by omega, rfl, ht.symm⟩
  | c :: s, h =>
    obtain ⟨rfl, h2, h⟩ := eq_quote_of_escapeLines h
    obtain rfl : run = 1 := by omega
    match s, h with
    | [], h =>
      have ht : '"' :: '"' :: rest = t := by simpa [escapeLines] using h
      exact ⟨1, by omega, rfl, ht.symm⟩
    | d :: s, h => exact absurd rfl (eq_quote_of_escapeLines h).2.1

theorem basicLines_escapeLines {rest : List Char} (hrest : rest.head? ≠ some '"') : ∀ (s : List Char) {run : Nat},
    run ≤ 2 → basicLines .text (escapeLines run s ++ '"' :: '"' :: '"' :: rest) = some (s, rest)
  | [], run, _ => by
    have hclose := closeQuotes_replicate hrest (Nat.zero_le 2)
    rw [escapeLines, List.nil_append, basicLines_close]
    exact congrArg some hclose
  | c :: s, run, hrun => by
    have ih {run : Nat} (hrun : run ≤ 2) :
        prepend c (basicLines .text (escapeLines run s ++ '"' :: '"' :: '"' :: rest)) = some (c :: s, rest) := by
      rw [basicLines_escapeLines hrest s hrun]
      rfl
    rw [escapeLines]
    by_cases hq : c = '"'
    · subst hq
      by_cases h2 : run = 2
      · rw [if_pos rfl, if_pos h2, List.append_assoc]
        exact (basicLines_escapeChar '"' _).trans (ih (Nat.zero_le 2))
      · rw [if_pos rfl, if_neg h2, List.cons_append]
        by_cases hend : ∃ t, escapeLines (run + 1) s ++ '"' :: '"' :: '"' :: rest = '"' :: '"' :: t
        · -- the string ends here, and the closing quotes are the last three in the row
          obtain ⟨t, ht⟩ := hend
          obtain ⟨k, hk, rfl, rfl⟩ := escapeLines_quotes (by omega) (by omega) ht
          rw [ht, basicLines_close, closeQuotes_replicate hrest (by omega)]
          rfl
        · rw [basicLines_quote hend]
          exact ih (by omega)
    · rw [if_neg hq]
      by_cases hn : c = '\n'
      · rw [if_pos hn, List.cons_append, basicLines_newline, ← hn]
        exact ih (Nat.zero_le 2)
      · rw [if_neg hn, List.append_assoc, basicLines_escapeChar]
        exact ih (Nat.zero_le 2)

/-! ### Without escapes -/

theorem literalLines_newline (s : List Char) : literalLines ('\n' :: s) = prepend '\n' (literalLines s) := by
  rw [literalLines.eq_def]
  simp

theorem literalLines_close (s : List Char) :
    literalLines ('\'' :: '\'' :: '\'' :: s) = some (closeQuotes '\'' s) := by
  simp [literalLines]

theorem literalLines_quote {s : List Char} (h : ¬ ∃ t, s = '\'' :: '\'' :: t) :
    literalLines ('\'' :: s) = prepend '\'' (literalLines s) := by
  rw [literalLines.eq_def]
  simp only [↓reduceIte]
  split
  · rename_i t
    exact absurd ⟨t, rfl⟩ h
  · rfl

theorem literalLines_cons {c : Char} (hq : c ≠ '\'') (h : isControl c = false) (s : List Char) :
    literalLines (c :: s) = prepend c (literalLines s) := by
  by_cases hn : c = '\n'
  · rw [hn, literalLines_newline]
  · have hr := ne_carriageReturn_of_not_isControl h
    rw [literalLines.eq_def]
    simp only [hq, hn, hr, false_and, isPlain_of_not_isControl h hn, ↓reduceIte]

theorem le_longestRun (c : Char) : ∀ (s : List Char) (run : Nat), run ≤ longestRun c run s
  | [], run => Nat.le_refl run
  | d :: s, run => by
    have ih := le_longestRun c s (run + 1)
    rw [longestRun]
    split
    · omega
    · omega

/-- Right after a quote, two quotes in a row stand only where the string ends, if it has no three in a row. -/
theorem longestRun_quotes {q : Char} {run : Nat} (hpos : 1 ≤ run) {s rest t : List Char}
    (hle : longestRun q run s ≤ 2) (h : s ++ q :: q :: q :: rest = q :: q :: t) :
    ∃ k ≤ 1, s = List.replicate k q ∧ t = List.replicate (k + 1) q ++ rest := by
  match s, hle, h with
  | [], _, h =>
    have ht : q :: rest = t := by simpa using h
    exact ⟨0, by omega, rfl, ht.symm⟩
  | [c], _, h =>
    obtain ⟨rfl, ht⟩ : c = q ∧ q :: q :: rest = t := by simpa using h
    exact ⟨1, by omega, rfl, ht.symm⟩
  | c :: d :: s, hle, h =>
    obtain ⟨rfl, rfl, -⟩ : c = q ∧ d = q ∧ s ++ q :: q :: q :: rest = t := by simpa using h
    rw [longestRun, if_pos rfl, longestRun, if_pos rfl] at hle
    have := le_longestRun d s (run + 1 + 1)
    omega

theorem literalLines_append {rest : List Char} (hrest : rest.head? ≠ some '\'') : ∀ (s : List Char) {run : Nat},
    (∀ c ∈ s, isControl c = false) → longestRun '\'' run s ≤ 2 →
    literalLines (s ++ '\'' :: '\'' :: '\'' :: rest) = some (s, rest)
  | [], run, _, _ => by
    have hclose := closeQuotes_replicate hrest (Nat.zero_le 2)
    rw [List.nil_append, literalLines_close]
    exact congrArg some hclose
  | c :: s, run, hcontrol, hrun => by
    obtain ⟨hc, hs⟩ := List.forall_mem_cons.mp hcontrol
    rw [longestRun] at hrun
    rw [List.cons_append]
    by_cases hq : c = '\''
    · subst hq
      rw [if_pos rfl] at hrun
      by_cases hend : ∃ t, s ++ '\'' :: '\'' :: '\'' :: rest = '\'' :: '\'' :: t
      · obtain ⟨t, ht⟩ := hend
        obtain ⟨k, hk, rfl, rfl⟩ := longestRun_quotes (by omega) hrun ht
        rw [ht, literalLines_close, closeQuotes_replicate hrest (by omega)]
        rfl
      · rw [literalLines_quote hend, literalLines_append hrest s hs hrun]
        rfl
    · rw [if_neg hq] at hrun
      have hrun0 : longestRun '\'' 0 s ≤ 2 := by omega
      rw [literalLines_cons hq hc, literalLines_append hrest s hs hrun0]
      rfl

/-! ### The line break after the opening quotes -/

theorem dropOpeningBreak_append {s w : List Char} (h : '\n' ∉ s → w.head? ≠ some '\n' ∧ w.head? ≠ some '\r') :
    dropOpeningBreak (openingBreak s ++ w) = w := by
  unfold openingBreak
  by_cases hs : '\n' ∈ s
  · simp [hs, dropOpeningBreak, lineBreak?]
  · obtain ⟨hn, hr⟩ := h hs
    have hnone : lineBreak? w = none := by
      unfold lineBreak?
      split
      · exact absurd rfl hn
      · exact absurd rfl hr
      · rfl
    simp [hs, dropOpeningBreak, hnone]

theorem head?_escapeLines_ne {s : List Char} (h : '\n' ∉ s) (rest : List Char) :
    (escapeLines 0 s ++ '"' :: rest).head? ≠ some '\n' ∧ (escapeLines 0 s ++ '"' :: rest).head? ≠ some '\r' := by
  cases s with
  | nil => simp [escapeLines]
  | cons c s =>
    have hn : c ≠ '\n' := (List.ne_of_not_mem_cons h).symm
    by_cases hq : c = '"'
    · simp [escapeLines, hq]
    · rw [escapeLines, if_neg hq, if_neg hn]
      rcases escapeChar_cases c with ⟨e, he, -⟩ | ⟨d₃, d₄, he, -⟩ | ⟨he, -, -, -, hr, -⟩
      · simp [he]
      · simp [he]
      · simp [he, hn, hr]

theorem head?_append_ne {s : List Char} (h : '\n' ∉ s) (hcontrol : ∀ c ∈ s, isControl c = false) (rest : List Char) :
    (s ++ '\'' :: rest).head? ≠ some '\n' ∧ (s ++ '\'' :: rest).head? ≠ some '\r' := by
  cases s with
  | nil => simp
  | cons c s =>
    have hn : c ≠ '\n' := (List.ne_of_not_mem_cons h).symm
    have hr := ne_carriageReturn_of_not_isControl (hcontrol c List.mem_cons_self)
    simp [hn, hr]

end SeveralLines

/-! ## The four forms -/

section Forms

variable {s rest : List Char}

theorem quoted_basicLine (hrest : rest.head? ≠ some '"') :
    quoted (StringForm.basicLine.write s ++ rest) = some (s, rest) := by
  have hread := basicString_escapeLine rest s
  simp only [StringForm.write, List.cons_append, List.append_assoc, List.nil_append]
  rw [quoted]
  · exact hread
  · -- only the empty string could open with three quotes, if one more followed it
    intro t ht
    cases s with
    | nil =>
      have hq : rest = '"' :: t := by simpa [escapeLine] using ht
      exact hrest (by simp [hq])
    | cons c s =>
      rw [escapeLine, List.flatMap_cons, List.append_assoc] at ht
      have hhead := head?_escapeChar c (s.flatMap escapeChar ++ '"' :: rest)
      rw [(List.cons.inj ht).2] at hhead
      exact hhead rfl
  · intro t ht
    exact absurd (List.cons.inj ht).1 (by decide)

theorem quoted_literalLine (hrest : rest.head? ≠ some '\'') (hs : ∀ c ∈ s, c ≠ '\'' ∧ isPlain c) :
    quoted (StringForm.literalLine.write s ++ rest) = some (s, rest) := by
  have hread := literalString_append rest s hs
  simp only [StringForm.write, List.cons_append, List.append_assoc, List.nil_append]
  rw [quoted]
  · exact hread
  · intro t ht
    exact absurd (List.cons.inj ht).1 (by decide)
  · intro t ht
    cases s with
    | nil =>
      have hq : rest = '\'' :: t := by simpa using ht
      exact hrest (by simp [hq])
    | cons c s =>
      have hc : c = '\'' := (List.cons.inj (List.cons.inj ht).2).1
      exact (hs c List.mem_cons_self).1 hc

theorem quoted_basicLines (hrest : rest.head? ≠ some '"') :
    quoted (StringForm.basicLines.write s ++ rest) = some (s, rest) := by
  simp only [StringForm.write, String.reduceToList, List.cons_append, List.append_assoc, List.nil_append]
  rw [quoted, dropOpeningBreak_append fun hn => head?_escapeLines_ne hn _]
  exact basicLines_escapeLines hrest s (Nat.zero_le 2)

theorem quoted_literalLines (hrest : rest.head? ≠ some '\'') (hcontrol : ∀ c ∈ s, isControl c = false)
    (hrun : longestRun '\'' 0 s ≤ 2) : quoted (StringForm.literalLines.write s ++ rest) = some (s, rest) := by
  simp only [StringForm.write, String.reduceToList, List.cons_append, List.append_assoc, List.nil_append]
  rw [quoted, dropOpeningBreak_append fun hn => head?_append_ne hn hcontrol _]
  exact literalLines_append hrest s hcontrol hrun

/-- The string can be written in the form: every string with escapes, but not every one as it is. -/
def StringForm.Fits (s : List Char) : StringForm → Prop
  | basicLine | basicLines => True
  | literalLine => ∀ c ∈ s, c ≠ '\'' ∧ isPlain c
  | literalLines => (∀ c ∈ s, isControl c = false) ∧ longestRun '\'' 0 s ≤ 2

instance (s : List Char) : (form : StringForm) → Decidable (form.Fits s)
  | .basicLine | .basicLines => inferInstanceAs (Decidable True)
  | .literalLine => List.decidableBAll (fun c => c ≠ '\'' ∧ isPlain c) s
  | .literalLines => @instDecidableAnd _ _ (List.decidableBAll (fun c => isControl c = false) s) (Nat.decLe _ _)

theorem fits_literalLine (h : StringForm.of s = .literalLine) : StringForm.literalLine.Fits s := by
  unfold StringForm.of at h
  dsimp only at h
  split at h
  · cases h
  split at h
  · rename_i hfit
    simp only [Bool.and_eq_true, Bool.not_eq_true', List.any_eq_false, List.contains_eq_mem,
      decide_eq_false_iff_not] at hfit
    obtain ⟨⟨hcontrol, hq⟩, hn⟩ := hfit
    intro c hc
    refine ⟨fun h => hq (h ▸ hc), isPlain_of_not_isControl ?_ fun h => hn (h ▸ hc)⟩
    simpa using hcontrol c hc
  · repeat' split at h
    all_goals cases h

theorem fits_literalLines (h : StringForm.of s = .literalLines) : StringForm.literalLines.Fits s := by
  unfold StringForm.of at h
  dsimp only at h
  iterate 3
    split at h
    · cases h
  split at h
  · rename_i hfit
    simpa [StringForm.Fits] using hfit
  · split at h
    · cases h
    · cases h

/-- The form that is chosen for a string fits it. -/
theorem fits_of (s : List Char) : (StringForm.of s).Fits s := by
  cases h : StringForm.of s with
  | basicLine => trivial
  | literalLine => exact fits_literalLine h
  | basicLines => trivial
  | literalLines => exact fits_literalLines h

theorem head?_write (s : List Char) (form : StringForm) :
    (form.write s).head? = some '"' ∨ (form.write s).head? = some '\'' := by
  cases form with
  | basicLine => exact .inl rfl
  | literalLine => exact .inr rfl
  | basicLines => exact .inl rfl
  | literalLines => exact .inr rfl

/-- **Reading a string undoes writing it** in any form that fits it, where no quote follows. -/
theorem quoted_write {form : StringForm} (h : form.Fits s) (hbasic : rest.head? ≠ some '"')
    (hliteral : rest.head? ≠ some '\'') : quoted (form.write s ++ rest) = some (s, rest) := by
  cases form with
  | basicLine => exact quoted_basicLine hbasic
  | literalLine => exact quoted_literalLine hliteral h
  | basicLines => exact quoted_basicLines hbasic
  | literalLines => exact quoted_literalLines hliteral h.1 h.2

end Forms

end AccessorGen.Toml
