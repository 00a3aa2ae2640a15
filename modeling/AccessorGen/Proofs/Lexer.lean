import AccessorGen.Token.Lexer

/-!
# The kinds of the tokens of a line

- `eof` stands at the end of the tokens of a line and nowhere else (`lex_kinds`);
- the tokens before it are proper, so that no word among them is empty (`lexKinds_spec`), and the words are made of
  word characters (`isWord_of_mem_lexKinds`);
- a line is read token by token: each of `scan_blank`, `scan_word`, `scan_comment`, `scan_doubleColon` and `scan_char`
  says what the front of a line gives and where reading goes on, and `lexKinds_blank`, `lexKinds_word`,
  `lexKinds_doubleColon` and `lexKinds_char` say so of the kinds alone.
-/

namespace AccessorGen

open Text

/-- A character alone never stands for a word or for the end of the line. -/
theorem ofChar_cases (c : Char) : TokenKind.ofChar c ≠ .eof ∧ ∀ w, TokenKind.ofChar c ≠ .word w := by
  unfold TokenKind.ofChar
  split <;> simp

/-- The kinds of a token that stands before the end of a line. -/
def TokenKind.IsProper (k : TokenKind) : Prop :=
  k ≠ .eof ∧ k ≠ .word []

/-- Reading gives proper tokens and then `eof`. -/
theorem scan_kinds (offset : Nat) (s : List Char) :
    ∃ ks, (scan offset s).map (·.kind) = ks ++ [.eof] ∧ ∀ k ∈ ks, k.IsProper := by
  fun_induction scan offset s with
  | case1 offset => exact ⟨[], rfl, by simp⟩
  | case2 offset c rest hb ih => exact ih
  | case3 offset c rest hb hw stop ih =>
    obtain ⟨ks, h, hk⟩ := ih
    exact ⟨.word (c :: rest.takeWhile isWordChar) :: ks, by simp [h],
      List.forall_mem_cons.mpr ⟨⟨by simp, by simp⟩, hk⟩⟩
  | case4 offset c rest hb hw hc stop => exact ⟨[], rfl, by simp⟩
  | case5 offset c rest hb hw hc hd ih =>
    obtain ⟨ks, h, hk⟩ := ih
    exact ⟨.doubleColon :: ks, by simp [h], List.forall_mem_cons.mpr ⟨⟨by simp, by simp⟩, hk⟩⟩
  | case6 offset c rest hb hw hc hd ih =>
    obtain ⟨ks, h, hk⟩ := ih
    exact ⟨.ofChar c :: ks, by simp [h],
      List.forall_mem_cons.mpr ⟨⟨(ofChar_cases c).1, (ofChar_cases c).2 []⟩, hk⟩⟩

/-- The tokens of a line without the final `eof` are those that are not `eof`, and all of them are proper. -/
theorem lexKinds_spec (line : List Char) :
    (lex line).map (·.kind) = lexKinds line ++ [.eof] ∧ ∀ k ∈ lexKinds line, k.IsProper := by
  obtain ⟨ks, h, hk⟩ := scan_kinds 0 line
  have hf : lexKinds line = ks := by
    have hall : ks.filter (· ≠ .eof) = ks := List.filter_eq_self.mpr fun k hm => by simpa using (hk k hm).1
    simp only [lexKinds, lex, h, List.filter_append, hall]
    simp
  rw [hf]
  exact ⟨h, hk⟩

/-- The tokens of a line are those without `eof`, and `eof`. -/
theorem lex_kinds (line : List Char) : (lex line).map (·.kind) = lexKinds line ++ [.eof] :=
  (lexKinds_spec line).1

/-! ## Words -/

section Words

/-- Word characters are ASCII characters. -/
theorem toNat_lt_of_isWordChar {c : Char} (h : isWordChar c) : c.toNat < 128 := by
  have hle : ∀ {last : Char}, last.toNat < 128 → c.val ≤ last.val → c.toNat < 128 := by
    intro last hlast hc
    exact Nat.lt_of_le_of_lt (UInt32.le_iff_toNat_le.mp hc) hlast
  rcases Bool.or_eq_true_iff.mp h with h | h
  · rcases Bool.or_eq_true_iff.mp h with h | hdigit
    · rcases Bool.or_eq_true_iff.mp h with hupper | hlower
      · exact hle (by decide) (of_decide_eq_true hupper).2
      · exact hle (by decide) (of_decide_eq_true (Bool.and_eq_true_iff.mp hlower).2)
    · exact hle (by decide) (of_decide_eq_true (Bool.and_eq_true_iff.mp hdigit).2)
  · rw [beq_iff_eq.mp h]
    decide

/-- What holds of the word characters below DEL holds of all of them, so each of them can be looked at. -/
theorem of_isWordChar {p : Char → Prop} (hp : ∀ n < 128, isWordChar (.ofNat n) → p (.ofNat n)) {c : Char}
    (h : isWordChar c) : p c := by
  have := hp c.toNat (toNat_lt_of_isWordChar h)
  rw [Char.ofNat_toNat] at this
  exact this h

/-- A word character is not blank. -/
theorem not_isBlank_of_isWordChar {c : Char} (h : isWordChar c) : ¬ isBlank c :=
  of_isWordChar (p := fun c => ¬ isBlank c) (by decide) h

/-- A word is one or more word characters. -/
def IsWord (w : List Char) : Prop :=
  w ≠ [] ∧ ∀ c ∈ w, isWordChar c

instance : DecidablePred IsWord := fun w =>
  decidable_of_iff (w ≠ [] ∧ w.all isWordChar) (by rw [IsWord, List.all_eq_true])

/-- Reading a word token reads a word. -/
theorem isWord_of_mem_scan {w : List Char} (offset : Nat) (s : List Char)
    (h : .word w ∈ (scan offset s).map (·.kind)) : IsWord w := by
  fun_induction scan offset s with
  | case1 offset => simp at h
  | case2 offset c rest hb ih => exact ih h
  | case3 offset c rest hb hw stop ih =>
    rcases List.mem_cons.mp h with he | h
    · cases he
      exact ⟨List.cons_ne_nil _ _, List.forall_mem_cons.mpr ⟨hw, List.all_eq_true.mp List.all_takeWhile⟩⟩
    · exact ih h
  | case4 offset c rest hb hw hc stop => simp at h
  | case5 offset c rest hb hw hc hd ih =>
    rcases List.mem_cons.mp h with he | h
    · cases he
    · exact ih h
  | case6 offset c rest hb hw hc hd ih =>
    rcases List.mem_cons.mp h with he | h
    · exact absurd he.symm ((ofChar_cases c).2 w)
    · exact ih h

/-- The words among the tokens of a line are words. -/
theorem isWord_of_mem_lexKinds {line w : List Char} (h : .word w ∈ lexKinds line) : IsWord w :=
  isWord_of_mem_scan 0 line (List.mem_filter.mp h).1

end Words

/-! ## Reading token by token -/

section Reading

variable {c : Char} {s : List Char} {offset : Nat}

/-- A blank is passed over. -/
theorem scan_blank (h : isBlank c) : scan offset (c :: s) = scan (offset + c.utf8Size) s := by
  rw [scan, if_pos h]

/-- A word is one token if no word character follows it. -/
theorem scan_word {w : List Char} (hw : IsWord w) (hs : ∀ c ∈ s.head?, ¬ isWordChar c) :
    scan offset (w ++ s) =
      ⟨.word w, .ofNat offset (offset + byteLength w)⟩ :: scan (offset + byteLength w) s := by
  obtain ⟨hne, hall⟩ := hw
  obtain ⟨c, w, rfl⟩ := List.exists_cons_of_ne_nil hne
  obtain ⟨hc, hall⟩ := List.forall_mem_cons.mp hall
  have hstop : s.takeWhile isWordChar = [] ∧ s.dropWhile isWordChar = s := by
    cases s with
    | nil => simp
    | cons d s =>
      have hd : ¬ isWordChar d := hs d rfl
      simp [hd]
  have ht : (w ++ s).takeWhile isWordChar = w := by
    rw [List.takeWhile_append_of_pos hall, hstop.1, List.append_nil]
  have hd : (w ++ s).dropWhile isWordChar = s := by
    rw [List.dropWhile_append_of_pos hall, hstop.2]
  rw [List.cons_append, scan, if_neg (not_isBlank_of_isWordChar hc), if_pos hc, ht, hd, byteLength_cons,
    Nat.add_assoc]

/-- Two slashes hide what follows them. -/
theorem scan_comment : scan offset ('/' :: '/' :: s) =
    [⟨.eof, .ofNat (offset + byteLength ('/' :: '/' :: s)) (offset + byteLength ('/' :: '/' :: s))⟩] := by
  rw [scan, if_neg (by decide), if_neg (by decide), if_pos (by simp)]

/-- Two colons are one token. -/
theorem scan_doubleColon :
    scan offset (':' :: ':' :: s) = ⟨.doubleColon, .ofNat offset (offset + 2)⟩ :: scan (offset + 2) s := by
  rw [scan, if_neg (by decide), if_neg (by decide), if_neg (by simp), if_pos (by simp), List.tail_cons]

/-- A character that starts nothing longer is a token of its own. -/
theorem scan_char (hb : ¬ isBlank c) (hw : ¬ isWordChar c) (hc : ¬ (c = '/' ∧ s.head? = some '/'))
    (hd : ¬ (c = ':' ∧ s.head? = some ':')) :
    scan offset (c :: s) =
      ⟨.ofChar c, .ofNat offset (offset + c.utf8Size)⟩ :: scan (offset + c.utf8Size) s := by
  rw [scan, if_neg hb, if_neg hw, if_neg hc, if_neg hd]

/-- The kinds of the tokens do not depend on the byte where the text starts. -/
theorem scan_kinds_offset (offset offset' : Nat) (s : List Char) :
    (scan offset s).map (·.kind) = (scan offset' s).map (·.kind) := by
  fun_induction scan offset s generalizing offset' with
  | case1 offset => simp [scan]
  | case2 offset c rest hb ih =>
    rw [scan_blank hb]
    exact ih _
  | case3 offset c rest hb hw stop ih =>
    rw [scan, if_neg hb, if_pos hw, List.map_cons, List.map_cons, ih]
  | case4 offset c rest hb hw hc stop =>
    rw [scan, if_neg hb, if_neg hw, if_pos hc, List.map_cons, List.map_cons]
  | case5 offset c rest hb hw hc hd ih =>
    rw [scan, if_neg hb, if_neg hw, if_neg hc, if_pos hd, List.map_cons, List.map_cons, ih]
  | case6 offset c rest hb hw hc hd ih =>
    rw [scan_char hb hw hc hd, List.map_cons, List.map_cons, ih]

/-- A text anywhere in a line has the tokens that it has as a line of its own. -/
theorem filter_scan (offset : Nat) (s : List Char) :
    ((scan offset s).map (·.kind)).filter (· ≠ .eof) = lexKinds s := by
  rw [lexKinds, lex, scan_kinds_offset offset 0]

/-- Reading one token and going on with `s` gives its kind and those of `s`. -/
theorem lexKinds_of_scan {line : List Char} {t : Token} (ht : t.kind ≠ .eof) (h : scan 0 line = t :: scan offset s) :
    lexKinds line = t.kind :: lexKinds s := by
  rw [lexKinds, lex, h, List.map_cons, List.filter_cons_of_pos (by simpa using ht), filter_scan]

/-- Nothing gives no token. -/
theorem lexKinds_nil : lexKinds [] = [] := by
  simp [lexKinds, lex, scan]

/-- A blank gives no token. -/
theorem lexKinds_blank (h : isBlank c) : lexKinds (c :: s) = lexKinds s := by
  rw [lexKinds, lex, scan_blank h, filter_scan]

/-- A word gives a word if no word character follows it. -/
theorem lexKinds_word {w : List Char} (hw : IsWord w) (hs : ∀ c ∈ s.head?, ¬ isWordChar c) :
    lexKinds (w ++ s) = .word w :: lexKinds s :=
  lexKinds_of_scan (by simp) (scan_word hw hs)

/-- Two colons give one token. -/
theorem lexKinds_doubleColon : lexKinds (':' :: ':' :: s) = .doubleColon :: lexKinds s :=
  lexKinds_of_scan (by simp) scan_doubleColon

/-- A character that cannot start anything longer gives a token of its own. -/
theorem lexKinds_char (hb : ¬ isBlank c) (hw : ¬ isWordChar c) (hc : c ≠ '/') (hd : c ≠ ':') :
    lexKinds (c :: s) = .ofChar c :: lexKinds s :=
  lexKinds_of_scan (ofChar_cases c).1 (scan_char hb hw (by simp [hc]) (by simp [hd]))

end Reading

end AccessorGen
