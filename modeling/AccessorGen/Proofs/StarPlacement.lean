import AccessorGen.Proofs.Accepted
import AccessorGen.Proofs.Layout
import Mathlib.Data.List.Infix

/-!
# Where the star of a declaration stands

The star may stand anywhere among the words of a type, and the question is whether it can stand inside one of them. No
star is passed over right behind a `::`, but one right before a `::` is: in a head of the grammar the star stands
between two qualified words or inside one, right before a `::` of it (`IsHead.star_cases`). So the names of a type stand
whole in a line that is accepted unless a star is written before a `::`, and then it splits one of them
(`names_of_parseLine`); `parseLine_starInside` is a line where it does.
-/

namespace AccessorGen

open Text QualifiedWord

/-! ## Places among the words of a type -/

section Places

/-- What a list does not end in, no part at its end does. -/
theorem getLast?_ne_of_append {k : TokenKind} (front : List TokenKind) {a : List TokenKind}
    (h : (front ++ a).getLast? ≠ some k) : a.getLast? ≠ some k := by
  intro ha
  obtain ⟨a, rfl⟩ := List.getLast?_eq_some_iff.mp ha
  exact h (by simp)

/-- Words that are glued to one before them can be parted before a `::`. -/
theorem gluedTokens_eq_append : ∀ {ws : List (List Char)} {a b : List TokenKind}, gluedTokens ws = a ++ b →
    a.getLast? ≠ some .doubleColon → ∃ front back, ws = front ++ back ∧ a = gluedTokens front ∧ b = gluedTokens back
  | ws, [], b, h, _ => ⟨[], ws, rfl, rfl, h.symm⟩
  | [], k :: a, b, h, _ => by cases h
  | w :: ws, [k], b, h, hlast => by
    obtain ⟨rfl, -⟩ := List.cons.inj h
    exact absurd rfl hlast
  | w :: ws, k :: k' :: a, b, h, hlast => by
    obtain ⟨rfl, htail⟩ := List.cons.inj h
    obtain ⟨rfl, hws⟩ := List.cons.inj htail
    have hlast' := getLast?_ne_of_append [.doubleColon, .word w] hlast
    obtain ⟨front, back, rfl, rfl, rfl⟩ := gluedTokens_eq_append hws hlast'
    exact ⟨w :: front, back, rfl, rfl, rfl⟩

/-- The words of a type can be parted between two of them, and inside one before a `::`. -/
theorem typeTokens_eq_append : ∀ {type : List QualifiedWord} {a b : List TokenKind},
    type.flatMap (·.tokens) = a ++ b → a.getLast? ≠ some .doubleColon →
    (∃ type₁ type₂, type = type₁ ++ type₂ ∧ a = type₁.flatMap (·.tokens) ∧ b = type₂.flatMap (·.tokens)) ∨
      ∃ type₁ first front w back type₂, type = type₁ ++ ⟨first, front ++ w :: back⟩ :: type₂ ∧
        a = type₁.flatMap (·.tokens) ++ .word first :: gluedTokens front ∧
        b = gluedTokens (w :: back) ++ type₂.flatMap (·.tokens)
  | [], a, b, h, _ => by
    obtain ⟨rfl, rfl⟩ := List.append_eq_nil_iff.mp h.symm
    exact .inl ⟨[], [], rfl, rfl, rfl⟩
  | q :: type, a, b, h, hlast => by
    rw [List.flatMap_cons] at h
    rcases List.append_eq_append_iff.mp h with ⟨a', rfl, hrest⟩ | ⟨c, hq, rfl⟩
    · -- the place lies behind the first word
      rcases typeTokens_eq_append hrest (getLast?_ne_of_append q.tokens hlast) with
        ⟨type₁, type₂, rfl, rfl, rfl⟩ | ⟨type₁, first, front, w, back, type₂, rfl, rfl, rfl⟩
      · exact .inl ⟨q :: type₁, type₂, rfl, rfl, rfl⟩
      · exact .inr ⟨q :: type₁, first, front, w, back, type₂, rfl, by simp, rfl⟩
    · cases a with
      | nil =>
        rw [List.nil_append] at hq
        exact .inl ⟨[], q :: type, rfl, rfl, by rw [← hq, List.flatMap_cons]⟩
      | cons k a =>
        obtain ⟨first, ws⟩ := q
        obtain ⟨rfl, hglued⟩ := List.cons.inj hq
        obtain ⟨front, back, rfl, rfl, rfl⟩ :=
          gluedTokens_eq_append hglued (getLast?_ne_of_append [.word first] hlast)
        cases back with
        | nil => exact .inl ⟨[⟨first, front⟩], type, by simp, by simp [QualifiedWord.tokens], rfl⟩
        | cons w back => exact .inr ⟨[], first, front, w, back, type, rfl, rfl, rfl⟩

end Places

/-! ## Names in a head -/

/-- The tokens are those of the type, name by name, with nothing or a star between two of them, and `rest`. -/
def NamesInOrder (tokens : List TokenKind) (type : List QualifiedWord) (rest : List TokenKind) : Prop :=
  ∃ type₁ stars type₂, type = type₁ ++ type₂ ∧ (stars = [] ∨ stars = [.star]) ∧
    tokens = type₁.flatMap (·.tokens) ++ stars ++ type₂.flatMap (·.tokens) ++ rest

/-- The tokens are those of the type with a star inside one of the names, right before a `::` of it, and `rest`. -/
def StarInsideName (tokens : List TokenKind) (type : List QualifiedWord) (rest : List TokenKind) : Prop :=
  ∃ type₁ first front w back type₂, type = type₁ ++ ⟨first, front ++ w :: back⟩ :: type₂ ∧
    tokens = type₁.flatMap (·.tokens) ++ .word first :: gluedTokens front ++
      .star :: (gluedTokens (w :: back) ++ type₂.flatMap (·.tokens) ++ rest)

section Heads

variable {head : List TokenKind} {type : List QualifiedWord} {name : List Char}

/-- Nothing is left out of tokens without a star. -/
theorem filter_of_star_not_mem {tokens : List TokenKind} (h : .star ∉ tokens) :
    tokens.filter (· ≠ .star) = tokens := by
  refine List.filter_eq_self.mpr fun k hk => ?_
  rw [decide_eq_true_eq]
  rintro rfl
  exact h hk

/-- The star of a head stands between two names of its type, or inside one of them before a `::`. -/
theorem IsHead.star_cases (h : IsHead head type name) :
    NamesInOrder head type [.word name] ∨ StarInsideName head type [.word name] := by
  have hwithout := h.without_star
  by_cases hs : .star ∈ head
  · obtain ⟨a, b, rfl⟩ := List.append_of_mem hs
    have hcount := h.count_star
    rw [List.count_append, List.count_cons_self] at hcount
    have ha : .star ∉ a := List.count_eq_zero.mp (by omega)
    have hb : .star ∉ b := List.count_eq_zero.mp (by omega)
    rw [List.filter_append, List.filter_cons_of_neg (by simp), filter_of_star_not_mem ha,
      filter_of_star_not_mem hb] at hwithout
    -- the name is the last token, and the star is not
    have hne : b ≠ [] := by
      rintro rfl
      exact h.star_not_last (by simp)
    obtain ⟨b, last, rfl⟩ := List.eq_nil_or_concat b |>.resolve_left hne
    rw [List.concat_eq_append, ← List.append_assoc] at hwithout
    obtain ⟨htype, hlast⟩ := List.append_inj' hwithout rfl
    cases hlast
    have hglued : a.getLast? ≠ some .doubleColon := by
      intro hcolon
      obtain ⟨-, -, hchain⟩ := List.isChain_append.mp h.star_not_glued
      exact hchain _ hcolon .star rfl rfl rfl
    rcases typeTokens_eq_append htype.symm hglued with
      ⟨type₁, type₂, rfl, rfl, rfl⟩ | ⟨type₁, first, front, w, back, type₂, rfl, rfl, rfl⟩
    · exact .inl ⟨type₁, [.star], type₂, rfl, .inr rfl, by simp⟩
    · exact .inr ⟨type₁, first, front, w, back, type₂, rfl, by simp⟩
  · rw [filter_of_star_not_mem hs] at hwithout
    exact .inl ⟨type, [], [], by simp, .inl rfl, by simpa using hwithout⟩

/-- A star between two names stands before a word, so none stands before a `::`. -/
theorem NamesInOrder.not_infix {tokens rest : List TokenKind} (h : NamesInOrder tokens type (.word name :: rest))
    (hrest : .star ∉ rest) : ¬ [.star, .doubleColon] <:+: tokens := by
  rintro ⟨before, after, he⟩
  obtain ⟨type₁, stars, type₂, -, hstars, rfl⟩ := h
  rw [List.append_assoc, List.append_assoc, List.cons_append, List.cons_append, List.nil_append] at he
  have hbehind : .star ∉ type₂.flatMap (·.tokens) ++ .word name :: rest := by
    rw [List.mem_append, List.mem_cons, not_or, not_or]
    exact ⟨star_not_mem_tokens type₂, by simp, hrest⟩
  rcases hstars with rfl | rfl
  · have hmem : TokenKind.star ∈ before ++ .star :: .doubleColon :: after := by simp
    rw [he, List.append_nil] at hmem
    rcases List.mem_append.mp hmem with hmem | hmem
    · exact star_not_mem_tokens type₁ hmem
    · exact hbehind hmem
  · rw [List.append_assoc, List.singleton_append] at he
    obtain ⟨-, -, hcolon⟩ := (List.append_cons_inj_of_notMem (star_not_mem_tokens type₁) hbehind).mp he.symm
    cases type₂ with
    | nil => cases hcolon
    | cons q type₂ => cases hcolon

/-- A star inside a name stands before a `::`. -/
theorem StarInsideName.isInfix {tokens rest : List TokenKind} (h : StarInsideName tokens type rest) :
    [.star, .doubleColon] <:+: tokens := by
  obtain ⟨type₁, first, front, w, back, type₂, -, rfl⟩ := h
  refine ⟨type₁.flatMap (·.tokens) ++ .word first :: gluedTokens front,
    .word w :: (gluedTokens back ++ type₂.flatMap (·.tokens) ++ rest), ?_⟩
  simp [gluedTokens]

/-- More tokens behind a head go to the rest of names in order. -/
theorem NamesInOrder.append {tokens rest : List TokenKind} (h : NamesInOrder tokens type rest)
    (more : List TokenKind) : NamesInOrder (tokens ++ more) type (rest ++ more) := by
  obtain ⟨type₁, stars, type₂, htype, hstars, rfl⟩ := h
  exact ⟨type₁, stars, type₂, htype, hstars, by simp⟩

/-- More tokens behind a head go to the rest behind a name with a star inside. -/
theorem StarInsideName.append {tokens rest : List TokenKind} (h : StarInsideName tokens type rest)
    (more : List TokenKind) : StarInsideName (tokens ++ more) type (rest ++ more) := by
  obtain ⟨type₁, first, front, w, back, type₂, htype, rfl⟩ := h
  exact ⟨type₁, first, front, w, back, type₂, htype, by simp⟩

end Heads

/-! ## Names in a line -/

/-- The tokens stand in the text one after the other, with nothing but blanks in front of each of them. -/
inductive Spaced : List TokenKind → List Char → Prop
  | nil : Spaced [] []
  | cons {blanks : List Char} (k : TokenKind) {tokens : List TokenKind} {s : List Char} :
      (∀ c ∈ blanks, isBlank c) → Spaced tokens s → Spaced (k :: tokens) (blanks ++ k.text ++ s)

/-- The names of the type stand whole at the start of the line: each with nothing but blanks between its parts, and with
nothing but blanks and perhaps a star between two of them. -/
def NamesWhole (line : List Char) (type : List QualifiedWord) : Prop :=
  ∃ texts₁ star texts₂ rest, line = texts₁.flatten ++ star ++ texts₂.flatten ++ rest ∧
    List.Forall₂ (fun q s => Spaced q.tokens s) type (texts₁ ++ texts₂) ∧ (star = [] ∨ Spaced [.star] star)

section Lines

/-- The first tokens of a layout stand at the start of its text. -/
theorem Layout.exists_spaced {ks' : List TokenKind} : ∀ {ks : List TokenKind} {l : Layout}, l.IsValid →
    l.kinds = ks ++ ks' →
    ∃ (s : List Char) (l' : Layout), l.text = s ++ l'.text ∧ Spaced ks s ∧ l'.IsValid ∧ l'.kinds = ks'
  | [], l, hl, h => ⟨[], l, rfl, .nil, hl, h⟩
  | k :: ks, .token blanks kind rest, ⟨hb, _, _, hrest⟩, h => by
    obtain ⟨rfl, hkinds⟩ := List.cons.inj h
    obtain ⟨s, l', htext, hs, hl', hkinds'⟩ := exists_spaced hrest hkinds
    refine ⟨blanks ++ kind.text ++ s, l', ?_, .cons kind hb hs, hl', hkinds'⟩
    rw [text, htext, List.append_assoc (blanks ++ kind.text)]
  | k :: ks, .finish blanks comment, _, h => by cases h

/-- The names of a type that a layout starts with stand whole in its text. -/
theorem Layout.exists_names {ks : List TokenKind} : ∀ {type : List QualifiedWord} {l : Layout}, l.IsValid →
    l.kinds = type.flatMap (·.tokens) ++ ks →
    ∃ (texts : List (List Char)) (l' : Layout), l.text = texts.flatten ++ l'.text ∧
      List.Forall₂ (fun q s => Spaced q.tokens s) type texts ∧ l'.IsValid ∧ l'.kinds = ks
  | [], l, hl, h => ⟨[], l, rfl, .nil, hl, h⟩
  | q :: type, l, hl, h => by
    rw [List.flatMap_cons, List.append_assoc] at h
    obtain ⟨s, l₁, htext, hs, hl₁, hkinds⟩ := exists_spaced hl h
    obtain ⟨texts, l₂, htext₁, hnames, hl₂, hkinds₂⟩ := exists_names hl₁ hkinds
    refine ⟨s :: texts, l₂, ?_, .cons hs hnames, hl₂, hkinds₂⟩
    rw [htext, htext₁, List.flatten_cons, List.append_assoc]

/-- Names in order among the tokens of a line stand whole in the line. -/
theorem NamesInOrder.namesWhole {line : List Char} {type : List QualifiedWord} {rest : List TokenKind}
    (h : NamesInOrder (lexKinds line) type rest) : NamesWhole line type := by
  obtain ⟨type₁, stars, type₂, rfl, hstars, hkinds⟩ := h
  obtain ⟨l, hl, rfl⟩ := exists_layout line
  rw [lexKinds_layout hl, List.append_assoc, List.append_assoc] at hkinds
  obtain ⟨texts₁, l₁, htext₁, hnames₁, hl₁, hkinds₁⟩ := Layout.exists_names hl hkinds
  obtain ⟨star, l₂, htext₂, hstar, hl₂, hkinds₂⟩ := Layout.exists_spaced hl₁ hkinds₁
  obtain ⟨texts₂, l₃, htext₃, hnames₂, -, -⟩ := Layout.exists_names hl₂ hkinds₂
  refine ⟨texts₁, star, texts₂, l₃.text, ?_, List.rel_append hnames₁ hnames₂, ?_⟩
  · rw [htext₁, htext₂, htext₃]
    simp only [List.append_assoc]
  · rcases hstars with rfl | rfl
    · cases hstar
      exact .inl rfl
    · exact .inr hstar

/-- Behind the head of a declaration there is no star. -/
theorem SizeGroup.star_not_mem {group : List TokenKind} {size : Option Nat} (h : SizeGroup group size) :
    .star ∉ group ++ [.semicolon] := by
  cases h with
  | absent => simp
  | present n => simp

/-- In a declaration no star stands right behind a `::`. -/
theorem IsHead.not_infix {head group : List TokenKind} {type : List QualifiedWord} {name : List Char}
    {size : Option Nat} (h : IsHead head type name) (hg : SizeGroup group size) :
    ¬ [.doubleColon, .star] <:+: head ++ (group ++ [.semicolon]) := by
  intro hpair
  have hrest : StarsUnglued (group ++ [.semicolon]) := by
    cases hg with
    | absent => simp [StarsUnglued]
    | present n => simp [StarsUnglued]
  have hchain : StarsUnglued (head ++ (group ++ [.semicolon])) := by
    refine List.isChain_append.mpr ⟨h.star_not_glued, hrest, ?_⟩
    rintro k - l hl - rfl
    exact hg.star_not_mem (List.mem_of_head? hl)
  simpa using List.IsChain.infix hchain hpair

/-- **Where the star of a declaration stands**: never right behind a `::`. If it does not stand right before one either,
the names of the type stand whole in the line; otherwise it splits one of them. -/
theorem names_of_parseLine (line : List Char) (location : Location) (d : ParsedDeclaration)
    (h : parseLine line location = .ok d) :
    ¬ [.doubleColon, .star] <:+: lexKinds line ∧
      ∃ type : List QualifiedWord, (∀ q ∈ type, q.IsProper) ∧ d.dataType = [' '].intercalate (type.map (·.text)) ∧
        (¬ [.star, .doubleColon] <:+: lexKinds line → NamesWhole line type) ∧
        ([.star, .doubleColon] <:+: lexKinds line → ∃ rest, StarInsideName (lexKinds line) type rest) := by
  obtain ⟨shape, hshape, rfl⟩ := exists_shape_of_parseLine h
  obtain ⟨head, group, type, name, size, hkinds, hg, hh, rfl⟩ :=
    (parseTokens_eq_ok_iff (lexKinds_spec line).2 shape).mp hshape
  rw [List.append_assoc] at hkinds
  have hword : ∀ w, .word w ∈ head → IsWord w := by
    intro w hw
    have hmem : .word w ∈ lexKinds line := by
      rw [hkinds]
      exact List.mem_append_left _ hw
    exact isWord_of_mem_lexKinds hmem
  refine ⟨by rw [hkinds]; exact hh.not_infix hg, type, hh.isProper hword, rfl, ?_⟩
  rcases hh.star_cases with horder | hinside
  · have horder := horder.append (group ++ [.semicolon])
    have hnot := NamesInOrder.not_infix horder hg.star_not_mem
    rw [← hkinds] at horder hnot
    exact ⟨fun _ => horder.namesWhole, fun hbefore => absurd hbefore hnot⟩
  · have hinside := hinside.append (group ++ [.semicolon])
    have hbefore := hinside.isInfix
    rw [← hkinds] at hinside hbefore
    exact ⟨fun hnot => absurd hbefore hnot, fun _ => ⟨_, hinside⟩⟩

/-- A type of two names, one with blanks at its `::`, and a star between them. -/
theorem names_of_parseLine_starBetween :
    ∃ d, parseLine "std :: string* const x;".toList default = .ok d ∧ d.dataType = "std::string const".toList ∧
      ∃ type : List QualifiedWord, [' '].intercalate (type.map (·.text)) = "std::string const".toList ∧
        NamesWhole "std :: string* const x;".toList type := by
  have h : parseLine "std :: string* const x;".toList default =
      .ok ⟨default, "std :: string* const x;".toList, "std::string const".toList, ['x'], true, none⟩ := by
    decide +kernel
  obtain ⟨-, type, -, htype, hwhole, -⟩ := names_of_parseLine _ _ _ h
  exact ⟨_, h, rfl, type, htype.symm, hwhole (by decide +kernel)⟩

/-- A star inside a qualified name is passed over, right before the `::`. -/
theorem parseLine_starInside :
    parseLine "std*::string x;".toList default =
        .ok ⟨default, "std*::string x;".toList, "std::string".toList, ['x'], true, none⟩ ∧
      [.star, .doubleColon] <:+: lexKinds "std*::string x;".toList := by
  decide +kernel

end Lines

end AccessorGen
