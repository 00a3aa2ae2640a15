import AccessorGen.Proofs.Shadowing

/-!
# The pattern of type codes

The type code of a member name is what the pattern `^.*m([a-z])(ull|ul|…|C)?_` captures, when it is matched with the
first of all ways that backtracking finds. `Pattern.attempts` lists these ways in order, so that the match is the first
of them, and `patternCode?` is the code that it captures.

- Each pattern of the language has its members of the list (`mem_attempts_seq` and the lemmas around it), and from them
  a marker is matched in one way only, whatever the order of the alternatives (`mem_attempts_markerPattern`);
- matching is scanning from the right: characters that are passed over are given back one by one
  (`attempts_many_seq`), so that the pattern captures the code of the last marker (`patternCode?_eq`);
- the markers are places of the name that can be told by looking at it (`IsMarker`), and of them the last decides
  (`embeddedCode?_eq_some_iff`);
- what follows the last underscore of a name has no say (`embeddedCode?_append`, `inferPrefix_append`).

`embeddedCode?_last_marker` puts these together.
-/

namespace AccessorGen

open Text

/-! ## Patterns -/

/-- A way to match the start of a text: what the groups captured, and what is left of the text. -/
structure Match where
  groups : List (Nat × List Char)
  rest : List Char

/-- Patterns of a regular language, as far as they are needed. -/
inductive Pattern where
  /-- One character of a class. -/
  | char (accepts : Char → Bool)
  /-- Characters of a class, as many as possible. -/
  | many (accepts : Char → Bool)
  | literal (text : List Char)
  | seq (first second : Pattern)
  /-- The first alternative, and the second if that leads nowhere. -/
  | alt (first second : Pattern)
  /-- The pattern, and nothing if that leads nowhere. -/
  | optional (p : Pattern)
  | group (number : Nat) (p : Pattern)

namespace Pattern

/-- The first of the texts that leads to a match. -/
def oneOf : List (List Char) → Pattern
  | [] => char fun _ => false
  | text :: texts => alt (literal text) (oneOf texts)

/-- What is left of a text after characters of a class, the shortest rest first. -/
def restsAfter (accepts : Char → Bool) : List Char → List (List Char)
  | [] => [[]]
  | c :: s => if accepts c then restsAfter accepts s ++ [c :: s] else [c :: s]

/-- The ways to match the start of a text, in the order in which backtracking tries them. -/
def attempts : Pattern → List Char → List Match
  | char accepts, s =>
    match s with
    | [] => []
    | c :: rest => if accepts c then [⟨[], rest⟩] else []
  | many accepts, s => (restsAfter accepts s).map (⟨[], ·⟩)
  | literal text, s => if text.isPrefixOf s then [⟨[], s.drop text.length⟩] else []
  | seq p q, s => (p.attempts s).flatMap fun m => (q.attempts m.rest).map fun m' => ⟨m.groups ++ m'.groups, m'.rest⟩
  | alt p q, s => p.attempts s ++ q.attempts s
  | optional p, s => p.attempts s ++ [⟨[], s⟩]
  | group number p, s =>
    (p.attempts s).map fun m => ⟨(number, s.take (s.length - m.rest.length)) :: m.groups, m.rest⟩

/-- The match of a pattern at the start of a text: the first way that is found. -/
def match? (p : Pattern) (s : List Char) : Option Match :=
  (p.attempts s).head?

end Pattern

/-- The codes that may stand behind the letter of a marker, in the order of the pattern. -/
def codeAlternatives : List (List Char) :=
  ["ull".toList, "ul".toList, "ld".toList, "ui".toList, "us".toList, "uc".toList, "sc".toList, "si".toList,
   "s".toList, "i".toList, "l".toList, "f".toList, "d".toList, "b".toList, "c".toList, "C".toList]

/-- A marker: an `m`, a lower-case letter, one of the alternatives or nothing, and an underscore. -/
def markerPattern (alternatives : List (List Char)) : Pattern :=
  .seq (.char (· == 'm')) (.seq (.group 1 (.char Char.isLower))
    (.seq (.optional (.group 2 (.oneOf alternatives))) (.char (· == '_'))))

/-- Characters other than line feeds, as many as possible, and a marker. -/
def codePattern (alternatives : List (List Char)) : Pattern :=
  .seq (.many (· != '\n')) (markerPattern alternatives)

/-- The code that a match captured: the alternative if there is one, else the letter. -/
def Match.code? (m : Match) : Option (List Char) :=
  m.groups.lookup 2 <|> m.groups.lookup 1

/-- The type code that the pattern captures in a name. -/
def patternCode? (alternatives : List (List Char)) (name : List Char) : Option (List Char) :=
  ((codePattern alternatives).match? name).bind (·.code?)

/-! ## Ways to match -/

section Attempts

open Pattern

variable {p q : Pattern} {s rest : List Char} {groups : List (Nat × List Char)}

/-- A character of a class is matched as itself. -/
theorem mem_attempts_char {accepts : Char → Bool} :
    ⟨groups, rest⟩ ∈ (char accepts).attempts s ↔ ∃ c, accepts c ∧ s = c :: rest ∧ groups = [] := by
  cases s with
  | nil => simp [attempts]
  | cons d s =>
    by_cases hd : accepts d
    · simp [attempts, hd, @eq_comm _ rest, and_comm]
    · simp [attempts, hd]

/-- A sequence is matched by a match of its first part and one of its second part behind that. -/
theorem mem_attempts_seq : ⟨groups, rest⟩ ∈ (seq p q).attempts s ↔
    ∃ groups₁ middle, ⟨groups₁, middle⟩ ∈ p.attempts s ∧
      ∃ groups₂, ⟨groups₂, rest⟩ ∈ q.attempts middle ∧ groups = groups₁ ++ groups₂ := by
  simp only [attempts, List.mem_flatMap, List.mem_map]
  constructor
  · rintro ⟨⟨groups₁, middle⟩, h₁, ⟨groups₂, rest₂⟩, h₂, he⟩
    cases he
    exact ⟨groups₁, middle, h₁, groups₂, h₂, rfl⟩
  · rintro ⟨groups₁, middle, h₁, groups₂, h₂, rfl⟩
    exact ⟨⟨groups₁, middle⟩, h₁, ⟨groups₂, rest⟩, h₂, rfl⟩

/-- A character of a class, and what follows it. -/
theorem mem_attempts_char_seq {accepts : Char → Bool} : ⟨groups, rest⟩ ∈ (seq (char accepts) q).attempts s ↔
    ∃ c s', accepts c ∧ s = c :: s' ∧ ⟨groups, rest⟩ ∈ q.attempts s' := by
  simp only [mem_attempts_seq, mem_attempts_char]
  constructor
  · rintro ⟨_, s', ⟨c, hc, rfl, rfl⟩, inner, hq, rfl⟩
    exact ⟨c, s', hc, rfl, hq⟩
  · rintro ⟨c, s', hc, rfl, hq⟩
    exact ⟨[], s', ⟨c, hc, rfl, rfl⟩, groups, hq, rfl⟩

/-- One of several texts is matched as any of them that the text starts with. -/
theorem mem_attempts_oneOf : ∀ {texts : List (List Char)},
    ⟨groups, rest⟩ ∈ (oneOf texts).attempts s ↔ ∃ t ∈ texts, s = t ++ rest ∧ groups = []
  | [] => by
    rw [oneOf, mem_attempts_char]
    simp
  | t :: texts => by
    have ih := @mem_attempts_oneOf texts
    have hliteral : ⟨groups, rest⟩ ∈ (literal t).attempts s ↔ s = t ++ rest ∧ groups = [] := by
      rw [attempts]
      split
      · rename_i hp
        obtain ⟨r, rfl⟩ := List.isPrefixOf_iff_prefix.mp hp
        simp [@eq_comm _ rest, and_comm]
      · rename_i hp
        refine iff_of_false (by simp) ?_
        rintro ⟨rfl, -⟩
        exact hp (List.isPrefixOf_iff_prefix.mpr (List.prefix_append t rest))
    rw [oneOf, attempts, List.mem_append, hliteral, ih, List.exists_mem_cons_iff]

/-- A group captures what its pattern matched. -/
theorem mem_attempts_group {number : Nat} : ⟨groups, rest⟩ ∈ (group number p).attempts s ↔
    ∃ inner, ⟨inner, rest⟩ ∈ p.attempts s ∧ groups = (number, s.take (s.length - rest.length)) :: inner := by
  simp only [attempts, List.mem_map]
  constructor
  · rintro ⟨⟨inner, rest'⟩, h, he⟩
    cases he
    exact ⟨inner, h, rfl⟩
  · rintro ⟨inner, h, rfl⟩
    exact ⟨⟨inner, rest⟩, h, rfl⟩

/-- A captured character, and what follows it. -/
theorem mem_attempts_letter {number : Nat} {accepts : Char → Bool} :
    ⟨groups, rest⟩ ∈ (seq (group number (char accepts)) q).attempts s ↔
      ∃ c s' inner, accepts c ∧ s = c :: s' ∧ ⟨inner, rest⟩ ∈ q.attempts s' ∧ groups = (number, [c]) :: inner := by
  simp only [mem_attempts_seq, mem_attempts_group, mem_attempts_char]
  constructor
  · rintro ⟨_, s', ⟨_, ⟨c, hc, rfl, rfl⟩, rfl⟩, inner, hq, rfl⟩
    exact ⟨c, s', inner, hc, rfl, hq, by simp⟩
  · rintro ⟨c, s', inner, hc, rfl, hq, rfl⟩
    exact ⟨[(number, [c])], s', ⟨[], ⟨c, hc, rfl, rfl⟩, by simp⟩, inner, hq, rfl⟩

/-- A captured text of several or none of them, and what follows it. -/
theorem mem_attempts_code {number : Nat} {texts : List (List Char)} :
    ⟨groups, rest⟩ ∈ (seq (optional (group number (oneOf texts))) q).attempts s ↔
      (∃ t ∈ texts, ∃ s' inner, s = t ++ s' ∧ ⟨inner, rest⟩ ∈ q.attempts s' ∧ groups = (number, t) :: inner) ∨
        ⟨groups, rest⟩ ∈ q.attempts s := by
  have hoptional : ∀ {groups rest}, ⟨groups, rest⟩ ∈ (optional (group number (oneOf texts))).attempts s ↔
      ⟨groups, rest⟩ ∈ (group number (oneOf texts)).attempts s ∨ groups = [] ∧ rest = s := by
    simp [attempts]
  simp only [mem_attempts_seq, hoptional, mem_attempts_group, mem_attempts_oneOf]
  constructor
  · rintro ⟨_, s', ⟨_, ⟨t, ht, rfl, rfl⟩, rfl⟩ | ⟨rfl, rfl⟩, inner, hq, rfl⟩
    · exact .inl ⟨t, ht, s', inner, rfl, hq, by simp⟩
    · exact .inr hq
  · rintro (⟨t, ht, s', inner, rfl, hq, rfl⟩ | hq)
    · exact ⟨[(number, t)], s', .inl ⟨[], ⟨t, ht, rfl, rfl⟩, by simp⟩, inner, hq, rfl⟩
    · exact ⟨[], s, .inr ⟨rfl, rfl⟩, groups, hq, rfl⟩

/-- A marker is matched with one of the alternatives between its letter and its underscore, or with nothing there. -/
theorem mem_attempts_markerPattern {alternatives : List (List Char)} :
    ⟨groups, rest⟩ ∈ (markerPattern alternatives).attempts s ↔
      ∃ letter extension, letter.isLower ∧ s = 'm' :: letter :: (extension ++ '_' :: rest) ∧
        (extension ∈ alternatives ∧ groups = [(1, [letter]), (2, extension)] ∨
          extension = [] ∧ groups = [(1, [letter])]) := by
  simp only [markerPattern, mem_attempts_char_seq, mem_attempts_letter, mem_attempts_code, mem_attempts_char,
    beq_iff_eq]
  constructor
  · rintro ⟨_, _, rfl, rfl, letter, _, _, hletter, rfl,
      ⟨t, ht, _, _, rfl, ⟨_, rfl, rfl, rfl⟩, rfl⟩ | ⟨_, rfl, rfl, rfl⟩, rfl⟩
    · exact ⟨letter, t, hletter, rfl, .inl ⟨ht, rfl⟩⟩
    · exact ⟨letter, [], hletter, rfl, .inr ⟨rfl, rfl⟩⟩
  · rintro ⟨letter, t, hletter, rfl, ⟨ht, rfl⟩ | ⟨rfl, rfl⟩⟩
    · exact ⟨'m', _, rfl, rfl, letter, _, [(2, t)], hletter, rfl,
        .inl ⟨t, ht, _, [], rfl, ⟨'_', rfl, rfl, rfl⟩, rfl⟩, rfl⟩
    · exact ⟨'m', _, rfl, rfl, letter, _, [], hletter, rfl, .inr ⟨'_', rfl, rfl, rfl⟩, rfl⟩

/-- Characters that were passed over are given back one by one, the last one first. -/
theorem attempts_many_seq {accepts : Char → Bool} {c : Char} (hc : accepts c) :
    (seq (many accepts) q).attempts (c :: s) = (seq (many accepts) q).attempts s ++ q.attempts (c :: s) := by
  simp [attempts, restsAfter, hc]

end Attempts

/-! ## Markers -/

section Markers

/-- A marker at place `i` of a text: an `m`, a lower-case letter, and up to the next underscore nothing or one of the
alternatives. -/
structure IsMarker (u : List Char) (i : Nat) (letter : Char) (extension : List Char) : Prop where
  isPrefix : 'm' :: letter :: (extension ++ ['_']) <+: u.drop i
  isLower : letter.isLower
  underscore_not_mem : '_' ∉ extension
  extension_cases : extension = [] ∨ extension ∈ codeAlternatives

/-- The code of a marker: what stands behind its letter, or the letter if that is nothing. -/
def markedCode (letter : Char) : List Char → List Char
  | [] => [letter]
  | extension => extension

/-- The alternatives are the codes of the table. -/
theorem isSome_ofCode?_iff {code : List Char} : (TypeCode.ofCode? code).isSome ↔ code ∈ codeAlternatives := by
  have hperm : codeAlternatives.Perm (TypeCode.codes.map (·.1)) := by decide
  rw [hperm.mem_iff, TypeCode.ofCode?, List.mem_map]
  simp [List.lookup_eq_findSome?]

/-- What stands before the first underscore of a text. -/
theorem takeWhile_append_isPrefix {s : List Char} (h : '_' ∈ s) : s.takeWhile (· ≠ '_') ++ ['_'] <+: s := by
  cases hd : s.dropWhile (· ≠ '_') with
  | nil =>
    have hall := List.dropWhile_eq_nil_iff.mp hd '_' h
    simp at hall
  | cons c after =>
    refine ⟨after, ?_⟩
    rw [List.append_assoc]
    exact (eq_append_of_dropWhile_ne hd).symm

/-- A marker at a place of a text gives its code. -/
theorem markerCode?_eq_some_iff {u : List Char} {i : Nat} {code : List Char} :
    markerCode? (u.drop i) = some code ↔
      ∃ letter extension, IsMarker u i letter extension ∧ code = markedCode letter extension := by
  constructor
  · intro h
    unfold markerCode? at h
    split at h
    · rename_i letter rest hdrop
      split at h
      · rename_i hcond
        obtain ⟨hletter, hunder⟩ := hcond
        have hstart := takeWhile_append_isPrefix hunder
        have hnot := not_mem_takeWhile_ne '_' rest
        refine ⟨letter, rest.takeWhile (· ≠ '_'), ?_⟩
        have hmarker : 'm' :: letter :: (rest.takeWhile (· ≠ '_') ++ ['_']) <+: u.drop i := by
          rw [hdrop]
          exact List.cons_prefix_cons.mpr ⟨rfl, List.cons_prefix_cons.mpr ⟨rfl, hstart⟩⟩
        cases hx : rest.takeWhile (· ≠ '_') with
        | nil =>
          rw [hx] at h hmarker
          cases h
          exact ⟨⟨hmarker, hletter, by simp, .inl rfl⟩, rfl⟩
        | cons c extension =>
          rw [hx] at h hmarker hnot
          obtain ⟨hsome, hcode⟩ := Option.ite_none_right_eq_some.mp h
          exact ⟨⟨hmarker, hletter, hnot, .inr (isSome_ofCode?_iff.mp hsome)⟩, (Option.some.inj hcode).symm⟩
      · cases h
    · cases h
  · rintro ⟨letter, extension, ⟨⟨after, hdrop⟩, hletter, hnot, hcases⟩, rfl⟩
    have hstop : (extension ++ '_' :: after).takeWhile (· ≠ '_') = extension := (takeWhile_ne_append after hnot).1
    rw [← hdrop, List.cons_append, List.cons_append, List.append_assoc, List.singleton_append, markerCode?,
      if_pos ⟨hletter, by simp⟩, hstop]
    cases extension with
    | nil => rfl
    | cons c extension =>
      have hmem : c :: extension ∈ codeAlternatives := hcases.resolve_left (by simp)
      exact if_pos (isSome_ofCode?_iff.mpr hmem)

/-- A marker at the start of a text gives its code. -/
theorem markerCode?_eq_some_iff_start {s code : List Char} : markerCode? s = some code ↔
    ∃ letter extension, IsMarker s 0 letter extension ∧ code = markedCode letter extension := by
  rw [← markerCode?_eq_some_iff, List.drop_zero]

/-- A place of a text gives no code exactly if no marker stands there. -/
theorem markerCode?_eq_none_iff {u : List Char} {i : Nat} : markerCode? (u.drop i) = none ↔
    ∀ letter extension, ¬ IsMarker u i letter extension := by
  rw [Option.eq_none_iff_forall_ne_some]
  constructor
  · intro h letter extension hm
    exact h _ (markerCode?_eq_some_iff.mpr ⟨letter, extension, hm, rfl⟩)
  · intro h code hcode
    obtain ⟨letter, extension, hm, -⟩ := markerCode?_eq_some_iff.mp hcode
    exact h letter extension hm

/-- The last marker is found wherever the scan is begun: nothing is found exactly if no place has a marker. -/
theorem lastMarkerCode?_eq_none_iff : ∀ {u : List Char},
    lastMarkerCode? u = none ↔ ∀ i, markerCode? (u.drop i) = none
  | [] => by simp [lastMarkerCode?, markerCode?]
  | c :: u => by
    have ih := lastMarkerCode?_eq_none_iff (u := u)
    rw [lastMarkerCode?, Option.orElse_eq_orElse, Option.orElse_eq_or, Option.or_eq_none_iff, ih]
    constructor
    · rintro ⟨hu, hc⟩ (_ | i)
      · exact hc
      · exact hu i
    · intro h
      exact ⟨fun i => h (i + 1), h 0⟩

/-- What is found is the code of the last place with a marker. -/
theorem lastMarkerCode?_eq_some_iff {code : List Char} : ∀ {u : List Char}, lastMarkerCode? u = some code ↔
    ∃ i, markerCode? (u.drop i) = some code ∧ ∀ j, i < j → markerCode? (u.drop j) = none
  | [] => by simp [lastMarkerCode?, markerCode?]
  | c :: u => by
    have ih := @lastMarkerCode?_eq_some_iff code u
    rw [lastMarkerCode?, Option.orElse_eq_orElse, Option.orElse_eq_or, Option.or_eq_some_iff, ih,
      lastMarkerCode?_eq_none_iff]
    constructor
    · rintro (⟨i, hi, hlast⟩ | ⟨hlast, hc⟩)
      · refine ⟨i + 1, hi, ?_⟩
        rintro (_ | j) hj
        · omega
        · exact hlast j (by omega)
      · refine ⟨0, hc, ?_⟩
        rintro (_ | j) hj
        · omega
        · exact hlast j
    · rintro ⟨_ | i, hi, hlast⟩
      · exact .inr ⟨fun j => hlast (j + 1) (by omega), hi⟩
      · exact .inl ⟨i, hi, fun j hj => hlast (j + 1) (by omega)⟩

/-- Texts with the same markers at their start give the same code. -/
theorem markerCode?_congr {s t : List Char}
    (h : ∀ letter extension, IsMarker s 0 letter extension ↔ IsMarker t 0 letter extension) :
    markerCode? s = markerCode? t := by
  apply Option.ext
  intro code
  simp only [markerCode?_eq_some_iff_start, h]

/-- A marker holds no line feed. -/
theorem IsMarker.lineFeed_not_mem {u : List Char} {i : Nat} {letter : Char} {extension : List Char}
    (h : IsMarker u i letter extension) : '\n' ∉ 'm' :: letter :: (extension ++ ['_']) := by
  have hcodes : ∀ code ∈ codeAlternatives, '\n' ∉ code := by decide
  have hletter : '\n' ≠ letter := by
    rintro rfl
    exact absurd h.isLower (by decide)
  have hextension : '\n' ∉ extension := by
    rcases h.extension_cases with rfl | hmem
    · simp
    · exact hcodes extension hmem
  simp [hletter, hextension]

/-- A marker ends before a line feed. -/
theorem markerCode?_takeWhile (s : List Char) : markerCode? (s.takeWhile (· ≠ '\n')) = markerCode? s := by
  apply markerCode?_congr
  intro letter extension
  constructor
  · rintro ⟨hstart, hletter, hnot, hcases⟩
    exact ⟨hstart.trans (List.takeWhile_prefix _), hletter, hnot, hcases⟩
  · intro h
    obtain ⟨⟨after, hs⟩, hletter, hnot, hcases⟩ := id h
    refine ⟨⟨after.takeWhile (· ≠ '\n'), ?_⟩, hletter, hnot, hcases⟩
    have hline : ∀ c ∈ 'm' :: letter :: (extension ++ ['_']), decide (c ≠ '\n') = true := by
      intro c hc
      rw [decide_eq_true_eq]
      rintro rfl
      exact h.lineFeed_not_mem hc
    rw [List.drop_zero] at hs ⊢
    rw [← hs, List.takeWhile_append_of_pos hline]

end Markers

/-! ## Matching is scanning -/

section Matching

open Pattern

variable {alternatives : List (List Char)} {s : List Char} {m : Match}

/-- Every match of a marker captures the code of the marker. -/
theorem code?_of_mem_attempts (hp : alternatives.Perm codeAlternatives)
    (hm : m ∈ (markerPattern alternatives).attempts s) :
    ∃ letter extension, IsMarker s 0 letter extension ∧ m.code? = some (markedCode letter extension) := by
  have hcodes : ∀ code ∈ codeAlternatives, '_' ∉ code ∧ code ≠ [] := by decide
  obtain ⟨groups, rest⟩ := m
  obtain ⟨letter, extension, hletter, rfl, hcases⟩ := mem_attempts_markerPattern.mp hm
  have hstart : 'm' :: letter :: (extension ++ ['_']) <+: 'm' :: letter :: (extension ++ '_' :: rest) :=
    ⟨rest, by simp⟩
  refine ⟨letter, extension, ?_⟩
  rcases hcases with ⟨hmem, rfl⟩ | ⟨rfl, rfl⟩
  · have hcode : extension ∈ codeAlternatives := hp.mem_iff.mp hmem
    obtain ⟨hunder, hne⟩ := hcodes extension hcode
    refine ⟨⟨hstart, hletter, hunder, .inr hcode⟩, ?_⟩
    cases extension with
    | nil => exact absurd rfl hne
    | cons c extension => rfl
  · exact ⟨⟨hstart, hletter, by simp, .inl rfl⟩, rfl⟩

/-- Every marker has a match. -/
theorem attempts_ne_nil_of_isMarker (hp : alternatives.Perm codeAlternatives) {letter : Char} {extension : List Char}
    (h : IsMarker s 0 letter extension) : (markerPattern alternatives).attempts s ≠ [] := by
  obtain ⟨⟨rest, hs⟩, hletter, -, hcases⟩ := h
  have hsplit : s = 'm' :: letter :: (extension ++ '_' :: rest) := by
    rw [← List.drop_zero (l := s), ← hs]
    simp
  rcases hcases with hnil | hmem
  · apply List.ne_nil_of_mem (a := ⟨[(1, [letter])], rest⟩)
    exact mem_attempts_markerPattern.mpr ⟨letter, extension, hletter, hsplit, .inr ⟨hnil, rfl⟩⟩
  · apply List.ne_nil_of_mem (a := ⟨[(1, [letter]), (2, extension)], rest⟩)
    exact mem_attempts_markerPattern.mpr ⟨letter, extension, hletter, hsplit, .inl ⟨hp.mem_iff.mpr hmem, rfl⟩⟩

/-- The pattern of a marker captures the code of the marker that a text starts with. -/
theorem match?_markerPattern_code? (hp : alternatives.Perm codeAlternatives) (s : List Char) :
    ((markerPattern alternatives).match? s).bind (·.code?) = markerCode? s := by
  rw [match?]
  cases h : (markerPattern alternatives).attempts s with
  | nil =>
    show none = markerCode? s
    symm
    rw [← List.drop_zero (l := s), markerCode?_eq_none_iff]
    intro letter extension hm
    exact attempts_ne_nil_of_isMarker hp hm h
  | cons m ms =>
    obtain ⟨letter, extension, hm, he⟩ := code?_of_mem_attempts hp (m := m) (s := s) (by simp [h])
    show m.code? = markerCode? s
    rw [he]
    exact (markerCode?_eq_some_iff_start.mpr ⟨letter, extension, hm, rfl⟩).symm

/-- Every match of the whole pattern captures a code. -/
theorem isSome_code?_of_mem_attempts (hp : alternatives.Perm codeAlternatives)
    (hm : m ∈ (codePattern alternatives).attempts s) : m.code?.isSome := by
  obtain ⟨groups, rest⟩ := m
  obtain ⟨passed, middle, hpassed, groups', hm', rfl⟩ := mem_attempts_seq.mp hm
  have hnone : passed = [] := by
    obtain ⟨_, -, he⟩ := List.mem_map.mp hpassed
    exact (Match.mk.inj he).1.symm
  obtain ⟨letter, extension, -, he⟩ := code?_of_mem_attempts hp hm'
  rw [hnone, List.nil_append]
  show (Match.mk groups' rest).code?.isSome
  exact Option.isSome_iff_exists.mpr ⟨_, he⟩

/-- Where every match of a list captures something, those of a second list count only if there is none. -/
theorem head?_append_code? {ms ms' : List Match} (h : ∀ m ∈ ms, m.code?.isSome) :
    (ms ++ ms').head?.bind (·.code?) = (ms.head?.bind (·.code?) <|> ms'.head?.bind (·.code?)) := by
  cases ms with
  | nil => rfl
  | cons m ms =>
    obtain ⟨code, hcode⟩ := Option.isSome_iff_exists.mp (h m (by simp))
    simp [hcode]

/-- The pattern captures the code of the last marker, in whatever order its alternatives are tried. -/
theorem patternCode?_eq (hp : alternatives.Perm codeAlternatives) : ∀ name : List Char,
    patternCode? alternatives name = embeddedCode? name
  | [] => rfl
  | c :: s => by
    have ih := patternCode?_eq hp s
    by_cases hc : c = '\n'
    · -- nothing is passed over in front of a line feed, and no marker starts with one
      subst hc
      have hmarker := match?_markerPattern_code? hp ('\n' :: s)
      have hattempts : (codePattern alternatives).attempts ('\n' :: s) =
          (markerPattern alternatives).attempts ('\n' :: s) := by
        simp [codePattern, attempts, restsAfter]
      rw [patternCode?, match?, hattempts]
      exact hmarker
    · have hattempts : (codePattern alternatives).attempts (c :: s) =
          (codePattern alternatives).attempts s ++ (markerPattern alternatives).attempts (c :: s) :=
        attempts_many_seq (bne_iff_ne.mpr hc)
      have hline : (c :: s).takeWhile (· ≠ '\n') = c :: s.takeWhile (· ≠ '\n') := by
        simp [hc]
      have hmarker := match?_markerPattern_code? hp (c :: s)
      rw [← markerCode?_takeWhile, hline, match?] at hmarker
      rw [patternCode?, match?] at ih ⊢
      rw [hattempts, head?_append_code? fun m hm => isSome_code?_of_mem_attempts hp hm, ih, hmarker, embeddedCode?,
        embeddedCode?, hline]
      rfl

end Matching

/-! ## The part behind the last underscore -/

section Tail

variable {front tail : List Char}

/-- What ends in an underscore does not reach behind the last one. -/
theorem isPrefix_append_underscore_iff {p : List Char} (ht : '_' ∉ tail) :
    p ++ ['_'] <+: front ++ '_' :: tail ↔ p ++ ['_'] <+: front ++ ['_'] := by
  have hfront : front ++ ['_'] <+: front ++ '_' :: tail := ⟨tail, by simp⟩
  constructor
  · intro h
    rcases List.prefix_or_prefix_of_prefix h hfront with hp | ⟨rest, hp⟩
    · exact hp
    · -- what would reach into the part behind the last underscore ends in another one
      have hrest : rest <+: tail := by
        rw [← hp] at h
        simpa using h
      rcases List.eq_nil_or_concat' rest with rfl | ⟨rest, c, rfl⟩
      · rw [List.append_nil] at hp
        exact hp ▸ List.prefix_rfl
      · have hc : c = '_' := by
          rw [← List.append_assoc] at hp
          exact List.singleton_inj.mp (List.append_inj_right' hp rfl)
        exact absurd (hrest.mem (by simp [hc])) ht
  · intro h
    exact h.trans hfront

/-- The last marker stands before the last underscore, whatever follows that. -/
theorem lastMarkerCode?_append_underscore (ht : '_' ∉ tail) : ∀ front : List Char,
    lastMarkerCode? (front ++ '_' :: tail) = lastMarkerCode? (front ++ ['_'])
  | [] => by
    rw [List.nil_append, lastMarkerCode?, lastMarkerCode?_eq_none ht]
    rfl
  | c :: front => by
    have hmarker : markerCode? (c :: front ++ '_' :: tail) = markerCode? (c :: front ++ ['_']) := by
      apply markerCode?_congr
      intro letter extension
      have hstart : 'm' :: letter :: (extension ++ ['_']) <+: c :: front ++ '_' :: tail ↔
          'm' :: letter :: (extension ++ ['_']) <+: c :: front ++ ['_'] :=
        isPrefix_append_underscore_iff (p := 'm' :: letter :: extension) ht
      constructor
      · rintro ⟨h, hletter, hnot, hcases⟩
        exact ⟨hstart.mp h, hletter, hnot, hcases⟩
      · rintro ⟨h, hletter, hnot, hcases⟩
        exact ⟨hstart.mpr h, hletter, hnot, hcases⟩
    rw [List.cons_append] at hmarker ⊢
    rw [lastMarkerCode?, lastMarkerCode?_append_underscore ht front, hmarker]
    rfl

/-- What follows the last underscore of a name does not change its type code. -/
theorem embeddedCode?_append (ht : '_' ∉ tail) :
    embeddedCode? (front ++ '_' :: tail) = embeddedCode? (front ++ ['_']) := by
  by_cases hf : '\n' ∈ front
  · obtain ⟨line, rest, rfl, hline⟩ := List.eq_append_cons_of_mem hf
    simp only [embeddedCode?, List.append_assoc, List.cons_append, (takeWhile_ne_append _ hline).1]
  · have hall : ∀ c ∈ front, decide (c ≠ '\n') = true := by
      intro c hc
      exact decide_eq_true fun e => hf (e ▸ hc)
    have hunder : '_' ∉ tail.takeWhile (· ≠ '\n') := fun hm => ht ((List.takeWhile_prefix _).mem hm)
    rw [embeddedCode?, embeddedCode?, List.takeWhile_append_of_pos hall, List.takeWhile_append_of_pos hall]
    exact lastMarkerCode?_append_underscore hunder front

/-- What follows the last underscore of a name does not change the prefix of its parameter. -/
theorem inferPrefix_append (ht : '_' ∉ tail) (isPointer : Bool) :
    inferPrefix (front ++ '_' :: tail) isPointer = inferPrefix (front ++ ['_']) isPointer := by
  have hstruct : "mcS_".toList.isPrefixOf (front ++ '_' :: tail) = "mcS_".toList.isPrefixOf (front ++ ['_']) := by
    rw [Bool.eq_iff_iff, List.isPrefixOf_iff_prefix, List.isPrefixOf_iff_prefix]
    exact isPrefix_append_underscore_iff (p := "mcS".toList) ht
  have hbase : basePrefix (front ++ '_' :: tail) = basePrefix (front ++ ['_']) := by
    rw [basePrefix, basePrefix, hstruct, embeddedCode?_append ht]
  rw [inferPrefix, inferPrefix, hbase]

end Tail

/-! ## Prefixes by the last marker -/

section Prefixes

variable {name : List Char}

/-- A name has no type code exactly if its first line has no marker. -/
theorem embeddedCode?_eq_none_iff : embeddedCode? name = none ↔
    ∀ i letter extension, ¬ IsMarker (name.takeWhile (· ≠ '\n')) i letter extension := by
  rw [embeddedCode?, lastMarkerCode?_eq_none_iff]
  simp only [markerCode?_eq_none_iff]

/-- The type code of a name is that of the last marker of its first line. -/
theorem embeddedCode?_eq_some_iff {code : List Char} : embeddedCode? name = some code ↔
    ∃ i letter extension, IsMarker (name.takeWhile (· ≠ '\n')) i letter extension ∧
      (∀ j letter' extension', IsMarker (name.takeWhile (· ≠ '\n')) j letter' extension' → j ≤ i) ∧
      code = markedCode letter extension := by
  rw [embeddedCode?, lastMarkerCode?_eq_some_iff]
  constructor
  · rintro ⟨i, hcode, hlast⟩
    obtain ⟨letter, extension, hm, rfl⟩ := markerCode?_eq_some_iff.mp hcode
    refine ⟨i, letter, extension, hm, ?_, rfl⟩
    intro j letter' extension' hm'
    by_contra hj
    exact markerCode?_eq_none_iff.mp (hlast j (by omega)) letter' extension' hm'
  · rintro ⟨i, letter, extension, hm, hlast, rfl⟩
    refine ⟨i, markerCode?_eq_some_iff.mpr ⟨letter, extension, hm, rfl⟩, ?_⟩
    intro j hj
    rw [markerCode?_eq_none_iff]
    intro letter' extension' hm'
    have := hlast j letter' extension' hm'
    omega

/-- The prefix of a parameter that is no pointer. -/
theorem inferPrefix_false (name : List Char) : inferPrefix name false =
    if "mcS_".toList <+: name then "SL".toList
    else ((embeddedCode? name).bind TypeCode.ofCode?).elim "CL".toList TypeCode.paramPrefix := by
  have hstruct : "mcS_".toList.isPrefixOf name ↔ "mcS_".toList <+: name := List.isPrefixOf_iff_prefix
  simp only [inferPrefix, basePrefix, hstruct, Option.bind_eq_bind, Bool.false_eq_true, if_false]
  cases (embeddedCode? name).bind TypeCode.ofCode? <;> rfl

/-- **The last marker decides.** In every order of the alternatives, the pattern captures the code of the last marker in
the first line of a name, and nothing if there is no marker; the code gives the prefix of the parameter, unless the
name starts with `mcS_`; and what follows the last underscore of the name has no say in either. -/
theorem embeddedCode?_last_marker (name : List Char) :
    (∀ alternatives : List (List Char), alternatives.Perm codeAlternatives →
      patternCode? alternatives name = embeddedCode? name) ∧
    (embeddedCode? name = none ↔ ∀ i letter extension, ¬ IsMarker (name.takeWhile (· ≠ '\n')) i letter extension) ∧
    (∀ code, embeddedCode? name = some code ↔
      ∃ i letter extension, IsMarker (name.takeWhile (· ≠ '\n')) i letter extension ∧
        (∀ j letter' extension', IsMarker (name.takeWhile (· ≠ '\n')) j letter' extension' → j ≤ i) ∧
        code = markedCode letter extension) ∧
    (inferPrefix name false =
      if "mcS_".toList <+: name then "SL".toList
      else ((embeddedCode? name).bind TypeCode.ofCode?).elim "CL".toList TypeCode.paramPrefix) ∧
    inferPrefix name true = 'p' :: inferPrefix name false ∧
    (∀ front tail tail' : List Char, name = front ++ '_' :: tail → '_' ∉ tail → '_' ∉ tail' →
      embeddedCode? (front ++ '_' :: tail') = embeddedCode? name ∧
      ∀ isPointer, inferPrefix (front ++ '_' :: tail') isPointer = inferPrefix name isPointer) := by
  refine ⟨fun alternatives hp => patternCode?_eq hp name, embeddedCode?_eq_none_iff,
    fun code => embeddedCode?_eq_some_iff, inferPrefix_false name, rfl, ?_⟩
  rintro front tail tail' rfl ht ht'
  refine ⟨?_, fun isPointer => ?_⟩
  · rw [embeddedCode?_append ht, embeddedCode?_append ht']
  · rw [inferPrefix_append ht, inferPrefix_append ht']

/-- In `mcmul_a` the marker `mul_` stands inside what would be the code of the first `m`; its code is `l`, and another
text behind the underscore, of two lines or none, leaves it so. -/
theorem embeddedCode?_last_marker_mcmul :
    patternCode? codeAlternatives.reverse "mcmul_a".toList = some "l".toList ∧
    embeddedCode? "mcmul_b\nms".toList = some "l".toList ∧ inferPrefix "mcmul_".toList true = "pslL".toList := by
  obtain ⟨hpattern, -, -, -, -, htail⟩ := embeddedCode?_last_marker "mcmul_a".toList
  have hcode : embeddedCode? "mcmul_a".toList = some "l".toList := by decide
  refine ⟨?_, ?_, ?_⟩
  · rw [hpattern _ (List.reverse_perm _), hcode]
  · exact (htail "mcmul".toList "a".toList "b\nms".toList rfl (by decide) (by decide)).1.trans hcode
  · exact (htail "mcmul".toList "a".toList [] rfl (by decide) (by decide)).2 true

end Prefixes

end AccessorGen
