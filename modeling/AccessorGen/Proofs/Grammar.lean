import AccessorGen.Declaration.Parser
import AccessorGen.Proofs.Lexer
import Mathlib.Data.List.Chain
import Mathlib.Data.List.TakeWhile

/-!
# The grammar of declarations

A declaration is a head, a size in brackets or nothing, and a semicolon. The head is a type and a name with at most
one star among them; the type is a sequence of words, each glued from parts by `::`.

- `QualifiedWord`, `SizeGroup` and `IsHead` say what the parts look like and what they mean;
- reading the words of a type undoes writing them down (`readTypeWords_tokens`, `exists_of_readTypeWords`), and a
  star changes nothing as long as it does not follow a `::` (`readTypeWords_filter`);
- each reader accepts exactly its part of the grammar (`statementBody_eq_some_iff`, `splitSize_eq_some_iff`,
  `readSize?_eq_ok_iff`), hence so does `parseLine` (`parseLine_eq_ok_iff`).
-/

namespace AccessorGen

open Text

/-! ## The grammar -/

/-- A word of a type: a word, and the words glued to it by `::`. -/
structure QualifiedWord where
  first : List Char
  glued : List (List Char)

namespace QualifiedWord

/-- The tokens of words that are glued to one before them. -/
def gluedTokens (ws : List (List Char)) : List TokenKind :=
  ws.flatMap fun w => [.doubleColon, .word w]

/-- The text of words that are glued to one before them. -/
def gluedText (ws : List (List Char)) : List Char :=
  ws.flatMap fun w => [':', ':'] ++ w

/-- The tokens of a qualified word. -/
def tokens (q : QualifiedWord) : List TokenKind :=
  .word q.first :: gluedTokens q.glued

/-- The text of a qualified word, without blanks inside. -/
def text (q : QualifiedWord) : List Char :=
  q.first ++ gluedText q.glued

end QualifiedWord

/-- The tokens of the size of a declaration, and the size they give. -/
inductive SizeGroup : List TokenKind → Option Nat → Prop
  | absent : SizeGroup [] none
  | present (n : List Char) (digits : ∀ c ∈ n, c.isDigit) (positive : 1 ≤ value n) (fits : value n ≤ 4294967295) :
      SizeGroup [.openBracket, .word n, .closeBracket] (some (value n))

/-- No star stands right after a `::`. -/
def StarsUnglued (tokens : List TokenKind) : Prop :=
  tokens.IsChain fun k l => k = .doubleColon → l ≠ .star

/-- The tokens before the size: without the star they are the type and the name, and the star, if there is one,
stands neither at the end nor right after a `::`. -/
structure IsHead (head : List TokenKind) (type : List QualifiedWord) (name : List Char) : Prop where
  count_star : head.count .star ≤ 1
  without_star : head.filter (· ≠ .star) = type.flatMap (·.tokens) ++ [.word name]
  type_ne_nil : type ≠ []
  star_not_last : head.getLast? ≠ some .star
  star_not_glued : StarsUnglued head

/-! ## Type words -/

section TypeWords

open QualifiedWord

/-- Reading words that are glued to the latest one. -/
theorem readTypeWords_gluedTokens (before : List (List Char)) (tokens : List TokenKind) :
    ∀ (ws : List (List Char)) (latest : List Char),
      readTypeWords (latest :: before) false (gluedTokens ws ++ tokens) =
        readTypeWords ((latest ++ gluedText ws) :: before) false tokens
  | [], latest => by simp [gluedTokens, gluedText]
  | w :: ws, latest => by
    have ih := readTypeWords_gluedTokens before tokens ws (latest ++ [':', ':'] ++ w)
    simp only [gluedTokens, gluedText, List.flatMap_cons, List.cons_append, List.nil_append, readTypeWords,
      List.append_assoc] at ih ⊢
    exact ih

/-- Reading a qualified word gives its text. -/
theorem readTypeWords_qualified (q : QualifiedWord) (words : List (List Char)) (tokens : List TokenKind) :
    readTypeWords words false (q.tokens ++ tokens) = readTypeWords (q.text :: words) false tokens := by
  simp only [QualifiedWord.tokens, List.cons_append, readTypeWords]
  rw [readTypeWords_gluedTokens, text]

/-- Reading the tokens of a type gives the texts of its words. -/
theorem readTypeWords_tokens (tokens : List TokenKind) : ∀ (type : List QualifiedWord) (words : List (List Char)),
    readTypeWords words false (type.flatMap (·.tokens) ++ tokens) =
      readTypeWords ((type.map (·.text)).reverse ++ words) false tokens
  | [], words => rfl
  | q :: type, words => by
    rw [List.flatMap_cons, List.append_assoc, readTypeWords_qualified, readTypeWords_tokens tokens type]
    simp

/-- The tokens of a type hold no star. -/
theorem star_not_mem_tokens (type : List QualifiedWord) : .star ∉ type.flatMap (·.tokens) := by
  simp [QualifiedWord.tokens, QualifiedWord.gluedTokens]

/-- Tokens other than stars that follow a word of a type are words glued to it, and then further words. -/
theorem exists_of_readTypeWords_cons {before : List (List Char)} : ∀ {tokens : List TokenKind} {latest : List Char}
    {words : List (List Char)}, .star ∉ tokens → readTypeWords (latest :: before) false tokens = some words →
    ∃ (ws : List (List Char)) (type : List QualifiedWord), tokens = gluedTokens ws ++ type.flatMap (·.tokens) ∧
      words = before.reverse ++ (latest ++ gluedText ws) :: type.map (·.text)
  | [], latest, words, _, h => by
    simp only [readTypeWords, Bool.false_eq_true, ↓reduceIte, Option.some.injEq] at h
    exact ⟨[], [], rfl, by simp [← h, gluedText]⟩
  | .word w :: tokens, latest, words, hs, h => by
    simp only [readTypeWords] at h
    obtain ⟨ws, type, ht, hw⟩ := exists_of_readTypeWords_cons (fun hm => hs (List.mem_cons_of_mem _ hm)) h
    refine ⟨[], ⟨w, ws⟩ :: type, ?_, ?_⟩
    · simp [ht, gluedTokens, QualifiedWord.tokens]
    · simp [hw, gluedText, text]
  | .doubleColon :: .word w :: tokens, latest, words, hs, h => by
    simp only [readTypeWords] at h
    have hs' : .star ∉ tokens := fun hm => hs (List.mem_cons_of_mem _ (List.mem_cons_of_mem _ hm))
    obtain ⟨ws, type, ht, hw⟩ := exists_of_readTypeWords_cons hs' h
    refine ⟨w :: ws, type, ?_, ?_⟩
    · simp [ht, gluedTokens]
    · simp [hw, gluedText]
  | .star :: _, _, _, hs, _ => absurd List.mem_cons_self hs

/-- Tokens other than stars that read as the words of a type are the tokens of qualified words. -/
theorem exists_of_readTypeWords {tokens : List TokenKind} {words : List (List Char)} (hs : .star ∉ tokens)
    (h : readTypeWords [] false tokens = some words) :
    ∃ type : List QualifiedWord, tokens = type.flatMap (·.tokens) ∧ words = type.map (·.text) := by
  match tokens, hs, h with
  | [], _, h =>
    simp only [readTypeWords, Bool.false_eq_true, ↓reduceIte, Option.some.injEq] at h
    exact ⟨[], rfl, by simp [← h]⟩
  | .word w :: tokens, hs, h =>
    simp only [readTypeWords] at h
    obtain ⟨ws, type, ht, hw⟩ := exists_of_readTypeWords_cons (fun hm => hs (List.mem_cons_of_mem _ hm)) h
    refine ⟨⟨w, ws⟩ :: type, ?_, ?_⟩
    · simp [ht, QualifiedWord.tokens]
    · simp [hw, text]
  | .star :: _, hs, _ => exact absurd List.mem_cons_self hs

/-- Stars are passed over: reading goes as if they were not there, unless one follows a `::`. While a word is to be
glued, the `::` was read already. -/
theorem readTypeWords_filter : ∀ (tokens : List TokenKind) (words : List (List Char)) (joining : Bool)
    (out : List (List Char)), readTypeWords words joining tokens = some out ↔
      StarsUnglued ((if joining then [.doubleColon] else []) ++ tokens) ∧
        readTypeWords words joining (tokens.filter (· ≠ .star)) = some out
  | [], words, joining, out => by cases joining <;> simp [readTypeWords, StarsUnglued]
  | .word w :: tokens, words, joining, out => by
    have ih := fun words => readTypeWords_filter tokens words false out
    rw [List.filter_cons_of_pos (by simp)]
    cases joining <;> cases words <;> simp [readTypeWords, ih, StarsUnglued, List.isChain_cons]
  | .doubleColon :: tokens, words, joining, out => by
    have ih := fun words => readTypeWords_filter tokens words true out
    rw [List.filter_cons_of_pos (by simp)]
    cases joining <;> cases words <;> simp [readTypeWords, ih, StarsUnglued]
  | .star :: tokens, words, joining, out => by
    have ih := readTypeWords_filter tokens words false out
    cases joining with
    | true => simp [readTypeWords, StarsUnglued]
    | false => simp [readTypeWords, ih, StarsUnglued, List.isChain_cons]
  | .openBracket :: tokens, words, joining, out => by simp [readTypeWords]
  | .closeBracket :: tokens, words, joining, out => by simp [readTypeWords]
  | .semicolon :: tokens, words, joining, out => by simp [readTypeWords]
  | .other c :: tokens, words, joining, out => by simp [readTypeWords]
  | .eof :: tokens, words, joining, out => by simp [readTypeWords]

end TypeWords

/-! ## The parts of a declaration -/

section Parts

/-- A list splits at the first place of an element. -/
theorem takeWhile_ne_append {α : Type} [DecidableEq α] {a : α} {xs : List α} (ys : List α) (h : a ∉ xs) :
    (xs ++ a :: ys).takeWhile (· ≠ a) = xs ∧ (xs ++ a :: ys).dropWhile (· ≠ a) = a :: ys := by
  have hp : ∀ x ∈ xs, decide (x ≠ a) = true := by
    intro x hx
    have hxa : x ≠ a := fun e => h (e ▸ hx)
    simpa using hxa
  rw [List.takeWhile_append_of_pos hp, List.dropWhile_append_of_pos hp]
  simp

/-- What stands before the first place of an element does not hold it. -/
theorem not_mem_takeWhile_ne {α : Type} [DecidableEq α] (a : α) (l : List α) : a ∉ l.takeWhile (· ≠ a) := by
  intro h
  simpa using List.mem_takeWhile_imp h

/-- A list that reaches an element has it where the search stops. -/
theorem eq_append_of_dropWhile_ne {α : Type} [DecidableEq α] {a x : α} {l ys : List α}
    (h : l.dropWhile (· ≠ a) = x :: ys) : l = l.takeWhile (· ≠ a) ++ a :: ys := by
  have hx : x = a := by
    have := List.head?_dropWhile_not (· ≠ a) l
    rw [h] at this
    simpa using this
  rw [← hx] at h ⊢
  rw [← h, List.takeWhile_append_dropWhile]

/-- A statement is what ends in its only semicolon. -/
theorem statementBody_eq_some_iff {tokens body : List TokenKind} :
    statementBody tokens = some body ↔ tokens = body ++ [.semicolon] ∧ .semicolon ∉ body := by
  unfold statementBody
  constructor
  · intro h
    split at h
    · rename_i hd
      cases h
      refine ⟨?_, not_mem_takeWhile_ne _ _⟩
      rw [← hd, List.takeWhile_append_dropWhile]
    · cases h
  · rintro ⟨rfl, h⟩
    obtain ⟨ht, hd⟩ := takeWhile_ne_append [] h
    rw [if_pos hd, ht]

/-- The tokens of a size in brackets, or none. -/
def bracketed : Option (List TokenKind) → List TokenKind
  | none => []
  | some tokens => .openBracket :: tokens ++ [.closeBracket]

/-- A size in brackets is set off at the last opening bracket, if a closing bracket is the last token. -/
theorem splitSize_eq_some_iff {body head : List TokenKind} {size : Option (List TokenKind)} :
    splitSize body = some (head, size) ↔ body = head ++ bracketed size ∧
      (size = none → head.getLast? ≠ some .closeBracket) ∧ ∀ tokens, size = some tokens → .openBracket ∉ tokens := by
  constructor
  · intro h
    unfold splitSize at h
    split at h
    · rename_i before hr
      have hb : body = before.reverse ++ [.closeBracket] := by
        rw [← List.reverse_reverse body, hr, List.reverse_cons]
      split at h
      · cases h
      · rename_i k head' hd
        cases h
        refine ⟨?_, by simp, ?_⟩
        · rw [hb]
          conv => lhs; rw [eq_append_of_dropWhile_ne hd]
          simp [bracketed]
        · intro tokens ht
          rw [← Option.some.inj ht, List.mem_reverse]
          exact not_mem_takeWhile_ne _ _
    · rename_i hn
      cases h
      refine ⟨by simp [bracketed], fun _ hl => ?_, by simp⟩
      obtain ⟨ys, rfl⟩ := List.getLast?_eq_some_iff.mp hl
      exact hn ys.reverse (by simp)
  · rintro ⟨rfl, hn, ho⟩
    cases size with
    | none =>
      rw [bracketed, List.append_nil]
      unfold splitSize
      split
      · rename_i before hr
        have hl : head.getLast? = some .closeBracket := by rw [← List.head?_reverse, hr]; rfl
        exact absurd hl (hn rfl)
      · rfl
    | some tokens =>
      -- from the end, the first opening bracket is the one of the size
      have hr : (head ++ bracketed (some tokens)).reverse =
          .closeBracket :: (tokens.reverse ++ .openBracket :: head.reverse) := by simp [bracketed]
      have hm : .openBracket ∉ tokens.reverse := by
        rw [List.mem_reverse]
        exact ho tokens rfl
      obtain ⟨ht, hd⟩ := takeWhile_ne_append head.reverse hm
      unfold splitSize
      rw [hr]
      simp only [hd, ht, List.reverse_reverse]

/-- A size is accepted exactly if it is in the grammar. -/
theorem readSize?_eq_ok_iff {tokens : Option (List TokenKind)} {size : Option Nat} :
    readSize? tokens = .ok size ↔ SizeGroup (bracketed tokens) size := by
  constructor
  · intro h
    cases tokens with
    | none =>
      cases h
      exact .absent
    | some tokens =>
      simp only [readSize?] at h
      split at h
      · rename_i n hn
        cases h
        unfold readSize at hn
        split at hn
        · rename_i w
          split at hn
          · rename_i hw
            cases hn
            exact .present w (List.all_eq_true.mp hw.1) hw.2.1 (Nat.le_of_lt_succ hw.2.2)
          · cases hn
        · cases hn
      · cases h
  · intro h
    generalize hg : bracketed tokens = group at h
    cases h with
    | absent =>
      cases tokens with
      | none => rfl
      | some tokens => simp [bracketed] at hg
    | present n hd h1 h2 =>
      cases tokens with
      | none => simp [bracketed] at hg
      | some tokens =>
        obtain rfl : tokens = [.word n] := by simpa [bracketed, List.append_eq_cons_iff] using hg
        have hw : n.all Char.isDigit ∧ 1 ≤ value n ∧ value n < UInt32.size :=
          ⟨List.all_eq_true.mpr hd, h1, Nat.lt_succ_of_le h2⟩
        simp only [readSize?, readSize, if_pos hw]

end Parts

/-! ## Heads -/

section Heads

/-- A head with a name ends in it, and the tokens before it are those of the type. -/
theorem readHead_eq_some_iff {head : List TokenKind} {words : List (List Char)} {name : List Char} :
    readHead head = some (words, some name) ↔
      ∃ front, head = front ++ [.word name] ∧ readTypeWords [] false front = some words := by
  constructor
  · intro h
    unfold readHead at h
    split at h
    · rename_i w hl
      obtain ⟨front, rfl⟩ := List.getLast?_eq_some_iff.mp hl
      rw [List.dropLast_concat] at h
      obtain ⟨words', hw, he⟩ := Option.map_eq_some_iff.mp h
      cases he
      exact ⟨front, rfl, hw⟩
    · obtain ⟨words', hw, he⟩ := Option.map_eq_some_iff.mp h
      cases he
    · cases h
  · rintro ⟨front, rfl, h⟩
    simp [readHead, h]

/-- A name at the end does not follow a `::` as a star would. -/
theorem starsUnglued_concat {front : List TokenKind} {name : List Char} :
    StarsUnglued (front ++ [.word name]) ↔ StarsUnglued front := by
  simp [StarsUnglued, List.isChain_append]

/-- A head in the grammar ends in its name. -/
theorem IsHead.exists_front {head : List TokenKind} {type : List QualifiedWord} {name : List Char}
    (h : IsHead head type name) :
    ∃ front, head = front ++ [.word name] ∧ front.filter (· ≠ .star) = type.flatMap (·.tokens) := by
  rcases List.eq_nil_or_concat head with rfl | ⟨front, last, rfl⟩
  · have := h.without_star
    simp at this
  · rw [List.concat_eq_append] at h ⊢
    have hs : last ≠ .star := fun e => h.star_not_last (by simp [e])
    have hw := h.without_star
    rw [List.filter_append, List.filter_singleton] at hw
    simp only [hs, ne_eq, not_false_eq_true, decide_true, cond_true] at hw
    obtain ⟨hf, hl⟩ := List.append_inj' hw rfl
    cases hl
    exact ⟨front, rfl, hf⟩

/-- A head with a type and a name is accepted exactly if it is in the grammar. -/
theorem exists_isHead_iff {head : List TokenKind} {words : List (List Char)} {name : List Char} :
    (∃ type, IsHead head type name ∧ words = type.map (·.text)) ↔
      head.count .star ≤ 1 ∧ readHead head = some (words, some name) ∧ words ≠ [] := by
  constructor
  · rintro ⟨type, h, rfl⟩
    obtain ⟨front, rfl, hf⟩ := h.exists_front
    refine ⟨h.count_star, readHead_eq_some_iff.mpr ⟨front, rfl, ?_⟩, by simpa using h.type_ne_nil⟩
    refine (readTypeWords_filter front [] false _).mpr ⟨starsUnglued_concat.mp h.star_not_glued, ?_⟩
    have hread := readTypeWords_tokens [] type []
    rw [List.append_nil, ← hf] at hread
    simpa [readTypeWords] using hread
  · rintro ⟨hc, h, hn⟩
    obtain ⟨front, rfl, hw⟩ := readHead_eq_some_iff.mp h
    obtain ⟨hg, hw⟩ := (readTypeWords_filter front [] false words).mp hw
    obtain ⟨type, ht, rfl⟩ := exists_of_readTypeWords (by simp) hw
    refine ⟨type, ⟨hc, ?_, by simpa using hn, by simp, starsUnglued_concat.mpr hg⟩, rfl⟩
    rw [List.filter_append, ht]
    simp

end Heads

/-! ## Declarations -/

section Declarations

/-- The tokens of a head are words, `::` and stars. -/
theorem IsHead.mem_cases {head : List TokenKind} {type : List QualifiedWord} {name : List Char}
    (h : IsHead head type name) {k : TokenKind} (hk : k ∈ head) : k = .star ∨ k = .doubleColon ∨ ∃ w, k = .word w := by
  by_cases hs : k = .star
  · exact .inl hs
  · have hm : k ∈ head.filter (· ≠ .star) := List.mem_filter.mpr ⟨hk, by simpa using hs⟩
    rw [h.without_star, List.mem_append, List.mem_flatMap] at hm
    rcases hm with ⟨q, _, hq⟩ | hm
    · simp only [QualifiedWord.tokens, QualifiedWord.gluedTokens, List.mem_cons, List.mem_flatMap, List.not_mem_nil,
        or_false] at hq
      rcases hq with rfl | ⟨w, _, rfl | rfl⟩
      · exact .inr (.inr ⟨_, rfl⟩)
      · exact .inr (.inl rfl)
      · exact .inr (.inr ⟨_, rfl⟩)
    · exact .inr (.inr ⟨name, List.mem_singleton.mp hm⟩)

/-- The form of a declaration is read exactly from its three parts. -/
theorem readForm_eq_some_iff {tokens : List TokenKind} {words : List (List Char)} {name : Option (List Char)}
    {isPointer : Bool} {size : Option (List TokenKind)} :
    readForm tokens = some (words, name, isPointer, size) ↔
      ∃ body head, statementBody tokens = some body ∧ splitSize body = some (head, size) ∧
        head.count .star ≤ 1 ∧ readHead head = some (words, name) ∧ (isPointer = false → words ≠ []) ∧
        isPointer = head.contains .star := by
  constructor
  · intro h
    unfold readForm at h
    obtain ⟨body, hb, h⟩ := Option.bind_eq_some_iff.mp h
    obtain ⟨⟨head, size'⟩, hs, h⟩ := Option.bind_eq_some_iff.mp h
    dsimp only at h
    split at h
    · cases h
    · rename_i hc
      obtain ⟨⟨words', name'⟩, hh, h⟩ := Option.bind_eq_some_iff.mp h
      dsimp only at h
      split at h
      · cases h
      · rename_i hp
        cases h
        refine ⟨body, head, hb, hs, by omega, hh, ?_, rfl⟩
        rintro he rfl
        exact hp (by rw [he]; rfl)
  · rintro ⟨body, head, hb, hs, hc, hh, hw, rfl⟩
    have hp : ¬ (!head.contains .star && words.isEmpty) = true := by
      intro h
      rw [Bool.and_eq_true, Bool.not_eq_true', List.isEmpty_iff] at h
      exact hw h.1 h.2
    simp only [readForm, hb, hs, hh, Option.bind_eq_bind, Option.bind_some]
    rw [if_neg (by omega), if_neg hp]
    rfl

/-- A type whose words are not empty has a text. -/
theorem intercalate_ne_nil {words : List (List Char)} (h : words ≠ []) (hw : ∀ w ∈ words, w ≠ []) :
    [' '].intercalate words ≠ [] := by
  match words, h with
  | [w], _ => simpa using hw
  | w :: v :: words, _ => simp

/-- The text of a qualified word is not empty if its first word is not. -/
theorem QualifiedWord.text_ne_nil {q : QualifiedWord} (h : q.first ≠ []) : q.text ≠ [] := by
  simp [text, h]

/-- A size group is nothing, or brackets around a word. -/
theorem SizeGroup.exists_bracketed {group : List TokenKind} {size : Option Nat} (h : SizeGroup group size) :
    ∃ inner, group = bracketed inner ∧ .semicolon ∉ group ∧ ∀ tokens, inner = some tokens → .openBracket ∉ tokens := by
  cases h with
  | absent => exact ⟨none, rfl, by simp, by simp⟩
  | present n => exact ⟨some [.word n], rfl, by simp, by simp⟩

/-- The three parts of the grammar are read as what they say. -/
theorem readForm_of_isHead {head group : List TokenKind} {type : List QualifiedWord} {name : List Char}
    {size : Option Nat} (hh : IsHead head type name) (hg : SizeGroup group size) :
    ∃ inner, readForm (head ++ group ++ [.semicolon]) =
      some (type.map (·.text), some name, head.contains .star, inner) ∧ readSize? inner = .ok size := by
  obtain ⟨inner, rfl, hs, ho⟩ := hg.exists_bracketed
  obtain ⟨hc, hr, hw⟩ := exists_isHead_iff.mp ⟨type, hh, rfl⟩
  have hm : .semicolon ∉ head := fun h => by simpa using hh.mem_cases h
  have hl : head.getLast? ≠ some .closeBracket := fun h => by simpa using hh.mem_cases (List.mem_of_getLast? h)
  refine ⟨inner, readForm_eq_some_iff.mpr ?_, readSize?_eq_ok_iff.mpr hg⟩
  refine ⟨head ++ bracketed inner, head, ?_, ?_, hc, hr, fun _ => hw, rfl⟩
  · exact statementBody_eq_some_iff.mpr ⟨rfl, by simp [hm, hs]⟩
  · exact splitSize_eq_some_iff.mpr ⟨rfl, fun _ => hl, ho⟩

/-- The words of a type and the name are among the tokens of the head. -/
theorem IsHead.mem_head {head : List TokenKind} {type : List QualifiedWord} {name : List Char}
    (h : IsHead head type name) {k : TokenKind} (hk : k ∈ type.flatMap (·.tokens) ++ [.word name]) : k ∈ head := by
  rw [← h.without_star] at hk
  exact (List.mem_filter.mp hk).1

/-- A head of proper tokens has a type and a name that are not empty. -/
theorem IsHead.texts_ne_nil {head : List TokenKind} {type : List QualifiedWord} {name : List Char}
    (h : IsHead head type name) (hk : ∀ k ∈ head, k.IsProper) :
    [' '].intercalate (type.map (·.text)) ≠ [] ∧ name ≠ [] := by
  have hmem : ∀ w, .word w ∈ type.flatMap (·.tokens) ++ [.word name] → w ≠ [] := by
    rintro w hw rfl
    exact (hk _ (h.mem_head hw)).2 rfl
  refine ⟨intercalate_ne_nil (by simpa using h.type_ne_nil) ?_, hmem name (by simp)⟩
  intro w hw
  obtain ⟨q, hq, rfl⟩ := List.mem_map.mp hw
  refine QualifiedWord.text_ne_nil (hmem q.first (List.mem_append_left _ ?_))
  exact List.mem_flatMap.mpr ⟨q, hq, List.mem_cons_self⟩

/-- A list of proper tokens declares something exactly if it is in the grammar. -/
theorem parseTokens_eq_ok_iff {tokens : List TokenKind} (hk : ∀ k ∈ tokens, k.IsProper) (shape : DeclarationShape) :
    parseTokens tokens = .ok shape ↔
      ∃ head group type name size, tokens = head ++ group ++ [.semicolon] ∧ SizeGroup group size ∧
        IsHead head type name ∧ shape = ⟨type.map (·.text), name, head.contains .star, size⟩ := by
  constructor
  · intro h
    unfold parseTokens at h
    split at h
    · cases h
    · rename_i words name? isPointer inner hf
      obtain ⟨body, head, hb, hs, hc, hh, -, rfl⟩ := readForm_eq_some_iff.mp hf
      split at h
      · cases h
      · rename_i size hz
        dsimp only at h
        split at h
        · cases h
        · rename_i he
          cases h
          simp only [Bool.or_eq_true, List.isEmpty_iff, not_or, DeclarationShape.dataType] at he
          cases name? with
          | none => exact absurd rfl he.2
          | some name =>
            have hw : words ≠ [] := by
              rintro rfl
              exact he.1 rfl
            obtain ⟨type, ht, rfl⟩ := exists_isHead_iff.mpr ⟨hc, hh, hw⟩
            obtain ⟨rfl, -⟩ := statementBody_eq_some_iff.mp hb
            obtain ⟨rfl, -⟩ := splitSize_eq_some_iff.mp hs
            exact ⟨head, bracketed inner, type, name, size, rfl, readSize?_eq_ok_iff.mp hz, ht, rfl⟩
  · rintro ⟨head, group, type, name, size, rfl, hg, hh, rfl⟩
    obtain ⟨inner, hf, hz⟩ := readForm_of_isHead hh hg
    obtain ⟨hd, hn⟩ := hh.texts_ne_nil fun k hm => hk k (by simp [hm])
    simp only [parseTokens, hf, hz]
    exact if_neg (by simp [DeclarationShape.dataType, hd, hn])

/-- **The grammar of a line**: a line is a declaration exactly if its tokens are a head, a size in brackets or
nothing, and a semicolon, and then the declaration says what these say. -/
theorem parseLine_eq_ok_iff (line : List Char) (location : Location) (d : ParsedDeclaration) :
    parseLine line location = .ok d ↔
      ∃ head group type name size, (lex line).map (·.kind) = head ++ group ++ [.semicolon] ++ [.eof] ∧
        SizeGroup group size ∧ IsHead head type name ∧
        d = { location
              rawLine := line
              dataType := [' '].intercalate (type.map (·.text))
              variableName := name
              isPointer := head.contains .star
              arraySize := size } := by
  have hk := parseTokens_eq_ok_iff (lexKinds_spec line).2
  simp only [lex_kinds, List.append_cancel_right_eq]
  constructor
  · intro h
    unfold parseLine at h
    split at h
    · cases h
    · rename_i shape hs
      cases h
      obtain ⟨head, group, type, name, size, ht, hg, hh, rfl⟩ := (hk shape).mp hs
      exact ⟨head, group, type, name, size, ht, hg, hh, rfl⟩
  · rintro ⟨head, group, type, name, size, ht, hg, hh, rfl⟩
    have hs := (hk _).mpr ⟨head, group, type, name, size, ht, hg, hh, rfl⟩
    simp only [parseLine, hs, DeclarationShape.dataType]

end Declarations

end AccessorGen
