import AccessorGen.Proofs.Grammar
import AccessorGen.Proofs.Outcome

/-!
# Accepted declarations

What is known of a declaration because a line was accepted (`Declaration.Accepted`): its type is a sequence of
qualified words, its name is a word, its size is a positive 32-bit number, and all else follows from these by
resolving. Every declaration of a text is accepted (`accepted_of_mem_declarations`).

The category is known from `Declaration.Accepted.category_cases`, the characters of a type from
`IsTypeText.mem_cases`.
-/

namespace AccessorGen

open Text

/-! ## Types -/

section Types

/-- All parts of a qualified word are words. -/
def QualifiedWord.IsProper (q : QualifiedWord) : Prop :=
  IsWord q.first ∧ ∀ w ∈ q.glued, IsWord w

/-- A text that is the type of a declaration: qualified words, at least one, with single spaces between them. -/
def IsTypeText (s : List Char) : Prop :=
  ∃ type : List QualifiedWord, type ≠ [] ∧ (∀ q ∈ type, q.IsProper) ∧ s = [' '].intercalate (type.map (·.text))

/-- The characters of a text in pieces are those of the pieces and of what stands between them. -/
theorem mem_intercalate_cases {sep : List Char} {c : Char} : ∀ {pieces : List (List Char)},
    c ∈ sep.intercalate pieces → c ∈ sep ∨ ∃ piece ∈ pieces, c ∈ piece
  | [], h => by simp at h
  | [piece], h => .inr ⟨piece, by simp, by simpa using h⟩
  | piece :: q :: pieces, h => by
    rw [List.intercalate_cons_cons, List.mem_append, List.mem_append] at h
    rcases h with (h | h) | h
    · exact .inr ⟨piece, List.mem_cons_self, h⟩
    · exact .inl h
    · rcases mem_intercalate_cases h with h | ⟨p, hp, h⟩
      · exact .inl h
      · exact .inr ⟨p, List.mem_cons_of_mem _ hp, h⟩

/-- A qualified word is made of word characters and colons. -/
theorem QualifiedWord.IsProper.mem_text {q : QualifiedWord} (hq : q.IsProper) {c : Char} (hc : c ∈ q.text) :
    isWordChar c ∨ c = ':' := by
  rcases List.mem_append.mp hc with hc | hc
  · exact .inl (hq.1.2 c hc)
  · obtain ⟨w, hw, hc⟩ := List.mem_flatMap.mp hc
    rcases List.mem_append.mp hc with hc | hc
    · exact .inr (by simpa using hc)
    · exact .inl ((hq.2 w hw).2 c hc)

/-- The text of a type is made of word characters, colons and spaces. -/
theorem IsTypeText.mem_cases {s : List Char} (hs : IsTypeText s) {c : Char} (hc : c ∈ s) :
    isWordChar c ∨ c = ':' ∨ c = ' ' := by
  obtain ⟨type, -, hproper, rfl⟩ := hs
  rcases mem_intercalate_cases hc with hc | ⟨piece, hp, hc⟩
  · exact .inr (.inr (List.mem_singleton.mp hc))
  · obtain ⟨q, hq, rfl⟩ := List.mem_map.mp hp
    rcases (hproper q hq).mem_text hc with h | h
    · exact .inl h
    · exact .inr (.inl h)

end Types

/-! ## Declarations -/

/-- What an accepted line says about its declaration. -/
structure Declaration.Accepted (d : Declaration) : Prop where
  type : IsTypeText d.dataType
  name : IsWord d.variableName
  size : ∀ n, d.arraySize = some n → 1 ≤ n ∧ n ≤ 4294967295
  resolved : d.resolve = .ok d

section Resolving

/-- The categories and when a declaration has them. -/
theorem category_eq_ok_iff {p : ParsedDeclaration} {c : Category} :
    p.category = .ok c ↔
      (p.isPointer = true ∧ c = .pointer) ∨
      (p.isPointer = false ∧ p.arraySize.isSome = true ∧ "char".toList <:+: p.dataType ∧ c = .charArray) ∨
      (p.isPointer = false ∧ p.arraySize = none ∧
        c = ((Primitive.ofType? p.dataType).map .primitive).getD .structOrClass) := by
  unfold ParsedDeclaration.category ParsedDeclaration.isArray
  rw [← occurs_iff]
  cases hp : p.isPointer with
  | true => simp [@eq_comm _ _ c]
  | false =>
    cases ha : p.arraySize with
    | some n =>
      cases ho : occurs "char".toList p.dataType with
      | true => simp [@eq_comm _ _ c]
      | false => simp
    | none =>
      cases ht : Primitive.ofType? p.dataType with
      | some t => simp [@eq_comm _ _ c]
      | none => simp [@eq_comm _ _ c]

/-- Resolving adds names and a category to what was parsed. -/
theorem resolve_eq_ok_iff {p : ParsedDeclaration} {d : Declaration} :
    p.resolve = .ok d ↔ p.category = .ok d.category ∧ d =
      { toParsedDeclaration := p
        meaningfulName := meaningfulName p.variableName
        capitalizedName := capitalize (meaningfulName p.variableName)
        category := d.category
        paramPrefix := inferPrefix p.variableName p.isPointer } := by
  unfold ParsedDeclaration.resolve
  constructor
  · intro h
    split at h
    · cases h
    · rename_i hc
      cases h
      exact ⟨hc, rfl⟩
  · rintro ⟨hc, hd⟩
    rw [hc]
    exact congrArg Except.ok hd.symm

namespace Declaration.Accepted

variable {d : Declaration} (h : d.Accepted)
include h

/-- The meaningful name is that of the variable. -/
theorem meaningfulName_eq : d.meaningfulName = AccessorGen.meaningfulName d.variableName :=
  congrArg Declaration.meaningfulName (resolve_eq_ok_iff.mp h.resolved).2

/-- The capitalized name is that of the variable. -/
theorem capitalizedName_eq : d.capitalizedName = capitalize (AccessorGen.meaningfulName d.variableName) :=
  congrArg Declaration.capitalizedName (resolve_eq_ok_iff.mp h.resolved).2

/-- The prefix is that of the variable. -/
theorem paramPrefix_eq : d.paramPrefix = inferPrefix d.variableName d.isPointer :=
  congrArg Declaration.paramPrefix (resolve_eq_ok_iff.mp h.resolved).2

/-- A declaration is a pointer, an array of characters, or what its type says. -/
theorem category_cases :
    (d.isPointer = true ∧ d.category = .pointer) ∨
      (d.isPointer = false ∧ d.arraySize.isSome = true ∧ "char".toList <:+: d.dataType ∧ d.category = .charArray) ∨
      (d.isPointer = false ∧ d.arraySize = none ∧
        d.category = ((Primitive.ofType? d.dataType).map .primitive).getD .structOrClass) :=
  category_eq_ok_iff.mp (resolve_eq_ok_iff.mp h.resolved).1

/-- Pointers are the declarations with a star. -/
theorem category_eq_pointer_iff : d.category = .pointer ↔ d.isPointer := by
  rcases h.category_cases with ⟨hp, hc⟩ | ⟨hp, -, -, hc⟩ | ⟨hp, -, hc⟩
  · simp [hp, hc]
  · simp [hp, hc]
  · rw [hc, hp]
    cases Primitive.ofType? d.dataType <;> simp

/-- Char arrays are the declarations with a size that are no pointers. -/
theorem category_eq_charArray_iff : d.category = .charArray ↔ ¬ d.isPointer ∧ d.arraySize.isSome := by
  rcases h.category_cases with ⟨hp, hc⟩ | ⟨hp, ha, -, hc⟩ | ⟨hp, ha, hc⟩
  · simp [hp, hc]
  · simp [hp, hc, ha]
  · rw [hc, hp, ha]
    cases Primitive.ofType? d.dataType <;> simp

/-- A declaration that is neither a pointer nor an array of characters is what its type says. -/
theorem category_eq_of_ne (hp : d.category ≠ .pointer) (ha : d.category ≠ .charArray) :
    d.category = ((Primitive.ofType? d.dataType).map .primitive).getD .structOrClass := by
  rcases h.category_cases with ⟨-, hc⟩ | ⟨-, -, -, hc⟩ | ⟨-, -, hc⟩
  · exact absurd hc hp
  · exact absurd hc ha
  · exact hc

/-- A character that stands in no type does not stand in the type of the variable. -/
theorem not_mem_dataType {c : Char} (hc : ¬ isWordChar c) (hcolon : c ≠ ':') (hspace : c ≠ ' ') : c ∉ d.dataType := by
  intro hm
  rcases h.type.mem_cases hm with hw | hw | hw
  · exact hc hw
  · exact hcolon hw
  · exact hspace hw

end Declaration.Accepted

end Resolving

/-! ## The declarations of a text -/

section Texts

/-- A declaration on a line says what its tokens do. -/
theorem exists_shape_of_parseLine {line : List Char} {location : Location} {p : ParsedDeclaration}
    (h : parseLine line location = .ok p) :
    ∃ shape, parseTokens (lexKinds line) = .ok shape ∧
      p = ⟨location, line, shape.dataType, shape.variableName, shape.isPointer, shape.arraySize⟩ := by
  unfold parseLine at h
  split at h
  · cases h
  · rename_i shape hs
    cases h
    exact ⟨shape, hs, rfl⟩

/-- The parts of the type of a head are words if all words of the head are. -/
theorem IsHead.isProper {head : List TokenKind} {type : List QualifiedWord} {name : List Char}
    (h : IsHead head type name) (hw : ∀ w, .word w ∈ head → IsWord w) : ∀ q ∈ type, q.IsProper := by
  intro q hq
  have hmem : ∀ k ∈ q.tokens, k ∈ head := fun k hk =>
    h.mem_head (List.mem_append_left _ (List.mem_flatMap.mpr ⟨q, hq, hk⟩))
  refine ⟨hw q.first (hmem _ List.mem_cons_self), ?_⟩
  intro w hg
  refine hw w (hmem _ (List.mem_cons_of_mem _ ?_))
  exact List.mem_flatMap.mpr ⟨w, hg, by simp⟩

/-- A head of words has a type and a name. -/
theorem IsHead.isTypeText {head : List TokenKind} {type : List QualifiedWord} {name : List Char}
    (h : IsHead head type name) (hw : ∀ w, .word w ∈ head → IsWord w) :
    IsTypeText ([' '].intercalate (type.map (·.text))) ∧ IsWord name :=
  ⟨⟨type, h.type_ne_nil, h.isProper hw, rfl⟩, hw name (h.mem_head (by simp))⟩

/-- A size in brackets is a positive 32-bit number. -/
theorem SizeGroup.bounds {group : List TokenKind} {size : Option Nat} (h : SizeGroup group size) :
    ∀ n, size = some n → 1 ≤ n ∧ n ≤ 4294967295 := by
  intro n hn
  cases h with
  | absent => cases hn
  | present digits hd h1 h2 =>
    cases hn
    exact ⟨h1, h2⟩

/-- A line that is parsed and resolved gives an accepted declaration. -/
theorem accepted_of_parseLine {line : List Char} {location : Location} {p : ParsedDeclaration} {d : Declaration}
    (hp : parseLine line location = .ok p) (hr : p.resolve = .ok d) : d.Accepted := by
  obtain ⟨shape, hs, hshape⟩ := exists_shape_of_parseLine hp
  obtain ⟨head, group, type, name, size, ht, hg, hh, rfl⟩ := (parseTokens_eq_ok_iff (lexKinds_spec line).2 shape).mp hs
  have hword : ∀ w, .word w ∈ head → IsWord w := by
    intro w hw
    have hmem : .word w ∈ lexKinds line := by
      rw [ht]
      simp [hw]
    exact isWord_of_mem_lexKinds hmem
  obtain ⟨htype, hname⟩ := hh.isTypeText hword
  have hd : d.toParsedDeclaration = p := congrArg Declaration.toParsedDeclaration (resolve_eq_ok_iff.mp hr).2
  rw [hshape] at hd
  refine ⟨?_, ?_, ?_, ?_⟩
  · rw [hd]
    exact htype
  · rw [hd]
    exact hname
  · rw [hd]
    exact hg.bounds
  · rw [hd, ← hshape]
    exact hr

/-- A source line that gives a declaration gives an accepted one. -/
theorem SourceLine.accepted_of_ok {l : SourceLine} {d : Declaration} (h : l.outcome.result = .ok d) : d.Accepted := by
  unfold SourceLine.outcome at h
  split at h
  · cases h
  · rename_i p hp
    unfold ParsedDeclaration.outcome at h
    split at h
    · cases h
    · rename_i d' hr
      cases h
      exact accepted_of_parseLine hp hr

/-- Every declaration of a text is accepted. -/
theorem accepted_of_mem_declarations {raw : List Char} {className : Option (List Char)} {d : Declaration}
    (h : d ∈ (generate raw className).declarations) : d.Accepted := by
  rcases eq_or_ne (sourceLines raw) [] with hnil | hne
  · rw [generate_of_eq_nil className hnil] at h
    cases h
  · rw [generate_of_ne_nil className hne] at h
    obtain ⟨l, -, hd⟩ := List.mem_filterMap.mp h
    unfold LineOutcome.declaration? at hd
    split at hd
    · rename_i d' hr
      cases hd
      exact l.accepted_of_ok hr
    · cases hd

end Texts

end AccessorGen
