import AccessorGen.Generate
import Mathlib.Data.List.Forall2

/-!
# The result of a line

A line is accepted or rejected by its text alone; its location only goes into the result. `SourceLine.result_cases`
says so once for all lines, and `SourceLine.rel_declaration?` and `SourceLine.rel_diagnostic?` for two lines with the
same text; `generate_of_ne_nil` and `generate_of_eq_nil` say what the results make up.

Code does not depend on where a declaration stands and how it is written: declarations that say the same
(`Declaration.SameCode`), one by one, make up the same texts (`Generated.ofDeclarations_texts_eq`).
-/

namespace AccessorGen

open Text

/-! ## One line -/

section Line

/-- The message of every kind but one quotes the line behind its wording. -/
theorem exists_message_eq {kind : Diagnostic.Kind} (h : kind ≠ .emptyInput) (line : List Char) :
    ∃ wording, '"' ∉ wording ∧ kind.message line = wording ++ ['"'] ++ line ++ ['"'] := by
  cases kind with
  | emptyInput => exact absurd rfl h
  | grammarMismatch => exact ⟨"Invalid declaration: ".toList, by decide +kernel, rfl⟩
  | invalidArraySize => exact ⟨"Invalid array size in ".toList, by decide +kernel, rfl⟩
  | unsupportedArrayElement => exact ⟨"Unsupported array type: ".toList, by decide +kernel, rfl⟩
  | emptyAfterStrip => exact ⟨"Could not parse declaration: ".toList, by decide +kernel, rfl⟩

/-- Tokens are never rejected for want of any line. -/
theorem parseTokens_error_ne {tokens : List TokenKind} {kind : Diagnostic.Kind} (h : parseTokens tokens = .error kind) :
    kind ≠ .emptyInput := by
  unfold parseTokens at h
  split at h
  · cases h
    simp
  · rename_i words name isPointer size hf
    split at h
    · rename_i kind' hs
      cases h
      unfold readSize? at hs
      split at hs
      · cases hs
      · split at hs
        · cases hs
        · cases hs
          simp
    · dsimp only at h
      split at h
      · cases h
        simp
      · cases h

/-- A line is parsed by its text. -/
theorem parseLine_cases (text : List Char) :
    (∃ d : ParsedDeclaration, d.rawLine = text ∧ ∀ location, parseLine text location = .ok { d with location }) ∨
      ∃ kind, kind ≠ .emptyInput ∧ ∀ location, parseLine text location = .error (.ofLine kind text location) := by
  cases h : parseTokens (lexKinds text) with
  | error kind => exact .inr ⟨kind, parseTokens_error_ne h, fun location => by simp only [parseLine, h]⟩
  | ok shape =>
    refine .inl ⟨⟨default, text, shape.dataType, shape.variableName, shape.isPointer, shape.arraySize⟩, rfl, ?_⟩
    intro location
    simp only [parseLine, h]

/-- The category follows from what a declaration says, wherever it stands. -/
theorem category_cases (d : ParsedDeclaration) :
    (∃ c, ∀ location, ({ d with location } : ParsedDeclaration).category = .ok c) ∨
      ∀ location, ({ d with location } : ParsedDeclaration).category =
        .error (.ofLine .unsupportedArrayElement d.rawLine location) := by
  by_cases hp : d.isPointer
  · exact .inl ⟨.pointer, fun _ => by simp [ParsedDeclaration.category, hp]⟩
  · by_cases ha : d.arraySize.isSome
    · by_cases hc : occurs "char".toList d.dataType
      · exact .inl ⟨.charArray, fun _ => by
          simp only [ParsedDeclaration.category, ParsedDeclaration.isArray, hp, ha, hc, ↓reduceIte,
            Bool.false_eq_true]⟩
      · exact .inr fun _ => by
          simp only [ParsedDeclaration.category, ParsedDeclaration.isArray, hp, ha, hc, ↓reduceIte,
            Bool.false_eq_true]
    · cases ht : Primitive.ofType? d.dataType with
      | some p =>
        exact .inl ⟨.primitive p, fun _ => by
          simp [ParsedDeclaration.category, ParsedDeclaration.isArray, hp, ha, ht]⟩
      | none =>
        exact .inl ⟨.structOrClass, fun _ => by
          simp [ParsedDeclaration.category, ParsedDeclaration.isArray, hp, ha, ht]⟩

/-- A parsed declaration is resolved by what it says, wherever it stands. -/
theorem resolve_cases (d : ParsedDeclaration) :
    (∃ e : Declaration, e.toParsedDeclaration = d ∧
        ∀ location, ({ d with location } : ParsedDeclaration).resolve = .ok { e with location }) ∨
      ∀ location, ({ d with location } : ParsedDeclaration).resolve =
        .error (.ofLine .unsupportedArrayElement d.rawLine location) := by
  rcases category_cases d with ⟨c, hc⟩ | hc
  · refine .inl ⟨⟨d, meaningfulName d.variableName, capitalize (meaningfulName d.variableName), c,
      inferPrefix d.variableName d.isPointer⟩, rfl, fun location => ?_⟩
    simp only [ParsedDeclaration.resolve, hc]
  · refine .inr fun location => ?_
    simp only [ParsedDeclaration.resolve, hc]

/-- **The result of a line**: its text decides whether it gives a declaration or a warning, and the location only
goes along. -/
theorem SourceLine.result_cases (text : List Char) :
    (∃ d : Declaration, d.rawLine = text ∧
        ∀ location, (SourceLine.mk text location).outcome.result = .ok { d with location }) ∨
      ∃ kind, kind ≠ .emptyInput ∧
        ∀ location, (SourceLine.mk text location).outcome.result = .error (.ofLine kind text location) := by
  rcases parseLine_cases text with ⟨d, hd, hp⟩ | ⟨kind, hk, hp⟩
  · subst hd
    rcases resolve_cases d with ⟨e, rfl, hr⟩ | hr
    · refine .inl ⟨e, rfl, fun location => ?_⟩
      simp only [SourceLine.outcome, hp, ParsedDeclaration.outcome, hr]
    · refine .inr ⟨.unsupportedArrayElement, by simp, fun location => ?_⟩
      simp only [SourceLine.outcome, hp, ParsedDeclaration.outcome, hr]
  · refine .inr ⟨kind, hk, fun location => ?_⟩
    simp only [SourceLine.outcome, hp]

/-- A source line is rejected with a warning about it. -/
theorem SourceLine.error_eq {l : SourceLine} {e : Diagnostic} (h : l.outcome.result = .error e) :
    ∃ kind, kind ≠ .emptyInput ∧ e = .ofLine kind l.text l.location := by
  rcases result_cases l.text with ⟨d, -, hr⟩ | ⟨kind, hk, hr⟩
  · cases (hr l.location).symm.trans h
  · exact ⟨kind, hk, Except.error.inj (h.symm.trans (hr l.location))⟩

variable {l l' : SourceLine}

/-- Of two lines with the same text both give a declaration, which differs in its location at most, or none does. -/
theorem SourceLine.rel_declaration? {R : Declaration → Declaration → Prop} (ht : l'.text = l.text)
    (hR : ∀ d : Declaration, R { d with location := l.location } { d with location := l'.location }) :
    Option.Rel R l.outcome.declaration? l'.outcome.declaration? := by
  obtain ⟨text, location⟩ := l
  obtain ⟨text', location'⟩ := l'
  cases ht
  rcases result_cases text with ⟨d, -, hr⟩ | ⟨kind, -, hr⟩
  · simp only [LineOutcome.declaration?, hr]
    exact .some (hR d)
  · simp only [LineOutcome.declaration?, hr]
    exact .none

/-- Of two lines with the same text both give a diagnostic, which differs in its location at most, or none does. -/
theorem SourceLine.rel_diagnostic? {R : Diagnostic → Diagnostic → Prop} (ht : l'.text = l.text)
    (hR : ∀ kind, R (.ofLine kind l.text l.location) (.ofLine kind l.text l'.location)) :
    Option.Rel R l.outcome.diagnostic? l'.outcome.diagnostic? := by
  obtain ⟨text, location⟩ := l
  obtain ⟨text', location'⟩ := l'
  cases ht
  rcases result_cases text with ⟨d, -, hr⟩ | ⟨kind, -, hr⟩
  · simp only [LineOutcome.diagnostic?, hr]
    exact .none
  · simp only [LineOutcome.diagnostic?, hr]
    exact .some (hR kind)

end Line

/-! ## All lines -/

section Lines

/-- The output for a text with source lines is made of their results. -/
theorem generate_of_ne_nil {raw : List Char} (className : Option (List Char)) (h : sourceLines raw ≠ []) :
    generate raw className = .ofDeclarations (className.bind trim?)
      ((sourceLines raw).filterMap (·.outcome.declaration?)) ((sourceLines raw).filterMap (·.outcome.diagnostic?)) := by
  have hne : ((sourceLines raw).map (·.outcome)).isEmpty = false := by simpa using h
  simp only [generate, generateLogged, hne, List.filterMap_map, Bool.false_eq_true, if_false]
  rfl

/-- The output for a text without source lines is the error that says so. -/
theorem generate_of_eq_nil {raw : List Char} (className : Option (List Char)) (h : sourceLines raw = []) :
    generate raw className = .ofDeclarations (className.bind trim?) [] [.emptyInput] := by
  simp [generate, generateLogged, h]

/-- The class has no say in the declarations and diagnostics of a text: those for another class make up the output. -/
theorem generate_eq_ofDeclarations (raw : List Char) (className other : Option (List Char)) :
    generate raw className = .ofDeclarations (className.bind trim?) (generate raw other).declarations
      (generate raw other).diagnostics := by
  by_cases h : sourceLines raw = []
  · rw [generate_of_eq_nil className h, generate_of_eq_nil other h]
    rfl
  · rw [generate_of_ne_nil className h, generate_of_ne_nil other h]
    rfl

/-- A diagnostic of a text with source lines is a warning about one of them. -/
theorem mem_diagnostics_of_ne_nil {raw : List Char} {className : Option (List Char)} (h : sourceLines raw ≠ [])
    {e : Diagnostic} (he : e ∈ (generate raw className).diagnostics) :
    ∃ l ∈ sourceLines raw, ∃ kind, kind ≠ .emptyInput ∧ e = .ofLine kind l.text l.location := by
  rw [generate_of_ne_nil className h] at he
  obtain ⟨l, hl, hd⟩ := List.mem_filterMap.mp he
  refine ⟨l, hl, l.error_eq ?_⟩
  unfold LineOutcome.diagnostic? at hd
  split at hd
  · cases hd
  · rename_i e' hr
    cases hd
    exact hr

end Lines

/-! ## Declarations that say the same -/

/-- Two declarations that differ at most in where they stand, how they are written and how long an array is. -/
structure Declaration.SameCode (d d' : Declaration) : Prop where
  dataType_eq : d.dataType = d'.dataType
  variableName_eq : d.variableName = d'.variableName
  isPointer_eq : d.isPointer = d'.isPointer
  category_eq : d.category = d'.category
  meaningfulName_eq : d.meaningfulName = d'.meaningfulName
  capitalizedName_eq : d.capitalizedName = d'.capitalizedName
  paramPrefix_eq : d.paramPrefix = d'.paramPrefix

section SameCode

/-- Declarations that say the same have the same accessors. -/
theorem Declaration.SameCode.accessors_eq {d d' : Declaration} (h : d.SameCode d') (scope : Scope) :
    d.accessors scope = d'.accessors scope := by
  obtain ⟨⟨location, rawLine, dataType, variableName, isPointer, arraySize⟩, meaningful, capitalized, category, p⟩ := d
  obtain ⟨rfl, rfl, rfl, rfl, rfl, rfl, rfl⟩ := h
  rfl

/-- Declarations that say the same have the same initializer. -/
theorem Declaration.SameCode.initializer_eq {d d' : Declaration} (h : d.SameCode d') :
    d.initializer = d'.initializer := by
  unfold Declaration.initializer
  rw [h.category_eq, h.variableName_eq]

/-- Elements in the same order make up the same text if each gives the same. -/
theorem flatMap_eq_of_forall₂ {α : Type} {R : α → α → Prop} {f : α → List Char} {xs ys : List α}
    (h : List.Forall₂ R xs ys) (hf : ∀ x y, R x y → f x = f y) : xs.flatMap f = ys.flatMap f := by
  induction h with
  | nil => rfl
  | cons hx _ ih => rw [List.flatMap_cons, List.flatMap_cons, hf _ _ hx, ih]

/-- Declarations that say the same, one by one, make up the same texts. -/
theorem Generated.ofDeclarations_texts_eq (className : Option (List Char)) {ds ds' : List Declaration}
    (h : List.Forall₂ Declaration.SameCode ds ds') (es es' : List Diagnostic) :
    (ofDeclarations className ds es).accessors = (ofDeclarations className ds' es').accessors ∧
      (ofDeclarations className ds es).inline = (ofDeclarations className ds' es').inline ∧
      (ofDeclarations className ds es).initializers = (ofDeclarations className ds' es').initializers := by
  have hacc := fun scope => flatMap_eq_of_forall₂ h fun _ _ hd => hd.accessors_eq scope
  refine ⟨hacc .outOfLine, ?_, flatMap_eq_of_forall₂ h fun _ _ hd => hd.initializer_eq⟩
  cases className with
  | none => rfl
  | some c => exact congrArg InlineOutput.scoped (hacc (.inline c))

end SameCode

end AccessorGen
