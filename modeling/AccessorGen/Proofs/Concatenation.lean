import AccessorGen.Proofs.Outcome
import AccessorGen.Proofs.SourceLines

/-!
# Two texts together

What two texts with a line feed between them give is what each of them gives, one after the other: no line has a say
in what another gives, and a text that is blank leaves no trace beside one that is not (`generate_append`).

The source lines of the second text are moved (`sourceLines_append`), a moved line gives a moved result
(`SourceLine.Moved.declaration?`, `SourceLine.Moved.diagnostic?`), and code does not depend on places
(`Declaration.Moved.sameCode`).
-/

namespace AccessorGen

open Text

variable {lines bytes : Nat}

/-! ## Moved results -/

/-- The second declaration is the first, `lines` further down and `bytes` further on. -/
structure Declaration.Moved (lines bytes : Nat) (d d' : Declaration) : Prop where
  location : d.location.Moved lines bytes d'.location
  eq_with : d' = { d with location := d'.location }

/-- The second diagnostic is the first, `lines` further down and `bytes` further on. -/
structure Diagnostic.Moved (lines bytes : Nat) (e e' : Diagnostic) : Prop where
  location : ∃ l l', e.location = some l ∧ e'.location = some l' ∧ l.Moved lines bytes l'
  eq_with : e' = { e with location := e'.location }

section Results

/-- A declaration says the same wherever it stands. -/
theorem Declaration.Moved.sameCode {d d' : Declaration} (h : d.Moved lines bytes d') : d.SameCode d' := by
  rw [h.eq_with]
  exact ⟨rfl, rfl, rfl, rfl, rfl, rfl, rfl⟩

variable {l l' : SourceLine}

/-- A moved line gives the declaration of the line, moved. -/
theorem SourceLine.Moved.declaration? (h : l.Moved lines bytes l') :
    Option.Rel (Declaration.Moved lines bytes) l.outcome.declaration? l'.outcome.declaration? := by
  apply rel_declaration? h.text_eq
  intro d
  exact ⟨h.location, rfl⟩

/-- A moved line gives the diagnostic of the line, moved. -/
theorem SourceLine.Moved.diagnostic? (h : l.Moved lines bytes l') :
    Option.Rel (Diagnostic.Moved lines bytes) l.outcome.diagnostic? l'.outcome.diagnostic? := by
  apply rel_diagnostic? h.text_eq
  intro kind
  exact ⟨⟨l.location, l'.location, rfl, rfl, h.location⟩, rfl⟩

end Results

/-! ## Outputs -/

/-- Inline accessors one after the other, or skipped both times. -/
inductive InlineOutput.Appended : InlineOutput → InlineOutput → InlineOutput → Prop
  | skipped : Appended .skipped .skipped .skipped
  | scoped (s t : List Char) : Appended (.scoped s) (.scoped t) (.scoped (s ++ t))

/-- The second output is the first with its results `lines` further down and `bytes` further on. -/
structure Generated.Moved (lines bytes : Nat) (g g' : Generated) : Prop where
  accessors_eq : g'.accessors = g.accessors
  inline_eq : g'.inline = g.inline
  initializers_eq : g'.initializers = g.initializers
  declarations : List.Forall₂ (Declaration.Moved lines bytes) g.declarations g'.declarations
  diagnostics : List.Forall₂ (Diagnostic.Moved lines bytes) g.diagnostics g'.diagnostics

/-- The third output is the first and then the second, with its results `lines` further down and `bytes` further
on. -/
structure Generated.Appended (lines bytes : Nat) (g₁ g₂ g : Generated) : Prop where
  accessors_eq : g.accessors = g₁.accessors ++ g₂.accessors
  inline : g₁.inline.Appended g₂.inline g.inline
  initializers_eq : g.initializers = g₁.initializers ++ g₂.initializers
  declarations : ∃ ds, g.declarations = g₁.declarations ++ ds ∧
    List.Forall₂ (Declaration.Moved lines bytes) g₂.declarations ds
  diagnostics : ∃ es, g.diagnostics = g₁.diagnostics ++ es ∧
    List.Forall₂ (Diagnostic.Moved lines bytes) g₂.diagnostics es

section Outputs

variable (className : Option (List Char))

/-- Moved results make up a moved output. -/
theorem Generated.ofDeclarations_moved {ds ds' : List Declaration} {es es' : List Diagnostic}
    (hd : List.Forall₂ (Declaration.Moved lines bytes) ds ds')
    (he : List.Forall₂ (Diagnostic.Moved lines bytes) es es') :
    (ofDeclarations className ds es).Moved lines bytes (ofDeclarations className ds' es') := by
  obtain ⟨hacc, hinl, hini⟩ := ofDeclarations_texts_eq className (hd.imp fun _ _ h => h.sameCode) es es'
  exact ⟨hacc.symm, hinl.symm, hini.symm, hd, he⟩

/-- Results followed by moved results make up both outputs, one after the other. -/
theorem Generated.ofDeclarations_appended {ds₁ ds ds' : List Declaration} {es₁ es es' : List Diagnostic}
    (hd : List.Forall₂ (Declaration.Moved lines bytes) ds ds')
    (he : List.Forall₂ (Diagnostic.Moved lines bytes) es es') :
    Appended lines bytes (ofDeclarations className ds₁ es₁) (ofDeclarations className ds es)
      (ofDeclarations className (ds₁ ++ ds') (es₁ ++ es')) := by
  have h := ofDeclarations_moved className hd he
  refine ⟨?_, ?_, ?_, ⟨ds', rfl, hd⟩, ⟨es', rfl, he⟩⟩
  · rw [← h.accessors_eq]
    exact List.flatMap_append
  · rw [← h.inline_eq]
    cases className with
    | none => exact .skipped
    | some c =>
      simp only [ofDeclarations, List.flatMap_append]
      exact .scoped _ _
  · rw [← h.initializers_eq]
    exact List.flatMap_append

end Outputs

/-! ## Two texts -/

section TwoTexts

/-- A text with a character that is not blank has a source line. -/
theorem sourceLines_ne_nil {s : List Char} (h : ∃ c ∈ s, ¬ isBlank c) : sourceLines s ≠ [] := by
  obtain ⟨c, hc, hb⟩ := h
  exact fun hn => hb (sourceLines_eq_nil_iff.mp hn c hc)

/-- A text with source lines is not called empty. -/
theorem kind_ne_emptyInput {s : List Char} {className : Option (List Char)} (h : sourceLines s ≠ []) :
    ∀ e ∈ (generate s className).diagnostics, e.kind ≠ .emptyInput := by
  intro e he
  obtain ⟨l, -, kind, hk, rfl⟩ := mem_diagnostics_of_ne_nil h he
  exact hk

/-- **Two texts together** give what each of them gives, the second moved by the lines and bytes of the first and the
line feed. A blank text adds nothing to one that is not. -/
theorem generate_append (a b : List Char) (className : Option (List Char))
    (h : byteLength (a ++ '\n' :: b) < 2 ^ 32) :
    ((∃ c ∈ a, ¬ isBlank c) → (∃ c ∈ b, ¬ isBlank c) →
        Generated.Appended (a.count '\n' + 1) (byteLength a + 1) (generate a className) (generate b className)
          (generate (a ++ '\n' :: b) className)) ∧
      ((∀ c ∈ a, isBlank c) → (∃ c ∈ b, ¬ isBlank c) →
        (generate b className).Moved (a.count '\n' + 1) (byteLength a + 1) (generate (a ++ '\n' :: b) className) ∧
          ∀ e ∈ (generate (a ++ '\n' :: b) className).diagnostics, e.kind ≠ .emptyInput) ∧
      ((∃ c ∈ a, ¬ isBlank c) → (∀ c ∈ b, isBlank c) →
        generate (a ++ '\n' :: b) className = generate a className ∧
          ∀ e ∈ (generate (a ++ '\n' :: b) className).diagnostics, e.kind ≠ .emptyInput) := by
  obtain ⟨later, hlines, hmoved⟩ := sourceLines_append h
  have hds := List.rel_filterMap (fun _ _ hl => hl.declaration?) hmoved
  have hes := List.rel_filterMap (fun _ _ hl => hl.diagnostic?) hmoved
  refine ⟨?_, ?_, ?_⟩
  · intro ha hb
    have ha := sourceLines_ne_nil ha
    have hb := sourceLines_ne_nil hb
    have hab : sourceLines (a ++ '\n' :: b) ≠ [] := by simp [hlines, ha]
    rw [generate_of_ne_nil className ha, generate_of_ne_nil className hb, generate_of_ne_nil className hab, hlines,
      List.filterMap_append, List.filterMap_append]
    exact Generated.ofDeclarations_appended _ hds hes
  · -- all source lines are those of the second text
    intro ha hb
    have ha := sourceLines_eq_nil_iff.mpr ha
    have hb := sourceLines_ne_nil hb
    rw [ha, List.nil_append] at hlines
    have hab : sourceLines (a ++ '\n' :: b) ≠ [] := by
      rw [hlines]
      rintro rfl
      exact hb (List.forall₂_nil_right_iff.mp hmoved)
    refine ⟨?_, kind_ne_emptyInput hab⟩
    rw [generate_of_ne_nil className hb, generate_of_ne_nil className hab, hlines]
    exact Generated.ofDeclarations_moved _ hds hes
  · -- all source lines are those of the first text
    intro ha hb
    have ha := sourceLines_ne_nil ha
    have hb := sourceLines_eq_nil_iff.mpr hb
    rw [hb, List.forall₂_nil_left_iff] at hmoved
    rw [hmoved, List.append_nil] at hlines
    have hab : sourceLines (a ++ '\n' :: b) ≠ [] := by
      rw [hlines]
      exact ha
    refine ⟨?_, kind_ne_emptyInput hab⟩
    rw [generate_of_ne_nil className ha, generate_of_ne_nil className hab, hlines]

/-- A text after another, and one after and one before a blank text. -/
theorem generate_append_samples :
    byteLength ("int a_b;\n bad".toList ++ '\n' :: "bool mb_On;".toList) < 2 ^ 32 ∧
      Generated.Appended 2 14 (generate "int a_b;\n bad".toList none) (generate "bool mb_On;".toList none)
        (generate ("int a_b;\n bad".toList ++ '\n' :: "bool mb_On;".toList) none) ∧
      (generate "bad".toList none).Moved 2 5 (generate ("\n\u3000".toList ++ '\n' :: "bad".toList) none) ∧
      generate ("bad".toList ++ '\n' :: "\t".toList) none = generate "bad".toList none := by
  refine ⟨by decide, ?_, ?_, ?_⟩
  · have h := generate_append "int a_b;\n bad".toList "bool mb_On;".toList none (by decide)
    exact h.1 ⟨'i', by decide, by decide⟩ ⟨'b', by decide, by decide⟩
  · have h := generate_append "\n\u3000".toList "bad".toList none (by decide)
    exact (h.2.1 (List.all_eq_true.mp (by decide)) ⟨'b', by decide, by decide⟩).1
  · have h := generate_append "bad".toList "\t".toList none (by decide)
    exact (h.2.2 ⟨'b', by decide, by decide⟩ (List.all_eq_true.mp (by decide))).1

end TwoTexts

end AccessorGen
