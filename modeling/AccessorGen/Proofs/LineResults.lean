import AccessorGen.Proofs.Outcome
import AccessorGen.Proofs.SourceLines
import Mathlib.Data.List.Nodup

/-!
# One result for every line

The declarations and the diagnostics of a text, merged by their lines (`Generated.results`), are one result for each
line that is not blank, in order, and each of them stands where its line does (`generate_results`).

A list whose lines grow is what merging gives back after its declarations and diagnostics were taken apart
(`merge_filter`), so it is enough to look at the results of the source lines in order.
-/

namespace AccessorGen

open Text

/-! ## Results -/

/-- Where a result stands. -/
def locationOf? : Except Diagnostic Declaration → Option Location
  | .ok d => some d.location
  | .error e => e.location

/-- The line of a result, which is 0 if it stands nowhere. -/
def lineOf (r : Except Diagnostic Declaration) : Nat :=
  ((locationOf? r).map (·.line.toNat)).getD 0

/-- The declarations and diagnostics, merged by their lines. -/
def Generated.results (g : Generated) : List (Except Diagnostic Declaration) :=
  (g.declarations.map .ok).merge (g.diagnostics.map .error) (lineOf · ≤ lineOf ·)

/-- The result is one of the line with the given number and text: it has that number, its span shows the text in
`raw`, and it holds the text. -/
structure IsResultOf (raw : List Char) (line : Nat × List Char) (r : Except Diagnostic Declaration) : Prop where
  located : ∃ location, locationOf? r = some location ∧ location.line.toNat = line.1 ∧
    location.span.start < location.span.stop ∧ location.span.stop.toNat ≤ byteLength raw ∧
    location.span.Shows raw line.2
  declaration : ∀ d, r = .ok d → d.rawLine = line.2
  diagnostic : ∀ e, r = .error e →
    e.severity = .warning ∧ e.kind ≠ .emptyInput ∧ ['"'] ++ line.2 ++ ['"'] <:+: e.message

/-- A result of a line has the number of the line. -/
theorem IsResultOf.lineOf_eq {raw : List Char} {line : Nat × List Char} {r : Except Diagnostic Declaration}
    (h : IsResultOf raw line r) : lineOf r = line.1 := by
  obtain ⟨location, hl, hn, -⟩ := h.located
  simp [lineOf, hl, hn]

/-- The message of every kind but one quotes the line. -/
theorem quoted_infix_message {kind : Diagnostic.Kind} (h : kind ≠ .emptyInput) (line : List Char) :
    ['"'] ++ line ++ ['"'] <:+: kind.message line := by
  obtain ⟨wording, -, hm⟩ := exists_message_eq h line
  refine ⟨wording, [], ?_⟩
  simp only [hm, List.append_assoc, List.append_nil]

/-- A source line gives a result of its line. -/
theorem SourceLine.IsAt.isResultOf {raw : List Char} {line : Nat × List Char} {l : SourceLine} (h : l.IsAt raw line) :
    IsResultOf raw line l.outcome.result := by
  obtain ⟨text, location⟩ := l
  obtain ⟨rfl, hne, hn, hs⟩ := h
  obtain ⟨hlt, hle⟩ := hs.bounds hne
  rcases result_cases line.2 with ⟨d, hd, hr⟩ | ⟨kind, hk, hr⟩
  · rw [hr]
    refine ⟨⟨location, rfl, hn, hlt, hle, hs⟩, ?_, fun e he => by cases he⟩
    intro d' hd'
    cases hd'
    exact hd
  · rw [hr]
    refine ⟨⟨location, rfl, hn, hlt, hle, hs⟩, fun d hd => (by cases hd), ?_⟩
    intro e he
    cases he
    exact ⟨rfl, hk, quoted_infix_message hk line.2⟩

/-- The results of the source lines, in order, are those of the numbered lines. -/
theorem map_result_forall₂ {raw : List Char} (h : byteLength raw < 2 ^ 32) :
    List.Forall₂ (IsResultOf raw) (numberedLines raw) ((sourceLines raw).map (·.outcome.result)) :=
  List.forall₂_map_right_iff.mpr ((sourceLines_forall₂ h).imp fun _ _ hl => hl.isResultOf)

/-- The lines of the results of a text grow. -/
theorem map_result_pairwise {raw : List Char} (h : byteLength raw < 2 ^ 32) :
    ((sourceLines raw).map (·.outcome.result)).Pairwise (lineOf · < lineOf ·) := by
  have he : (numberedLines raw).map (·.1) = ((sourceLines raw).map (·.outcome.result)).map lineOf := by
    rw [← List.forall₂_eq_eq_eq, List.forall₂_map_left_iff, List.forall₂_map_right_iff]
    exact (map_result_forall₂ h).imp fun _ _ hr => hr.lineOf_eq.symm
  have hp := numberedLines_pairwise raw
  rwa [← List.pairwise_map, he, List.pairwise_map] at hp

/-! ## Merging -/

section Merging

/-- Merging undoes taking a list apart if its elements grow. -/
theorem merge_filter {α : Type} (key : α → Nat) (p : α → Bool) : ∀ l : List α, l.Pairwise (key · < key ·) →
    (l.filter p).merge (l.filter (! p ·)) (key · ≤ key ·) = l
  | [], _ => by simp
  | x :: l, h => by
    obtain ⟨hx, hl⟩ := List.pairwise_cons.mp h
    have ih := merge_filter key p l hl
    by_cases hp : p x
    · rw [List.filter_cons_of_pos hp, List.filter_cons_of_neg (by simp [hp])]
      cases hf : l.filter (! p ·) with
      | nil =>
        rw [hf, List.merge_right] at ih
        rw [List.merge_right, ih]
      | cons y ys =>
        have hy : key x < key y := hx y (List.mem_of_mem_filter (hf ▸ List.mem_cons_self))
        rw [List.cons_merge_cons, if_pos (by simpa using Nat.le_of_lt hy), ← hf, ih]
    · rw [List.filter_cons_of_neg hp, List.filter_cons_of_pos (by simp [hp])]
      cases hf : l.filter p with
      | nil =>
        rw [hf, List.nil_merge] at ih
        rw [List.nil_merge, ih]
      | cons y ys =>
        have hy : key x < key y := hx y (List.mem_of_mem_filter (hf ▸ List.mem_cons_self))
        rw [List.cons_merge_cons, if_neg (by simpa using hy), ← hf, ih]

/-- A result is a declaration. -/
def isDeclaration : Except Diagnostic Declaration → Bool
  | .ok _ => true
  | .error _ => false

/-- The declarations of source lines are those among their results. -/
theorem map_ok_filterMap : ∀ ls : List SourceLine,
    (ls.filterMap (·.outcome.declaration?)).map .ok = (ls.map (·.outcome.result)).filter isDeclaration
  | [] => rfl
  | l :: ls => by
    have ih := map_ok_filterMap ls
    rw [List.map_cons, List.filterMap_cons, LineOutcome.declaration?]
    cases l.outcome.result with
    | ok d => rw [List.filter_cons_of_pos rfl, ← ih, List.map_cons]
    | error e => rw [List.filter_cons_of_neg (by simp [isDeclaration]), ih]

/-- The diagnostics of source lines are those among their results. -/
theorem map_error_filterMap : ∀ ls : List SourceLine,
    (ls.filterMap (·.outcome.diagnostic?)).map .error = (ls.map (·.outcome.result)).filter (! isDeclaration ·)
  | [] => rfl
  | l :: ls => by
    have ih := map_error_filterMap ls
    rw [List.map_cons, List.filterMap_cons, LineOutcome.diagnostic?]
    cases l.outcome.result with
    | ok d => rw [List.filter_cons_of_neg (by simp [isDeclaration]), ih]
    | error e => rw [List.filter_cons_of_pos rfl, ← ih, List.map_cons]

/-- The declarations and diagnostics of a text are the results of its source lines, merged. -/
theorem results_generate {raw : List Char} (className : Option (List Char)) (h : byteLength raw < 2 ^ 32)
    (hne : sourceLines raw ≠ []) :
    (generate raw className).results = (sourceLines raw).map (·.outcome.result) := by
  rw [generate_of_ne_nil className hne]
  simp only [Generated.results, Generated.ofDeclarations, map_ok_filterMap, map_error_filterMap]
  exact merge_filter lineOf isDeclaration _ (map_result_pairwise h)

end Merging

/-! ## The results of a text -/

section Text

variable {raw : List Char} (className : Option (List Char))

/-- The numbered lines of a text and its source lines are there or missing together. -/
theorem numberedLines_eq_nil_iff (h : byteLength raw < 2 ^ 32) : numberedLines raw = [] ↔ sourceLines raw = [] := by
  have hl := (sourceLines_forall₂ h).length_eq
  rw [← List.length_eq_zero_iff, hl, List.length_eq_zero_iff]

/-- The declarations of a text are among the results of its source lines. -/
theorem ok_sublist (hne : sourceLines raw ≠ []) :
    List.Sublist ((generate raw className).declarations.map .ok) ((sourceLines raw).map (·.outcome.result)) := by
  rw [generate_of_ne_nil className hne]
  simp only [Generated.ofDeclarations, map_ok_filterMap]
  exact List.filter_sublist

/-- The diagnostics of a text are among the results of its source lines. -/
theorem error_sublist (hne : sourceLines raw ≠ []) :
    List.Sublist ((generate raw className).diagnostics.map .error) ((sourceLines raw).map (·.outcome.result)) := by
  rw [generate_of_ne_nil className hne]
  simp only [Generated.ofDeclarations, map_error_filterMap]
  exact List.filter_sublist

/-- No line gives both a declaration and a diagnostic. -/
theorem lineOf_ne (h : byteLength raw < 2 ^ 32) (hne : sourceLines raw ≠ []) {d : Declaration} {e : Diagnostic}
    (hd : d ∈ (generate raw className).declarations) (he : e ∈ (generate raw className).diagnostics) :
    lineOf (.ok d) ≠ lineOf (.error e) := by
  have hp := map_result_pairwise h
  rw [← List.pairwise_map] at hp
  have hnd : (((sourceLines raw).map (·.outcome.result)).map lineOf).Nodup := hp.imp Nat.ne_of_lt
  have hd' := (ok_sublist className hne).subset (List.mem_map_of_mem hd)
  have he' := (error_sublist className hne).subset (List.mem_map_of_mem he)
  intro heq
  cases List.inj_on_of_nodup_map hnd hd' he' heq

/-- A text has an error exactly if it is blank. -/
theorem hasErrors_generate_iff : (generate raw className).hasErrors = true ↔ ∀ c ∈ raw, isBlank c := by
  rw [← sourceLines_eq_nil_iff]
  constructor
  · intro h
    by_contra hne
    obtain ⟨e, he, herr⟩ := List.any_eq_true.mp h
    obtain ⟨l, -, kind, -, rfl⟩ := mem_diagnostics_of_ne_nil hne he
    cases herr
  · intro h
    rw [generate_of_eq_nil className h]
    rfl

/-- **One result for every line**: a text without lines gives nothing but an error. Otherwise its declarations and
its diagnostics grow in their lines and have none in common, and merged by line they are one result for each line
that is not blank. -/
theorem generate_results (raw : List Char) (className : Option (List Char)) (h : byteLength raw < 2 ^ 32) :
    (numberedLines raw = [] →
        (generate raw className).declarations = [] ∧ (generate raw className).accessors = [] ∧
        (generate raw className).initializers = [] ∧ (generate raw className).diagnostics = [.emptyInput]) ∧
      (numberedLines raw ≠ [] →
        ((generate raw className).declarations.map (lineOf ∘ .ok)).Pairwise (· < ·) ∧
        ((generate raw className).diagnostics.map (lineOf ∘ .error)).Pairwise (· < ·) ∧
        (∀ d ∈ (generate raw className).declarations, ∀ e ∈ (generate raw className).diagnostics,
          lineOf (.ok d) ≠ lineOf (.error e)) ∧
        List.Forall₂ (IsResultOf raw) (numberedLines raw) (generate raw className).results) ∧
      ((generate raw className).hasErrors = true ↔ ∀ c ∈ raw, isBlank c) := by
  refine ⟨?_, ?_, hasErrors_generate_iff className⟩
  · intro hnil
    rw [generate_of_eq_nil className ((numberedLines_eq_nil_iff h).mp hnil)]
    exact ⟨rfl, rfl, rfl, rfl⟩
  · intro hne
    have hne' : sourceLines raw ≠ [] := fun hnil => hne ((numberedLines_eq_nil_iff h).mpr hnil)
    have hp := map_result_pairwise h
    refine ⟨?_, ?_, fun d hd e he => lineOf_ne className h hne' hd he, ?_⟩
    · rw [← List.map_map, List.pairwise_map]
      exact hp.sublist (ok_sublist className hne')
    · rw [← List.map_map, List.pairwise_map]
      exact hp.sublist (error_sublist className hne')
    · rw [results_generate className h hne']
      exact map_result_forall₂ h

/-- A line in blanks of several bytes, after an empty one and one that ends in a carriage return. -/
theorem generate_results_blanks :
    byteLength "  int a_b;\r\n\n\u3000bad\u00A0".toList < 2 ^ 32 ∧
      List.Forall₂ (IsResultOf "  int a_b;\r\n\n\u3000bad\u00A0".toList)
        [(1, "int a_b;".toList), (3, "bad".toList)]
        (generate "  int a_b;\r\n\n\u3000bad\u00A0".toList none).results := by
  have hl : numberedLines "  int a_b;\r\n\n\u3000bad\u00A0".toList = [(1, "int a_b;".toList), (3, "bad".toList)] := by
    decide
  have hb : byteLength "  int a_b;\r\n\n\u3000bad\u00A0".toList < 2 ^ 32 := by decide
  have h := (generate_results _ none hb).2.1 (by rw [hl]; exact List.cons_ne_nil _ _)
  rw [hl] at h
  exact ⟨hb, h.2.2.2⟩

end Text

end AccessorGen
