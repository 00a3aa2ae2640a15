import AccessorGen.Proofs.Toml.Document

/-!
# Documents in sections

A section is a run of lines, each an entry with a string or empty (`Section`). An entry says how its key and its
string are written, in forms that fit them (`WrittenEntry`).

- Every line is read the same wherever it stands, also at the end of a text, where no line feed need follow it
  (`Stands`);
- hence lines joined by line feeds are read as their statements, less what an empty last line says (`parse_joined`);
- a section in front of all headers gives the entries of the document, and one below the header of a new table those
  of the table (`build_section`, `build_table`).
-/

namespace AccessorGen.Toml

/-! ## Entries as they are written -/

section Written

/-- The forms in which a key is written. -/
inductive KeyForm where
  | bare
  | basic
  | literal
  deriving DecidableEq, Repr

namespace KeyForm

/-- The key can be written in the form. -/
def Fits (k : Key) : KeyForm → Prop
  | bare => IsBareKey k
  | basic => True
  | literal => StringForm.literalLine.Fits k

instance (k : Key) : (form : KeyForm) → Decidable (form.Fits k)
  | .bare => inferInstanceAs (Decidable (IsBareKey k))
  | .basic => inferInstanceAs (Decidable True)
  | .literal => inferInstanceAs (Decidable (StringForm.literalLine.Fits k))

/-- A key in a given form. -/
def write (k : Key) : KeyForm → List Char
  | bare => k
  | basic => StringForm.basicLine.write k
  | literal => StringForm.literalLine.write k

theorem isKeyText {k : Key} : ∀ {form : KeyForm}, form.Fits k → IsKeyText (form.write k) k
  | bare, h => IsBareKey.isKeyText h
  | basic, _ => isKeyText_basicLine k
  | literal, h => isKeyText_literalLine h

end KeyForm

/-- An entry with a string, and how its key and its string are written. -/
structure WrittenEntry where
  key : Key
  keyForm : KeyForm := .bare
  value : List Char
  form : StringForm := .basicLine
  keyFits : keyForm.Fits key := by decide
  fits : form.Fits value := by decide

/-- The line of an entry. -/
def WrittenEntry.line (e : WrittenEntry) : List Char :=
  e.keyForm.write e.key ++ " = ".toList ++ e.form.write e.value

/-- Lines that hold an entry or nothing. -/
abbrev Section :=
  List (Option WrittenEntry)

namespace Section

/-- A line of a section, and what it says. -/
def lineOf : Option WrittenEntry → List Char × Statement
  | none => ([], .blank)
  | some e => (e.line, .entry [] e.key (.string e.value))

/-- The keys of a section with their strings. -/
def entries (lines : Section) : List (Key × List Char) :=
  lines.filterMap (·.map fun e => (e.key, e.value))

/-- The entries that a table gets from a section. -/
def values (lines : Section) : Entries :=
  lines.entries.map fun e => (e.1, .string e.2)

@[simp] theorem map_values (lines : Section) : lines.values.map (·.1) = lines.entries.map (·.1) := by
  simp [values]

theorem lookup_values (k : Key) (lines : Section) :
    lines.values.lookup k = (lines.entries.lookup k).map Value.string := by
  unfold values
  induction lines.entries with
  | nil => rfl
  | cons e entries ih =>
    rw [List.map_cons, List.lookup_cons, List.lookup_cons, ih]
    split
    · rfl
    · rfl

end Section

end Written

/-! ## Lines that may be the last -/

section Joined

/-- The line holds the statement wherever it stands: in front of others, at the end of a text, and at its start, where
it is not taken for a byte order mark. -/
structure Stands (line : List Char) (st : Statement) : Prop where
  isLine : IsLine line st
  last : ∃ t, statement line = some (st, t) ∧ endLine t = some []
  start : line.head? ≠ some '\uFEFF'

theorem stands_nil : Stands [] .blank :=
  ⟨isLine_nil, ⟨[], rfl, rfl⟩, by simp⟩

theorem IsKeyText.head?_append_ne {text : List Char} {k : Key} (hk : IsKeyText text k) (rest : List Char) :
    (text ++ rest).head? ≠ some '\uFEFF' := by
  obtain ⟨c, t, hct, hc⟩ := hk.exists_append_eq rest
  rw [hct, List.head?_cons]
  exact fun h => ne_of_isKeyStart hc (by decide) (Option.some.inj h)

theorem WrittenEntry.stands (e : WrittenEntry) : Stands e.line (.entry [] e.key (.string e.value)) := by
  have hk := KeyForm.isKeyText e.keyFits
  have hread : quoted (e.form.write e.value) = some (e.value, []) := by
    have hnil : quoted (e.form.write e.value ++ []) = some (e.value, []) := quoted_write e.fits (by simp) (by simp)
    rwa [List.append_nil] at hnil
  refine ⟨isLine_entry hk e.fits, ⟨[], statement_entry hk (head?_write e.value e.form) hread, rfl⟩, ?_⟩
  rw [WrittenEntry.line, List.append_assoc]
  exact hk.head?_append_ne _

theorem Section.stands_lineOf : ∀ line, Stands (lineOf line).1 (lineOf line).2
  | none => stands_nil
  | some e => e.stands

theorem stands_table {k : Key} (hk : IsBareKey k) : Stands ('[' :: k ++ [']']) (.table [] k) :=
  ⟨isLine_table hk, ⟨[], statement_table hk.isKeyText [], rfl⟩, by simp⟩

/-- A text of one line that is not empty. -/
theorem statements_last {line : List Char} {st : Statement} (h : Stands line st) (hne : line ≠ []) :
    statements line = some [st] := by
  obtain ⟨t, hst, hend⟩ := h.last
  obtain ⟨c, s, rfl⟩ := List.exists_cons_of_ne_nil hne
  have hnil : statementsWithin s.length [] = some [] := by simp [statementsWithin]
  unfold statements
  rw [List.length_cons, statementsWithin]
  · simp [hst, hend, hnil]
  · simp

/-- **Lines joined by line feeds are read as their statements**, but for an empty last line, which says nothing
anyway. -/
theorem exists_statements_joined : ∀ lines : List (List Char × Statement), (∀ l ∈ lines, Stands l.1 l.2) →
    ∃ sts, statements (['\n'].intercalate (lines.map (·.1))) = some sts ∧
      ∀ d, sts.foldlM Document.add d = (lines.map (·.2)).foldlM Document.add d
  | [], _ => ⟨[], rfl, fun _ => rfl⟩
  | [(line, st)], h => by
    have hline : Stands line st := h _ List.mem_cons_self
    rw [List.map_singleton, List.intercalate_singleton]
    by_cases hne : line = []
    · -- behind the last line feed nothing is read, and an empty line would say nothing
      subst hne
      obtain ⟨t, hst, -⟩ := hline.last
      obtain ⟨rfl, -⟩ : Statement.blank = st ∧ [] = t := by simpa [statement, skipSpace] using hst
      exact ⟨[], rfl, fun _ => rfl⟩
    · exact ⟨[st], statements_last hline hne, fun _ => rfl⟩
  | (line, st) :: l :: lines, h => by
    obtain ⟨hline, hlines⟩ := List.forall_mem_cons.mp h
    obtain ⟨sts, hread, hadd⟩ := exists_statements_joined (l :: lines) hlines
    refine ⟨st :: sts, ?_, ?_⟩
    · rw [List.map_cons, List.map_cons, List.intercalate_cons_cons, List.append_assoc, List.singleton_append]
      exact statements_line hline.isLine hread
    · intro d
      rw [List.map_cons, List.foldlM_cons, List.foldlM_cons]
      simp only [hadd]

theorem dropByteOrderMark_eq_self {s : List Char} (h : s.head? ≠ some '\uFEFF') : dropByteOrderMark s = s := by
  unfold dropByteOrderMark
  split
  · exact absurd rfl h
  · rfl

theorem head?_joined_ne : ∀ {lines : List (List Char × Statement)}, (∀ l ∈ lines, Stands l.1 l.2) →
    (['\n'].intercalate (lines.map (·.1))).head? ≠ some '\uFEFF'
  | [], _ => by simp
  | [l], h => by
    rw [List.map_singleton, List.intercalate_singleton]
    exact (h l List.mem_cons_self).start
  | l :: m :: lines, h => by
    have hstart := (h l List.mem_cons_self).start
    rw [List.map_cons, List.map_cons, List.intercalate_cons_cons, List.append_assoc, List.head?_append]
    cases hl : l.1.head? with
    | none => simp
    | some c =>
      rw [hl] at hstart
      simpa using hstart

/-- A document of lines is what their statements build. -/
theorem parse_joined {lines : List (List Char × Statement)} (h : ∀ l ∈ lines, Stands l.1 l.2) :
    parse (['\n'].intercalate (lines.map (·.1))) = Document.build (lines.map (·.2)) := by
  obtain ⟨sts, hread, hadd⟩ := exists_statements_joined lines h
  rw [parse, dropByteOrderMark_eq_self (head?_joined_ne h), hread]
  simp only [Option.bind_eq_bind, Option.bind_some, Document.build, hadd]

end Joined

/-! ## What sections build -/

namespace Section

/-- Empty lines add nothing. -/
theorem foldlM_add_lines : ∀ (lines : Section) (d : Document),
    ((lines.map lineOf).map (·.2)).foldlM Document.add d =
      (lines.values.map fun e => Statement.entry [] e.1 e.2).foldlM Document.add d
  | [], _ => rfl
  | none :: lines, d => foldlM_add_lines lines d
  | some e :: lines, d => by
    have hvalues : values (some e :: lines) = (e.key, .string e.value) :: values lines := rfl
    rw [hvalues, List.map_cons, List.map_cons, List.map_cons, List.foldlM_cons, List.foldlM_cons]
    simp only [lineOf, foldlM_add_lines lines]

variable {top : Section}

theorem foldlM_add_top (htop : (top.entries.map (·.1)).Nodup) :
    ((top.map lineOf).map (·.2)).foldlM Document.add ⟨[], []⟩ = some ⟨top.values, []⟩ := by
  rw [foldlM_add_lines]
  exact foldlM_add_root (by rwa [map_values])

/-- The document of a section alone. -/
theorem build_section (htop : (top.entries.map (·.1)).Nodup) :
    Document.build ((top.map lineOf).map (·.2)) = some top.values := by
  rw [Document.build, foldlM_add_top htop]
  rfl

/-- The document of a section in front of a table. -/
theorem build_table {table : Key} {inner : Section} (htop : (top.entries.map (·.1)).Nodup)
    (hnew : table ∉ top.entries.map (·.1)) (hinner : (inner.entries.map (·.1)).Nodup) :
    Document.build ((top.map lineOf).map (·.2) ++ .table [] table :: (inner.map lineOf).map (·.2)) =
      some (top.values ++ [(table, .table .header inner.values)]) := by
  have hnew' : table ∉ top.values.map (·.1) := by rwa [map_values]
  have hinner' : (inner.values.map (·.1)).Nodup := by rwa [map_values]
  have hlines : (.table [] table :: (inner.map lineOf).map (·.2)).foldlM Document.add ⟨top.values, []⟩ =
      some ⟨top.values ++ [(table, .table .header inner.values)], [table]⟩ := by
    have htable := foldlM_add_table hnew' hinner'
    rw [List.foldlM_cons] at htable ⊢
    simpa only [foldlM_add_lines] using htable
  rw [Document.build, List.foldlM_append, foldlM_add_top htop]
  exact congrArg (Option.map (·.root)) hlines

end Section

end AccessorGen.Toml
