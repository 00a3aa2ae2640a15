import AccessorGen.Proofs.Commands
import AccessorGen.Proofs.ManifestRoundTrip
import AccessorGen.Proofs.Toml.Sections

/-!
# Manifests that leave things out

Of a manifest only the name is required. What else may be given is a `PartialManifest`, and `PartialManifest.completed`
has the defaults for the rest. A `ManifestLayout` is the text that gives it, line by line; `ManifestLayout.Writes` says
that it gives just this, in any order and among other entries.

- A text gives the manifest of the strings under its keys (`ofToml?_text`);
- a key among entries in any order has the string that it was given (`Mixed.lookup_eq`, `lookup_givenEntries`);
- so the text loads as the completed manifest, and without a name it does not load (`loadManifest_text`).
-/

namespace AccessorGen

open Toml Text

/-! ## Entries in any order -/

section Order

/-- Keys that may be given a string, and those of them that are, with their strings. -/
def givenEntries (values : List (Key × Option (List Char))) : List (Key × List Char) :=
  values.filterMap fun (k, v) => v.map (k, ·)

/-- The written entries are the given ones in any order, among others under keys that are not reserved; no key stands
twice. -/
structure Mixed (reserved : List Key) (given written : List (Key × List Char)) : Prop where
  nodup : (written.map (·.1)).Nodup
  perm : ∃ others : List (Key × List Char), written.Perm (given ++ others) ∧ ∀ e ∈ others, e.1 ∉ reserved

variable {k : Key} {v : List Char} {reserved : List Key} {given written : List (Key × List Char)}

theorem lookup_eq_some_iff_mem : ∀ {entries : List (Key × List Char)}, (entries.map (·.1)).Nodup →
    (entries.lookup k = some v ↔ (k, v) ∈ entries)
  | [], _ => by simp
  | (l, w) :: entries, h => by
    obtain ⟨hl, hentries⟩ := List.nodup_cons.mp h
    by_cases hk : k = l
    · subst hk
      have hnot : (k, v) ∉ entries := fun hmem => hl (List.mem_map.mpr ⟨(k, v), hmem, rfl⟩)
      simp [hnot, eq_comm]
    · have hne : (k == l) = false := beq_eq_false_iff_ne.mpr hk
      rw [List.lookup_cons, hne, lookup_eq_some_iff_mem hentries]
      simp [hk]

/-- A reserved key has the string that it was given. -/
theorem Mixed.lookup_eq (h : Mixed reserved given written) (hk : k ∈ reserved) :
    written.lookup k = given.lookup k := by
  obtain ⟨others, hperm, hothers⟩ := h.perm
  have hgiven : (given.map (·.1)).Nodup := by
    have hall := (hperm.map (·.1)).nodup_iff.mp h.nodup
    rw [List.map_append] at hall
    exact hall.of_append_left
  ext v
  have hnot : (k, v) ∉ others := fun hmem => hothers _ hmem hk
  rw [lookup_eq_some_iff_mem h.nodup, lookup_eq_some_iff_mem hgiven, hperm.mem_iff, List.mem_append,
    or_iff_left hnot]

theorem lookup_givenEntries (k : Key) : ∀ {values : List (Key × Option (List Char))}, (values.map (·.1)).Nodup →
    (givenEntries values).lookup k = (values.lookup k).join
  | [], _ => rfl
  | (l, v) :: values, h => by
    obtain ⟨hl, hvalues⟩ := List.nodup_cons.mp h
    have ih := lookup_givenEntries k hvalues
    cases v with
    | none =>
      have hdrop : givenEntries ((l, none) :: values) = givenEntries values := rfl
      rw [hdrop, ih, List.lookup_cons]
      split
      · -- what is not given leaves no entry, and no later key is the same
        rename_i hk
        rw [eq_of_beq hk, lookup_eq_none_of_not_mem hl]
        rfl
      · rfl
    | some w =>
      have hkeep : givenEntries ((l, some w) :: values) = (l, w) :: givenEntries values := rfl
      rw [hkeep, List.lookup_cons, List.lookup_cons]
      split
      · rfl
      · exact ih

end Order

/-! ## What a manifest gives -/

/-- What may be given besides the name. -/
structure PartialManifest where
  className : Option (List Char) := none
  input : Option (List Char) := none
  dir : Option (List Char) := none
  accessors : Option (List Char) := none
  inline : Option (List Char) := none
  init : Option (List Char) := none

namespace PartialManifest

/-- The keys in front of the table, and what they are given. -/
def topValues (name : List Char) (p : PartialManifest) : List (Key × Option (List Char)) :=
  [("name".toList, some name), ("class".toList, p.className), ("input".toList, p.input)]

/-- The keys of the table, and what they are given. -/
def outputValues (p : PartialManifest) : List (Key × Option (List Char)) :=
  [("dir".toList, p.dir), ("accessors".toList, p.accessors), ("inline".toList, p.inline), ("init".toList, p.init)]

/-- The manifest with what is given, and defaults for the rest; there is no default for the class. -/
def completed (name : List Char) (p : PartialManifest) : Manifest where
  name := name
  className := p.className
  input := p.input.getD "members.decl".toList
  output :=
    { dir := p.dir.getD "dist".toList
      accessors := p.accessors.getD "accessors.hpp".toList
      inline := p.inline.getD "accessors_inline.hpp".toList
      init := p.init.getD "init.inc".toList }

end PartialManifest

/-! ## Texts -/

/-- The lines of a manifest: those in front of the table of output files, and those of the table if it is there. -/
structure ManifestLayout where
  top : Section
  table : Option Section

namespace ManifestLayout

/-- The entries in front of the table. -/
def topEntries (l : ManifestLayout) : List (Key × List Char) :=
  l.top.entries

/-- The entries of the table. -/
def outputEntries (l : ManifestLayout) : List (Key × List Char) :=
  Section.entries (l.table.getD [])

/-- The lines with their statements. -/
def lines (l : ManifestLayout) : List (List Char × Statement) :=
  l.top.map Section.lineOf ++ match l.table with
    | none => []
    | some inner => ("[output]".toList, .table [] "output".toList) :: inner.map Section.lineOf

/-- The text; it ends with a line feed if the last line is empty. -/
def text (l : ManifestLayout) : List Char :=
  ['\n'].intercalate (l.lines.map (·.1))

/-- The lines but for the entry of the name. -/
def withoutName (l : ManifestLayout) : ManifestLayout :=
  { l with top := l.top.filter (·.all (·.key ≠ "name".toList)) }

/-- The layout gives the name and what else is given, each under its key, in any order and among entries under other
keys. Without a table, nothing of it is given. -/
structure Writes (l : ManifestLayout) (name : List Char) (p : PartialManifest) : Prop where
  top : Mixed ("output".toList :: Manifest.topKeys) (givenEntries (p.topValues name)) l.topEntries
  output : Mixed Manifest.outputKeys (givenEntries p.outputValues) l.outputEntries

/-! ### Reading -/

/-- The entries of the document. -/
def document (l : ManifestLayout) : Entries :=
  l.top.values ++ (l.table.map fun inner => ("output".toList, .table .header inner.values)).toList

variable {l : ManifestLayout} {name : List Char} {p : PartialManifest}

theorem stands_of_mem_lines {line : List Char × Statement} (h : line ∈ l.lines) : Stands line.1 line.2 := by
  have hsection : ∀ lines : Section, line ∈ lines.map Section.lineOf → Stands line.1 line.2 := by
    intro lines hline
    obtain ⟨e, -, rfl⟩ := List.mem_map.mp hline
    exact Section.stands_lineOf e
  rcases List.mem_append.mp h with h | h
  · exact hsection _ h
  · split at h
    · cases h
    · rcases List.mem_cons.mp h with rfl | h
      · exact stands_table (k := "output".toList) (by decide)
      · exact hsection _ h

theorem parse_text (htop : (l.topEntries.map (·.1)).Nodup) (hnew : "output".toList ∉ l.topEntries.map (·.1))
    (houtput : (l.outputEntries.map (·.1)).Nodup) : parse l.text = some l.document := by
  rw [text, parse_joined fun _ => stands_of_mem_lines]
  obtain ⟨top, table⟩ := l
  cases table with
  | none => simpa [lines, document] using Section.build_section htop
  | some inner => simpa [lines, document] using Section.build_table htop hnew houtput

theorem string?_values (k : Key) (lines : Section) :
    Manifest.string? k lines.values = some (lines.entries.lookup k) := by
  rw [Manifest.string?, Section.lookup_values]
  cases lines.entries.lookup k with
  | none => rfl
  | some s => rfl

theorem string?_document {k : Key} (hk : k ≠ "output".toList) :
    Manifest.string? k l.document = some (l.topEntries.lookup k) := by
  have hlookup : l.document.lookup k = l.top.values.lookup k := by
    rw [document, List.lookup_append]
    cases l.table with
    | none => simp
    | some inner =>
      have hne : (k == "output".toList) = false := beq_eq_false_iff_ne.mpr hk
      rw [Option.map_some, Option.toList_some, List.lookup_cons, hne]
      simp
  rw [Manifest.string?, hlookup]
  exact string?_values k l.top

theorem output?_values (lines : Section) :
    Manifest.output? (.table .header lines.values) = some
      (Manifest.outputOf (lines.entries.lookup "dir".toList) (lines.entries.lookup "accessors".toList)
        (lines.entries.lookup "inline".toList) (lines.entries.lookup "init".toList)) := by
  rw [Manifest.output?, string?_values, string?_values, string?_values, string?_values]
  rfl

/-- **A text gives the manifest of the strings under its keys.** -/
theorem ofToml?_text (htop : (l.topEntries.map (·.1)).Nodup) (hnew : "output".toList ∉ l.topEntries.map (·.1))
    (houtput : (l.outputEntries.map (·.1)).Nodup) :
    Manifest.ofToml? l.text = (l.topEntries.lookup "name".toList).map fun name =>
      PartialManifest.completed name
        { className := l.topEntries.lookup "class".toList
          input := l.topEntries.lookup "input".toList
          dir := l.outputEntries.lookup "dir".toList
          accessors := l.outputEntries.lookup "accessors".toList
          inline := l.outputEntries.lookup "inline".toList
          init := l.outputEntries.lookup "init".toList } := by
  have hnone : l.top.values.lookup "output".toList = none := by
    refine lookup_eq_none_of_not_mem ?_
    rwa [Section.map_values]
  rw [Manifest.ofToml?, parse_text htop hnew houtput, Option.bind_eq_bind, Option.bind_some, Manifest.ofEntries?,
    string?_document (by decide), string?_document (by decide), string?_document (by decide), document,
    List.lookup_append, hnone]
  cases l.topEntries.lookup "name".toList with
  | none => rfl
  | some name =>
    -- a missing table and an empty one have the same defaults
    unfold outputEntries
    cases l.table with
    | none => rfl
    | some inner =>
      simp only [Option.map_some, Option.toList_some, List.lookup_cons_self, Option.none_or, output?_values]
      rfl

/-! ### The given entries -/

theorem Writes.lookup_top (h : l.Writes name p) {k : Key} (hk : k ∈ "output".toList :: Manifest.topKeys) :
    l.topEntries.lookup k = ((p.topValues name).lookup k).join := by
  have hkeys : ((p.topValues name).map (·.1)).Nodup := show Manifest.topKeys.Nodup by decide
  rw [h.top.lookup_eq hk, lookup_givenEntries k hkeys]

theorem Writes.lookup_output (h : l.Writes name p) {k : Key} (hk : k ∈ Manifest.outputKeys) :
    l.outputEntries.lookup k = (p.outputValues.lookup k).join := by
  have hkeys : (p.outputValues.map (·.1)).Nodup := show Manifest.outputKeys.Nodup by decide
  rw [h.output.lookup_eq hk, lookup_givenEntries k hkeys]

/-- No entry takes the place of the table. -/
theorem Writes.output_not_mem (h : l.Writes name p) : "output".toList ∉ l.topEntries.map (·.1) := by
  intro hmem
  obtain ⟨⟨k, v⟩, hmem, rfl⟩ := List.mem_map.mp hmem
  have hlookup := (lookup_eq_some_iff_mem h.top.nodup).mpr hmem
  rw [h.lookup_top (by decide)] at hlookup
  cases hlookup

theorem Writes.ofToml?_eq (h : l.Writes name p) : Manifest.ofToml? l.text = some (p.completed name) := by
  rw [ofToml?_text h.top.nodup h.output_not_mem h.output.nodup, h.lookup_top (by decide), h.lookup_top (by decide),
    h.lookup_top (by decide), h.lookup_output (by decide), h.lookup_output (by decide), h.lookup_output (by decide),
    h.lookup_output (by decide)]
  rfl

/-! ### The name -/

theorem topEntries_withoutName (l : ManifestLayout) :
    l.withoutName.topEntries = l.topEntries.filter (·.1 ≠ "name".toList) := by
  unfold withoutName topEntries
  induction l.top with
  | nil => rfl
  | cons line lines ih =>
    cases line with
    | none => exact ih
    | some e =>
      have hentries : Section.entries (some e :: lines) = (e.key, e.value) :: Section.entries lines := rfl
      by_cases he : e.key = "name".toList
      · rw [List.filter_cons_of_neg (by simp [he]), hentries, List.filter_cons_of_neg (by simp [he]), ih]
      · rw [List.filter_cons_of_pos (by simpa using he), hentries, List.filter_cons_of_pos (by simpa using he), ← ih]
        rfl

theorem Writes.ofToml?_withoutName (h : l.Writes name p) : Manifest.ofToml? l.withoutName.text = none := by
  have hsub : List.Sublist (l.withoutName.topEntries.map (·.1)) (l.topEntries.map (·.1)) := by
    rw [topEntries_withoutName]
    exact List.filter_sublist.map _
  have hname : l.withoutName.topEntries.lookup "name".toList = none := by
    refine lookup_eq_none_of_not_mem ?_
    simp [topEntries_withoutName]
  rw [ofToml?_text (h.top.nodup.sublist hsub) (fun hmem => h.output_not_mem (hsub.subset hmem)) h.output.nodup, hname]
  rfl

end ManifestLayout

/-! ## Loading -/

/-- **Manifests load with defaults for what they leave out, in any order**: a file with a text that gives a name and
some of the other values, among further entries, loads as the manifest with just these values and the defaults for the
rest. Without the entry of the name it is refused. -/
theorem loadManifest_text {l : ManifestLayout} {name : List Char} {p : PartialManifest} (h : l.Writes name p)
    (standardInput : ByteArray) (path : Path) (fs : FileSystem) :
    (fs.readFile path = .ok (encode l.text) →
      (loadManifest (FileSystem.host standardInput) path).run fs = (.ok (p.completed name), fs)) ∧
    (fs.readFile path = .ok (encode l.withoutName.text) →
      (loadManifest (FileSystem.host standardInput) path).run fs = (.error (.invalid path), fs)) := by
  refine ⟨?_, ?_⟩
  · intro hfile
    rw [run_loadManifest, FileSystem.readText_of_readFile hfile]
    simp only [h.ofToml?_eq, Option.elim_some]
  · intro hfile
    rw [run_loadManifest, FileSystem.readText_of_readFile hfile]
    simp only [h.ofToml?_withoutName, Option.elim_none]

/-- Entries in reverse, in every form of keys and strings, among others under keys of their own. There is no class, and
the text does not end with a line feed. -/
def reversedLayout : ManifestLayout where
  top :=
    [some { key := "input".toList, value := "C:\\a\n\"b\".decl".toList, form := .literalLines }, none,
      some { key := "à propos".toList, keyForm := .basic, value := "'''".toList, form := .basicLines },
      some { key := "name".toList, keyForm := .literal, value := "é\t\x00".toList }]
  table := some
    [some { key := "init".toList, keyForm := .basic, value := [], form := .literalLine },
      some { key := "name".toList, value := "other".toList }, none,
      some { key := "dir".toList, value := "\"\"\"\n".toList, form := .basicLines }]

example : reversedLayout.text =
    ("input = '''\nC:\\a\n\"b\".decl'''\n\n\"à propos\" = \"\"\"'''\"\"\"\n'name' = \"é\\t\\u0000\"\n[output]\n" ++
      "\"init\" = ''\nname = \"other\"\n\ndir = \"\"\"\n\"\"\\\"\n\"\"\"").toList := by
  decide +kernel

/-- What `reversedLayout` gives. -/
def reversedGiven : PartialManifest where
  input := some "C:\\a\n\"b\".decl".toList
  dir := some "\"\"\"\n".toList
  init := some []

theorem writes_reversedLayout : reversedLayout.Writes "é\t\x00".toList reversedGiven where
  top := ⟨by decide, [("à propos".toList, "'''".toList)], by decide, by decide⟩
  output := ⟨by decide, [("name".toList, "other".toList)], by decide, by decide⟩

theorem loadManifest_text_reversed :
    let fs : FileSystem :=
      ⟨[(["gsgen.toml".toList], .file (encode reversedLayout.text)),
        (["unnamed.toml".toList], .file (encode reversedLayout.withoutName.text))], []⟩
    reversedLayout.Writes "é\t\x00".toList reversedGiven ∧
      fs.readFile "gsgen.toml".toList = .ok (encode reversedLayout.text) ∧
      fs.readFile "unnamed.toml".toList = .ok (encode reversedLayout.withoutName.text) ∧
      (loadManifest (FileSystem.host .empty) "gsgen.toml".toList).run fs =
        (.ok
          { name := "é\t\x00".toList
            className := none
            input := "C:\\a\n\"b\".decl".toList
            output :=
              { dir := "\"\"\"\n".toList
                accessors := "accessors.hpp".toList
                inline := "accessors_inline.hpp".toList
                init := [] } }, fs) ∧
      (loadManifest (FileSystem.host .empty) "unnamed.toml".toList).run fs =
        (.error (.invalid "unnamed.toml".toList), fs) :=
  ⟨writes_reversedLayout, rfl, rfl, (loadManifest_text writes_reversedLayout _ _ _).1 rfl,
    (loadManifest_text writes_reversedLayout _ _ _).2 rfl⟩

end AccessorGen
