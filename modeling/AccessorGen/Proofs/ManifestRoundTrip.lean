import AccessorGen.Command
import AccessorGen.Proofs.Toml.Document

/-!
# Manifests are read as they were written

The text of a manifest is a list of lines with their statements (`Manifest.lines`, `toToml_eq_lines`), the
statements build the entries of its document (`Manifest.entries`, `build_lines`), and these give back the manifest
(`ofEntries?_entries`). Hence a file that holds the text of a manifest loads as that manifest
(`loadManifest_toToml`).
-/

namespace AccessorGen

namespace Manifest

open Toml

/-! ## Lines -/

/-- The line of an entry that gives a key a string, and what it says. -/
def entryLine (e : Key × List Char) : List Char × Statement :=
  (e.1 ++ " = ".toList ++ quote e.2, .entry [] e.1 (.string e.2))

/-- The lines of a manifest with their statements. -/
def lines (m : Manifest) : List (List Char × Statement) :=
  m.topEntries.map entryLine ++ [([], .blank), ("[output]".toList, .table [] "output".toList)] ++
    (outputEntries m.output).map entryLine

theorem toToml_eq_lines (m : Manifest) : m.toToml = m.lines.flatMap fun l => l.1 ++ ['\n'] := by
  simp [toToml, lines, List.flatMap_append, List.flatMap_map, stringEntry, entryLine]

/-- The keys in front of the table, in their order; only the class may be missing. -/
def topKeys : List Key :=
  ["name".toList, "class".toList, "input".toList]

theorem keys_topEntries (m : Manifest) : List.Sublist (m.topEntries.map (·.1)) topKeys := by
  unfold topEntries
  cases m.className with
  | none => exact .cons_cons _ (.cons _ (.refl _))
  | some c => exact .refl _

/-- The keys of the table. -/
def outputKeys : List Key :=
  ["dir".toList, "accessors".toList, "inline".toList, "init".toList]

theorem keys_outputEntries (o : OutputPaths) : (outputEntries o).map (·.1) = outputKeys :=
  rfl

theorem isBareKey_of_mem_topEntries {m : Manifest} {e : Key × List Char} (he : e ∈ m.topEntries) : IsBareKey e.1 := by
  have hall : ∀ k ∈ topKeys, IsBareKey k := by decide
  exact hall _ ((keys_topEntries m).subset (List.mem_map_of_mem he))

theorem isBareKey_of_mem_outputEntries {o : OutputPaths} {e : Key × List Char} (he : e ∈ outputEntries o) :
    IsBareKey e.1 := by
  have hall : ∀ k ∈ outputKeys, IsBareKey k := by decide
  exact hall _ (keys_outputEntries o ▸ List.mem_map_of_mem he)

theorem isLine_of_mem_lines {m : Manifest} {l : List Char × Statement} (hl : l ∈ m.lines) : IsLine l.1 l.2 := by
  unfold lines at hl
  rw [List.mem_append, List.mem_append] at hl
  rcases hl with (hl | hl) | hl
  · obtain ⟨e, he, rfl⟩ := List.mem_map.mp hl
    exact isLine_quote (isBareKey_of_mem_topEntries he) e.2
  · simp only [List.mem_cons, List.not_mem_nil, or_false] at hl
    rcases hl with rfl | rfl
    · exact isLine_nil
    · exact isLine_table (k := "output".toList) (by decide)
  · obtain ⟨e, he, rfl⟩ := List.mem_map.mp hl
    exact isLine_quote (isBareKey_of_mem_outputEntries he) e.2

theorem statements_toToml (m : Manifest) : statements m.toToml = some (m.lines.map (·.2)) := by
  have hnil : statements [] = some [] := rfl
  have h := statements_lines hnil m.lines fun _ hl => isLine_of_mem_lines hl
  rwa [List.append_nil, List.append_nil, ← toToml_eq_lines] at h

/-! ## Entries -/

/-- Keys with strings, as entries. -/
def stringValues (entries : List (Key × List Char)) : Entries :=
  entries.map fun e => (e.1, .string e.2)

/-- The entries of the document of a manifest. -/
def entries (m : Manifest) : Entries :=
  stringValues m.topEntries ++ [("output".toList, .table .header (stringValues (outputEntries m.output)))]

theorem map_stringValues (entries : List (Key × List Char)) : (stringValues entries).map (·.1) = entries.map (·.1) := by
  simp [stringValues]

theorem map_entryLine (entries : List (Key × List Char)) :
    (entries.map entryLine).map (·.2) = (stringValues entries).map fun e => Statement.entry [] e.1 e.2 := by
  simp [stringValues, entryLine]

theorem build_lines (m : Manifest) : Document.build (m.lines.map (·.2)) = some m.entries := by
  have htop : ((stringValues m.topEntries).map (·.1)).Nodup := by
    rw [map_stringValues]
    exact (keys_topEntries m).nodup (by decide)
  have houtput : ((stringValues (outputEntries m.output)).map (·.1)).Nodup := by
    rw [map_stringValues, keys_outputEntries]
    decide
  have hnew : "output".toList ∉ (stringValues m.topEntries).map (·.1) := by
    rw [map_stringValues]
    exact fun h => absurd ((keys_topEntries m).subset h) (by decide)
  -- the entries in front of the header, and then the header with the entries of its table
  have hfirst := foldlM_add_root htop
  have hlast := foldlM_add_table hnew houtput
  unfold Document.build lines
  rw [List.map_append, List.map_append, map_entryLine, map_entryLine, List.append_assoc, List.foldlM_append, hfirst]
  exact congrArg (Option.map (·.root)) hlast

/-- The entries describe the manifest they were made of. -/
theorem ofEntries?_entries (m : Manifest) : ofEntries? m.entries = some m := by
  obtain ⟨name, className, input, ⟨dir, accessors, inline, init⟩⟩ := m
  cases className with
  | none => rfl
  | some c => rfl

/-- Reading a manifest undoes writing it. -/
theorem ofToml?_toToml (m : Manifest) : ofToml? m.toToml = some m := by
  have hmark : dropByteOrderMark m.toToml = m.toToml := rfl
  unfold ofToml? parse
  rw [hmark, statements_toToml]
  simp [build_lines, ofEntries?_entries]

end Manifest

open Text

theorem run_readText {fs : FileSystem} {p : Path} {s : List Char} (standardInput : ByteArray)
    (h : fs.readFile p = .ok (encode s)) : ((FileSystem.host standardInput).readText p).run fs = (.ok s, fs) := by
  have hread : ((FileSystem.host standardInput).readFile p).run fs = (.ok (encode s), fs) := congrArg (·, fs) h
  rw [Host.readText, StateT.run_bind, hread]
  simp only [bind, decode?_encode]
  rfl

/-- **Every manifest survives being written and loaded**: reading its text gives it back, and so does loading any
file that holds this text. -/
theorem loadManifest_toToml (m : Manifest) :
    Manifest.ofToml? m.toToml = some m ∧
      ∀ (standardInput : ByteArray) (p : Path) (fs : FileSystem), fs.readFile p = .ok (encode m.toToml) →
        (loadManifest (FileSystem.host standardInput) p).run fs = (.ok m, fs) := by
  have hread := m.ofToml?_toToml
  refine ⟨hread, ?_⟩
  intro standardInput p fs h
  rw [loadManifest, StateT.run_bind, run_readText standardInput h]
  simp only [bind, hread]
  rfl

/-- A manifest whose strings call for every form, among them quotes in a row, line ends and control characters. -/
def quoteHeavy : Manifest where
  name := "a\"\"\"\"b'''c\n\\".toList
  className := some "C:\\dir".toList
  input := "\r\n\t\x00\x7f".toList
  output := { dir := "it's \"here\"".toList, accessors := [], inline := "'\\'".toList, init := "\"é\"\n".toList }

theorem loadManifest_toToml_quoteHeavy :
    let fs : FileSystem := ⟨[([Manifest.fileName], .file (encode quoteHeavy.toToml))], []⟩
    fs.readFile Manifest.fileName = .ok (encode quoteHeavy.toToml) ∧
      (loadManifest (FileSystem.host .empty) Manifest.fileName).run fs = (.ok quoteHeavy, fs) :=
  ⟨rfl, (loadManifest_toToml quoteHeavy).2 _ _ _ rfl⟩

end AccessorGen
