import AccessorGen.Path
import AccessorGen.Text.Blank
import AccessorGen.Toml.Document
import AccessorGen.Toml.Writer

/-!
# Manifests

A manifest names a project, the class of its inline accessors, the file of declarations and the files to write.
Only the name is required when a manifest is read; what else is missing has a default, and unknown keys do not
matter.
-/

namespace AccessorGen

open Text

/-- The files that are written, relative to a directory of their own. -/
structure OutputPaths where
  dir : List Char := "dist".toList
  accessors : List Char := "accessors.hpp".toList
  inline : List Char := "accessors_inline.hpp".toList
  init : List Char := "init.inc".toList
  deriving DecidableEq, Repr

/-- The description of a project. -/
structure Manifest where
  name : List Char
  /-- The class of the inline accessors; without one there are none. -/
  className : Option (List Char) := none
  /-- The file of declarations, relative to the project. -/
  input : List Char := "members.decl".toList
  output : OutputPaths := {}
  deriving DecidableEq, Repr

namespace OutputPaths

/-- The directory of the written files. -/
def dirPath (o : OutputPaths) (root : Path) : Path :=
  root.join o.dir

/-- The file of the accessors. -/
def accessorsPath (o : OutputPaths) (root : Path) : Path :=
  (o.dirPath root).join o.accessors

/-- The file of the inline accessors. -/
def inlinePath (o : OutputPaths) (root : Path) : Path :=
  (o.dirPath root).join o.inline

/-- The file of the initializers. -/
def initPath (o : OutputPaths) (root : Path) : Path :=
  (o.dirPath root).join o.init

end OutputPaths

namespace Manifest

/-- The name of the file that holds the manifest of a project. -/
def fileName : List Char :=
  "gsgen.toml".toList

/-- The class that inline accessors are written for: the name without blanks around it, if anything is left. -/
def inlineClass (m : Manifest) : Option (List Char) :=
  m.className.bind trim?

/-- The file of declarations. -/
def inputPath (m : Manifest) (root : Path) : Path :=
  root.join m.input

/-! ## Writing -/

/-- The entries of a manifest in front of its table. -/
def topEntries (m : Manifest) : List (Toml.Key × List Char) :=
  [("name".toList, m.name)] ++ (m.className.map ("class".toList, ·)).toList ++ [("input".toList, m.input)]

/-- The entries of the table of output files. -/
def outputEntries (o : OutputPaths) : List (Toml.Key × List Char) :=
  [("dir".toList, o.dir), ("accessors".toList, o.accessors), ("inline".toList, o.inline), ("init".toList, o.init)]

/-- The text of a manifest. -/
def toToml (m : Manifest) : List Char :=
  m.topEntries.flatMap (fun (key, s) => Toml.stringEntry key s)
    ++ "\n[output]\n".toList
    ++ (outputEntries m.output).flatMap (fun (key, s) => Toml.stringEntry key s)

/-! ## Reading -/

/-- The string under a key, if the key is there; nothing if it holds something else. -/
def string? (key : Toml.Key) (entries : Toml.Entries) : Option (Option (List Char)) :=
  match entries.lookup key with
  | none => some none
  | some (.string s) => some (some s)
  | some _ => none

/-- The string at an index, if the list is long enough; nothing if something else is there. -/
def stringAt? (index : Nat) (items : List Toml.Value) : Option (Option (List Char)) :=
  match items[index]? with
  | none => some none
  | some (.string s) => some (some s)
  | some _ => none

/-- Output files with some of them given. -/
def outputOf (dir accessors inline init : Option (List Char)) : OutputPaths :=
  let default : OutputPaths := {}
  ⟨dir.getD default.dir, accessors.getD default.accessors, inline.getD default.inline, init.getD default.init⟩

/-- The output files that a value describes: a table by key, an array by position. A date says nothing. -/
def output? : Toml.Value → Option OutputPaths
  | .table _ entries => do
    return outputOf (← string? "dir".toList entries) (← string? "accessors".toList entries)
      (← string? "inline".toList entries) (← string? "init".toList entries)
  | .array items => do
    return outputOf (← stringAt? 0 items) (← stringAt? 1 items) (← stringAt? 2 items) (← stringAt? 3 items)
  | .dateTime _ => some {}
  | _ => none

/-- The manifest that the entries of a document describe. -/
def ofEntries? (entries : Toml.Entries) : Option Manifest := do
  let name ← (← string? "name".toList entries)
  let className ← string? "class".toList entries
  let input ← string? "input".toList entries
  let output ← match entries.lookup "output".toList with
    | none => some {}
    | some v => output? v
  let default : Manifest := { name }
  return { name, className, input := input.getD default.input, output }

/-- The manifest that a text holds. -/
def ofToml? (s : List Char) : Option Manifest :=
  Toml.parse s >>= ofEntries?

end Manifest

end AccessorGen
