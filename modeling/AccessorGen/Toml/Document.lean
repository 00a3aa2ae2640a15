import AccessorGen.Toml.Statement

/-!
# Documents

A document is read in two steps: its text gives statements, and these give its tables. `parse` is both.
-/

namespace AccessorGen.Toml

/-- The tables read so far, and the path of the one that entries go to. -/
structure Document where
  root : Entries
  current : List Key

namespace Document

/-- Adds a statement. -/
def add (d : Document) : Statement → Option Document
  | .blank => some d
  | .table path key => do
    return ⟨← d.root.openTable path key, path ++ [key]⟩
  | .element path key => do
    return ⟨← d.root.openElement path key, path ++ [key]⟩
  | .entry path key v => do
    return { d with root := ← d.root.modifyUnder d.current (Entries.insertDotted path key v) }

/-- The tables that statements describe. -/
def build (statements : List Statement) : Option Entries :=
  (statements.foldlM add ⟨[], []⟩).map (·.root)

end Document

/-- The text without a byte order mark. -/
def dropByteOrderMark : List Char → List Char
  | '\uFEFF' :: s => s
  | s => s

/-- The entries of a document. -/
def parse (s : List Char) : Option Entries :=
  statements (dropByteOrderMark s) >>= Document.build

end AccessorGen.Toml
