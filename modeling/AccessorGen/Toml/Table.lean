import AccessorGen.Toml.Value

/-!
# Building tables

Headers and dotted keys create the tables they name and may add to tables that exist, within limits: a table has
one header at most, a dotted key never reaches into a table that has a header, and a key is never set twice.
Stepping into an array of tables means stepping into its last element.
-/

namespace AccessorGen.Toml

namespace Entries

/-- The entries with the value of a key replaced, or added at the end. -/
def put (key : Key) (v : Value) : Entries → Entries
  | [] => [(key, v)]
  | (k, w) :: entries => if k = key then (k, v) :: entries else (k, w) :: put key v entries

/-- Changes the table at the end of a path. `fresh` is the origin of the tables made on the way, and `mayEnter`
tells by origin which tables the path may pass. The change sees the origin of the table that it is made in. -/
def modifyAt (fresh : TableOrigin) (mayEnter : TableOrigin → Bool) (change : TableOrigin → Entries → Option Entries) :
    List Key → TableOrigin → Entries → Option Entries
  | [], origin, entries => change origin entries
  | key :: path, _, entries =>
    match entries.lookup key with
    | none => do
      let inner ← modifyAt fresh mayEnter change path fresh []
      return entries.put key (.table fresh inner)
    | some (.table origin inner) => do
      if mayEnter origin then
        let inner ← modifyAt fresh mayEnter change path origin inner
        return entries.put key (.table origin inner)
      else none
    | some (.tables elements) => do
      let inner ← modifyAt fresh mayEnter change path .header (elements.getLastD [])
      return entries.put key (.tables (elements.dropLast ++ [inner]))
    | some _ => none

/-- Adds a value under a new key; a dotted key adds only to a table made by dotted keys. -/
def insertNew (isDotted : Bool) (key : Key) (v : Value) (origin : TableOrigin) (entries : Entries) : Option Entries :=
  if isDotted ∧ origin ≠ .dotted ∨ (entries.lookup key).isSome then none else some (entries ++ [(key, v)])

/-- Adds a value under a key with a path in front of it. -/
def insertDotted (path : List Key) (key : Key) (v : Value) (origin : TableOrigin) (entries : Entries) :
    Option Entries :=
  modifyAt .dotted TableOrigin.isImplicit (insertNew (!path.isEmpty) key v) path origin entries

/-- Changes the table at the end of the path of a header. -/
def modifyUnder (path : List Key) (change : TableOrigin → Entries → Option Entries) (entries : Entries) :
    Option Entries :=
  modifyAt .implied (· ≠ .inline) change path .header entries

/-- Opens the table with a header, which may have been implied before. -/
def openTable (path : List Key) (key : Key) (entries : Entries) : Option Entries :=
  modifyUnder path (fun _ entries =>
    match entries.lookup key with
    | none => some (entries.put key (.table .header []))
    | some (.table .implied inner) => some (entries.put key (.table .header inner))
    | some _ => none) entries

/-- Opens a new element of an array of tables. -/
def openElement (path : List Key) (key : Key) (entries : Entries) : Option Entries :=
  modifyUnder path (fun _ entries =>
    match entries.lookup key with
    | none => some (entries.put key (.tables [[]]))
    | some (.tables elements) => some (entries.put key (.tables (elements ++ [[]])))
    | some _ => none) entries

/-- The entries of a table in braces. -/
def ofPairs (pairs : List ((List Key × Key) × Value)) : Option Entries :=
  pairs.foldlM (fun entries ((path, key), v) => insertDotted path key v .header entries) []

end Entries

end AccessorGen.Toml
