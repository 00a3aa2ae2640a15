import AccessorGen.Toml.DateTime
import AccessorGen.Toml.Number
import AccessorGen.Toml.Quoted
import AccessorGen.Toml.Table

/-!
# Statements

The lines of a document are headers and entries, which `statements` reads. Values nest fewer than 80 levels deep
and keys have fewer than 80 parts.
-/

namespace AccessorGen.Toml

/-- The number of levels at which values stop nesting, and of parts at which keys stop growing. -/
def depthLimit : Nat := 80

/-! ## Keys -/

/-- The characters of a key without quotes. -/
def isBareKeyChar (c : Char) : Bool :=
  c.isAlphanum || c == '-' || c == '_'

/-- One part of a key. -/
def simpleKey (s : List Char) : Option (Key × List Char) :=
  match s with
  | '"' :: _ | '\'' :: _ => quotedLine s
  | s =>
    match s.takeWhile isBareKeyChar with
    | [] => none
    | key => some (key, s.dropWhile isBareKeyChar)

/-- A key of at most `limit` parts with blanks around each: the path in front and the last part. -/
def keyOfParts : (limit : Nat) → Reader (List Key × Key)
  | 0, _ => none
  | limit + 1, s => do
    let (part, s) ← simpleKey (skipSpace s)
    match skipSpace s with
    | '.' :: s =>
      let ((path, last), s) ← keyOfParts limit s
      some ((part :: path, last), s)
    | s => some (([], part), s)

/-- A key, dotted or not. -/
def key : Reader (List Key × Key) :=
  keyOfParts (depthLimit - 1)

/-! ## Values -/

/-- A value that is no array and no table. -/
def scalar (s : List Char) : Option (Value × List Char) :=
  match s with
  | '"' :: _ | '\'' :: _ => (quoted s).map fun (text, s) => (.string text, s)
  | 't' :: _ => (expectWord "true".toList s).map fun s => (.boolean true, s)
  | 'f' :: _ => (expectWord "false".toList s).map fun s => (.boolean false, s)
  | s =>
    match dateTime s with
    | some (t, s) => some (.dateTime t, s)
    | none => number s

/-- The items of an array after its bracket or a comma. Each of the `steps` reads one. -/
def arrayItems (item : Reader Value) : (steps : Nat) → Reader (List Value)
  | 0, _ => none
  | steps + 1, s => do
    match ← skipBreaks false s with
    | ']' :: s => some ([], s)
    | s =>
      let (v, s) ← item s
      match ← skipBreaks false s with
      | ',' :: s =>
        let (vs, s) ← arrayItems item steps s
        some (v :: vs, s)
      | ']' :: s => some ([v], s)
      | _ => none

/-- An entry without its line end: a key, an equals sign and a value. -/
def entry (item : Reader Value) (s : List Char) : Option (((List Key × Key) × Value) × List Char) := do
  let (k, s) ← key s
  let s ← expect '=' s
  let (v, s) ← item (skipSpace s)
  some ((k, v), s)

/-- The entries of a table in braces, at least one. Each of the `steps` reads one. -/
def inlineEntries (item : Reader Value) : (steps : Nat) → Reader (List ((List Key × Key) × Value))
  | 0, _ => none
  | steps + 1, s => do
    let (e, s) ← entry item s
    match skipSpace s with
    | ',' :: s =>
      let (es, s) ← inlineEntries item steps s
      some (e :: es, s)
    | '\x7d' :: s => some ([e], s)
    | _ => none

/-- A table in braces after the opening one. -/
def inlineTable (item : Reader Value) (s : List Char) : Option (Value × List Char) :=
  match skipSpace s with
  | '\x7d' :: s => some (.table .inline [], s)
  | s => do
    let (pairs, s) ← inlineEntries item (s.length + 1) s
    return (.table .inline (← Entries.ofPairs pairs), s)

/-- A value that nests at most `depth` levels deep. -/
def valueOfDepth : (depth : Nat) → Reader Value
  | 0, s => scalar s
  | depth + 1, s =>
    match s with
    | '[' :: s => (arrayItems (valueOfDepth depth) (s.length + 1) s).map fun (vs, s) => (.array vs, s)
    | '\x7b' :: s => inlineTable (valueOfDepth depth) s
    | s => scalar s

/-- A value of an entry. -/
def entryValue : Reader Value :=
  valueOfDepth (depthLimit - 1)

/-! ## Lines -/

/-- A line of a document. -/
inductive Statement where
  | blank
  /-- A header in brackets. -/
  | table (path : List Key) (key : Key)
  /-- A header in double brackets. -/
  | element (path : List Key) (key : Key)
  | entry (path : List Key) (key : Key) (v : Value)

/-- The statement at the start of a text, without its line end. -/
def statement (s : List Char) : Option (Statement × List Char) :=
  match skipSpace s with
  | [] => some (.blank, [])
  | '[' :: '[' :: s => do
    let ((path, k), s) ← key s
    let s ← expectWord "]]".toList s
    some (.element path k, s)
  | '[' :: s => do
    let ((path, k), s) ← key s
    let s ← expect ']' s
    some (.table path k, s)
  | c :: s =>
    if c = '#' ∨ c = '\n' ∨ c = '\r' then some (.blank, c :: s)
    else do
      let (((path, k), v), s) ← entry entryValue (c :: s)
      some (.entry path k v, s)

/-- The statements of a text, a line each. Each of the `steps` reads one. -/
def statementsWithin : (steps : Nat) → List Char → Option (List Statement)
  | _, [] => some []
  | 0, _ => none
  | steps + 1, s => do
    let (first, s) ← statement s
    let s ← endLine s
    let later ← statementsWithin steps s
    some (first :: later)

/-- The statements of a text. Every line has a character, so the length of the text bounds their number. -/
def statements (s : List Char) : Option (List Statement) :=
  statementsWithin s.length s

end AccessorGen.Toml
