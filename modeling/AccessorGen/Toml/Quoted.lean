import AccessorGen.Toml.Layout
import AccessorGen.Toml.Number

/-!
# Strings

There are four forms: basic strings in `"` know escapes, literal strings in `'` do not, and each has a form in
three quotes that may span lines. In the latter a line break after the opening quotes is dropped, line breaks are
read as line feeds, and up to two quotes may stand right before the closing ones.
-/

namespace AccessorGen.Toml

/-! ## Escapes -/

/-- The character that a letter after a backslash stands for. -/
def escapedChar? : Char → Option Char
  | 'b' => some '\x08'
  | 't' => some '\t'
  | 'n' => some '\n'
  | 'f' => some '\x0c'
  | 'r' => some '\r'
  | '"' => some '"'
  | '\\' => some '\\'
  | _ => none

/-- The character with the code point that digits of base sixteen denote. -/
def codePoint? (ds : List Char) : Option Char :=
  let n := valueInBase 16 ds
  if ds.all isHexDigit then (if h : n.isValidChar then some (.ofNatAux n h) else none) else none

/-! ## One line -/

/-- Puts a character in front of the string that the rest gave. -/
def prepend (c : Char) (r : Option (List Char × List Char)) : Option (List Char × List Char) :=
  r.map fun (text, rest) => (c :: text, rest)

/-- The rest of a basic string on one line. -/
def basicString : Reader (List Char)
  | [] => none
  | '"' :: s => some ([], s)
  | '\\' :: e :: s =>
    match e, s with
    | 'u', d₁ :: d₂ :: d₃ :: d₄ :: s =>
      (codePoint? [d₁, d₂, d₃, d₄]).bind (prepend · (basicString s))
    | 'U', d₁ :: d₂ :: d₃ :: d₄ :: d₅ :: d₆ :: d₇ :: d₈ :: s =>
      (codePoint? [d₁, d₂, d₃, d₄, d₅, d₆, d₇, d₈]).bind (prepend · (basicString s))
    | e, s => (escapedChar? e).bind (prepend · (basicString s))
  | c :: s => if isPlain c ∧ c ≠ '\\' then prepend c (basicString s) else none

/-- The rest of a literal string on one line. -/
def literalString : Reader (List Char)
  | [] => none
  | '\'' :: s => some ([], s)
  | c :: s => if isPlain c then prepend c (literalString s) else none

/-! ## Several lines -/

/-- The end of a string in three quotes, after these quotes: up to two more quotes belong to the string. -/
def closeQuotes (quote : Char) : List Char → List Char × List Char
  | c :: s =>
    if c = quote then
      match s with
      | d :: t => if d = quote then ([quote, quote], t) else ([quote], s)
      | [] => ([quote], s)
    else ([], c :: s)
  | [] => ([], [])

/-- Where a reader stands in a basic string of several lines. -/
inductive LineState where
  /-- Among the characters of the string. -/
  | text
  /-- After a backslash that ends its line, before the line break. -/
  | lineEnd
  /-- After such a line break, where blanks and further line breaks do not count. -/
  | lineStart
  deriving DecidableEq, Repr

/-- The rest of a basic string in three quotes. -/
def basicLines (state : LineState) : Reader (List Char)
  | [] => none
  | c :: s =>
    if state ≠ .text ∧ isSpace c then basicLines state s
    else if state ≠ .text ∧ c = '\n' then basicLines .lineStart s
    else if state ≠ .text ∧ c = '\r' ∧ s.head? = some '\n' then basicLines state s
    else if state = .lineEnd then none
    else if c = '\n' then prepend '\n' (basicLines .text s)
    else if c = '\r' ∧ s.head? = some '\n' then basicLines .text s
    else if c = '"' then
      match s with
      | '"' :: '"' :: t => some (closeQuotes '"' t)
      | s => prepend '"' (basicLines .text s)
    else if c = '\\' then
      match s with
      | 'u' :: d₁ :: d₂ :: d₃ :: d₄ :: t =>
        (codePoint? [d₁, d₂, d₃, d₄]).bind (prepend · (basicLines .text t))
      | 'U' :: d₁ :: d₂ :: d₃ :: d₄ :: d₅ :: d₆ :: d₇ :: d₈ :: t =>
        (codePoint? [d₁, d₂, d₃, d₄, d₅, d₆, d₇, d₈]).bind (prepend · (basicLines .text t))
      | e :: t =>
        match escapedChar? e with
        | some d => prepend d (basicLines .text t)
        | none => basicLines .lineEnd (e :: t)
      | [] => none
    else if isPlain c then prepend c (basicLines .text s)
    else none

/-- The rest of a literal string in three quotes. -/
def literalLines : Reader (List Char)
  | [] => none
  | c :: s =>
    if c = '\'' then
      match s with
      | '\'' :: '\'' :: t => some (closeQuotes '\'' t)
      | s => prepend '\'' (literalLines s)
    else if c = '\n' then prepend '\n' (literalLines s)
    else if c = '\r' ∧ s.head? = some '\n' then literalLines s
    else if isPlain c then prepend c (literalLines s)
    else none

/-- A string in three quotes starts after a line break that follows them. -/
def dropOpeningBreak (s : List Char) : List Char :=
  (lineBreak? s).getD s

/-! ## All forms -/

/-- A string on one line, the only form that a key may have. -/
def quotedLine : Reader (List Char)
  | '"' :: s => basicString s
  | '\'' :: s => literalString s
  | _ => none

/-- A string in any form. -/
def quoted : Reader (List Char)
  | '"' :: '"' :: '"' :: s => basicLines .text (dropOpeningBreak s)
  | '\'' :: '\'' :: '\'' :: s => literalLines (dropOpeningBreak s)
  | s => quotedLine s

end AccessorGen.Toml
