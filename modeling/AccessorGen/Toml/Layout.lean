/-!
# Blanks, comments and line ends

Readers take the text from where they stand and return what they read with the rest of the text.
-/

namespace AccessorGen.Toml

/-- A reader of values of type `α`. -/
abbrev Reader (α : Type) := List Char → Option (α × List Char)

/-- Blanks inside a line. -/
def isSpace (c : Char) : Bool :=
  c == ' ' || c == '\t'

/-- The characters that comments and strings may hold as they are: no control character but the tab. -/
def isPlain (c : Char) : Bool :=
  c == '\t' || (0x20 ≤ c.toNat && c.toNat ≠ 0x7F)

/-- The text after the blanks it starts with. -/
def skipSpace (s : List Char) : List Char :=
  s.dropWhile isSpace

/-- The text after a given character. -/
def expect (c : Char) : List Char → Option (List Char)
  | d :: s => if d = c then some s else none
  | [] => none

/-- The text after a given word. -/
def expectWord : List Char → List Char → Option (List Char)
  | [], s => some s
  | c :: word, s => (expect c s).bind (expectWord word)

/-- The text after a line feed, with or without a carriage return before it. -/
def lineBreak? : List Char → Option (List Char)
  | '\n' :: s => some s
  | '\r' :: '\n' :: s => some s
  | _ => none

/-- The text after a comment, if it starts with one. -/
def skipComment : List Char → List Char
  | '#' :: s => s.dropWhile isPlain
  | s => s

/-- The text after the rest of a line, which may hold blanks and a comment only. -/
def endLine (s : List Char) : Option (List Char) :=
  match skipComment (skipSpace s) with
  | [] => some []
  | s => lineBreak? s

/-- The text after blanks, line breaks and whole comments; nothing if a comment does not end in a line break. -/
def skipBreaks (inComment : Bool) : List Char → Option (List Char)
  | [] => if inComment then none else some []
  | c :: s =>
    if c = '\n' then skipBreaks false s
    else if c = '\r' ∧ s.head? = some '\n' then skipBreaks false s
    else if inComment then (if isPlain c then skipBreaks true s else none)
    else if isSpace c then skipBreaks false s
    else if c = '#' then skipBreaks true s
    else some (c :: s)

end AccessorGen.Toml
