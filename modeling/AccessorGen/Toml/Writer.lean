import AccessorGen.Toml.Number
import AccessorGen.Toml.Value

/-!
# Writing strings

A string is written in the first of five forms that fits it: plain in `"`, literal in `'`, over several lines in
`"""` or `'''`, and with escapes if nothing else will do.
-/

namespace AccessorGen.Toml

/-- Control characters that no string holds as they are, not even one of several lines. -/
def isControl (c : Char) : Bool :=
  (c.toNat < 0x20 && c ≠ '\t' && c ≠ '\n') || c.toNat = 0x7F

/-- The length of the longest run of a character; `run` counts the one that the text continues. -/
def longestRun (c : Char) (run : Nat) : List Char → Nat
  | [] => run
  | d :: s => if d = c then longestRun c (run + 1) s else max run (longestRun c 0 s)

/-- A digit of base sixteen, in upper case. -/
def upperHexDigit (n : Nat) : Char :=
  if n < 10 then .ofNat ('0'.toNat + n) else .ofNat ('A'.toNat + (n - 10))

/-- How a basic string holds a character. -/
def escapeChar : Char → List Char
  | '\x08' => "\\b".toList
  | '\t' => "\\t".toList
  | '\n' => "\\n".toList
  | '\x0c' => "\\f".toList
  | '\r' => "\\r".toList
  | '"' => "\\\"".toList
  | '\\' => "\\\\".toList
  | c =>
    if isControl c then "\\u00".toList ++ [upperHexDigit (c.toNat / 16), upperHexDigit (c.toNat % 16)] else [c]

/-- The inside of a basic string on one line. -/
def escapeLine (s : List Char) : List Char :=
  s.flatMap escapeChar

/-- The inside of a basic string over several lines. Line feeds stay, and of quotes only every third in a row is
escaped; `run` counts those that stand right before. -/
def escapeLines (run : Nat) : List Char → List Char
  | [] => []
  | c :: s =>
    if c = '"' then (if run = 2 then "\\\"".toList ++ escapeLines 0 s else '"' :: escapeLines (run + 1) s)
    else if c = '\n' then '\n' :: escapeLines 0 s
    else escapeChar c ++ escapeLines 0 s

/-- The forms in which a string is written. -/
inductive StringForm where
  | basicLine
  | literalLine
  | basicLines
  | literalLines
  deriving DecidableEq, Repr

/-- The form for a string. -/
def StringForm.of (s : List Char) : StringForm :=
  let control := s.any isControl
  let newline := s.contains '\n'
  if !control && !s.contains '\\' && !s.contains '"' && !newline then .basicLine
  else if !control && !s.contains '\'' && !newline then .literalLine
  else if !control && !s.contains '\\' && longestRun '"' 0 s ≤ 2 then .basicLines
  else if !control && longestRun '\'' 0 s ≤ 2 then .literalLines
  else if newline then .basicLines
  else .basicLine

/-- The line break after three opening quotes: there if the string has one itself. -/
def openingBreak (s : List Char) : List Char :=
  if s.contains '\n' then ['\n'] else []

/-- A string in a given form. -/
def StringForm.write (s : List Char) : StringForm → List Char
  | basicLine => ['"'] ++ escapeLine s ++ ['"']
  | literalLine => ['\''] ++ s ++ ['\'']
  | basicLines => "\"\"\"".toList ++ openingBreak s ++ escapeLines 0 s ++ "\"\"\"".toList
  | literalLines => "'''".toList ++ openingBreak s ++ s ++ "'''".toList

/-- A string as a document holds it. -/
def quote (s : List Char) : List Char :=
  (StringForm.of s).write s

/-- A line that gives a key, which needs no quotes, a string. -/
def stringEntry (key : Key) (s : List Char) : List Char :=
  key ++ " = ".toList ++ quote s ++ ['\n']

end AccessorGen.Toml
