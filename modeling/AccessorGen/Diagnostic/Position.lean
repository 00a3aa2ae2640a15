import AccessorGen.Text.Bytes
import AccessorGen.Text.Lines

/-!
# Lines and columns

`positionAt` turns a byte offset into a 1-based line and column. Inside the text it walks over the characters that
start before the offset and counts them, the columns anew after each line feed. At and after the end of the text the
column is one more than the number of bytes of the last line. All counters are 32-bit words.
-/

namespace AccessorGen

open Text

/-- A 1-based line and column. -/
structure Position where
  line : UInt32
  column : UInt32
  deriving DecidableEq, Repr

namespace Position

/-- Where a text starts. -/
def start : Position :=
  ⟨1, 1⟩

/-- The position right after a character: a line feed starts a line, any other character takes a column. -/
def step (p : Position) (c : Char) : Position :=
  if c = '\n' then ⟨p.line + 1, 1⟩ else ⟨p.line, p.column + 1⟩

/-- Walks over a text until a character starts at byte `offset` or later. The text starts at byte `index`, which has
the given position. -/
def walk (offset index : Nat) (p : Position) : List Char → Position
  | [] => p
  | c :: s => if offset ≤ index then p else walk offset (index + c.utf8Size) (p.step c) s

/-- The position one byte past the last line of a text. -/
def atEnd (source : List Char) : Position where
  line := max (lines source).length.toUInt32 1
  column := (byteLength ((lines source).getLastD [])).toUInt32 + 1

end Position

/-- The position of a byte offset in a text. -/
def positionAt (source : List Char) (offset : UInt32) : Position :=
  if byteLength source ≤ offset.toNat then .atEnd source else .walk offset.toNat 0 .start source

end AccessorGen
