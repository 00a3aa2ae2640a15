/-!
# Lines

The lines that a diagnostic shows are the pieces of a text between line feeds with two differences: a carriage
return before the line feed belongs to the line end, and a final line feed starts no line.
-/

namespace AccessorGen.Text

/-- The line without one carriage return at its end. -/
def dropCarriageReturn (line : List Char) : List Char :=
  if line.getLast? = some '\r' then line.dropLast else line

/-- The shown lines among the pieces of a text: all but the last piece were ended by a line feed, and the last
counts only if it holds something. -/
def shownLines : List (List Char) → List (List Char)
  | [] => []
  | [last] => if last = [] then [] else [last]
  | p :: q :: ps => dropCarriageReturn p :: shownLines (q :: ps)

/-- The lines of a text as a diagnostic shows them. -/
def lines (s : List Char) : List (List Char) :=
  shownLines (s.splitOn '\n')

end AccessorGen.Text
