import AccessorGen.Span

/-!
# Tokens of a declaration line

A token is a kind with the span it was read from. The text of a kind is what stands at that span.
-/

namespace AccessorGen

/-- Words are runs of ASCII letters, digits and underscores. -/
def isWordChar (c : Char) : Bool :=
  c.isAlphanum || c == '_'

/-- What a token is. -/
inductive TokenKind where
  | word (text : List Char)
  | star
  | openBracket
  | closeBracket
  | doubleColon
  | semicolon
  /-- Any other character that is not blank. -/
  | other (c : Char)
  /-- The end of the line. -/
  | eof
  deriving DecidableEq, Repr

/-- The text that a token of this kind is read from. -/
def TokenKind.text : TokenKind → List Char
  | .word w => w
  | .star => ['*']
  | .openBracket => ['[']
  | .closeBracket => [']']
  | .doubleColon => [':', ':']
  | .semicolon => [';']
  | .other c => [c]
  | .eof => []

/-- A token: its kind and where it stands in the line. -/
structure Token where
  kind : TokenKind
  span : Span
  deriving DecidableEq, Repr

end AccessorGen
