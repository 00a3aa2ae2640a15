import AccessorGen.Declaration
import AccessorGen.Diagnostic
import AccessorGen.Text.Decimal
import AccessorGen.Token.Lexer

/-!
# Reading a declaration

A declaration is `type name;`, `type *name;` or either with `[size]` before the semicolon. The type is a sequence
of words that may be glued by `::`, and one star may stand anywhere after a word of it.

`parseTokens` works on the kinds of the tokens alone, so blanks and comments cannot matter to it. It fails for
the first of three reasons that applies: the form is wrong, the size is wrong, nothing is left beside the star.
-/

namespace AccessorGen

open Text

/-- What the tokens of a declaration say. -/
structure DeclarationShape where
  typeWords : List (List Char)
  variableName : List Char
  isPointer : Bool
  arraySize : Option Nat
  deriving DecidableEq, Repr

namespace DeclarationShape

/-- The words of the type, separated by single spaces. -/
def dataType (d : DeclarationShape) : List Char :=
  [' '].intercalate d.typeWords

end DeclarationShape

/-- The tokens before the semicolon, which has to be the last token and the only one of its kind. -/
def statementBody (tokens : List TokenKind) : Option (List TokenKind) :=
  if tokens.dropWhile (· ≠ .semicolon) = [.semicolon] then some (tokens.takeWhile (· ≠ .semicolon)) else none

/-- The tokens before a bracket group at the end, and those inside it if there is one. The last opening bracket
opens the group. -/
def splitSize (body : List TokenKind) : Option (List TokenKind × Option (List TokenKind)) :=
  match body.reverse with
  | .closeBracket :: before =>
    match before.dropWhile (· ≠ .openBracket) with
    | [] => none
    | _ :: head => some (head.reverse, some (before.takeWhile (· ≠ .openBracket)).reverse)
  | _ => some (body, none)

/-- The words of a type. `words` are those read so far, the latest first, and `joining` says that the latest ends
in `::` and the next one continues it. A star is passed over. -/
def readTypeWords (words : List (List Char)) (joining : Bool) : List TokenKind → Option (List (List Char))
  | [] => if joining then none else some words.reverse
  | .word w :: tokens =>
    match joining, words with
    | true, latest :: before => readTypeWords ((latest ++ w) :: before) false tokens
    | _, _ => readTypeWords (w :: words) false tokens
  | .doubleColon :: tokens =>
    match joining, words with
    | false, latest :: before => readTypeWords ((latest ++ [':', ':']) :: before) true tokens
    | _, _ => none
  | .star :: tokens => if joining then none else readTypeWords words false tokens
  | _ => none

/-- The type words and the name, which is the last token and missing when that is the star. -/
def readHead (head : List TokenKind) : Option (List (List Char) × Option (List Char)) :=
  match head.getLast? with
  | some (.word name) => (readTypeWords [] false head.dropLast).map (·, some name)
  | some .star => (readTypeWords [] false head.dropLast).map (·, none)
  | _ => none

/-- The size in brackets: one word of digits that denotes a positive 32-bit number. -/
def readSize : List TokenKind → Option Nat
  | [.word w] => if w.all Char.isDigit ∧ 1 ≤ value w ∧ value w < UInt32.size then some (value w) else none
  | _ => none

/-- The size in brackets if there are brackets. -/
def readSize? : Option (List TokenKind) → Except Diagnostic.Kind (Option Nat)
  | none => .ok none
  | some tokens =>
    match readSize tokens with
    | some n => .ok (some n)
    | none => .error .invalidArraySize

/-- The form of a declaration: its type words, its name, whether it has a star, and the tokens of its size. -/
def readForm (tokens : List TokenKind) :
    Option (List (List Char) × Option (List Char) × Bool × Option (List TokenKind)) := do
  let body ← statementBody tokens
  let (head, size) ← splitSize body
  if 1 < head.count .star then none
  let (typeWords, name) ← readHead head
  let isPointer := head.contains .star
  -- Without a star there is nothing to strip, so a lone word is not a declaration.
  if !isPointer && typeWords.isEmpty then none
  return (typeWords, name, isPointer, size)

/-- What a list of tokens declares, or why it declares nothing. -/
def parseTokens (tokens : List TokenKind) : Except Diagnostic.Kind DeclarationShape :=
  match readForm tokens with
  | none => .error .grammarMismatch
  | some (typeWords, name, isPointer, size) =>
    match readSize? size with
    | .error kind => .error kind
    | .ok arraySize =>
      let shape : DeclarationShape := ⟨typeWords, name.getD [], isPointer, arraySize⟩
      if shape.dataType.isEmpty || shape.variableName.isEmpty then .error .emptyAfterStrip else .ok shape

/-- The declaration on a line, or the warning about it. -/
def parseLine (line : List Char) (location : Location) : Except Diagnostic ParsedDeclaration :=
  match parseTokens (lexKinds line) with
  | .error kind => .error (.ofLine kind line location)
  | .ok shape => .ok
      { location
        rawLine := line
        dataType := shape.dataType
        variableName := shape.variableName
        isPointer := shape.isPointer
        arraySize := shape.arraySize }

end AccessorGen
