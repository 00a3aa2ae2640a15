import AccessorGen.Accessor
import AccessorGen.Declaration.Category
import AccessorGen.Declaration.Parser
import AccessorGen.Event
import AccessorGen.Text.Blank
import AccessorGen.Text.Bytes

/-!
# Generating code from a text

Each line of a text that is not blank gives one declaration or one diagnostic, and no line has a say in what
another gives. The generated texts are those of the declarations, in order.
-/

namespace AccessorGen

open Text

/-! ## Lines -/

/-- A line without the blanks around it, and where it stands. -/
structure SourceLine where
  text : List Char
  location : Location
  deriving DecidableEq, Repr

namespace SourceLine

/-- A piece of a text as a source line, given its line number and the byte offset where it starts. -/
def ofPiece (number offset : Nat) (piece : List Char) : SourceLine :=
  let start := offset + (byteLength piece - byteLength (trimStart piece))
  { text := trim piece
    location := ⟨number.toUInt32, .ofNat start (start + byteLength (trim piece))⟩ }

/-- The source lines among consecutive pieces of a text. -/
def ofPieces (number offset : Nat) : List (List Char) → List SourceLine
  | [] => []
  | piece :: pieces =>
    let later := ofPieces (number + 1) (offset + byteLength piece + 1) pieces
    if (trim piece).isEmpty then later else ofPiece number offset piece :: later

end SourceLine

/-- The lines of a text that are not blank. -/
def sourceLines (raw : List Char) : List SourceLine :=
  SourceLine.ofPieces 1 0 (raw.splitOn '\n')

/-! ## Outcomes -/

/-- What one line gives, and what the log says about it. -/
structure LineOutcome where
  result : Except Diagnostic Declaration
  events : List Event

/-- Resolves a parsed declaration. -/
def ParsedDeclaration.outcome (d : ParsedDeclaration) : LineOutcome :=
  match d.resolve with
  | .error e => ⟨.error e, [.rejected d.location.line e.kind]⟩
  | .ok decl => ⟨.ok decl,
      [.prefixInferred d.variableName (basePrefix d.variableName) d.isPointer,
       .classified d.location.line decl.variableName decl.category decl.paramPrefix]⟩

/-- Reads and resolves a line. -/
def SourceLine.outcome (l : SourceLine) : LineOutcome :=
  match parseLine l.text l.location with
  | .error e => ⟨.error e, [.rejected l.location.line e.kind]⟩
  | .ok d => d.outcome

/-! ## Output -/

/-- Inline accessors, which need the name of a class. -/
inductive InlineOutput where
  | scoped (text : List Char)
  | skipped
  deriving DecidableEq, Repr

/-- All that a text gives. -/
structure Generated where
  accessors : List Char
  inline : InlineOutput
  initializers : List Char
  declarations : List Declaration
  diagnostics : List Diagnostic
  deriving DecidableEq, Repr

namespace Generated

/-- The messages of the diagnostics. -/
def warnings (g : Generated) : List (List Char) :=
  g.diagnostics.map (·.message)

/-- Some diagnostic is an error. -/
def hasErrors (g : Generated) : Bool :=
  g.diagnostics.any (·.isError)

/-- The output for the given declarations and diagnostics. -/
def ofDeclarations (className : Option (List Char)) (declarations : List Declaration)
    (diagnostics : List Diagnostic) : Generated where
  accessors := declarations.flatMap (·.accessors .outOfLine)
  inline := match className with
    | some c => .scoped (declarations.flatMap (·.accessors (.inline c)))
    | none => .skipped
  initializers := declarations.flatMap (·.initializer)
  declarations
  diagnostics

end Generated

/-- The declaration of an accepted line. -/
def LineOutcome.declaration? (o : LineOutcome) : Option Declaration :=
  match o.result with
  | .ok d => some d
  | .error _ => none

/-- The diagnostic of a rejected line. -/
def LineOutcome.diagnostic? (o : LineOutcome) : Option Diagnostic :=
  match o.result with
  | .ok _ => none
  | .error e => some e

/-- The code for a text of declarations, with inline accessors if a class is named, and the log of the run. A name
for the class that is blank names none. -/
def generateLogged (raw : List Char) (className : Option (List Char)) : Generated × List Event :=
  let className := className.bind trim?
  let outcomes := (sourceLines raw).map (·.outcome)
  if outcomes.isEmpty then (.ofDeclarations className [] [.emptyInput], [.noDeclarations])
  else
    let declarations := outcomes.filterMap (·.declaration?)
    let diagnostics := outcomes.filterMap (·.diagnostic?)
    (.ofDeclarations className declarations diagnostics,
      outcomes.flatMap (·.events) ++ [.finished declarations.length diagnostics.length className.isSome])

/-- The code for a text of declarations. -/
def generate (raw : List Char) (className : Option (List Char)) : Generated :=
  (generateLogged raw className).1

end AccessorGen
