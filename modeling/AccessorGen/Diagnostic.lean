import AccessorGen.Span
import AccessorGen.Text.Decimal

/-!
# Diagnostics

What is reported about a text that could not be used: an error for a text without any declaration, a warning for
each line that is not a declaration. `Diagnostic.Kind.message` holds the wording of every kind.
-/

namespace AccessorGen

open Text

/-- How grave a diagnostic is. -/
inductive Severity where
  | error
  | warning
  deriving DecidableEq, Repr

namespace Severity

/-- The word that a printed diagnostic starts with. -/
def label : Severity → List Char
  | error => "error".toList
  | warning => "warning".toList

end Severity

namespace Diagnostic

/-- The cause of a diagnostic. -/
inductive Kind where
  /-- The text has no declaration at all. -/
  | emptyInput
  /-- The line does not have the form of a declaration. -/
  | grammarMismatch
  /-- The text in brackets is not a positive 32-bit number. -/
  | invalidArraySize
  /-- An array of something other than characters. -/
  | unsupportedArrayElement
  /-- Nothing is left of the type or of the name without the star. -/
  | emptyAfterStrip
  deriving DecidableEq, Repr

namespace Kind

/-- The name of a kind, as the log shows it. -/
def label : Kind → List Char
  | emptyInput => "EmptyInput".toList
  | grammarMismatch => "GrammarMismatch".toList
  | invalidArraySize => "InvalidArraySize".toList
  | unsupportedArrayElement => "UnsupportedArrayElement".toList
  | emptyAfterStrip => "EmptyAfterStrip".toList

/-- The message for a line, which all kinds quote but the one that has no line. -/
def message (line : List Char) : Kind → List Char
  | emptyInput => "Please enter at least one variable declaration.".toList
  | grammarMismatch => "Invalid declaration: \"".toList ++ line ++ ['"']
  | invalidArraySize => "Invalid array size in \"".toList ++ line ++ ['"']
  | unsupportedArrayElement => "Unsupported array type: \"".toList ++ line ++ ['"']
  | emptyAfterStrip => "Could not parse declaration: \"".toList ++ line ++ ['"']

end Kind

end Diagnostic

/-- A report about the text as a whole or about one of its lines. -/
structure Diagnostic where
  severity : Severity
  kind : Diagnostic.Kind
  message : List Char
  location : Option Location
  deriving DecidableEq, Repr

namespace Diagnostic

/-- The error for a text without declarations. -/
def emptyInput : Diagnostic :=
  ⟨.error, .emptyInput, Kind.emptyInput.message [], none⟩

/-- The warning for a line that was rejected for the given reason. -/
def ofLine (kind : Kind) (line : List Char) (location : Location) : Diagnostic :=
  ⟨.warning, kind, kind.message line, some location⟩

/-- The diagnostic is an error. -/
def isError (d : Diagnostic) : Bool :=
  d.severity == .error

/-- The diagnostic on one line: severity, line number if there is a location, message. -/
def summary (d : Diagnostic) : List Char :=
  match d.location with
  | some l => d.severity.label ++ " at line ".toList ++ decimal l.line.toNat ++ ": ".toList ++ d.message
  | none => d.severity.label ++ ": ".toList ++ d.message

end Diagnostic

end AccessorGen
