import AccessorGen.Diagnostic
import AccessorGen.Diagnostic.Position

/-!
# Printed diagnostics

`Diagnostic.format` shows a diagnostic with its source line and an underline below the offending part. The line
is found from the span, the underline runs from the column of its start to the column of its end when these make
sense on that line, and is a single mark otherwise.
-/

namespace AccessorGen

open Text

/-- The marks below a source line: one per column from `first` up to `stop` if that lies at most one past the
bytes of the line, else one mark. -/
def underline (content : List Char) (first stop : Nat) : List Char :=
  let marks := if first < stop ∧ stop ≤ byteLength content + 1 then stop - first else 1
  List.replicate (first - 1) ' ' ++ List.replicate marks '^'

/-- A diagnostic about `source`, which is called `origin`, with its source line underlined. -/
def Diagnostic.format (source origin : List Char) (d : Diagnostic) : List Char :=
  match d.location with
  | none => d.severity.label ++ ": ".toList ++ d.message
  | some location =>
    let first := positionAt source location.span.start
    let stop := positionAt source location.span.stop
    let content := (lines source).getD (first.line.toNat - 1) []
    let line := decimal first.line.toNat
    origin ++ [':'] ++ line ++ [':'] ++ decimal first.column.toNat ++ ": ".toList
      ++ d.severity.label ++ ": ".toList ++ d.message
      ++ "\n  ".toList ++ line ++ " | ".toList ++ content
      ++ "\n  ".toList ++ List.replicate line.length ' ' ++ " | ".toList
      ++ underline content first.column.toNat stop.column.toNat

end AccessorGen
