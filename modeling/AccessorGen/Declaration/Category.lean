import AccessorGen.Declaration
import AccessorGen.Diagnostic
import AccessorGen.Naming
import AccessorGen.Text.Search
import AccessorGen.TypeCode

/-!
# Resolving a declaration

The category follows from the first rule that applies: a pointer is a pointer; an array is a char array or
unsupported; a type that names a built-in type is that primitive; anything else is a structure or class. Keywords
are looked for anywhere in the type, `bool`, `char` and `string` before the numeric ones.
-/

namespace AccessorGen

open Text

namespace Primitive

/-- The keywords of numeric types. -/
def numericKeywords : List (List Char) :=
  ["int".toList, "short".toList, "long".toList, "double".toList, "float".toList]

/-- The built-in family that a type belongs to. -/
def ofType? (dataType : List Char) : Option Primitive :=
  if occurs "bool".toList dataType then some bool
  else if occurs "char".toList dataType then some char
  else if occurs "string".toList dataType then some string
  else if numericKeywords.any (occurs · dataType) then some numeric
  else none

end Primitive

namespace ParsedDeclaration

/-- The category of a declaration; an array of anything but characters has none. -/
def category (d : ParsedDeclaration) : Except Diagnostic Category :=
  if d.isPointer then .ok .pointer
  else if d.isArray then
    if occurs "char".toList d.dataType then .ok .charArray
    else .error (.ofLine .unsupportedArrayElement d.rawLine d.location)
  else match Primitive.ofType? d.dataType with
    | some p => .ok (.primitive p)
    | none => .ok .structOrClass

/-- The declaration with its names and its category. -/
def resolve (d : ParsedDeclaration) : Except Diagnostic Declaration :=
  match d.category with
  | .error e => .error e
  | .ok category => .ok
      { toParsedDeclaration := d
        meaningfulName := meaningfulName d.variableName
        capitalizedName := capitalize (meaningfulName d.variableName)
        category
        paramPrefix := inferPrefix d.variableName d.isPointer }

end ParsedDeclaration

end AccessorGen
