import AccessorGen.Declaration
import AccessorGen.Naming

/-!
# Accessors and initializers

The code generated for one declaration: a comment, a getter and a setter, either free-standing or inline members
of a class, and a statement that gives the member its start value. Both forms of the accessors come from one
function and differ in the `inline` line and the class in front of the names only.
-/

namespace AccessorGen

/-- Where accessors are defined. -/
inductive Scope where
  /-- Free-standing. -/
  | outOfLine
  /-- As inline definitions for a class. -/
  | inline (className : List Char)
  deriving DecidableEq, Repr

namespace Scope

/-- What stands on the line before a definition. -/
def marker : Scope → List Char
  | outOfLine => []
  | inline _ => "inline\n".toList

/-- What stands in front of the name of an accessor. -/
def qualifier : Scope → List Char
  | outOfLine => []
  | inline className => className ++ "::".toList

@[simp] theorem marker_outOfLine : outOfLine.marker = [] := rfl

@[simp] theorem marker_inline (className : List Char) : (inline className).marker = "inline\n".toList := rfl

@[simp] theorem qualifier_outOfLine : outOfLine.qualifier = [] := rfl

@[simp] theorem qualifier_inline (className : List Char) :
    (inline className).qualifier = className ++ "::".toList := rfl

end Scope

namespace Declaration

/-- The name of the setter's parameter; the one of a char array always tells that it points to characters. -/
def paramName (d : Declaration) : List Char :=
  match d.category with
  | .charArray => AccessorGen.paramName "pscL".toList d.capitalizedName
  | _ => AccessorGen.paramName d.paramPrefix d.capitalizedName

/-- The type that the getter returns. -/
def returnType (d : Declaration) : List Char :=
  match d.category with
  | .pointer | .charArray => d.dataType ++ ['*']
  | _ => d.dataType

/-- The setter's parameter. -/
def param (d : Declaration) : List Char :=
  match d.category with
  | .pointer | .charArray => d.dataType ++ "* ".toList ++ d.paramName
  | category => d.dataType ++ (if category.setterByReference then " &".toList else [' ']) ++ d.paramName

/-- What the setter does: a bounded copy into a char array, an assignment otherwise. -/
def setterBody (d : Declaration) : List Char :=
  match d.category with
  | .charArray =>
    "strncpy(".toList ++ d.variableName ++ ", ".toList ++ d.paramName ++ ", sizeof(".toList ++ d.variableName
      ++ ") - 1); ".toList ++ d.variableName ++ "[sizeof(".toList ++ d.variableName ++ ") - 1] = '\\0';".toList
  | _ => d.variableName ++ " = ".toList ++ d.paramName ++ [';']

/-- The comment line, the getter and the setter, followed by an empty line. -/
def accessors (scope : Scope) (d : Declaration) : List Char :=
  "// For ".toList ++ d.variableName ++ ['\n']
    ++ scope.marker ++ d.returnType ++ [' '] ++ scope.qualifier ++ getterName d.capitalizedName
    ++ "() \x7breturn ".toList ++ d.variableName ++ "; \x7d\n".toList
    ++ scope.marker ++ "void ".toList ++ scope.qualifier ++ setterName d.capitalizedName
    ++ ['('] ++ d.param ++ ") \x7b".toList ++ d.setterBody ++ " \x7d\n\n".toList

/-- The statement that gives a member its start value. -/
def initializer (d : Declaration) : List Char :=
  match d.category with
  | .pointer => d.variableName ++ " = nullptr;\n".toList
  | .charArray => "memset(".toList ++ d.variableName ++ ", 0x00, sizeof(".toList ++ d.variableName ++ "));\n".toList
  | .primitive .bool => d.variableName ++ " = false;\n".toList
  | .primitive .char => d.variableName ++ " = '\\0';\n".toList
  | .primitive .string => d.variableName ++ " = \"\";\n".toList
  | .primitive .numeric => d.variableName ++ " = 0;\n".toList
  | .structOrClass => d.variableName ++ " = \x7b\x7d;\n".toList

end Declaration

end AccessorGen
