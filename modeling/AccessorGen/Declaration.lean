import AccessorGen.Span

/-!
# Declarations

A line of the input is first read as a `ParsedDeclaration`, which holds what is written there, and then resolved
to a `Declaration`, which adds the names and the category that the generated code depends on.
-/

namespace AccessorGen

/-- The families of built-in types that differ in how a setter takes them and how they start out. -/
inductive Primitive where
  | bool
  | char
  | string
  | numeric
  deriving DecidableEq, Repr

/-- What a declaration is, which decides the form of its accessors and of its initializer. -/
inductive Category where
  | pointer
  | charArray
  | structOrClass
  | primitive (p : Primitive)
  deriving DecidableEq, Repr

namespace Category

/-- The name of a category. -/
def label : Category → List Char
  | pointer => "pointer".toList
  | charArray => "char array".toList
  | structOrClass => "struct/class".toList
  | primitive .bool => "bool".toList
  | primitive .char => "char".toList
  | primitive .string => "string".toList
  | primitive .numeric => "numeric".toList

/-- The setter takes its argument by reference. -/
def setterByReference : Category → Bool
  | structOrClass | primitive .string | primitive .numeric => true
  | pointer | charArray | primitive .bool | primitive .char => false

end Category

/-- A declaration as it is written, without its star. -/
structure ParsedDeclaration where
  location : Location
  /-- The line it was read from. -/
  rawLine : List Char
  dataType : List Char
  variableName : List Char
  isPointer : Bool
  arraySize : Option Nat
  deriving DecidableEq, Repr

/-- The declaration has a size in brackets. -/
def ParsedDeclaration.isArray (d : ParsedDeclaration) : Bool :=
  d.arraySize.isSome

/-- A declaration with all that its generated code needs. -/
structure Declaration extends ParsedDeclaration where
  /-- The part of the name that the accessors are named after. -/
  meaningfulName : List Char
  capitalizedName : List Char
  category : Category
  /-- What the name of the setter's parameter starts with. -/
  paramPrefix : List Char
  deriving DecidableEq, Repr

end AccessorGen
