/-!
# Type codes in member names

A member name in Hungarian notation carries a type code: in `mcsi_Magi` the `m` is followed by a scope letter `c`
and the code `si`. `embeddedCode?` finds the last such marker of a name, and `paramPrefix` turns its code into
what the setter's parameter starts with.
-/

namespace AccessorGen

/-- The types that a code can stand for. -/
inductive TypeCode where
  | bool
  | char
  | signedChar
  | short
  | int
  | long
  | float
  | double
  | longDouble
  | unsignedLongLong
  | unsignedLong
  | unsignedInt
  | unsignedShort
  | unsignedChar
  | classType
  deriving DecidableEq, Repr

namespace TypeCode

/-- Every code with the type it stands for. -/
def codes : List (List Char × TypeCode) :=
  [("b".toList, bool), ("c".toList, char), ("sc".toList, signedChar), ("s".toList, short), ("si".toList, short),
   ("i".toList, int), ("l".toList, long), ("f".toList, float), ("d".toList, double), ("ld".toList, longDouble),
   ("ull".toList, unsignedLongLong), ("ul".toList, unsignedLong), ("ui".toList, unsignedInt),
   ("us".toList, unsignedShort), ("uc".toList, unsignedChar), ("C".toList, classType)]

/-- The type that a code stands for. -/
def ofCode? (code : List Char) : Option TypeCode :=
  codes.lookup code

/-- What the parameter of a setter starts with, by the type of the member. -/
def paramPrefix : TypeCode → List Char
  | bool => "bL".toList
  | char => "cL".toList
  | signedChar => "scL".toList
  | short => "siL".toList
  | int => "iL".toList
  | long => "slL".toList
  | float => "fL".toList
  | double => "dL".toList
  | longDouble => "ldL".toList
  | unsignedLongLong => "ullL".toList
  | unsignedLong => "ulL".toList
  | unsignedInt => "uiL".toList
  | unsignedShort => "usL".toList
  | unsignedChar => "ucL".toList
  | classType => "CL".toList

end TypeCode

/-! ## Markers -/

/-- The code of a marker at the start of a text: `m`, a lower-case letter, a code or nothing, and an underscore.
Without a code the letter itself is the code. -/
def markerCode? : List Char → Option (List Char)
  | 'm' :: letter :: rest =>
    if letter.isLower ∧ '_' ∈ rest then
      match rest.takeWhile (· ≠ '_') with
      | [] => some [letter]
      | code => if (TypeCode.ofCode? code).isSome then some code else none
    else none
  | _ => none

/-- The code of the last marker in a text. -/
def lastMarkerCode? : List Char → Option (List Char)
  | [] => none
  | c :: s => lastMarkerCode? s <|> markerCode? (c :: s)

/-- The type code inside a member name: that of the last marker before the first line feed. -/
def embeddedCode? (name : List Char) : Option (List Char) :=
  lastMarkerCode? (name.takeWhile (· ≠ '\n'))

/-! ## Parameter prefixes -/

/-- What a parameter starts with, by the name of the member: names that start with `mcS_` hold structures, other
names tell by their type code, and a name without one counts as a class. -/
def basePrefix (name : List Char) : List Char :=
  if "mcS_".toList.isPrefixOf name then "SL".toList
  else match embeddedCode? name >>= TypeCode.ofCode? with
    | some t => t.paramPrefix
    | none => "CL".toList

/-- What the parameter of a setter starts with; for a pointer a `p` goes in front. -/
def inferPrefix (name : List Char) (isPointer : Bool) : List Char :=
  if isPointer then 'p' :: basePrefix name else basePrefix name

end AccessorGen
