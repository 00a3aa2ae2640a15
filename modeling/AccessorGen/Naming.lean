import AccessorGen.Text.Uppercase

/-!
# Accessor names

Accessors are named after the part of a member name behind its last underscore, with a capital first letter:
the member `mcsi_Magi` gives `mcfn_getMagi`, `mcfn_setMagi` and a parameter such as `siL_Magi`.
-/

namespace AccessorGen

open Text

/-- The part of a name behind its last underscore; all of it if there is none. -/
def meaningfulName (name : List Char) : List Char :=
  (name.reverse.takeWhile (· ≠ '_')).reverse

/-- The name with its first character in upper case. -/
def capitalize : List Char → List Char
  | [] => []
  | c :: name => upper c ++ name

/-- The name of the getter for a capitalized name. -/
def getterName (capitalized : List Char) : List Char :=
  "mcfn_get".toList ++ capitalized

/-- The name of the setter for a capitalized name. -/
def setterName (capitalized : List Char) : List Char :=
  "mcfn_set".toList ++ capitalized

/-- The name of the setter's parameter. -/
def paramName (paramPrefix capitalized : List Char) : List Char :=
  paramPrefix ++ '_' :: capitalized

end AccessorGen
