/-!
# TOML values

A document is a table; tables hold values by key, among them arrays and further tables. Each table remembers how
it came to be, because that decides who may still add to it.
-/

namespace AccessorGen.Toml

/-- A key of a table. -/
abbrev Key := List Char

/-- A calendar date. -/
structure Date where
  year : Nat
  month : Nat
  day : Nat
  deriving DecidableEq, Repr

/-- A time of day; the digits after the decimal point are kept as written. -/
structure Time where
  hour : Nat
  minute : Nat
  second : Nat
  fraction : List Char
  deriving DecidableEq, Repr

/-- A date, a time or both, and for both possibly an offset from UTC in minutes. -/
structure DateTime where
  date : Option Date
  time : Option Time
  offset : Option Int
  deriving DecidableEq, Repr

/-- A number with a fractional part or an exponent, exactly as written. -/
inductive Real where
  /-- The mantissa times ten to the exponent. -/
  | finite (negative : Bool) (mantissa : Nat) (exponent : Int)
  | infinity (negative : Bool)
  | notANumber
  deriving DecidableEq, Repr

/-- How a table came to be. -/
inductive TableOrigin where
  /-- It was written in braces, and is closed. -/
  | inline
  /-- It has a header of its own, or is the document. -/
  | header
  /-- The header of a table below it called for it. -/
  | implied
  /-- A dotted key called for it. -/
  | dotted
  deriving DecidableEq, Repr

/-- A table that no header named yet. -/
def TableOrigin.isImplicit : TableOrigin → Bool
  | inline | header => false
  | implied | dotted => true

/-- A value in a document. -/
inductive Value where
  | string (text : List Char)
  | integer (n : Int)
  | real (x : Real)
  | boolean (b : Bool)
  | dateTime (t : DateTime)
  | array (items : List Value)
  | table (origin : TableOrigin) (entries : List (Key × Value))
  /-- An array of tables made by headers in double brackets. -/
  | tables (elements : List (List (Key × Value)))

/-- The entries of a table, in the order of their keys' first appearance. -/
abbrev Entries := List (Key × Value)

end AccessorGen.Toml
