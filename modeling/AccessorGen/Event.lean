import AccessorGen.Declaration
import AccessorGen.Diagnostic

/-!
# Log events

What a run reports about itself. An event is kept as data; `Event.level` and `Event.fields` give the form in
which a log shows it.
-/

namespace AccessorGen

open Text

/-- How important an event is. -/
inductive Event.Level where
  | trace
  | debug
  | warn
  deriving DecidableEq, Repr

/-- A log event. -/
inductive Event where
  /-- The prefix found for a member, before a pointer's `p` goes in front. -/
  | prefixInferred (variableName base : List Char) (isPointer : Bool)
  /-- A line gave a declaration. -/
  | classified (line : UInt32) (variableName : List Char) (category : Category) (paramPrefix : List Char)
  /-- A line gave a diagnostic. -/
  | rejected (line : UInt32) (kind : Diagnostic.Kind)
  /-- The counts at the end of a run, and whether inline accessors were made. -/
  | finished (declarations diagnostics : Nat) (inline : Bool)
  /-- The text had no declaration. -/
  | noDeclarations
  /-- A declaration file was read. -/
  | read (path : List Char) (bytes : Nat)
  deriving DecidableEq, Repr

namespace Event

/-- The level of an event. -/
def level : Event → Level
  | prefixInferred .. => .trace
  | classified .. | rejected .. | finished .. | read .. => .debug
  | noDeclarations => .warn

/-- A truth value in a log. -/
def flag : Bool → List Char
  | true => "true".toList
  | false => "false".toList

/-- The message of an event. -/
def message : Event → List Char
  | prefixInferred .. => "parameter prefix".toList
  | classified .. => "declaration classified".toList
  | rejected .. => "line rejected".toList
  | finished .. => "generation finished".toList
  | noDeclarations => "no declarations supplied".toList
  | read .. => "read declarations".toList

/-- The values that an event carries, by name. -/
def details : Event → List (List Char × List Char)
  | prefixInferred name base isPointer =>
    [("variable_name".toList, name), ("prefix".toList, base), ("is_pointer".toList, flag isPointer)]
  | classified line name category paramPrefix =>
    [("line".toList, decimal line.toNat), ("variable".toList, name), ("category".toList, category.label),
     ("prefix".toList, paramPrefix)]
  | rejected line kind => [("line".toList, decimal line.toNat), ("kind".toList, kind.label)]
  | finished declarations diagnostics inline =>
    [("declarations".toList, decimal declarations), ("diagnostics".toList, decimal diagnostics),
     ("inline".toList, flag inline)]
  | noDeclarations => []
  | read path bytes => [("path".toList, path), ("bytes".toList, decimal bytes)]

/-- All fields of an event, the message first. -/
def fields (e : Event) : List (List Char × List Char) :=
  ("message".toList, e.message) :: e.details

end Event

end AccessorGen
