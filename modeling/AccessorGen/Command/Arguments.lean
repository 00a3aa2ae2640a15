import AccessorGen.Path

/-!
# Command lines

The first word of a command line names a command, and the others are its arguments. Options may stand before or
after an argument; after `--` all words are arguments.
-/

namespace AccessorGen

/-- What the program can be asked to do. -/
inductive Command where
  /-- Start a project in a new directory. -/
  | new (path : Path)
  /-- Write the files of a project. -/
  | build (path : Path)
  /-- Print the code for a file of declarations, or for the standard input. -/
  | gen (file : Option Path) (className : Option (List Char))
  /-- Print the supported types. -/
  | types
  deriving DecidableEq, Repr

namespace Command

/-- The arguments of a command, and its class if the option was given. -/
structure Arguments where
  positional : List (List Char)
  className : Option (List Char)

/-- A word that is an option by its form; a lone dash is not. -/
def isOption (word : List Char) : Bool :=
  word.head? = some '-' && word ≠ ['-']

/-- The value of the option `--class=value`. -/
def classValue? (word : List Char) : Option (List Char) :=
  if "--class=".toList.isPrefixOf word then some (word.drop "--class=".toList.length) else none

/-- Sorts words into arguments and the class option, which may come once. -/
def Arguments.read (className : Option (List Char)) : List (List Char) → Option Arguments
  | [] => some ⟨[], className⟩
  | word :: words =>
    if word = "--".toList then some ⟨words, className⟩
    else if word = "--class".toList then
      match className, words with
      | none, v :: words => if isOption v then none else read (some v) words
      | _, _ => none
    else if isOption word then
      match className, classValue? word with
      | none, some v => read (some v) words
      | _, _ => none
    else (read className words).map fun a => { a with positional := word :: a.positional }

/-- The command that the words of a command line ask for. Paths must not be empty. -/
def ofWords? : List (List Char) → Option Command
  | [] => none
  | name :: words => do
    let ⟨positional, className⟩ ← Arguments.read none words
    match String.ofList name, positional, className with
    | "new", [p], none => some (new p)
    | "build", [], none => some (build ['.'])
    | "build", [p], none => if p = [] then none else some (build p)
    | "gen", [], className => some (gen none className)
    | "gen", [p], className => if p = [] then none else some (gen (some p) className)
    | "types", [], none => some types
    | _, _, _ => none

end Command

end AccessorGen
