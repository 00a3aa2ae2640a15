/-!
# Paths

A path is a text with `/` between its parts. Paths are joined and printed as they are, without normalising;
what they mean depends on their components only, where repeated and trailing slashes do not count, nor does a
`.` that is not the first part of a relative path.
-/

namespace AccessorGen

/-- A path as it is written. -/
abbrev Path := List Char

namespace Path

/-- A part of a path that means something. -/
inductive Component where
  | root
  /-- The directory itself, `.`; only at the start of a path. -/
  | current
  /-- The directory above, `..`. -/
  | parent
  | name (text : List Char)
  deriving DecidableEq, Repr

/-- The path starts at the root. -/
def isAbsolute (p : Path) : Bool :=
  p.head? = some '/'

/-- The component that a part of a path other than the first stands for; an empty part and `.` stand for none. -/
def component? (part : List Char) : Option Component :=
  if part = [] ∨ part = ['.'] then none
  else if part = ['.', '.'] then some .parent
  else some (.name part)

/-- The components of a path. -/
def components (p : Path) : List Component :=
  let parts := p.splitOn '/'
  let start : List Component :=
    if p.isAbsolute then [.root] else if parts.head? = some ['.'] then [.current] else []
  start ++ parts.filterMap component?

/-- A path inside another; an absolute path stays what it is. -/
def join (base p : Path) : Path :=
  if p.isAbsolute then p
  else if base = [] ∨ base.getLast? = some '/' then base ++ p
  else base ++ '/' :: p

/-- The last component if it is a name. -/
def fileName? (p : Path) : Option (List Char) :=
  match p.components.getLast? with
  | some (.name text) => some text
  | _ => none

/-- The path without its last component, and without what does not count before it. The root and the empty path
have no parent. -/
def parent? (p : Path) : Option Path :=
  match p.splitOn '/' with
  | [] => none
  | first :: later =>
    let ignored (part : List Char) : Bool := (component? part).isNone
    match later.reverse.dropWhile ignored with
    | _ :: before =>
      match (before.dropWhile ignored).reverse with
      | [] => if p.isAbsolute then some ['/'] else some first
      | kept => some (['/'].intercalate (first :: kept))
    | [] => if first = [] then none else some []

/-- Two paths are the same when they have the same components. -/
def same (p q : Path) : Bool :=
  p.components == q.components

end Path

end AccessorGen
