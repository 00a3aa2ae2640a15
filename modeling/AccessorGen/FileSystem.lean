import AccessorGen.Path
import AccessorGen.Text.Bytes
import AccessorGen.Text.Decimal

/-!
# File systems

A file system is a finite map from places to directories and files. A path is followed from the root or from the
working directory, part by part, and every part needs a directory to stand in. Names and paths have a greatest
length, counted in bytes. Each operation either succeeds or gives the reason why it does not. Putting an entry
changes its own place (`get?_put_self`) and no other (`get?_put_of_ne`).
-/

namespace AccessorGen

open Text

/-- Why an operation on a file system failed. -/
inductive IoError where
  | notFound
  | notADirectory
  | isADirectory
  | alreadyExists
  /-- A name or a whole path has more bytes than the system takes. -/
  | nameTooLong
  /-- No path holds the character NUL. -/
  | nulInPath
  /-- The bytes of a file or of the standard input are not UTF-8. -/
  | invalidText
  /-- Any other error of a system, with its number and its wording. -/
  | other (code : Nat) (text : List Char)
  deriving DecidableEq, Repr

/-- The wording of an error. -/
def IoError.message : IoError → List Char
  | notFound => "No such file or directory (os error 2)".toList
  | notADirectory => "Not a directory (os error 20)".toList
  | isADirectory => "Is a directory (os error 21)".toList
  | alreadyExists => "File exists (os error 17)".toList
  | nameTooLong => "File name too long (os error 36)".toList
  | nulInPath => "file name contained an unexpected NUL byte".toList
  | invalidText => "stream did not contain valid UTF-8".toList
  | other code text => text ++ " (os error ".toList ++ decimal code ++ [')']

/-- The names that lead from the root to a file or directory. -/
abbrev Place := List (List Char)

/-- What is at a place. -/
inductive Entry where
  | directory
  | file (content : ByteArray)

instance : DecidableEq Entry
  | .directory, .directory => .isTrue rfl
  | .directory, .file _ | .file _, .directory => .isFalse nofun
  | .file a, .file b =>
    match ByteArray.decEq a b with
    | .isTrue h => .isTrue (congrArg Entry.file h)
    | .isFalse h => .isFalse fun e => h (Entry.file.inj e)

/-- The entries of a file system, each place once, and the place that relative paths start at. -/
structure FileSystem where
  entries : List (Place × Entry)
  workingDirectory : Place

namespace FileSystem

/-- What is at a place; the root is always a directory. -/
def get? (fs : FileSystem) (place : Place) : Option Entry :=
  if place = [] then some .directory else fs.entries.lookup place

/-- Puts an entry at a place. -/
def put (fs : FileSystem) (place : Place) (e : Entry) : FileSystem :=
  { fs with entries := fs.entries.filter (·.1 ≠ place) ++ [(place, e)] }

/-- After dropping the entries of a place, looking it up finds nothing. -/
theorem lookup_filter_self (entries : List (Place × Entry)) (place : Place) :
    (entries.filter (·.1 ≠ place)).lookup place = none := by
  induction entries with
  | nil => rfl
  | cons x entries ih =>
    obtain ⟨q, e⟩ := x
    by_cases h : q = place
    · simpa [h] using ih
    · have hb : (place == q) = false := by simpa using fun e => h e.symm
      simpa [h, List.lookup_cons, hb] using ih

/-- Dropping the entries of a place leaves the other places alone. -/
theorem lookup_filter_of_ne (entries : List (Place × Entry)) {place q : Place} (h : q ≠ place) :
    (entries.filter (·.1 ≠ place)).lookup q = entries.lookup q := by
  induction entries with
  | nil => rfl
  | cons x entries ih =>
    obtain ⟨r, e⟩ := x
    by_cases hr : r = place
    · subst hr
      have hb : (q == r) = false := by simpa using h
      simpa [List.lookup_cons, hb] using ih
    · by_cases hq : q = r
      · simp [hr, hq]
      · have hb : (q == r) = false := by simpa using hq
        simpa [List.lookup_cons, hr, hb] using ih

/-- What was put at a place is there. -/
theorem get?_put_self (fs : FileSystem) {place : Place} (e : Entry) (h : place ≠ []) :
    (fs.put place e).get? place = some e := by
  simp only [get?, put, if_neg h, List.lookup_append, lookup_filter_self]
  simp

/-- What is at other places stays. -/
theorem get?_put_of_ne (fs : FileSystem) {place q : Place} (e : Entry) (h : q ≠ place) :
    (fs.put place e).get? q = fs.get? q := by
  have hb : (q == place) = false := by simpa using h
  simp only [get?, put, List.lookup_append, lookup_filter_of_ne _ h]
  simp [List.lookup_cons, hb]

/-! ## Following paths -/

/-- The most bytes that a name has. -/
def nameLimit : Nat := 255

/-- The most bytes that a path has. -/
def pathLimit : Nat := 4095

/-- Succeeds if there is a directory at the place. -/
def requireDirectory (fs : FileSystem) (place : Place) : Except IoError Unit :=
  match fs.get? place with
  | some .directory => .ok ()
  | some (.file _) => .error .notADirectory
  | none => .error .notFound

/-- The place one step from a directory. -/
def step (place : Place) (part : List Char) : Place :=
  if part = [] ∨ part = ['.'] then place
  else if part = ['.', '.'] then place.dropLast
  else place ++ [part]

/-- The place at the end of the parts of a path; all that are passed have to be directories, and names are
looked up in them only if they are not too long. -/
def follow (fs : FileSystem) (place : Place) : List (List Char) → Except IoError Place
  | [] => .ok place
  | part :: parts =>
    match fs.requireDirectory place with
    | .error e => .error e
    | .ok () => if nameLimit < byteLength part then .error .nameTooLong else fs.follow (step place part) parts

/-- Where a path starts, and its parts. -/
def start (fs : FileSystem) (p : Path) : Except IoError (Place × List (List Char)) :=
  if p.contains '\x00' then .error .nulInPath
  else if pathLimit < byteLength p then .error .nameTooLong
  else if p = [] then .error .notFound
  else if p.isAbsolute then .ok ([], (p.splitOn '/').tail)
  else .ok (fs.workingDirectory, p.splitOn '/')

/-- The place that a path leads to, with what is there. -/
def find (fs : FileSystem) (p : Path) : Except IoError (Place × Entry) :=
  match fs.start p with
  | .error e => .error e
  | .ok (place, parts) =>
    match fs.follow place parts with
    | .error e => .error e
    | .ok place =>
      match fs.get? place with
      | some e => .ok (place, e)
      | none => .error .notFound

/-- The last part of a path, if it is one. -/
inductive LastPart where
  /-- A name in a directory, and whether slashes follow it. -/
  | name (dir : Place) (text : List Char) (slashes : Bool)
  /-- The root, `.` or `..`. -/
  | special

/-- The directory that the last part of a path is in, and that part. -/
def findLast (fs : FileSystem) (p : Path) : Except IoError LastPart :=
  match fs.start p with
  | .error e => .error e
  | .ok (place, parts) =>
    match parts.reverse.dropWhile (· = []) with
    | [] => .ok .special
    | last :: before =>
      match fs.follow place before.reverse with
      | .error e => .error e
      | .ok dir =>
        match fs.requireDirectory dir with
        | .error e => .error e
        | .ok () =>
          if last = ['.'] ∨ last = ['.', '.'] then .ok .special
          else .ok (.name dir last (parts.getLast? = some []))

/-! ## Operations -/

/-- Something is at the path. -/
def pathExists (fs : FileSystem) (p : Path) : Bool :=
  match fs.find p with
  | .ok _ => true
  | .error _ => false

/-- A directory is at the path. -/
def isDirectory (fs : FileSystem) (p : Path) : Bool :=
  match fs.find p with
  | .ok (_, .directory) => true
  | _ => false

/-- The content of the file at a path. -/
def readFile (fs : FileSystem) (p : Path) : Except IoError ByteArray :=
  match fs.find p with
  | .ok (_, .file content) => .ok content
  | .ok (_, .directory) => .error .isADirectory
  | .error e => .error e

/-- Makes the file at a path hold the given content. -/
def writeFile (fs : FileSystem) (p : Path) (content : ByteArray) : Except IoError FileSystem :=
  match fs.findLast p with
  | .error e => .error e
  | .ok .special => .error .isADirectory
  | .ok (.name dir text slashes) =>
    if slashes then .error .isADirectory
    else if nameLimit < byteLength text then .error .nameTooLong
    else if fs.get? (dir ++ [text]) = some .directory then .error .isADirectory
    else .ok (fs.put (dir ++ [text]) (.file content))

/-- Makes a directory, in one that is there. -/
def makeDir (fs : FileSystem) (p : Path) : Except IoError FileSystem :=
  match fs.findLast p with
  | .error e => .error e
  | .ok .special => .error .alreadyExists
  | .ok (.name dir text _) =>
    if nameLimit < byteLength text then .error .nameTooLong
    else if (fs.get? (dir ++ [text])).isSome then .error .alreadyExists
    else .ok (fs.put (dir ++ [text]) .directory)

/-- Removes what is at a path, a directory with all that is in it. -/
def removeTree (fs : FileSystem) (p : Path) : Except IoError FileSystem :=
  match fs.find p with
  | .error e => .error e
  | .ok (place, _) => .ok { fs with entries := fs.entries.filter fun (q, _) => !place.isPrefixOf q }

/-- The entries below the working directory that another file system does not have, with their places from
there. -/
def changesSince (fs before : FileSystem) : List (Place × Entry) :=
  fs.entries.filterMap fun (place, e) =>
    if fs.workingDirectory.isPrefixOf place ∧ before.get? place ≠ some e then
      some (place.drop fs.workingDirectory.length, e)
    else none

/-- A file system that has nothing but an empty working directory below the root. -/
def empty : FileSystem :=
  ⟨[(["work".toList], .directory)], ["work".toList]⟩

end FileSystem

end AccessorGen
