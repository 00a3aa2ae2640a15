import AccessorGen.FileSystem
import AccessorGen.Text.Bytes

/-!
# Hosts

A host is what a command may ask of the system it runs on. Commands are written for any host, so that the same
text runs on a real machine and on the file systems of the model (`FileSystem.host`).
-/

namespace AccessorGen

/-- The operations of a system, as actions of `m`. -/
structure Host (m : Type → Type) where
  pathExists : Path → m Bool
  isDirectory : Path → m Bool
  readFile : Path → m (Except IoError ByteArray)
  writeFile : Path → ByteArray → m (Except IoError Unit)
  makeDir : Path → m (Except IoError Unit)
  readStandardInput : m ByteArray

namespace Host

variable {m : Type → Type} [Monad m]

/-- Makes a directory and those above it that are missing. Each of the `steps` goes up one directory. -/
def makeDirsWithin (host : Host m) : (steps : Nat) → Path → m (Except IoError Unit)
  | 0, _ => return .error .notFound
  | steps + 1, p => do
    if p = [] then return .ok ()
    match ← host.makeDir p with
    | .ok () => return .ok ()
    | .error .notFound =>
      match ← host.makeDirsWithin steps (p.parent?.getD []) with
      | .error e => return .error e
      | .ok () =>
        match ← host.makeDir p with
        | .ok () => return .ok ()
        | .error e => if ← host.isDirectory p then return .ok () else return .error e
    | .error e => if ← host.isDirectory p then return .ok () else return .error e

/-- Makes a directory and those above it that are missing. -/
def makeDirs (host : Host m) (p : Path) : m (Except IoError Unit) :=
  host.makeDirsWithin (p.length + 1) p

/-- The text of the file at a path. -/
def readText (host : Host m) (p : Path) : m (Except IoError (List Char)) := do
  match ← host.readFile p with
  | .error e => return .error e
  | .ok bytes =>
    match Text.decode? bytes with
    | some s => return .ok s
    | none => return .error .invalidText

/-- Makes the file at a path hold the given text. -/
def writeText (host : Host m) (p : Path) (s : List Char) : m (Except IoError Unit) :=
  host.writeFile p (Text.encode s)

end Host

namespace FileSystem

/-- An operation that gives a new file system, as an action. -/
def change (operation : FileSystem → Except IoError FileSystem) : StateM FileSystem (Except IoError Unit) :=
  fun fs =>
    match operation fs with
    | .ok fs' => (.ok (), fs')
    | .error e => (.error e, fs)

/-- A file system as a host, with the bytes that stand on the standard input. -/
def host (standardInput : ByteArray) : Host (StateM FileSystem) where
  pathExists p := fun fs => (fs.pathExists p, fs)
  isDirectory p := fun fs => (fs.isDirectory p, fs)
  readFile p := fun fs => (fs.readFile p, fs)
  writeFile p content := change (·.writeFile p content)
  makeDir p := change (·.makeDir p)
  readStandardInput := fun fs => (standardInput, fs)

end FileSystem

end AccessorGen
