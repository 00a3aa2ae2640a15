import AccessorGen.FileSystem

/-!
# Failures

Why a file could not be read, a manifest not loaded, a command not carried out. `Failure.message` is what the
program says about it.
-/

namespace AccessorGen

/-- A file that could not be read as text. -/
structure ReadFailure where
  path : Path
  cause : IoError
  deriving DecidableEq, Repr

/-- The wording of a read failure, which includes its cause. -/
def ReadFailure.message (f : ReadFailure) : List Char :=
  "failed to read ".toList ++ f.path ++ ": ".toList ++ f.cause.message

/-- Why a manifest could not be loaded. -/
inductive LoadFailure where
  | unreadable (f : ReadFailure)
  /-- The text is no TOML, lacks the name, or has a value of the wrong type. -/
  | invalid (path : Path)
  deriving DecidableEq, Repr

/-- Why a command failed. -/
inductive Failure where
  | directoryExists (path : Path)
  | missingName
  | notCreated (path : Path) (cause : IoError)
  | notWritten (path : Path) (cause : IoError)
  | unreadable (f : ReadFailure)
  | unreadableInput (cause : IoError)
  | invalidManifest (path : Path)
  | generationFailed
  /-- A system error without more to say about it. -/
  | system (cause : IoError)
  deriving DecidableEq, Repr

/-- The wording of a failure, followed by its causes. -/
def Failure.message : Failure → List Char
  | directoryExists p => "Directory already exists: ".toList ++ p
  | missingName => "project name must not be empty".toList
  | notCreated p e => "creating ".toList ++ p ++ ": ".toList ++ e.message
  | notWritten p e => "writing ".toList ++ p ++ ": ".toList ++ e.message
  | unreadable f => f.message ++ ": ".toList ++ f.cause.message
  | unreadableInput e => "reading stdin: ".toList ++ e.message
  | invalidManifest p => "invalid manifest ".toList ++ p ++ ": not a manifest in TOML".toList
  | generationFailed => "Generation failed".toList
  | system e => e.message

/-- What a load failure means for a command. -/
def LoadFailure.toFailure : LoadFailure → Failure
  | unreadable f => .unreadable f
  | invalid p => .invalidManifest p

end AccessorGen
