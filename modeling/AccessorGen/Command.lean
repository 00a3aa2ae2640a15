import AccessorGen.Command.Arguments
import AccessorGen.Command.Session
import AccessorGen.Generate
import AccessorGen.Manifest

/-!
# Commands

What the program does: `new` starts a project, `build` writes its files, `gen` prints the code for a file or the
standard input, `types` lists what is supported. A command leaves a `Report`: what it printed, and why it failed
if it did. What was printed or written before a failure stays.
-/

namespace AccessorGen

open Text

/-! ## Reading -/

section Reading

variable {m : Type → Type} [Monad m] (host : Host m)

/-- The text of a file of declarations, and the event that tells of it. -/
def readDeclarations (p : Path) : m (Except ReadFailure (List Char × Event)) := do
  match ← host.readText p with
  | .ok s => return .ok (s, .read p (byteLength s))
  | .error e => return .error ⟨p, e⟩

/-- The manifest in a file. -/
def loadManifest (p : Path) : m (Except LoadFailure Manifest) := do
  match ← host.readText p with
  | .error e => return .error (.unreadable ⟨p, e⟩)
  | .ok s =>
    match Manifest.ofToml? s with
    | some manifest => return .ok manifest
    | none => return .error (.invalid p)

end Reading

/-! ## The commands -/

/-- What is said when there is no class for inline accessors. -/
def inlineSkipped : List Char :=
  "No class name provided - inline version skipped.".toList

/-- The declarations of a new project. -/
def sampleDeclarations : List Char :=
  ("int mcsi_Magi;\n" ++
   "bool mb_Active;\n" ++
   "char mcac_Buf[32];\n" ++
   "SResponse mcS_Response;\n" ++
   "CHello *pmeC_Hello;\n").toList

/-- The manifest of a new project, under a line that shows how to name a class. -/
def sampleManifest (name : List Char) : List Char :=
  "# class = \"CMyClass\"   # uncomment to generate inline accessors\n".toList ++ Manifest.toToml { name }

/-- What is supported, and how names are made. -/
def supportedTypes : List Char :=
  ("Supported data types:\n" ++
   "  Primitive types: int, bool, char, float, double, long double, short, long\n" ++
   "  Standard types:  string\n" ++
   "  Arrays:          char arrays with size, e.g. char mcac_Buf[32];\n" ++
   "  Structures:      SResponse mcS_Response; (uses SL_ prefix)\n" ++
   "  Pointers:        any pointer, e.g. CHello *pmeC_Hello;\n" ++
   "  Custom types:    any user-defined class/struct\n" ++
   "\n" ++
   "Naming convention:\n" ++
   "  The generator takes the name after the last underscore:\n" ++
   "  int mcsi_Magi;  ->  mcfn_getMagi() / mcfn_setMagi(int &siL_Magi)\n").toList

/-- The project that a path means: that of the manifest it names, or the directory itself. -/
def projectRoot (p : Path) : Path :=
  if p.fileName? = some Manifest.fileName then p.parent?.getD ['.'] else p

/-- The generated code in sections, as `gen` prints it. -/
def Generated.report (g : Generated) (className : Option (List Char)) : List Char :=
  "// ===== Generated Getters/Setters =====\n".toList ++ g.accessors
    ++ (match g.inline with
      | .scoped s => "// ===== Inline (with ".toList ++ trim (className.getD []) ++ "::) =====\n".toList ++ s
      | .skipped => "// ".toList ++ inlineSkipped ++ "\n\n".toList)
    ++ "// ===== Initialization Code =====\n".toList ++ g.initializers

namespace Command

section Actions

variable {m : Type → Type} [Monad m] (host : Host m)

/-- Starts a project in a directory that is not there yet. -/
def runNew (p : Path) : Session m Unit := do
  if ← host.pathExists p then throw (.directoryExists p)
  let some name := p.fileName? | throw .missingName
  Session.attempt (.notCreated p) (host.makeDirs p)
  Session.attempt .system (host.writeText (p.join Manifest.fileName) (sampleManifest name))
  Session.attempt .system (host.writeText (Manifest.inputPath { name } p) sampleDeclarations)
  Session.print ("Created project ".toList ++ name ++ ['\n'])

/-- Generates code and prints the diagnostics; errors among them are a failure. -/
def generateReporting (source origin : List Char) (className : Option (List Char)) : Session m Generated := do
  let g := generate source className
  Session.printDiagnostics source origin g.diagnostics
  if g.hasErrors then throw .generationFailed
  return g

/-- Writes a generated file and says so. -/
def writeOutput (p : Path) (s : List Char) : Session m Unit := do
  Session.attempt (.notWritten p) (host.writeText p s)
  Session.print ("Wrote ".toList ++ p ++ ['\n'])

/-- Writes the generated files of a project, in a directory that is made for them. -/
def writeOutputs (root : Path) (output : OutputPaths) (g : Generated) : Session m Unit := do
  Session.attempt .system (host.makeDirs (output.dirPath root))
  writeOutput host (output.accessorsPath root) g.accessors
  match g.inline with
  | .scoped s => writeOutput host (output.inlinePath root) s
  | .skipped => Session.print (inlineSkipped ++ ['\n'])
  writeOutput host (output.initPath root) g.initializers

/-- Builds a project: generates code from its declarations and writes it. -/
def runBuild (p : Path) : Session m Unit := do
  let root := projectRoot p
  let manifest ← Session.attempt LoadFailure.toFailure (loadManifest host (root.join Manifest.fileName))
  let input := manifest.inputPath root
  let (source, _) ← Session.attempt .unreadable (readDeclarations host input)
  let g ← generateReporting source input manifest.inlineClass
  writeOutputs host root manifest.output g

/-- The text on the standard input. -/
def readInput : m (Except IoError (List Char)) := do
  match decode? (← host.readStandardInput) with
  | some s => return .ok s
  | none => return .error .invalidText

/-- The declarations to print code for, and what they are called: those of a file, or of the standard input if
there is no file or its path is a dash. -/
def genSource : Option Path → Session m (List Char × List Char)
  | some p => do
    if p.same ['-'] then return (← Session.attempt .unreadableInput (readInput host), "<stdin>".toList)
    let (source, _) ← Session.attempt .unreadable (readDeclarations host p)
    return (source, p)
  | none => do
    return (← Session.attempt .unreadableInput (readInput host), "<stdin>".toList)

/-- Prints the code for declarations. -/
def runGen (file : Option Path) (className : Option (List Char)) : Session m Unit := do
  let (source, origin) ← genSource host file
  let g ← generateReporting source origin className
  Session.print (g.report className)

/-- Runs a command on a host. -/
def run : Command → m Report
  | .new p => (runNew host p).report
  | .build p => (runBuild host p).report
  | .gen file className => (runGen host file className).report
  | .types => (Session.print supportedTypes).report

end Actions

end Command

end AccessorGen
