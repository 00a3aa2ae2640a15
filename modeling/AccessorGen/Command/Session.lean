import AccessorGen.Command.Failure
import AccessorGen.Diagnostic.Format
import AccessorGen.Host

/-!
# Sessions

A session is what a command does: it prints, uses the host, and may fail; what it printed before a failure stays.
On a file system of the model, `Session.exec` runs a session, with one equation for each way to build one
(`exec_bind`, `exec_attempt`, …).
-/

namespace AccessorGen

/-- What a command has printed. -/
structure Output where
  stdout : List Char := []
  stderr : List Char := []
  deriving DecidableEq, Repr

/-- The actions of a command: they print, use the host, and may fail. -/
abbrev Session (m : Type → Type) := ExceptT Failure (StateT Output m)

/-- What a command leaves. -/
structure Report where
  output : Output
  failure : Option Failure
  deriving DecidableEq, Repr

namespace Report

/-- Success is 0, failure 1. -/
def exitCode (r : Report) : UInt32 :=
  if r.failure.isSome then 1 else 0

/-- All that goes to the standard error: what was printed there, then the failure. -/
def stderr (r : Report) : List Char :=
  r.output.stderr ++ match r.failure with
    | some f => "error: ".toList ++ f.message ++ ['\n']
    | none => []

end Report

namespace Session

variable {m : Type → Type} [Monad m]

/-- Prints to the standard output. -/
def print (s : List Char) : Session m Unit :=
  modify fun o => { o with stdout := o.stdout ++ s }

/-- Prints diagnostics to the standard error, each with its source line. -/
def printDiagnostics (source origin : List Char) (diagnostics : List Diagnostic) : Session m Unit :=
  modify fun o => { o with stderr := o.stderr ++ diagnostics.flatMap fun d => d.format source origin ++ ['\n'] }

/-- Uses the host; an error becomes a failure of the command. -/
def attempt {α ε : Type} (failure : ε → Failure) (action : m (Except ε α)) : Session m α := do
  match ← (action : m (Except ε α)) with
  | .ok a => return a
  | .error e => throw (failure e)

/-- Runs the actions of a command. -/
def report (s : Session m Unit) : m Report := do
  match ← (s.run).run {} with
  | (.ok (), output) => return ⟨output, none⟩
  | (.error f, output) => return ⟨output, some f⟩

end Session

/-! ## On a file system -/

namespace Session

/-- Runs a session on a file system of the model, from what was printed before. -/
def exec {α : Type} (s : Session (StateM FileSystem) α) (o : Output) (fs : FileSystem) :
    Except Failure α × Output × FileSystem :=
  let ((r, o'), fs') := (s.run.run o).run fs
  (r, o', fs')

variable {α β ε : Type} (o : Output) (fs : FileSystem)

@[simp] theorem exec_pure (a : α) : exec (pure a) o fs = (.ok a, o, fs) := rfl

@[simp] theorem exec_throw (f : Failure) : exec (throw f : Session (StateM FileSystem) α) o fs = (.error f, o, fs) := rfl

@[simp] theorem exec_print (t : List Char) :
    exec (print t) o fs = (.ok (), { o with stdout := o.stdout ++ t }, fs) := rfl

/-- An action of the host prints nothing. -/
@[simp] theorem exec_lift (action : StateM FileSystem α) :
    exec (liftM action) o fs = (.ok (action.run fs).1, o, (action.run fs).2) := rfl

/-- A session goes on where the one before it stopped, unless that failed. -/
theorem exec_bind (s : Session (StateM FileSystem) α) (k : α → Session (StateM FileSystem) β) :
    exec (s >>= k) o fs = match exec s o fs with
      | (.ok a, o', fs') => exec (k a) o' fs'
      | (.error f, o', fs') => (.error f, o', fs') := by
  simp only [exec]
  rw [ExceptT.run_bind]
  simp only [StateT.run, bind, StateT.bind]
  rcases ExceptT.run s o fs with ⟨⟨r, o'⟩, fs'⟩
  cases r <;> rfl

/-- An error of the host is a failure, and the file system is what the host left. -/
theorem exec_attempt (failure : ε → Failure) (action : StateM FileSystem (Except ε α)) :
    exec (attempt failure action) o fs = match action.run fs with
      | (.ok a, fs') => (.ok a, o, fs')
      | (.error e, fs') => (.error (failure e), o, fs') := by
  simp only [attempt, exec_bind, exec_lift]
  rcases action.run fs with ⟨r, fs'⟩
  cases r <;> rfl

/-- The report of a session holds all that it printed, and its failure. -/
theorem run_report (s : Session (StateM FileSystem) Unit) :
    s.report.run fs = match exec s {} fs with
      | (.ok (), o, fs') => (⟨o, none⟩, fs')
      | (.error f, o, fs') => (⟨o, some f⟩, fs') := by
  simp only [report, exec, StateT.run_bind]
  simp only [StateT.run, bind]
  rcases s.run {} fs with ⟨⟨r, o'⟩, fs'⟩
  cases r <;> rfl

end Session

end AccessorGen
