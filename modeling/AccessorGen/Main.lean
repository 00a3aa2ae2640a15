import AccessorGen.Command

/-!
# The program

The command line on a real machine. All decisions are made by `Command.ofWords?` and `Command.run`; this module
gives them the files, the standard streams and the exit code.
-/

namespace AccessorGen

/-- The number and the wording of an error of the machine. -/
def errorNumber : IO.Error → UInt32 × String
  | .alreadyExists _ n s | .invalidArgument _ n s | .permissionDenied _ n s | .resourceExhausted _ n s
  | .inappropriateType _ n s | .noSuchThing _ n s => (n, s)
  | .interrupted _ n s | .noFileOrDirectory _ n s => (n, s)
  | .otherError n s | .resourceBusy n s | .resourceVanished n s | .unsupportedOperation n s | .hardwareFault n s
  | .unsatisfiedConstraints n s | .illegalOperation n s | .protocolError n s | .timeExpired n s => (n, s)
  | .unexpectedEof => (0, "unexpected end of file")
  | .userError s => (0, s)

/-- The error that a number stands for. -/
def IoError.ofMachine (e : IO.Error) : IoError :=
  match errorNumber e with
  | (2, _) => .notFound
  | (17, _) => .alreadyExists
  | (20, _) => .notADirectory
  | (21, _) => .isADirectory
  | (36, _) => .nameTooLong
  | (n, s) => .other n.toNat s.toList

/-- Uses a path on the machine and catches what goes wrong. -/
def withPath {α : Type} (p : Path) (action : String → IO α) : IO (Except IoError α) := do
  if p.contains '\x00' then return .error .nulInPath
  try return .ok (← action (String.ofList p)) catch e => return .error (.ofMachine e)

/-- The machine that the program runs on. -/
def machine : Host IO where
  pathExists p := do
    return match ← withPath p fun s => IO.FS.realPath s with
      | .ok _ => true
      | .error _ => false
  isDirectory p := do
    match ← withPath p fun s => do (← IO.FS.realPath s).isDir with
    | .ok b => return b
    | .error _ => return false
  readFile p := withPath p fun s => IO.FS.readBinFile s
  writeFile p content := withPath p fun s => IO.FS.writeBinFile s content
  makeDir p := withPath p fun s => IO.FS.createDir s
  readStandardInput := do (← IO.getStdin).readBinToEnd

/-- What is said about a command line that asks for nothing the program can do. -/
def usage : String :=
  "usage: gsgen new NAME | build [PATH] | gen [FILE] [--class NAME] | types\n"

end AccessorGen

open AccessorGen in
/-- Runs the command that the arguments ask for; the exit code is 2 if they ask for none. -/
def main (args : List String) : IO UInt32 := do
  match Command.ofWords? (args.map String.toList) with
  | none =>
    (← IO.getStderr).putStr usage
    return 2
  | some command =>
    let report ← command.run machine
    (← IO.getStdout).putStr (String.ofList report.output.stdout)
    (← IO.getStderr).putStr (String.ofList report.stderr)
    return report.exitCode
