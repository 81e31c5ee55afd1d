import TraceTimeline.CommandLine.Run

/-!
# The program

The outermost layer: the files of the system, the operator's terminal, and the end of the process.
Everything else is decided in `CommandLine.run` and in `Dialogue`.  The program is built without a
network connection, so a backend is never reached.
-/

namespace TraceTimeline.Main

/-- The reason that an error number stands for, if it is one of those that are told apart.  Some
calls of the system report the number with its sign changed. -/
def reasonOfNumber? (code : UInt32) : Option SystemError :=
  match min code (0 - code) with
  | 20 => some .notDirectory
  | 21 => some .isDirectory
  | 36 => some .nameTooLong
  | _ => none

/-- The reason of an error that the system reports. -/
def reasonOf (e : IO.Error) : SystemError :=
  match e with
  | .noFileOrDirectory .. => .notFound
  | .alreadyExists .. => .alreadyThere
  | .inappropriateType _ code _ => (reasonOfNumber? code).getD (.other (toString e))
  | .invalidArgument _ code _ => (reasonOfNumber? code).getD (.other (toString e))
  | _ => .other (toString e)

/-- Carries out an action on the system, with its error as a value. -/
def attempt {α : Type} (action : IO α) : IO (Except SystemError α) := do
  match ← action.toBaseIO with
  | .ok a => return .ok a
  | .error e => return .error (reasonOf e)

/-- Makes one directory, if it is not there yet. -/
def makeDirectory (path : String) : IO (Except SystemError Unit) := do
  match ← attempt (IO.FS.createDir path) with
  | .error .alreadyThere => do
    match ← attempt (IO.FS.readBinFile path) with
    | .error .isDirectory => return .ok ()
    | _ => return .error .alreadyThere
  | made => return made

/-- The paths of the directories that lead to a path, and the path itself. -/
def pathsTo (path : String) : List String :=
  let parts := path.splitOn "/"
  ((List.range parts.length).map fun n => String.intercalate "/" (parts.take (n + 1))).filter
    (· ≠ "")

/-- Makes directories one after another.  What counts is whether the last one is there then. -/
def makeAll (paths : List String) : IO (Except SystemError Unit) :=
  paths.foldlM (fun _ path => makeDirectory path) (.ok ())

instance : FileSystem IO where
  makeDirectories path := makeAll (pathsTo path)
  touch path := attempt (discard (IO.FS.Handle.mk path .append))
  present path := do
    match ← attempt (discard (IO.FS.Handle.mk path .read)) with
    | .error .notFound => return false
    | .error .notDirectory => return false
    | _ => return true
  read path := attempt (IO.FS.readBinFile path)
  write path content := attempt (IO.FS.writeBinFile path content)

/-- Shows what happened in an exchange. -/
def showExchange (e : Exchange) : IO Unit := do
  let output ← IO.getStdout
  output.putStr (TerminalLine.textOf e.lines)
  output.flush
  for mistake in e.mistakes do
    IO.eprintln mistake.message

/-- Talks to the operator until the session is over. -/
partial def converse (input : IO.FS.Stream) (d : Dialogue) : IO Unit := do
  if d.session.finished then return ()
  let bytes ← input.read 1
  let now ← IO.monoMsNow
  let (d, e) :=
    if bytes.isEmpty then d.endInput now else d.type now bytes.data.toList
  showExchange e
  converse input d

/-- Does what is left to do, and gives the exit code. -/
def conclude : CommandLine.Outcome → IO UInt32
  | .follow settings => do
    let (d, e) := Dialogue.start settings.engine ⟨[], []⟩
    showExchange e
    converse (← IO.getStdin) d
    return 0
  | outcome => do
    let ending := outcome.withoutBackend []
    IO.print ending.output
    IO.eprint ending.errors
    return ending.exitCode.toUInt32

end TraceTimeline.Main

open TraceTimeline in
def main (words : List String) : IO UInt32 := do
  let env : CommandLine.Environment := {
    home := ← IO.getEnv "HOME"
    data := ← IO.getEnv DataDirectory.environmentName }
  Main.conclude (← CommandLine.run env words)
