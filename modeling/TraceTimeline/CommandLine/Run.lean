import TraceTimeline.CommandLine.Inspection
import TraceTimeline.CommandLine.Invocation
import TraceTimeline.DataDirectory
import TraceTimeline.FileSystem.Basic
import TraceTimeline.Session.Dialogue

/-!
# Running the command line

`CommandLine.run` carries out a command line up to the point where the backend is needed.  Before
anything else it makes the data directory, the log file in it and, where there is none, the settings
file.  Nothing is made for a command line that was not understood.  A settings file that cannot be
read or is not valid does not stop the program: the usual settings apply.

What is left to do is an `Outcome`; `Outcome.withoutBackend` says how each ends when the backend is
never reached.
-/

namespace TraceTimeline.CommandLine

/-- What the environment says. -/
structure Environment where
  /-- The home directory. -/
  home : Option String
  /-- The data directory. -/
  data : Option String
deriving DecidableEq, Repr

/-- How a run of the program ended. -/
structure Ending where
  exitCode : Nat
  output : String
  errors : String
deriving DecidableEq, Repr

/-- What is left to do after the files were seen to. -/
inductive Outcome where
  | finished (ending : Ending)
  | follow (settings : Settings)
  | send (settings : Settings) (request : Request)
  | startRun (settings : Settings)

namespace Ending

/-- A run that printed a text. -/
def success (output : String) : Ending := ⟨0, output, ""⟩

/-- What lies behind a reason: a single cause, or several with numbers. -/
def causesText : List String → String
  | [] => ""
  | [cause] => "\nCaused by:\n    " ++ cause ++ "\n"
  | causes =>
    "\nCaused by:\n" ++ String.join (causes.zipIdx.map fun (cause, n) =>
      "    " ++ String.ofList (Text.digits n) ++ ": " ++ cause ++ "\n")

/-- A run that failed, for a reason that may have causes. -/
def failure (reason : String) (causes : List String) : Ending where
  exitCode := 1
  output := ""
  errors := "Error: " ++ reason ++ "\n" ++ causesText causes

/-- The end of a command line that is not carried out. -/
def ofStop : Stop → Ending
  | .help level => success level.help
  | .helpOnHelp => success CommandLine.helpOnHelp
  | .version => success (programName ++ " " ++ CommandLine.version ++ "\n")
  | .complaint c => ⟨2, "", c.text⟩

/-- The end of an inspection. -/
def ofInspection : Except InspectionError Scope → Ending
  | .ok scope => success (scope.toJson.pretty ++ "\n")
  | .error e => failure e.message e.cause?.toList

end Ending

section

variable {m : Type → Type} [Monad m] [FileSystem m]

/-- Makes the directory of logs and the log file. -/
def prepare (directory : String) : m (Except SystemError Unit) := do
  match ← FileSystem.makeDirectories (DataDirectory.logDirectory directory) with
  | .error e => return .error e
  | .ok () => FileSystem.touch (DataDirectory.logFile directory)

/-- The settings of a data directory.  The settings file is made where there is none. -/
def loadSettings (directory : String) : m Settings := do
  let file := DataDirectory.settingsFile directory
  if ! (← FileSystem.present (m := m) file) then
    let _ ← FileSystem.write (m := m) file Settings.exampleText.toUTF8
  match Settings.ofFile (← FileSystem.read (m := m) file).toOption with
  | .ok s => return s
  | .error _ => return .default

/-- Carries out a task with the settings. -/
def perform (settings : Settings) : Task → m Outcome
  | .follow => return .follow settings
  | .inspect path position policy => do
    let content ← FileSystem.read path
    return .finished <| .ofInspection <|
      Inspection.ofFile settings.timelineCapacity (policy.getD settings.policy) position path
        content
  | .resume => return .send settings .resume
  | .seek id => return .send settings (.selectStep id)
  | .restart => return .startRun settings

/-- Carries out a command line, given as its words, up to where the backend is needed. -/
def run (env : Environment) (words : List String) : m Outcome := do
  match Invocation.ofWords words with
  | .error stop => return .finished (.ofStop stop)
  | .ok invocation =>
    let directory := DataDirectory.resolve invocation.dataDirectory env.data env.home
    match ← prepare (m := m) directory with
    | .error e => return .finished (.failure e.message [])
    | .ok () =>
      let settings ← loadSettings directory
      perform (settings.override invocation.httpUrl invocation.wsUrl none) invocation.task

end

/-- Why a request failed. -/
structure RequestFault where
  /-- What could not be done. -/
  step : String
  /-- Why not, the nearest reason first. -/
  reasons : List String

/-- Why a request to an address fails when the backend is never reached.  An address without a
scheme is not even tried. -/
def requestFault (address : String) : RequestFault :=
  if address.toList.contains ':' then ⟨"error sending request", []⟩
  else ⟨"builder error", ["relative URL without a base"]⟩

/-- The causes of a failed request, the nearest one first. -/
def RequestFault.causes (f : RequestFault) : List String :=
  (TransportError.http f.step).message :: f.step :: f.reasons

/-- How a run ends when the backend is never reached and the operator's input is known. -/
def Outcome.withoutBackend (input : List UInt8) : Outcome → Ending
  | .finished ending => ending
  | .follow settings =>
    let exchange := Dialogue.transcript settings.engine input
    { exitCode := 0
      output := TerminalLine.textOf exchange.lines
      errors := String.join (exchange.mistakes.map fun e => e.message ++ "\n") }
  | .send settings _ =>
    .failure ("timed out connecting to " ++ settings.wsUrl) ["deadline has elapsed"]
  | .startRun settings =>
    .failure "failed to restart backend" (requestFault settings.httpUrl).causes

end TraceTimeline.CommandLine
