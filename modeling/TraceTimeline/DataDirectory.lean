/-!
# The data directory

Where the client keeps its settings and its log: a directory named on the command line, or else one
named by the environment, or else one in the home directory.  Empty names do not count.
-/

namespace TraceTimeline.DataDirectory

def directoryName : String := ".retrace"

/-- The environment variable that names another directory. -/
def environmentName : String := "RETRACE_HOME"

/-- A relative path below a directory. -/
def join (directory path : String) : String :=
  if directory = "" ∨ directory.toList.getLast? = some '/' then directory ++ path
  else directory ++ "/" ++ path

/-- A name that is not empty. -/
def nonEmpty (s : Option String) : Option String := s.filter (· ≠ "")

/-- The data directory, from the command line, the environment and the home directory. -/
def resolve (flag env home : Option String) : String :=
  match nonEmpty flag, nonEmpty env, home with
  | some path, _, _ => path
  | none, some path, _ => path
  | none, none, some home => join home directoryName
  | none, none, none => directoryName

def settingsFile (directory : String) : String := join directory "config.toml"

def logDirectory (directory : String) : String := join directory "logs"

def logFile (directory : String) : String := join (logDirectory directory) "retrace.log"

end TraceTimeline.DataDirectory
