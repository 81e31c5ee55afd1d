/-!
# File systems

The few operations on files that the command line needs.  They are a class, so that the command line
runs on the files of the system as well as on a tree of files in memory.
-/

namespace TraceTimeline

/-- Why an operation on a file failed. -/
inductive SystemError where
  | notFound
  | alreadyThere
  | notDirectory
  | isDirectory
  /-- The path, or a name in it, is longer than the system takes. -/
  | nameTooLong
  /-- The content of the file is not text. -/
  | notText
  | other (description : String)
deriving DecidableEq, Repr

/-- The wording of an error. -/
def SystemError.message : SystemError → String
  | .notFound => "No such file or directory (os error 2)"
  | .alreadyThere => "File exists (os error 17)"
  | .notDirectory => "Not a directory (os error 20)"
  | .isDirectory => "Is a directory (os error 21)"
  | .nameTooLong => "File name too long (os error 36)"
  | .notText => "stream did not contain valid UTF-8"
  | .other description => description

/-- The operations on files. -/
class FileSystem (m : Type → Type) where
  /-- Makes a directory and those above it, as far as they are not there yet. -/
  makeDirectories (path : String) : m (Except SystemError Unit)
  /-- Makes an empty file unless there is one, to which text may then be added. -/
  touch (path : String) : m (Except SystemError Unit)
  /-- Whether a path leads to a file or a directory. -/
  present (path : String) : m Bool
  /-- The content of a file. -/
  read (path : String) : m (Except SystemError ByteArray)
  /-- Gives a file a content, and makes the file if it is not there yet. -/
  write (path : String) (content : ByteArray) : m (Except SystemError Unit)

/-- The content of a file as text. -/
def fileText (content : ByteArray) : Except SystemError String :=
  match String.fromUTF8? content with
  | some text => .ok text
  | none => .error .notText

end TraceTimeline
