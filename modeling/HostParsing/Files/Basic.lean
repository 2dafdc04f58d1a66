/-!
# Reading files

What the system tells about a path. It is asked for two things, each with an answer of
its own: whether there is anything at the path, and the bytes of the file there. Neither
follows from the other. What is there may be no file, or may not be read, and the system
answers that nothing is there as soon as it cannot look, for whatever reason.
-/

namespace HostParsing

/-- Why a path could not be read or written. -/
inductive Problem
  | notFound
  | alreadyExists
  | notADirectory
  | isADirectory
  | nameTooLong
  /-- The path has a NUL in it, with which the system ends a path. -/
  | containsNul
  /-- The content is not text in UTF-8. -/
  | notText
  /-- Another problem, as the system tells it. -/
  | other (detail : String)
deriving DecidableEq, Repr

namespace Problem

/-- How the system tells a problem. -/
def message : Problem → String
  | notFound => "No such file or directory (os error 2)"
  | alreadyExists => "File exists (os error 17)"
  | notADirectory => "Not a directory (os error 20)"
  | isADirectory => "Is a directory (os error 21)"
  | nameTooLong => "File name too long (os error 36)"
  | containsNul => "file name contained an unexpected NUL byte"
  | notText => "stream did not contain valid UTF-8"
  | other detail => detail

end Problem

/-- What the system tells about a path. -/
structure Sight where
  /-- Whether it finds anything there. -/
  found : Bool
  /-- What reading the path gives. -/
  content : Except Problem ByteArray

/-- What the system tells about all paths. -/
abbrev Files := String → Sight

namespace Files

/-- Whether there is anything at a path. -/
def holds (files : Files) (path : String) : Bool :=
  (files path).found

/-- The text at a path. -/
def readText (files : Files) (path : String) : Except Problem String := do
  match String.fromUTF8? (← (files path).content) with
  | some text => .ok text
  | none => .error .notText

end Files
end HostParsing
