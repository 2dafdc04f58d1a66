import HostParsing.Files.Basic
/-!
# Paths

A path as text, and what its text alone tells: the names along it, whether it
starts at the root, whether it ends in a slash, and the directory that its last
name stands in. Slashes in a row count as one, and a dot stands for the directory
before it. `check` refuses the texts that no system call takes.
-/

namespace HostParsing.Path

/-- The most bytes of a path. -/
def byteLimit : Nat := 4095

/-- The most bytes of a name. -/
def nameLimit : Nat := 255

/-- Refuse a path that the system would not look at. -/
def check (path : String) : Except Problem Unit :=
  if path.toList.contains '\x00' then .error .containsNul
  else if path = "" then .error .notFound
  else if byteLimit < path.utf8ByteSize then .error .nameTooLong
  else .ok ()

/-- What stands before, between and behind the slashes of a text; `part` is what
stands in front of it, the last character first. -/
def split (part : List Char) : List Char → List String
  | [] => [String.ofList part.reverse]
  | c :: rest =>
    if c = '/' then
      String.ofList part.reverse :: split [] rest
    else
      split (c :: part) rest

/-- What stands between the slashes of a path, which may be nothing. -/
def parts (path : String) : List String :=
  split [] path.toList

/-- The names along a path. -/
def names (path : String) : List String :=
  (parts path).filter (· ≠ "")

/-- Whether a path starts at the root. -/
def isAbsolute (path : String) : Bool :=
  path.toList.head? = some '/'

/-- Whether a path ends in a slash. -/
def endsInSlash (path : String) : Bool :=
  path.toList.getLast? = some '/'

/-- Whether a part of a path leads no further. -/
def isIdle (part : String) : Bool :=
  part = "" || part = "."

/-- The path without its last name. Dots and slashes at the end do not count, neither
before the name nor behind it. It is empty where there is nothing but the name, or
only the root in front of it. -/
def directory (path : String) : String :=
  let above := ((parts path).reverse.dropWhile isIdle).drop 1
  "/".intercalate (above.dropWhile isIdle).reverse

end HostParsing.Path
