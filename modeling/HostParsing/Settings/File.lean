import HostParsing.Files.Tree
import HostParsing.Settings.Basic
/-!
# The settings file

Where settings are kept, and how they are loaded from a file and saved to one. A
file that is not there is not an error: there are no settings then. Saving makes
the directories that the path lacks and replaces what the file held. `loadIn` and
`saveIn` do so in any format, `load` and `save` in the format of this library.
-/

namespace HostParsing.Settings

/-- The path of the settings file below a user's home. -/
def path (home : String) : String :=
  home ++ "/.config/ts-bridge/config.toml"

/-- Why settings could not be loaded. -/
inductive LoadFault
  | unreadable (path : String) (problem : Problem)
  /-- The file is not TOML, or holds a setting of the wrong type. -/
  | malformed (path : String)
deriving DecidableEq, Repr

/-- The text of a fault. -/
def LoadFault.message : LoadFault → String
  | unreadable path problem =>
    "Failed to read config file at " ++ path ++ ": " ++ problem.message
  | malformed path => "Failed to parse config file at " ++ path

/-- The settings in a file, if there is one. -/
def loadIn (format : Toml.Format) (files : Files) (path : String) :
    Except LoadFault (Option Settings) :=
  if files.holds path then
    match files.readText path with
    | .error problem => .error (.unreadable path problem)
    | .ok text =>
      match read? format text with
      | some settings => .ok (some settings)
      | .none => .error (.malformed path)
  else
    .ok .none

/-- Save settings to a file. -/
def saveIn (format : Toml.Format) (s : Settings) (tree : FileTree) (path : String) :
    Except Problem FileTree := do
  let tree ← tree.createAll (Path.directory path)
  tree.write path (format.write s.fields).toUTF8

/-- The settings in a file in the format of this library. -/
def load (files : Files) (path : String) : Except LoadFault (Option Settings) :=
  loadIn Toml.format files path

/-- Save settings in the format of this library. -/
def save (s : Settings) (tree : FileTree) (path : String) : Except Problem FileTree :=
  s.saveIn Toml.format tree path

end HostParsing.Settings
