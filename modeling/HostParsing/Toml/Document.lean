import HostParsing.Toml.Statement
/-!
# Documents

A TOML text as a whole. Its statements are carried out one after the other on an
empty table: a header says where the keys after it go. `read?` answers the table
that results, or nothing if the text is not TOML.
-/

namespace HostParsing.Toml

/-- What the statements so far have made, and where the next key goes. -/
structure Draft where
  root : Table
  /-- The parts of the last header. -/
  place : List String

namespace Draft

/-- The draft before the first statement. -/
def empty : Draft := ⟨[], []⟩

/-- Carry out a statement. -/
def step? (draft : Draft) : Statement → Option Draft
  | .assign (path, key) value =>
    (Table.enter? false (fun _ table => table.assign? path key value) draft.place .header
      draft.root).map fun root => { draft with root }
  | .header (path, key) =>
    (draft.root.declare? path key).map fun root => ⟨root, path ++ [key]⟩
  | .arrayHeader (path, key) =>
    (draft.root.extend? path key).map fun root => ⟨root, path ++ [key]⟩

end Draft

/-- The mark of byte order that may precede a text. -/
def byteOrderMark : Char := '\uFEFF'

/-- The text after a mark of byte order, if it starts with one. -/
def dropMark : List Char → List Char
  | c :: rest => if c = byteOrderMark then rest else c :: rest
  | [] => []

/-- The table that a text writes. -/
def read? (text : String) : Option Table := do
  let cs := dropMark text.toList
  let statements ← statements? (cs.length + 1) cs
  let draft ← statements.foldlM Draft.step? Draft.empty
  some draft.root

end HostParsing.Toml
