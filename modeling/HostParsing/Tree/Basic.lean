import HostParsing.Utf16
import HostParsing.Bytes.Basic
/-!
# Trees

What a parse yields. A tree records the input it was parsed from and the tree
that the parse could reuse; a copy may be adjusted for an edit of the text, so
that it can be reused for the edited text. How a grammar divides the input is not
recorded, so a tree is told by its inputs alone: `text` writes them one after
the other, the oldest first.
-/

namespace HostParsing

/-- A position in a text, by line and by bytes within the line. -/
structure Point where
  row : Nat
  column : Nat
deriving DecidableEq, Repr

/-- An edit of a text: the bytes from `start` to `oldEnd` became those up to
`newEnd`. -/
structure TreeEdit where
  start : Nat
  oldEnd : Nat
  newEnd : Nat
  startPoint : Point
  oldEndPoint : Point
  newEndPoint : Point
deriving DecidableEq, Repr

/-- What a parse yields. -/
inductive Tree
  /-- A parse from scratch. -/
  | fresh (input : Bytes)
  /-- A parse that could reuse an older tree. -/
  | reusing (old : Tree) (input : Bytes)
  /-- A copy adjusted for an edit. -/
  | edited (old : Tree) (edit : TreeEdit)
deriving DecidableEq, Repr

namespace Tree

/-- The tree of an input, parsed with an older tree at hand or without. -/
def parse (old : Option Tree) (input : Bytes) : Tree :=
  match old with
  | some old => .reusing old input
  | none => .fresh input

/-- The bytes that a tree was parsed from. -/
def input : Tree → Bytes
  | fresh input => input
  | reusing _ input => input
  | edited old _ => old.input

/-- The inputs of a tree and of those it reused, the oldest first, with a bar
between them. -/
def text : Tree → String
  | fresh input => Utf16.decodeLossy input.toUnits
  | reusing old input => old.text ++ "|" ++ Utf16.decodeLossy input.toUnits
  | edited old _ => old.text

end Tree
end HostParsing
