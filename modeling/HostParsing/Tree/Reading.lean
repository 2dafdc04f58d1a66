import HostParsing.Tree.Basic
/-!
# What a tree spans

A parse that has an older tree at hand may take over parts of it without reading
the text there again. It reads again wherever it comes to a token in another state
than the one in which the token was read before, so in general it meets the whole
text, and the tree spans it. A plain line is the exception. A tree of one is a
single block, which the next parse takes over as it stands; if the text then goes no
further than the line, the parse has met the end behind the block, and that is
where later parses come to it too. From then on they take over the whole tree,
whatever the text has become.

All of this is the grammar's doing and not the program's. It is told here as far as
a caller that runs the program and asks how long a tree is can see it; nothing that
the program does depends on it.
-/

namespace HostParsing

/-- How the text that a tree spans was read. -/
inductive Reading
  /-- From its start to its end. -/
  | scratch (text : List UInt16)
  /-- Partly taken over from an older tree, or edited since; so many units long. -/
  | mixed (length : Nat)
  /-- In such a way that nothing will be read again; so many units long. -/
  | settled (length : Nat)
deriving DecidableEq, Repr

namespace Reading

/-- Whether a unit is a letter of the basic alphabet. -/
def isLetter (u : UInt16) : Bool :=
  (0x41 ≤ u && u ≤ 0x5A) || (0x61 ≤ u && u ≤ 0x7A)

/-- Whether a text is a line of words with one space between them, the last line
there is; `inWord` tells whether a word stands right in front of it. -/
def isWords (inWord : Bool) : List UInt16 → Bool
  | [] => false
  | u :: rest =>
    if isLetter u then isWords true rest
    else if u = 0x0A then inWord && rest.isEmpty
    else u = 0x20 && inWord && isWords false rest

/-- Whether a text is one line of words, or a heading of them. -/
def isPlainLine : List UInt16 → Bool
  | 0x23 :: 0x20 :: rest => isWords false rest
  | text => isWords false text

/-- The number of units that are spanned. -/
def length : Reading → Nat
  | scratch text => text.length
  | mixed length | settled length => length

/-- The reading of a text by a parse that has an older tree at hand. -/
def resume (old : Reading) (text : List UInt16) : Reading :=
  match old with
  | settled length => settled length
  | mixed _ => mixed text.length
  | scratch line =>
    if isPlainLine line ∧ text.length ≤ line.length then
      settled line.length
    else
      mixed text.length

/-- The reading of a tree after an edit that starts at a byte. An edit behind the
end changes nothing. -/
def edit (old : Reading) (start : Nat) : Reading :=
  if start ≤ 2 * old.length then mixed old.length else old

end Reading

namespace Tree

/-- How the text that a tree spans was read. -/
def reading : Tree → Reading
  | fresh input => .scratch input.toUnits
  | reusing old input => old.reading.resume input.toUnits
  | edited old edit => old.reading.edit edit.start

/-- The number of bytes that a tree spans. -/
def length (tree : Tree) : Nat := 2 * tree.reading.length

end Tree
end HostParsing
