/-!
# Characters of a TOML text

The classes of characters that TOML tells apart, and the parts of a text that
carry nothing: blanks, comments and line ends. `skipBlanks` stays on its line,
`skipTrivia` goes on to the next thing that is none of these, and `lineEnd?`
accepts what may follow on the line of a complete statement.
-/

namespace HostParsing.Toml

/-- The double quote. -/
def quotationMark : Char := '\x22'

/-- The single quote. -/
def apostrophe : Char := '\x27'

/-- The backslash. -/
def backslash : Char := '\x5c'

/-- A blank within a line. -/
def isBlank (c : Char) : Bool :=
  c = ' ' || c = '\t'

/-- A character that may stand for itself in comments and texts: a tab, or one
that is no control character. -/
def isPlain (c : Char) : Bool :=
  c = '\t' || (0x20 ≤ c.toNat && c.toNat ≠ 0x7F)

/-- A character of a key without quotes. -/
def isBareKey (c : Char) : Bool :=
  c.isAlphanum || c = '_' || c = '-'

/-- A character of a number, a date, a time or a truth value. -/
def isWord (c : Char) : Bool :=
  c.isAlphanum || c = '_' || c = '-' || c = '+' || c = '.' || c = ':'

/-- The value of a digit; letters count from 10, in either case. -/
def digitValue? (c : Char) : Option Nat :=
  if '0' ≤ c ∧ c ≤ '9' then some (c.toNat - '0'.toNat)
  else if 'a' ≤ c ∧ c ≤ 'f' then some (c.toNat - 'a'.toNat + 10)
  else if 'A' ≤ c ∧ c ≤ 'F' then some (c.toNat - 'A'.toNat + 10)
  else none

/-- The text after blanks. -/
def skipBlanks (cs : List Char) : List Char :=
  cs.dropWhile isBlank

/-- The text after a line end, if it starts with one. -/
def newline? : List Char → Option (List Char)
  | '\n' :: rest => some rest
  | '\r' :: '\n' :: rest => some rest
  | _ => none

/-- The text after blanks, line ends and comments. -/
def skipTrivia (inComment : Bool) : List Char → List Char
  | [] => []
  | '\n' :: rest => skipTrivia false rest
  | '\r' :: '\n' :: rest => skipTrivia false rest
  | c :: rest =>
    if inComment then
      if isPlain c then skipTrivia true rest else c :: rest
    else if c = '#' then
      skipTrivia true rest
    else if isBlank c then
      skipTrivia false rest
    else
      c :: rest

/-- The text after the line of a complete statement, on which nothing but a
comment may follow. -/
def lineEnd? (cs : List Char) : Option (List Char) :=
  match skipBlanks cs with
  | [] => some []
  | '#' :: rest =>
    match rest.dropWhile isPlain with
    | [] => some []
    | after => newline? after
  | after => newline? after

end HostParsing.Toml
