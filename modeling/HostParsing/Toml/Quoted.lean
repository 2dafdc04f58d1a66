import HostParsing.Toml.Character
/-!
# Quoted texts

TOML quotes texts in four ways: with double or single quotes, one or three of
them. Only between double quotes has the backslash a meaning, and only between
three quotes may a text span lines. `scan` reads all four, one character at a
time; what it has met is its `Mode`. A run of quotes that is longer than the
three that close a text gives its surplus, two at most, to the text.
-/

namespace HostParsing.Toml

/-- One of the four ways to quote a text. -/
structure Style where
  quote : Char
  /-- Whether there are three quotes on either side. -/
  triple : Bool
deriving DecidableEq, Repr

/-- Whether the backslash has a meaning. -/
def Style.escapes (style : Style) : Bool :=
  style.quote = quotationMark

/-- Where a reader is in a quoted text. -/
inductive Mode
  | plain
  /-- After a carriage return of the text, which a line feed must follow. -/
  | lineReturn
  /-- After a backslash. -/
  | escape
  /-- Before the last `left` digits of a character's code. -/
  | code (left value : Nat)
  /-- In the blanks that a backslash at the end of a line takes away; whether
  the line has ended yet. -/
  | fold (ended : Bool)
  /-- After a carriage return among those blanks. -/
  | foldReturn
  /-- After fewer than three quotes in a row. -/
  | quotes (count : Nat)
  /-- After three quotes in a row, and `surplus` more. -/
  | closing (surplus : Nat)
deriving DecidableEq, Repr

/-- What a reader does with a character. -/
inductive Move
  /-- Add to the text and go on. -/
  | go (added : List Char) (mode : Mode)
  /-- Add to the text, which ends with the character. -/
  | stop (added : List Char)
  /-- Add to the text, which ended before the character. -/
  | stopBefore (added : List Char)
  | fail
deriving DecidableEq, Repr

/-- The move with more text added in front. -/
def Move.after (before : List Char) : Move → Move
  | go added mode => .go (before ++ added) mode
  | stop added => .stop (before ++ added)
  | stopBefore added => .stopBefore (before ++ added)
  | fail => .fail

/-- The character with a code, if there is one. -/
def charOfCode? (code : Nat) : Option Char :=
  if code < 0xD800 ∨ (0xDFFF < code ∧ code < 0x110000) then some (Char.ofNat code) else none

/-- The character that a backslash and a letter stand for. -/
def escaped? (c : Char) : Option Char :=
  if c = 'b' then some '\x08'
  else if c = 't' then some '\t'
  else if c = 'n' then some '\n'
  else if c = 'f' then some '\x0c'
  else if c = 'r' then some '\r'
  else if c = 'e' then some '\x1b'
  else if c = quotationMark then some quotationMark
  else if c = backslash then some backslash
  else none

/-- How many digits of a code follow a backslash and a letter. -/
def codeLength? (c : Char) : Option Nat :=
  if c = 'x' then some 2
  else if c = 'u' then some 4
  else if c = 'U' then some 8
  else none

/-- The move on a character that nothing special came before. -/
def plainMove (style : Style) (c : Char) : Move :=
  if c = style.quote then
    if style.triple then .go [] (.quotes 1) else .stop []
  else if style.escapes && c = backslash then
    .go [] .escape
  else if style.triple && c = '\n' then
    .go [c] .plain
  else if style.triple && c = '\r' then
    .go [c] .lineReturn
  else if isPlain c then
    .go [c] .plain
  else
    .fail

/-- The move on a character among the blanks taken away. -/
def foldMove (style : Style) (ended : Bool) (c : Char) : Move :=
  if isBlank c then
    .go [] (.fold ended)
  else if c = '\n' then
    .go [] (.fold true)
  else if c = '\r' then
    .go [] .foldReturn
  else if ended then
    plainMove style c
  else
    .fail

/-- The move on the character after a backslash. -/
def escapeMove (style : Style) (c : Char) : Move :=
  match escaped? c, codeLength? c with
  | some e, _ => .go [e] .plain
  | none, some length => .go [] (.code length 0)
  | none, none => if style.triple then foldMove style false c else .fail

/-- The move on a digit of a character's code. -/
def codeMove (left value : Nat) (c : Char) : Move :=
  match digitValue? c with
  | none => .fail
  | some digit =>
    if left ≤ 1 then
      match charOfCode? (16 * value + digit) with
      | some e => .go [e] .plain
      | none => .fail
    else
      .go [] (.code (left - 1) (16 * value + digit))

/-- The move on a character. -/
def move (style : Style) (mode : Mode) (c : Char) : Move :=
  match mode with
  | .plain => plainMove style c
  | .lineReturn => if c = '\n' then .go [c] .plain else .fail
  | .escape => escapeMove style c
  | .code left value => codeMove left value c
  | .fold ended => foldMove style ended c
  | .foldReturn => if c = '\n' then .go [] (.fold true) else .fail
  | .quotes count =>
    if c = style.quote then
      if count < 2 then .go [] (.quotes (count + 1)) else .go [] (.closing 0)
    else
      (plainMove style c).after (List.replicate count style.quote)
  | .closing surplus =>
    if c = style.quote ∧ surplus < 2 then
      .go [] (.closing (surplus + 1))
    else
      .stopBefore (List.replicate surplus style.quote)

/-- Read a quoted text after its opening quotes: the text, and what follows its
closing ones. -/
def scan (style : Style) (mode : Mode) : List Char → Option (List Char × List Char)
  | [] =>
    match mode with
    | .closing surplus => some (List.replicate surplus style.quote, [])
    | _ => none
  | c :: rest =>
    match move style mode c with
    | .go added mode => (scan style mode rest).map fun (text, after) => (added ++ text, after)
    | .stop added => some (added, rest)
    | .stopBefore added => some (added, c :: rest)
    | .fail => none

/-- Read a text in single quotes or double ones on one line, after the opening
quote. -/
def readLine? (quote : Char) (cs : List Char) : Option (List Char × List Char) :=
  scan ⟨quote, false⟩ .plain cs

/-- Read a quoted text. A line end right after three opening quotes is not part
of it. -/
def readQuoted? : List Char → Option (List Char × List Char)
  | [] => none
  | q :: rest =>
    if q = quotationMark ∨ q = apostrophe then
      match rest with
      | second :: third :: body =>
        if second = q ∧ third = q then
          scan ⟨q, true⟩ .plain ((newline? body).getD body)
        else
          readLine? q rest
      | _ => readLine? q rest
    else
      none

end HostParsing.Toml
