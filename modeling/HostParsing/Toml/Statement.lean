import HostParsing.Toml.Moment
import HostParsing.Toml.Number
import HostParsing.Toml.Quoted
import HostParsing.Toml.Table
/-!
# Statements

A TOML text is a list of statements: keys with their values, and headers. The
readers here take a statement, a key or a value off the front of a text and
answer what follows. Lists in brackets and braces are read by `items` and
`entries`, which are handed the reader for one value; each round of theirs takes
at least one character, so the length of the text bounds the rounds. Values nest
at most `depthLimit` deep.
-/

namespace HostParsing.Toml

/-- How deep arrays and tables in braces may nest. -/
def depthLimit : Nat := 80

/-- How many parts of a key may come before its last one. -/
def pathLimit : Nat := 80

/-- A key, the last of its parts apart. -/
abbrev Key := List String × String

/-- A reader takes something off the front of a text. -/
abbrev Reader (α : Type) := List Char → Option (α × List Char)

/-- One part of a key. -/
def keyPart? : Reader String
  | [] => none
  | q :: rest =>
    if q = quotationMark ∨ q = apostrophe then
      (readLine? q rest).map fun (text, after) => (String.ofList text, after)
    else
      let (part, after) := (q :: rest).span isBareKey
      if part = [] then none else some (String.ofList part, after)

/-- The parts of a key after the first, of which `last` is the newest. -/
def keyParts? : Nat → List String → String → Reader Key
  | 0, _, _, _ => none
  | rounds + 1, path, last, cs =>
    match skipBlanks cs with
    | '.' :: rest =>
      match keyPart? (skipBlanks rest) with
      | some (part, after) => keyParts? rounds (path ++ [last]) part after
      | none => none
    | after => if path.length < pathLimit then some ((path, last), after) else none

/-- A key: parts with points between them, and the blanks after it. -/
def key? : Reader Key := fun cs =>
  match keyPart? cs with
  | some (part, after) => keyParts? (after.length + 1) [] part after
  | none => none

/-- A value that is one word: a truth value, a number, a date or a time. -/
def word? (cs : List Char) : Option Value :=
  if cs = "true".toList then some (.boolean true)
  else if cs = "false".toList then some (.boolean false)
  else if isMoment cs then some (.moment (String.ofList cs))
  else
    match integer? cs with
    | some n => some (.integer n)
    | none => if isFloat cs then some (.float (String.ofList cs)) else none

/-- The word in front. After a date, a blank and a digit go on with the time. -/
def takeWord (cs : List Char) : List Char × List Char :=
  let (word, rest) := cs.span isWord
  match rest with
  | ' ' :: digit :: more =>
    if isDate word ∧ digit.isDigit then
      let (time, after) := (digit :: more).span isWord
      (word ++ ' ' :: time, after)
    else
      (word, rest)
  | _ => (word, rest)

/-- A value that does not nest. -/
def scalar? : Reader Value := fun cs =>
  match readQuoted? cs with
  | some (text, after) => some (.text (String.ofList text), after)
  | none =>
    let (word, after) := takeWord cs
    (word? word).map (·, after)

/-- The items of an array after its opening bracket. A comma may follow the last
one. -/
def items? (value : Reader Value) : Nat → Reader (List Value)
  | 0, _ => none
  | rounds + 1, cs =>
    match skipTrivia false cs with
    | ']' :: after => some ([], after)
    | inside =>
      match value inside with
      | none => none
      | some (item, rest) =>
        match skipTrivia false rest with
        | ']' :: after => some ([item], after)
        | ',' :: more =>
          (items? value rounds more).map fun (rest, after) => (item :: rest, after)
        | _ => none

/-- The entries of a table in braces after those in `table`. A comma may follow
the last one. -/
def entries? (value : Reader Value) : Nat → Table → Reader Table
  | 0, _, _ => none
  | rounds + 1, table, cs =>
    match skipTrivia false cs with
    | '}' :: after => some (table, after)
    | inside =>
      match key? inside with
      | none => none
      | some ((path, last), rest) =>
        match skipTrivia false rest with
        | '=' :: rest =>
          match value (skipTrivia false rest) with
          | none => none
          | some (item, rest) =>
            match table.assign? path last item with
            | none => none
            | some table =>
              match skipTrivia false rest with
              | '}' :: after => some (table, after)
              | ',' :: more => entries? value rounds table more
              | _ => none
        | _ => none

/-- A value that nests at most so deep. -/
def value? : Nat → Reader Value
  | 0, cs => scalar? cs
  | depth + 1, cs =>
    match cs with
    | '[' :: rest =>
      (items? (value? depth) (rest.length + 1) rest).map fun (items, after) =>
        (.array items, after)
    | '{' :: rest =>
      (entries? (value? depth) (rest.length + 1) [] rest).map fun (entries, after) =>
        (.table .braces entries, after)
    | _ => scalar? cs

/-- A statement of a text. -/
inductive Statement
  | assign (key : Key) (value : Value)
  | header (key : Key)
  | arrayHeader (key : Key)

/-- A statement, after whatever carries nothing. -/
def statement? : Reader Statement
  | '[' :: '[' :: rest =>
    match key? (skipBlanks rest) with
    | some (key, ']' :: ']' :: after) => some (.arrayHeader key, after)
    | _ => none
  | '[' :: rest =>
    match key? (skipBlanks rest) with
    | some (key, ']' :: after) => some (.header key, after)
    | _ => none
  | cs =>
    match key? cs with
    | some (key, '=' :: rest) =>
      (value? depthLimit (skipBlanks rest)).map fun (value, after) =>
        (.assign key value, after)
    | _ => none

/-- All statements of a text. -/
def statements? : Nat → List Char → Option (List Statement)
  | 0, _ => none
  | rounds + 1, cs =>
    match skipTrivia false cs with
    | [] => some []
    | start =>
      match statement? start with
      | none => none
      | some (statement, rest) =>
        match lineEnd? rest with
        | none => none
        | some after => (statements? rounds after).map (statement :: ·)

end HostParsing.Toml
