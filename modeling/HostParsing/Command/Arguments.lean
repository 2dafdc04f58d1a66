/-!
# Arguments

The arguments of the command: the path of one file, and two flags that each take
a number. Arguments are read from the left; a flag takes the argument after it,
whatever that looks like, and of a repeated flag the last number counts.
`Arguments.parse` stops at the first argument that is at fault.
-/

namespace HostParsing.Command

/-- Why a text is not a number of 64 bits. -/
inductive NumberFault
  | empty
  | invalidDigit
  | tooLarge
deriving DecidableEq, Repr

/-- The text of a fault. -/
def NumberFault.message : NumberFault → String
  | empty => "cannot parse integer from empty string"
  | invalidDigit => "invalid digit found in string"
  | tooLarge => "number too large to fit in target type"

/-- Read on in a decimal number, of which `n` has been read. The leftmost fault
counts: a character that is no digit, or the digit with which the number no
longer fits into 64 bits. -/
def readDigits (n : Nat) : List Char → Except NumberFault Nat
  | [] => .ok n
  | c :: rest =>
    if c.isDigit then
      let next := 10 * n + (c.toNat - '0'.toNat)
      if next < UInt64.size then readDigits next rest else .error .tooLarge
    else
      .error .invalidDigit

/-- A decimal number of 64 bits, which may have a plus sign. -/
def readNumber (text : String) : Except NumberFault UInt64 :=
  match text.toList with
  | [] => .error .empty
  | ['+'] => .error .invalidDigit
  | '+' :: digits => (readDigits 0 digits).map UInt64.ofNat
  | digits => (readDigits 0 digits).map UInt64.ofNat

/-- The flags that take a number. -/
inductive Flag
  | timeoutMicros
  | cancelAfterMs
deriving DecidableEq, Repr

/-- How a flag is written. -/
def Flag.word : Flag → String
  | timeoutMicros => "--timeout-micros"
  | cancelAfterMs => "--cancel-after-ms"

/-- The flag that an argument is. -/
def Flag.ofWord? (argument : String) : Option Flag :=
  if argument = timeoutMicros.word then some .timeoutMicros
  else if argument = cancelAfterMs.word then some .cancelAfterMs
  else none

/-- What the arguments say so far. -/
structure Draft where
  file : Option String
  timeoutMicros : Option UInt64
  cancelAfterMs : Option UInt64
deriving DecidableEq, Repr

/-- The draft with the number of a flag. -/
def Draft.set (d : Draft) (flag : Flag) (value : UInt64) : Draft :=
  match flag with
  | .timeoutMicros => { d with timeoutMicros := some value }
  | .cancelAfterMs => { d with cancelAfterMs := some value }

/-- What the arguments say. -/
structure Arguments where
  file : String
  timeoutMicros : Option UInt64
  cancelAfterMs : Option UInt64
deriving DecidableEq, Repr

/-- Why arguments are not accepted. -/
inductive ArgumentFault
  | missingValue (flag : Flag)
  | notANumber (flag : Flag) (value : String) (fault : NumberFault)
  | unknownOption (argument : String)
  | unexpected (argument : String)
  | noFile
deriving DecidableEq, Repr

namespace ArgumentFault

/-- The text of a fault. -/
def message : ArgumentFault → String
  | missingValue flag => flag.word ++ " needs a value"
  | notANumber flag value _ => flag.word ++ " expects a number, got '" ++ value ++ "'"
  | unknownOption argument => "unknown option " ++ argument
  | unexpected argument => "unexpected argument '" ++ argument ++ "'"
  | noFile => "no input file given"

/-- What lies behind a fault, from the outside in. -/
def causes : ArgumentFault → List String
  | notANumber _ _ fault => [fault.message]
  | _ => []

end ArgumentFault

/-- Whether an argument looks like a flag. -/
def looksLikeFlag (argument : String) : Bool :=
  argument.toList.take 2 = ['-', '-']

namespace Arguments

/-- Read arguments on, with what those before them say. -/
def parseFrom (d : Draft) : List String → Except ArgumentFault Arguments
  | [] =>
    match d.file with
    | some file => .ok ⟨file, d.timeoutMicros, d.cancelAfterMs⟩
    | none => .error .noFile
  | argument :: rest =>
    match Flag.ofWord? argument with
    | some flag =>
      match rest with
      | [] => .error (.missingValue flag)
      | value :: rest =>
        match readNumber value with
        | .ok number => parseFrom (d.set flag number) rest
        | .error fault => .error (.notANumber flag value fault)
    | none =>
      if looksLikeFlag argument then
        .error (.unknownOption argument)
      else if d.file.isSome then
        .error (.unexpected argument)
      else
        parseFrom { d with file := some argument } rest

/-- What arguments say. -/
def parse (arguments : List String) : Except ArgumentFault Arguments :=
  parseFrom ⟨none, none, none⟩ arguments

end Arguments
end HostParsing.Command
