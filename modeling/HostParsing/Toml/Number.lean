import HostParsing.Toml.Character
/-!
# Numbers

Integers are decimal, or have a radix marked by `0x`, `0o` or `0b` and then no
sign. Between two digits an underscore may stand; a decimal number has no
leading zero. Integers outside 128 bits are refused. A float has a fraction, an
exponent or both, or is one of the words for infinity and not-a-number; one that
is too large for a 64-bit float is refused.
-/

namespace HostParsing.Toml

/-- The digits of a run in which single underscores stand between digits;
`between` tells whether a digit came right before. -/
def digits? (radix : Nat) (between : Bool) : List Char → Option (List Nat)
  | [] => if between then some [] else none
  | c :: rest =>
    match (digitValue? c).filter (· < radix) with
    | some digit => (digits? radix true rest).map (digit :: ·)
    | none => if c = '_' ∧ between then digits? radix false rest else none

/-- The number that digits write. -/
def ofDigits (radix : Nat) (digits : List Nat) : Nat :=
  digits.foldl (fun n digit => radix * n + digit) 0

/-- The number in a run of digits. -/
def natural? (radix : Nat) (cs : List Char) : Option Nat :=
  (digits? radix false cs).map (ofDigits radix)

/-- A decimal number without a leading zero. -/
def decimal? (cs : List Char) : Option Nat :=
  if cs.head? = some '0' ∧ cs.length ≠ 1 then none else natural? 10 cs

/-- An integer of any size. -/
def unboundedInteger? : List Char → Option Int
  | '0' :: 'x' :: rest => (natural? 16 rest).map Int.ofNat
  | '0' :: 'o' :: rest => (natural? 8 rest).map Int.ofNat
  | '0' :: 'b' :: rest => (natural? 2 rest).map Int.ofNat
  | '+' :: rest => (decimal? rest).map Int.ofNat
  | '-' :: rest => (decimal? rest).map fun n => -Int.ofNat n
  | cs => (decimal? cs).map Int.ofNat

/-- An integer of at most 128 bits. -/
def integer? (cs : List Char) : Option Int :=
  (unboundedInteger? cs).filter fun n => -(Int.pow 2 127) ≤ n && n < Int.pow 2 128

/-- A positive or negative decimal exponent. -/
def exponent? : List Char → Option Int
  | '+' :: rest => (natural? 10 rest).map Int.ofNat
  | '-' :: rest => (natural? 10 rest).map fun n => -Int.ofNat n
  | cs => (natural? 10 cs).map Int.ofNat

/-- Where the numbers begin that round to no finite 64-bit float: half a step
above the largest one. -/
def floatLimit : Nat := Nat.pow 2 1024 - Nat.pow 2 970

/-- Whether `mantissa` times ten to the power of `exponent` is in the range of
64-bit floats. Powers that settle the matter alone are not computed. -/
def isFinite (mantissa : Nat) (mantissaDigits : Nat) (exponent : Int) : Bool :=
  if mantissa = 0 then
    true
  else if 0 ≤ exponent then
    exponent ≤ 400 && mantissa * Nat.pow 10 exponent.toNat < floatLimit
  else
    mantissaDigits ≤ (-exponent).toNat || mantissa < floatLimit * Nat.pow 10 (-exponent).toNat

/-- Whether digits before and after the point and an exponent make up a float in
range. -/
def isFloatOf (whole fraction : List Nat) (exponent : Int) : Bool :=
  let digits := whole ++ fraction
  isFinite (ofDigits 10 digits) digits.length (exponent - fraction.length)

/-- Whether a character can stand in a run of decimal digits. -/
def isDigitOrUnderscore (c : Char) : Bool :=
  c.isDigit || c = '_'

/-- Whether a text after its sign is a float in range. -/
def isUnsignedFloat (cs : List Char) : Bool :=
  cs = "inf".toList || cs = "nan".toList ||
    (let (whole, rest) := cs.span isDigitOrUnderscore
    let wholeDigits := (decimal? whole).bind fun _ => digits? 10 false whole
    match wholeDigits, rest with
    | some whole, '.' :: rest =>
      let (fraction, rest) := rest.span isDigitOrUnderscore
      match digits? 10 false fraction, rest with
      | some fraction, [] => isFloatOf whole fraction 0
      | some fraction, e :: rest =>
        (e = 'e' || e = 'E') && (exponent? rest).any (isFloatOf whole fraction)
      | none, _ => false
    | some whole, e :: rest =>
      (e = 'e' || e = 'E') && (exponent? rest).any (isFloatOf whole [])
    | _, _ => false)

/-- Whether a text is a float in range. -/
def isFloat : List Char → Bool
  | '+' :: rest => isUnsignedFloat rest
  | '-' :: rest => isUnsignedFloat rest
  | cs => isUnsignedFloat cs

end HostParsing.Toml
