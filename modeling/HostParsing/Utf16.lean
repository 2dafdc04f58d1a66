/-!
# UTF-16 code units

A character below 65536 is one code unit; any other is a surrogate pair, a high
unit followed by a low one. `encode` writes text as units. `decode` reads units
back one character at a time and marks every surrogate that is not part of a
pair; `decode?` and `decodeLossy` are the strict and the forgiving reading of
that. `encode_append` and `decode_cons_of_not_isSurrogate` are the small facts
that the rest of the library starts from.
-/

namespace HostParsing.Utf16

/-- A high surrogate, the first unit of a pair. -/
def isHigh (u : UInt16) : Bool :=
  0xD800 ≤ u.toNat && u.toNat < 0xDC00

/-- A low surrogate, the second unit of a pair. -/
def isLow (u : UInt16) : Bool :=
  0xDC00 ≤ u.toNat && u.toNat < 0xE000

/-- A unit that stands for no character on its own. -/
def isSurrogate (u : UInt16) : Bool :=
  isHigh u || isLow u

/-- The units of one character. -/
def ofChar (c : Char) : List UInt16 :=
  if c.toNat < 0x10000 then
    [UInt16.ofNat c.toNat]
  else
    [UInt16.ofNat (0xD800 + (c.toNat - 0x10000) / 0x400),
      UInt16.ofNat (0xDC00 + (c.toNat - 0x10000) % 0x400)]

/-- The character that a high and a low surrogate stand for together. -/
def ofPair (high low : UInt16) : Char :=
  Char.ofNat (0x10000 + (high.toNat - 0xD800) * 0x400 + (low.toNat - 0xDC00))

/-- The character that one unit stands for, if it is not a surrogate. -/
def ofUnit? (u : UInt16) : Option Char :=
  if isSurrogate u then none else some (Char.ofNat u.toNat)

/-- The units of a text, in order. -/
def encode (text : String) : List UInt16 :=
  text.toList.flatMap ofChar

/-- The characters that units stand for, with `none` for every surrogate that
is not a high one followed at once by a low one. -/
def decode : List UInt16 → List (Option Char)
  | [] => []
  | [u] => [ofUnit? u]
  | u :: v :: rest =>
    if isHigh u && isLow v then
      some (ofPair u v) :: decode rest
    else
      ofUnit? u :: decode (v :: rest)

/-- What a forgiving reader puts in the place of an unpaired surrogate. -/
def replacement : Char := '\uFFFD'

/-- The text of units, with the replacement character for every unpaired
surrogate. -/
def decodeLossy (units : List UInt16) : String :=
  String.ofList ((decode units).map (·.getD replacement))

/-- The text of units, if every surrogate among them is paired. -/
def decode? (units : List UInt16) : Option String :=
  ((decode units).mapM id).map String.ofList

@[simp] theorem encode_empty : encode "" = [] := rfl

theorem encode_append (s t : String) : encode (s ++ t) = encode s ++ encode t := by
  simp [encode]

theorem decode_cons_of_not_isSurrogate {u : UInt16} (h : isSurrogate u = false)
    (rest : List UInt16) : decode (u :: rest) = some (Char.ofNat u.toNat) :: decode rest := by
  have high : isHigh u = false := by
    simp only [isSurrogate, Bool.or_eq_false_iff] at h
    exact h.1
  cases rest with
  | nil => simp [decode, ofUnit?, h]
  | cons v rest => simp [decode, ofUnit?, h, high]

end HostParsing.Utf16
