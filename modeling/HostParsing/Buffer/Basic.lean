import HostParsing.Bytes.Splice
import HostParsing.Fault
/-!
# Text buffers

A buffer holds text as code units, two bytes each, and can be read by unit or by
byte. That the bytes make up whole units is part of the type. Positions count
code units, not characters, so they may fall between the halves of a surrogate
pair; a range of bytes may start within a unit, but is a whole number of units
long. `charSpan` and `byteSpan` check the two kinds of range and answer a `Span`,
with which no cut can fail.
-/

namespace HostParsing

/-- Text in UTF-16 code units, stored as bytes. -/
structure Buffer where
  bytes : Bytes
  even : bytes.length % 2 = 0
deriving DecidableEq

/-- A range of bytes within the first `length` that is a whole number of code
units long. -/
structure Span (length : Nat) where
  first : Nat
  last : Nat
  first_le_last : first ≤ last
  last_le : last ≤ length
  even : (last - first) % 2 = 0

/-- Numbers that do not fit into a word begin here. -/
def wordLimit : Nat := UInt64.size

namespace Buffer

/-- The buffer without text. -/
def empty : Buffer := ⟨[], rfl⟩

instance : Inhabited Buffer := ⟨empty⟩

/-- A buffer of bytes that make up whole units. -/
def ofBytes (bytes : Bytes) : Except Fault Buffer :=
  if even : bytes.length % 2 = 0 then
    .ok ⟨bytes, even⟩
  else
    .error (.oddByteCount bytes.length)

/-- A buffer of the `length` bytes of an array that start at `offset`. -/
def ofByteRange (array : Bytes) (offset length : Nat) : Except Fault Buffer :=
  if wordLimit ≤ offset + length then
    .error .byteRangeOverflow
  else if array.length < offset + length then
    .error (.outOfBounds .byteArray (offset + length) array.length)
  else
    ofBytes (array.slice offset (offset + length))

/-- A buffer of code units. -/
def ofUnits (units : List UInt16) : Buffer :=
  ⟨Bytes.ofUnits units, by simp⟩

/-- A buffer of a text. -/
def ofText (text : String) : Buffer :=
  ⟨Bytes.ofText text, by simp⟩

/-- The number of bytes. -/
def byteLength (b : Buffer) : Nat := b.bytes.length

/-- The number of code units. -/
def length (b : Buffer) : Nat := b.byteLength / 2

/-- Whether there is no text. -/
def isEmpty (b : Buffer) : Bool := b.bytes.isEmpty

/-- The code units of the text. -/
def units (b : Buffer) : List UInt16 := b.bytes.toUnits

/-- The text, with the replacement character for every unpaired surrogate. -/
def toText (b : Buffer) : String := Utf16.decodeLossy b.units

/-- The text, if every surrogate is paired. -/
def toText? (b : Buffer) : Except Fault String :=
  match Utf16.decode? b.units with
  | some text => .ok text
  | none => .error .unpairedSurrogate

theorem two_mul_length (b : Buffer) : 2 * b.length = b.byteLength := by
  have := b.even
  simp only [length, byteLength]
  omega

/-- The byte at an index. -/
def byteAt (b : Buffer) (index : Nat) : Except Fault UInt8 :=
  match b.bytes[index]? with
  | some byte => .ok byte
  | none => .error (.outOfBounds .bufferBytes index b.byteLength)

/-- The code unit at an index, put together from its two bytes. -/
def charAt (b : Buffer) (index : Nat) : Except Fault UInt16 :=
  if h : index < b.length then
    have inside : 2 * index + 1 < b.bytes.length := by
      have := b.two_mul_length
      simp only [byteLength] at this
      omega
    .ok (Bytes.toUnit b.bytes[2 * index] b.bytes[2 * index + 1])
  else
    .error (.outOfBounds .buffer index b.length)

/-- The range of the code units from `first` to before `last`. -/
def charSpan (b : Buffer) (first last : Nat) : Except Fault (Span b.byteLength) :=
  if order : first ≤ last then
    if inside : last ≤ b.length then
      .ok {
        first := 2 * first
        last := 2 * last
        first_le_last := by omega
        last_le := by have := b.two_mul_length; omega
        even := by omega }
    else
      .error (.outOfBounds .buffer last b.length)
  else
    .error (.invertedRange first last)

/-- The range of the bytes from `first` to before `last`. -/
def byteSpan (b : Buffer) (first last : Nat) : Except Fault (Span b.byteLength) :=
  if order : first ≤ last then
    if inside : last ≤ b.byteLength then
      if even : (last - first) % 2 = 0 then
        .ok ⟨first, last, order, inside, even⟩
      else
        .error (.splitUnit first last)
    else
      .error (.outOfBounds .bufferBytes last b.byteLength)
  else
    .error (.invertedRange first last)

end Buffer
end HostParsing
