import HostParsing.Buffer.Basic
/-!
# Editing buffers

What a buffer can be changed into. Every edit by index or range is refused, and
changes nothing, unless the index or range lies inside the buffer; one by a
`Span` cannot fail. The `bytes_` lemmas give the bytes after each edit.
-/

namespace HostParsing.Buffer

/-- The buffer with the byte at an index set. -/
def setByteAt (b : Buffer) (index : Nat) (byte : UInt8) : Except Fault Buffer :=
  if index < b.byteLength then
    .ok ⟨b.bytes.set index byte, by rw [List.length_set]; exact b.even⟩
  else
    .error (.outOfBounds .bufferBytes index b.byteLength)

/-- The buffer with the code unit at an index set. -/
def setCharAt (b : Buffer) (index : Nat) (unit : UInt16) : Except Fault Buffer :=
  if h : index < b.length then
    .ok ⟨b.bytes.overwrite (2 * index) (Bytes.ofUnit unit), by
      have := b.two_mul_length
      rw [Bytes.length_overwrite (by simp only [Bytes.length_ofUnit, byteLength] at *; omega)]
      exact b.even⟩
  else
    .error (.outOfBounds .buffer index b.length)

/-- The buffer with units appended. -/
def appendUnits (b : Buffer) (units : List UInt16) : Buffer :=
  ⟨b.bytes ++ Bytes.ofUnits units, by
    have := b.even
    rw [List.length_append, Bytes.length_ofUnits]
    omega⟩

/-- The buffer with a text appended. -/
def append (b : Buffer) (text : String) : Buffer :=
  b.appendUnits (Utf16.encode text)

/-- The buffer with one code unit appended. -/
def appendChar (b : Buffer) (unit : UInt16) : Buffer :=
  b.appendUnits [unit]

/-- The buffer with the `length` code units of a text appended that start at
`start`. -/
def appendPart (b : Buffer) (text : String) (start length : Nat) : Except Fault Buffer :=
  let units := Utf16.encode text
  if wordLimit ≤ start + length then
    .error .textRangeOverflow
  else if units.length < start + length then
    .error (.outOfBounds .sourceText (start + length) units.length)
  else
    .ok (b.appendUnits ((units.drop start).take length))

/-- The buffer with units put in before the code unit at an index. -/
def insertUnits (b : Buffer) (index : Nat) (units : List UInt16) : Except Fault Buffer :=
  if h : index ≤ b.length then
    .ok ⟨b.bytes.insert (2 * index) (Bytes.ofUnits units), by
      have := b.even
      have := b.two_mul_length
      rw [Bytes.length_insert (by simp only [byteLength] at *; omega), Bytes.length_ofUnits]
      omega⟩
  else
    .error (.outOfBounds .buffer index b.length)

/-- The buffer with a text put in before the code unit at an index. -/
def insert (b : Buffer) (index : Nat) (text : String) : Except Fault Buffer :=
  b.insertUnits index (Utf16.encode text)

/-- The buffer with a code unit put in before the one at an index. -/
def insertChar (b : Buffer) (index : Nat) (unit : UInt16) : Except Fault Buffer :=
  b.insertUnits index [unit]

/-- The buffer without the bytes of a span. -/
def delete (b : Buffer) (s : Span b.byteLength) : Buffer :=
  ⟨b.bytes.remove s.first s.last, by
    have := b.even
    have := s.even
    rw [Bytes.length_remove s.first_le_last s.last_le]
    omega⟩

/-- The buffer with the bytes of a span replaced by a text. -/
def replace (b : Buffer) (s : Span b.byteLength) (text : String) : Buffer :=
  ⟨b.bytes.replace s.first s.last (Bytes.ofText text), by
    have := b.even
    have := s.even
    rw [Bytes.length_replace s.first_le_last s.last_le, Bytes.length_ofText]
    omega⟩

/-- A new buffer of the bytes of a span. -/
def slice (b : Buffer) (s : Span b.byteLength) : Buffer :=
  ⟨b.bytes.slice s.first s.last, by
    rw [Bytes.length_slice s.last_le]
    exact s.even⟩

/-- The buffer without the code units from `first` to before `last`. -/
def deleteChars (b : Buffer) (first last : Nat) : Except Fault Buffer :=
  (b.charSpan first last).map b.delete

/-- The buffer without the bytes from `first` to before `last`. -/
def deleteBytes (b : Buffer) (first last : Nat) : Except Fault Buffer :=
  (b.byteSpan first last).map b.delete

/-- The buffer with a text in the place of a range of code units. -/
def replaceChars (b : Buffer) (first last : Nat) (text : String) : Except Fault Buffer :=
  (b.charSpan first last).map (b.replace · text)

/-- The buffer with a text in the place of a range of bytes. -/
def replaceBytes (b : Buffer) (first last : Nat) (text : String) : Except Fault Buffer :=
  (b.byteSpan first last).map (b.replace · text)

/-- A new buffer of a range of code units. -/
def substringChars (b : Buffer) (first last : Nat) : Except Fault Buffer :=
  (b.charSpan first last).map b.slice

/-- A new buffer of a range of bytes. -/
def substringBytes (b : Buffer) (first last : Nat) : Except Fault Buffer :=
  (b.byteSpan first last).map b.slice

/-- A new buffer of the code units from `first` on. -/
def substringCharsFrom (b : Buffer) (first : Nat) : Except Fault Buffer :=
  b.substringChars first b.length

/-- A new buffer of the bytes from `first` on. -/
def substringBytesFrom (b : Buffer) (first : Nat) : Except Fault Buffer :=
  b.substringBytes first b.byteLength

/-- The text of a range of code units. -/
def sliceChars (b : Buffer) (first last : Nat) : Except Fault String :=
  (b.substringChars first last).map toText

/-- The text of a range of bytes. -/
def sliceBytes (b : Buffer) (first last : Nat) : Except Fault String :=
  (b.substringBytes first last).map toText

@[simp] theorem bytes_appendUnits (b : Buffer) (units : List UInt16) :
    (b.appendUnits units).bytes = b.bytes ++ Bytes.ofUnits units := rfl

@[simp] theorem bytes_delete (b : Buffer) (s : Span b.byteLength) :
    (b.delete s).bytes = b.bytes.remove s.first s.last := rfl

@[simp] theorem bytes_replace (b : Buffer) (s : Span b.byteLength) (text : String) :
    (b.replace s text).bytes = b.bytes.replace s.first s.last (Bytes.ofText text) := rfl

@[simp] theorem bytes_slice (b : Buffer) (s : Span b.byteLength) :
    (b.slice s).bytes = b.bytes.slice s.first s.last := rfl

end HostParsing.Buffer
