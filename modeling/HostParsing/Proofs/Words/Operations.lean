import HostParsing.Proofs.Buffer.Plain
import HostParsing.Proofs.Words.Basic
/-!
# Buffers on 64-bit words

The operations on a buffer with words for every length, index and offset. Each checks,
counts and cuts in its own order, so it evaluates only the sums, products and differences
that its checks let through: a range is scaled after it was found to be inside, and bytes
are counted off a range after its bounds were found to be in order.

Before a text is encoded, room is set aside for it, two bytes for each byte of the text
(`encode`). What room an array is given beyond what it is asked to hold is left out.
-/

namespace HostParsing.Words

open Buffer (Answer Call Origin)

/-! ## Checks -/

/-- The number of bytes that a unit is stored in. -/
def unitSize : UInt64 := 2

/-- The number of units. -/
def length (bytes : Bytes) : UInt64 := len bytes / unitSize

/-- Where the unit at an index is stored. -/
def charOffset (bytes : Bytes) (index : UInt64) : Run UInt64 :=
  if length bytes ≤ index then
    refuse (.outOfBounds .buffer index.toNat (length bytes).toNat)
  else
    times index unitSize

/-- Where a unit is to be stored that comes before the one at an index. -/
def insertionOffset (bytes : Bytes) (index : UInt64) : Run UInt64 :=
  if length bytes < index then
    refuse (.outOfBounds .buffer index.toNat (length bytes).toNat)
  else
    times index unitSize

/-- Check a range of so many units or bytes. -/
def checkRange (first last length : UInt64) (extent : Extent) : Run Unit :=
  if last < first then
    refuse (.invertedRange first.toNat last.toNat)
  else if length < last then
    refuse (.outOfBounds extent last.toNat length.toNat)
  else
    .ok ()

/-- Where a range of units is stored. -/
def charRange (bytes : Bytes) (first last : UInt64) : Run (UInt64 × UInt64) := do
  checkRange first last (length bytes) .buffer
  let start ← times first unitSize
  let stop ← times last unitSize
  return (start, stop)

/-- Check a range of bytes. -/
def byteRange (bytes : Bytes) (first last : UInt64) : Run (UInt64 × UInt64) := do
  checkRange first last (len bytes) .bufferBytes
  let count ← minus last first
  if count % unitSize = 0 then
    return (first, last)
  else
    refuse (.splitUnit first.toNat last.toNat)

/-!
## Operations

Each is the operation of its name on a buffer.
-/

/-- The bytes of a text, room for which is set aside first. -/
def encode (text : String) : Run Bytes := do
  let room ← times (.ofNat text.utf8ByteSize) unitSize
  setAside [] room
  extendUnits [] (Utf16.encode text)

/-- The units of a text, as an array. -/
def collect (text : String) : Run (List UInt16) :=
  if 2 * (Utf16.encode text).length < arrayLimit then
    .ok (Utf16.encode text)
  else
    .error .tooLong

def byteAt (bytes : Bytes) (index : UInt64) : Run UInt8 :=
  match bytes[index.toNat]? with
  | some byte => .ok byte
  | none => refuse (.outOfBounds .bufferBytes index.toNat (len bytes).toNat)

def setByteAt (bytes : Bytes) (index : UInt64) (byte : UInt8) : Run Bytes :=
  if index.toNat < bytes.length then
    .ok (bytes.set index.toNat byte)
  else
    refuse (.outOfBounds .bufferBytes index.toNat (len bytes).toNat)

def charAt (bytes : Bytes) (index : UInt64) : Run UInt16 := do
  let offset ← charOffset bytes index
  let low ← fetch bytes offset
  let next ← plus offset 1
  let high ← fetch bytes next
  return Bytes.toUnit low high

def setCharAt (bytes : Bytes) (index : UInt64) (unit : UInt16) : Run Bytes := do
  let offset ← charOffset bytes index
  let stop ← plus offset unitSize
  copyOver bytes offset stop (Bytes.ofUnit unit)

def append (bytes : Bytes) (text : String) : Run Bytes :=
  extendUnits bytes (Utf16.encode text)

def appendPart (bytes : Bytes) (text : String) (start count : UInt64) : Run Bytes := do
  let units ← collect text
  let stop ← plusOr .textRangeOverflow start count
  if len units < stop then
    refuse (.outOfBounds .sourceText stop.toNat (len units).toNat)
  else
    let room ← times count unitSize
    setAside bytes room
    let part ← cut units start stop
    extendUnits bytes part

def insert (bytes : Bytes) (index : UInt64) (text : String) : Run Bytes := do
  let offset ← insertionOffset bytes index
  let encoded ← encode text
  putIn bytes offset offset encoded

def insertChar (bytes : Bytes) (index : UInt64) (unit : UInt16) : Run Bytes := do
  let offset ← insertionOffset bytes index
  putIn bytes offset offset (Bytes.ofUnit unit)

def deleteChars (bytes : Bytes) (first last : UInt64) : Run Bytes := do
  let (start, stop) ← charRange bytes first last
  takeOut bytes start stop

def deleteBytes (bytes : Bytes) (first last : UInt64) : Run Bytes := do
  let (start, stop) ← byteRange bytes first last
  takeOut bytes start stop

/-- Write over a range what fits into it, and then grow or shrink the rest. -/
def spliceEncoded (bytes : Bytes) (start stop : UInt64) (new : Bytes) : Run Bytes := do
  let removed ← minus stop start
  if len new = removed then
    copyOver bytes start stop new
  else if removed < len new then
    let fitting ← cut new 0 removed
    let written ← copyOver bytes start stop fitting
    let excess ← cut new removed (len new)
    putIn written stop stop excess
  else
    let kept ← plus start (len new)
    let written ← copyOver bytes start kept new
    takeOut written kept stop

def replaceChars (bytes : Bytes) (first last : UInt64) (text : String) : Run Bytes := do
  let (start, stop) ← charRange bytes first last
  let encoded ← encode text
  spliceEncoded bytes start stop encoded

def replaceBytes (bytes : Bytes) (first last : UInt64) (text : String) : Run Bytes := do
  let (start, stop) ← byteRange bytes first last
  let encoded ← encode text
  spliceEncoded bytes start stop encoded

def substringChars (bytes : Bytes) (first last : UInt64) : Run Bytes := do
  let (start, stop) ← charRange bytes first last
  cut bytes start stop

def substringBytes (bytes : Bytes) (first last : UInt64) : Run Bytes := do
  let (start, stop) ← byteRange bytes first last
  cut bytes start stop

def substringCharsFrom (bytes : Bytes) (first : UInt64) : Run Bytes :=
  substringChars bytes first (length bytes)

def substringBytesFrom (bytes : Bytes) (first : UInt64) : Run Bytes :=
  substringBytes bytes first (len bytes)

def toText (bytes : Bytes) : String := Utf16.decodeLossy bytes.toUnits

def toText? (bytes : Bytes) : Run String :=
  match Utf16.decode? bytes.toUnits with
  | some text => .ok text
  | none => refuse .unpairedSurrogate

def ofBytes (bytes : Bytes) : Run Bytes :=
  if len bytes % unitSize = 0 then .ok bytes else refuse (.oddByteCount (len bytes).toNat)

def ofByteRange (array : Bytes) (offset length : UInt64) : Run Bytes := do
  let stop ← plusOr .byteRangeOverflow offset length
  if len array < stop then
    refuse (.outOfBounds .byteArray stop.toNat (len array).toNat)
  else
    let part ← cut array offset stop
    ofBytes part

/-! ## Calls -/

/-- The bytes of a new buffer. -/
def build : Origin → Run Bytes
  | .empty => .ok []
  | .text text => encode text
  | .units units => extendUnits [] units
  | .bytes bytes => ofBytes bytes
  | .byteRange array offset length => ofByteRange array (.ofNat offset) (.ofNat length)

/-- Put a question: the bytes stay. -/
def ask (bytes : Bytes) (answer : Answer) : Run (Answer × Bytes) :=
  .ok (answer, bytes)

/-- Make an edit: there is nothing to answer but that it is done. -/
def edit (edited : Run Bytes) : Run (Answer × Bytes) :=
  edited.map (Answer.done, ·)

/-- What a call answers and the bytes it leaves, or why it does not. -/
def run (bytes : Bytes) : Call → Run (Answer × Bytes)
  | .length => ask bytes (.number (length bytes).toNat)
  | .byteLength => ask bytes (.number (len bytes).toNat)
  | .isEmpty => ask bytes (.flag bytes.isEmpty)
  | .bytes => ask bytes (.bytes bytes)
  | .units => ask bytes (.units bytes.toUnits)
  | .toText => ask bytes (.text (toText bytes))
  | .toText? => (toText? bytes).map (.text ·, bytes)
  | .byteAt index => (byteAt bytes (.ofNat index)).map fun byte => (.number byte.toNat, bytes)
  | .charAt index => (charAt bytes (.ofNat index)).map fun unit => (.number unit.toNat, bytes)
  | .setByteAt index byte => edit (setByteAt bytes (.ofNat index) byte)
  | .setCharAt index unit => edit (setCharAt bytes (.ofNat index) unit)
  | .insertChar index unit => edit (insertChar bytes (.ofNat index) unit)
  | .append text => edit (append bytes text)
  | .appendPart text start count => edit (appendPart bytes text (.ofNat start) (.ofNat count))
  | .appendChar unit => edit (extendUnit bytes unit)
  | .insert index text => edit (insert bytes (.ofNat index) text)
  | .deleteChars first last => edit (deleteChars bytes (.ofNat first) (.ofNat last))
  | .deleteBytes first last => edit (deleteBytes bytes (.ofNat first) (.ofNat last))
  | .replaceChars first last text =>
    edit (replaceChars bytes (.ofNat first) (.ofNat last) text)
  | .replaceBytes first last text =>
    edit (replaceBytes bytes (.ofNat first) (.ofNat last) text)
  | .sliceChars first last =>
    (substringChars bytes (.ofNat first) (.ofNat last)).map (.text <| toText ·, bytes)
  | .sliceBytes first last =>
    (substringBytes bytes (.ofNat first) (.ofNat last)).map (.text <| toText ·, bytes)

/-- The bytes after a list of calls. Those that are refused leave them as they are; one
that stops ends the run. -/
def runAll (bytes : Bytes) : List Call → Run Bytes
  | [] => .ok bytes
  | call :: calls =>
    match run bytes call with
    | .ok (_, after) => runAll after calls
    | .error (.refused _) => runAll bytes calls
    | .error stop => .error stop

end HostParsing.Words

/-! ## What fits into words -/

namespace HostParsing.Buffer

/-- The lengths, indices and bounds of a call. -/
def Call.numbers : Call → List Nat
  | byteAt index | charAt index | setByteAt index _ | setCharAt index _ | insertChar index _
  | insert index _ => [index]
  | appendPart _ start count => [start, count]
  | deleteChars first last | deleteBytes first last | replaceChars first last _
  | replaceBytes first last _ | sliceChars first last | sliceBytes first last => [first, last]
  | length | byteLength | isEmpty | bytes | units | toText | toText? | append _ | appendChar _ =>
    []

/-- The text of a call. -/
def Call.text? : Call → Option String
  | append text | appendPart text _ _ | insert _ text | replaceChars _ _ text
  | replaceBytes _ _ text => some text
  | length | byteLength | isEmpty | bytes | units | toText | toText? | byteAt _ | charAt _
  | setByteAt _ _ | setCharAt _ _ | insertChar _ _ | appendChar _ | deleteChars _ _
  | deleteBytes _ _ | sliceChars _ _ | sliceBytes _ _ => none

/-- The text of a call that is encoded before it is put in. -/
def Call.encoded? : Call → Option String
  | insert _ text | replaceChars _ _ text | replaceBytes _ _ text => some text
  | length | byteLength | isEmpty | bytes | units | toText | toText? | byteAt _ | charAt _
  | setByteAt _ _ | setCharAt _ _ | insertChar _ _ | append _ | appendPart _ _ _ | appendChar _
  | deleteChars _ _ | deleteBytes _ _ | sliceChars _ _ | sliceBytes _ _ => none

/-- A text has fewer than 2⁶² units, so its bytes are an array. -/
def TextFits (text : String) : Prop := (Utf16.encode text).length < 4611686018427387904

instance (text : String) : Decidable (TextFits text) :=
  inferInstanceAs (Decidable (_ < _))

/-- A text takes fewer than 2⁶² bytes, so twice as many are an array. -/
def RoomFits (text : String) : Prop := text.utf8ByteSize < 4611686018427387904

instance (text : String) : Decidable (RoomFits text) :=
  inferInstanceAs (Decidable (_ < _))

/-- The numbers of a call are words, and the bytes of its text an array. -/
structure Call.Fits (call : Call) : Prop where
  numbers : ∀ n ∈ call.numbers, n < wordLimit
  text : ∀ text ∈ call.text?, TextFits text

/-- What is set aside for the text of a call is an array. -/
def Call.HasRoom (call : Call) : Prop := ∀ text ∈ call.encoded?, RoomFits text

/-- What a buffer is made of fits into words and arrays. -/
def Origin.Fits : Origin → Prop
  | empty => True
  | text t => TextFits t ∧ RoomFits t
  | units us => 2 * us.length < arrayLimit
  | bytes bs => bs.length < arrayLimit
  | byteRange array offset length =>
    array.length < arrayLimit ∧ offset < wordLimit ∧ length < wordLimit

end HostParsing.Buffer
