import HostParsing.Buffer.Call
import HostParsing.Proofs.Buffer.Units
/-!
# Calls on an ordinary list

What every call on a buffer means to somebody who sees a plain list of code
units. Calls by unit are updates and splices of that list; calls by byte are
updates and splices of its bytes, of which the units are read again. A call that
is not `allowed` there is refused and leaves the list as it is.

`Origin` is the ways to come by a buffer, and by a list.
-/

namespace HostParsing.Plain

open Buffer (Answer Call)

/-- The list after a change of its bytes. -/
def onBytes (units : List UInt16) (change : Bytes → Bytes) : List UInt16 :=
  (change (Bytes.ofUnits units)).toUnits

/-- An edit, if it is allowed. -/
def edit (allowed : Prop) [Decidable allowed] (after : List UInt16) :
    Option (Answer × List UInt16) :=
  if allowed then some (.done, after) else none

/-- Whether units from `first` to before `last` can be named. -/
def CharRange (units : List UInt16) (first last : Nat) : Prop :=
  first ≤ last ∧ last ≤ units.length

/-- Whether bytes from `first` to before `last` can be named: they are as many as
some units have, but may start within one. -/
def ByteRange (units : List UInt16) (first last : Nat) : Prop :=
  first ≤ last ∧ last ≤ (Bytes.ofUnits units).length ∧ (last - first) % 2 = 0

instance (units : List UInt16) (first last : Nat) : Decidable (CharRange units first last) :=
  inferInstanceAs (Decidable (_ ∧ _))

instance (units : List UInt16) (first last : Nat) : Decidable (ByteRange units first last) :=
  inferInstanceAs (Decidable (_ ∧ _))

/-- The units from `first` to before `last`. -/
def chars (units : List UInt16) (first last : Nat) : Option (List UInt16) :=
  if CharRange units first last then some (units.extract first last) else none

/-- The units that the bytes from `first` to before `last` make up. -/
def bytes (units : List UInt16) (first last : Nat) : Option (List UInt16) :=
  if ByteRange units first last then some (onBytes units (·.extract first last)) else none

/-- What a call answers and the list after it, if it is not refused. -/
def run (units : List UInt16) : Call → Option (Answer × List UInt16)
  | .length => some (.number units.length, units)
  | .byteLength => some (.number (2 * units.length), units)
  | .isEmpty => some (.flag units.isEmpty, units)
  | .bytes => some (.bytes (Bytes.ofUnits units), units)
  | .units => some (.units units, units)
  | .toText => some (.text (Utf16.decodeLossy units), units)
  | .toText? => (Utf16.decode? units).map (.text ·, units)
  | .byteAt index => (Bytes.ofUnits units)[index]?.map (.number ·.toNat, units)
  | .charAt index => units[index]?.map (.number ·.toNat, units)
  | .setByteAt index byte =>
    edit (index < (Bytes.ofUnits units).length) (onBytes units (·.set index byte))
  | .setCharAt index unit => edit (index < units.length) (units.set index unit)
  | .insertChar index unit => edit (index ≤ units.length) (splice units index index [unit])
  | .append text => edit True (units ++ Utf16.encode text)
  | .appendPart text start count =>
    edit (start + count ≤ (Utf16.encode text).length ∧ start + count < wordLimit)
      (units ++ (Utf16.encode text).extract start (start + count))
  | .appendChar unit => edit True (units ++ [unit])
  | .insert index text =>
    edit (index ≤ units.length) (splice units index index (Utf16.encode text))
  | .deleteChars first last => edit (CharRange units first last) (splice units first last [])
  | .deleteBytes first last =>
    edit (ByteRange units first last) (onBytes units (splice · first last []))
  | .replaceChars first last text =>
    edit (CharRange units first last) (splice units first last (Utf16.encode text))
  | .replaceBytes first last text =>
    edit (ByteRange units first last) (onBytes units (splice · first last (Bytes.ofText text)))
  | .sliceChars first last => (chars units first last).map (.text <| Utf16.decodeLossy ·, units)
  | .sliceBytes first last => (bytes units first last).map (.text <| Utf16.decodeLossy ·, units)

/-- The list after a list of calls. -/
def runAll (units : List UInt16) : List Call → List UInt16
  | [] => units
  | call :: calls =>
    match run units call with
    | some (_, after) => runAll after calls
    | none => runAll units calls

end HostParsing.Plain

namespace HostParsing.Buffer

/-- The ways to come by a buffer. -/
inductive Origin
  | empty
  | text (text : String)
  | units (units : List UInt16)
  | bytes (bytes : Bytes)
  | byteRange (array : Bytes) (offset length : Nat)

/-- The buffer that is made. -/
def Origin.build : Origin → Except Fault Buffer
  | empty => .ok Buffer.empty
  | text t => .ok (ofText t)
  | units us => .ok (ofUnits us)
  | bytes bs => ofBytes bs
  | byteRange array offset length => ofByteRange array offset length

/-- The list that is made. -/
def Origin.plain : Origin → Option (List UInt16)
  | empty => some []
  | text t => some (Utf16.encode t)
  | units us => some us
  | bytes bs => if bs.length % 2 = 0 then some bs.toUnits else none
  | byteRange array offset length =>
    if offset + length ≤ array.length ∧ offset + length < wordLimit ∧ length % 2 = 0 then
      some (Bytes.toUnits (array.extract offset (offset + length)))
    else
      none

end HostParsing.Buffer
