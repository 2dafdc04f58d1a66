import HostParsing.Host.Refusal
import HostParsing.Registry.Call
/-!
# The host's cache of texts

The registry as a host sees it: handles are words, indices are signed. A call is
checked from the left: first its indices, in the order of its parameters, then
the word for a handle, then the registry, and last the range. `Request.toCall`
is the first of these checks alone, so a call is answered as the buffer's call
with the same indices as natural numbers.
-/

namespace HostParsing.Host

/-- What a host can ask of one buffer, with indices as it counts. -/
inductive Request
  | byteAt (index : Int)
  | charAt (index : Int)
  | setByteAt (index : Int) (byte : UInt8)
  | setCharAt (index : Int) (unit : UInt16)
  | insertChar (index : Int) (unit : UInt16)
  | append (text : String)
  | appendPart (text : String) (source count : Int)
  | appendChar (unit : UInt16)
  | insert (index : Int) (text : String)
  | deleteChars (first last : Int)
  | deleteBytes (first last : Int)
  | replaceChars (first last : Int) (text : String)
  | replaceBytes (first last : Int) (text : String)
  | sliceChars (first last : Int)
  | sliceBytes (first last : Int)
  | content
  | bytes
deriving DecidableEq, Repr

/-- The call on a buffer that a request stands for, if no index is negative. -/
def Request.toCall : Request → Except Refusal Buffer.Call
  | byteAt index => return .byteAt (← indexOf .index index)
  | charAt index => return .charAt (← indexOf .index index)
  | setByteAt index byte => return .setByteAt (← indexOf .index index) byte
  | setCharAt index unit => return .setCharAt (← indexOf .index index) unit
  | insertChar index unit => return .insertChar (← indexOf .index index) unit
  | append text => return .append text
  | appendPart text source count => do
    let source ← indexOf .source source
    return .appendPart text source (← indexOf .count count)
  | appendChar unit => return .appendChar unit
  | insert index text => return .insert (← indexOf .index index) text
  | deleteChars first last => ranged first last .deleteChars
  | deleteBytes first last => ranged first last .deleteBytes
  | replaceChars first last text => ranged first last (.replaceChars · · text)
  | replaceBytes first last text => ranged first last (.replaceBytes · · text)
  | sliceChars first last => ranged first last .sliceChars
  | sliceBytes first last => ranged first last .sliceBytes
  | content => return .toText
  | bytes => return .bytes
where
  /-- A call on a range, its start looked at before its end. -/
  ranged (first last : Int) (call : Nat → Nat → Buffer.Call) : Except Refusal Buffer.Call := do
    let first ← indexOf .first first
    return call first (← indexOf .last last)

namespace Cache

/-- What a host can ask of its cache. -/
inductive Call
  | create (text : String)
  | createOfBytes (array : Bytes) (offset count : Int)
  | erase (raw : UInt64)
  | contains (raw : UInt64)
  | length (raw : UInt64)
  | byteLength (raw : UInt64)
  | request (raw : UInt64) (request : Request)
  | substringChars (raw : UInt64) (first last : Int)
  | substringBytes (raw : UInt64) (first last : Int)
deriving DecidableEq, Repr

/-- What the cache answers. -/
inductive Answer
  | done
  | handle (raw : UInt64)
  | flag (value : Bool)
  | index (value : Nat)
  | buffer (answer : Buffer.Answer)
deriving DecidableEq, Repr

/-- Whether a word is a handle that resolves. -/
def contains (r : Registry) (raw : UInt64) : Bool :=
  match Handle.ofRaw? raw with
  | some h => r.contains h
  | none => false

/-- The buffer behind a word. -/
def read (r : Registry) (raw : UInt64) : Except Refusal Buffer :=
  told ((r.resolveRaw raw).map r.buffer)

/-- What a call answers and the registry after it, or why it is refused. -/
def Call.run (r : Registry) : Call → Except Refusal (Answer × Registry)
  | create text => issue (r.create text)
  | createOfBytes array offset count => do
    let offset ← indexOf .offset offset
    let count ← indexOf .count count
    issue (r.createOfByteRange array offset count)
  | erase raw => do
    let r ← told (do r.erase (← Registry.handleOfRaw raw))
    return (.done, r)
  | contains raw => return (.flag (Cache.contains r raw), r)
  | length raw => do return (.index (← hostIndex (← read r raw).length), r)
  | byteLength raw => do return (.index (← hostIndex (← read r raw).byteLength), r)
  | request raw wanted => do
    let call ← wanted.toCall
    let (answer, _, r) ← told (do r.call (← r.resolveRaw raw) call)
    return (.buffer answer, r)
  | substringChars raw first last => do
    let first ← indexOf .first first
    let last ← indexOf .last last
    issue (do r.substringChars (← Registry.handleOfRaw raw) first last)
  | substringBytes raw first last => do
    let first ← indexOf .first first
    let last ← indexOf .last last
    issue (do r.substringBytes (← Registry.handleOfRaw raw) first last)
where
  /-- The registry after a handle was issued, the handle packed. -/
  issue (result : Except Fault (Handle × Registry)) : Except Refusal (Answer × Registry) :=
    (told result).map fun (h, r) => (.handle h.toRaw, r)

/-- The registry after a list of calls; those that are refused leave it as it is. -/
def runAll (r : Registry) : List Call → Registry
  | [] => r
  | call :: calls =>
    match call.run r with
    | .ok (_, after) => runAll after calls
    | .error _ => runAll r calls

end Cache
end HostParsing.Host
