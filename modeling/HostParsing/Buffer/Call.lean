import HostParsing.Buffer.Edit
/-!
# Calls on one buffer

The questions and edits that a client can put to a buffer, as data. `Call.run`
answers a question with the buffer unchanged and an edit with the edited buffer;
a call that is refused leaves no buffer, so it changes nothing. `runAll` is a
whole history of calls.
-/

namespace HostParsing.Buffer

/-- A question or an edit. -/
inductive Call
  | length
  | byteLength
  | isEmpty
  | bytes
  | units
  | toText
  | toText?
  | byteAt (index : Nat)
  | charAt (index : Nat)
  | setByteAt (index : Nat) (byte : UInt8)
  | setCharAt (index : Nat) (unit : UInt16)
  | insertChar (index : Nat) (unit : UInt16)
  | append (text : String)
  | appendPart (text : String) (start count : Nat)
  | appendChar (unit : UInt16)
  | insert (index : Nat) (text : String)
  | deleteChars (first last : Nat)
  | deleteBytes (first last : Nat)
  | replaceChars (first last : Nat) (text : String)
  | replaceBytes (first last : Nat) (text : String)
  | sliceChars (first last : Nat)
  | sliceBytes (first last : Nat)
deriving DecidableEq, Repr

/-- What a call answers. -/
inductive Answer
  | done
  | number (value : Nat)
  | flag (value : Bool)
  | text (value : String)
  | bytes (value : Bytes)
  | units (value : List UInt16)
deriving DecidableEq, Repr

namespace Call

/-- Put a question: the buffer stays. -/
def ask (b : Buffer) (answer : Answer) : Except Fault (Answer × Buffer) :=
  .ok (answer, b)

/-- Make an edit: there is nothing to answer but that it is done. -/
def edit (edited : Except Fault Buffer) : Except Fault (Answer × Buffer) :=
  edited.map (Answer.done, ·)

/-- What a call answers and the buffer it leaves, or why it is refused. -/
def run (b : Buffer) : Call → Except Fault (Answer × Buffer)
  | length => ask b (.number b.length)
  | byteLength => ask b (.number b.byteLength)
  | isEmpty => ask b (.flag b.isEmpty)
  | bytes => ask b (.bytes b.bytes)
  | units => ask b (.units b.units)
  | toText => ask b (.text b.toText)
  | toText? => b.toText?.map (.text ·, b)
  | byteAt index => (b.byteAt index).map fun byte => (.number byte.toNat, b)
  | charAt index => (b.charAt index).map fun unit => (.number unit.toNat, b)
  | setByteAt index byte => edit (b.setByteAt index byte)
  | setCharAt index unit => edit (b.setCharAt index unit)
  | insertChar index unit => edit (b.insertChar index unit)
  | append text => edit (.ok (b.append text))
  | appendPart text start count => edit (b.appendPart text start count)
  | appendChar unit => edit (.ok (b.appendChar unit))
  | insert index text => edit (b.insert index text)
  | deleteChars first last => edit (b.deleteChars first last)
  | deleteBytes first last => edit (b.deleteBytes first last)
  | replaceChars first last text => edit (b.replaceChars first last text)
  | replaceBytes first last text => edit (b.replaceBytes first last text)
  | sliceChars first last => (b.sliceChars first last).map (.text ·, b)
  | sliceBytes first last => (b.sliceBytes first last).map (.text ·, b)

end Call

/-- The buffer after a list of calls; those that are refused leave it as it is. -/
def runAll (b : Buffer) : List Call → Buffer
  | [] => b
  | call :: calls =>
    match call.run b with
    | .ok (_, after) => runAll after calls
    | .error _ => runAll b calls

theorem runAll_append (b : Buffer) (calls more : List Call) :
    runAll b (calls ++ more) = runAll (runAll b calls) more := by
  induction calls generalizing b with
  | nil => rfl
  | cons call calls ih =>
    simp only [List.cons_append, runAll]
    cases call.run b with
    | ok done => exact ih done.2
    | error fault => exact ih b

end HostParsing.Buffer
