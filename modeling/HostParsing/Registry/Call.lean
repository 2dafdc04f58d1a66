import HostParsing.Buffer.Call
import HostParsing.Registry.Basic
/-!
# Calls on a registry

A client works at a desk: a registry, and the buffers it has kept from there.
`Call` is what a client can ask of the registry, with handles packed as words;
the word is always looked at before the registry is. `Call.run` answers the desk
after the call; a call that is refused leaves no desk, so it changes nothing.
-/

namespace HostParsing

/-- A registry and the buffers that a client has kept, oldest first. -/
structure Desk where
  registry : Registry
  kept : Array BufferId

namespace Desk

/-- The desk with an empty registry. -/
def empty : Desk := ⟨Registry.empty, #[]⟩

instance : Inhabited Desk := ⟨empty⟩

end Desk

namespace Registry

/-- The handle in a word that a client passes. -/
def handleOfRaw (raw : UInt64) : Except Fault Handle :=
  match Handle.ofRaw? raw with
  | some h => .ok h
  | none => .error (.notAHandle raw)

/-- The buffer behind a word that a client passes. -/
def resolveRaw (r : Registry) (raw : UInt64) : Except Fault BufferId := do
  r.resolve (← handleOfRaw raw)

/-- Put a call to the buffer at a place of the store. -/
def call (r : Registry) (id : BufferId) (c : Buffer.Call) :
    Except Fault (Buffer.Answer × Buffer × Registry) :=
  (c.run (r.buffer id)).map fun (answer, after) => (answer, after, r.update id after)

/-- What a client can ask of a registry. -/
inductive Call
  | create (text : String)
  | createOfBytes (bytes : Bytes)
  | createOfByteRange (array : Bytes) (offset count : Nat)
  | register (units : List UInt16)
  | substringChars (raw : UInt64) (first last : Nat)
  | substringBytes (raw : UInt64) (first last : Nat)
  /-- Unpack a handle without looking it up. -/
  | unpack (raw : UInt64)
  | erase (raw : UInt64)
  | contains (raw : UInt64)
  | isEmpty
  | read (raw : UInt64)
  /-- Put a call to the buffer behind a handle. -/
  | edit (raw : UInt64) (call : Buffer.Call)
  /-- Keep the buffer behind a handle. -/
  | keep (raw : UInt64)
  /-- Put a call to a kept buffer. -/
  | editKept (number : Nat) (call : Buffer.Call)
  | churn (n : Nat)
deriving DecidableEq, Repr

/-- What a call on a registry answers. -/
inductive Answer
  | done
  | handle (h : Handle)
  | flag (value : Bool)
  | content (b : Buffer)
  /-- The answer of a call on a buffer, and the buffer after it. -/
  | edited (answer : Buffer.Answer) (after : Buffer)
  | kept (number : Nat)
  | last (h : Option Handle)
deriving DecidableEq

namespace Call

/-- The buffer that a call locks, once it has found it. -/
def buffer? (d : Desk) : Call → Option BufferId
  | substringChars raw _ _ | substringBytes raw _ _ | read raw | edit raw _ =>
    (d.registry.resolveRaw raw).toOption
  | editKept number _ => d.kept[number]?
  | create _ | createOfBytes _ | createOfByteRange _ _ _ | register _ | unpack _ | erase _
  | contains _ | isEmpty | keep _ | churn _ => none

/-- What a call answers and the desk after it, or why it is refused. -/
def run (d : Desk) : Call → Except Fault (Answer × Desk)
  | create text => issue (d.registry.create text)
  | createOfBytes bytes => issue (d.registry.createOfBytes bytes)
  | createOfByteRange array offset count =>
    issue (d.registry.createOfByteRange array offset count)
  | register units => issue (d.registry.register (Buffer.ofUnits units))
  | substringChars raw first last => do
    issue (d.registry.substringChars (← handleOfRaw raw) first last)
  | substringBytes raw first last => do
    issue (d.registry.substringBytes (← handleOfRaw raw) first last)
  | unpack raw => (handleOfRaw raw).map (.handle ·, d)
  | erase raw => do
    let r ← d.registry.erase (← handleOfRaw raw)
    .ok (.done, { d with registry := r })
  | contains raw => (handleOfRaw raw).map fun h => (.flag (d.registry.contains h), d)
  | isEmpty => .ok (.flag d.registry.isEmpty, d)
  | read raw => do
    let b ← d.registry.read (← handleOfRaw raw)
    .ok (.content b, d)
  | edit raw call => do edited (← d.registry.resolveRaw raw) call
  | keep raw => do
    let id ← d.registry.resolveRaw raw
    .ok (.kept d.kept.size, { d with kept := d.kept.push id })
  | editKept number call => edited (d.kept[number]?.getD d.registry.store.size) call
  | churn n => do
    let (h, r) ← d.registry.churn n
    .ok (.last h, { d with registry := r })
where
  /-- The desk after a handle was issued. -/
  issue (result : Except Fault (Handle × Registry)) : Except Fault (Answer × Desk) :=
    result.map fun (h, r) => (.handle h, { d with registry := r })
  /-- The desk after a call on the buffer at a place of the store. -/
  edited (id : BufferId) (call : Buffer.Call) : Except Fault (Answer × Desk) :=
    (d.registry.call id call).map fun (answer, after, r) =>
      (.edited answer after, { d with registry := r })

end Call

/-- The desk after a list of calls; those that are refused leave it as it is. -/
def runAll (d : Desk) : List Call → Desk
  | [] => d
  | call :: calls =>
    match call.run d with
    | .ok (_, after) => runAll after calls
    | .error _ => runAll d calls

end Registry
end HostParsing
