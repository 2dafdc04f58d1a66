import HostParsing.Buffer.Edit
import HostParsing.Registry.Store
/-!
# The registry of buffers

A registry owns buffers and gives out handles to them. A slot holds at most one
buffer and has a generation, which moves on whenever the slot's buffer is
released; a handle resolves only while its slot has its generation. The slot
released last is used again first. Buffers themselves lie in a store that only
grows, so whoever has kept a buffer by its place in the store keeps it after its
handle is released, whatever takes over the slot.

`lookup?` is the view that everything else is told by: `register` and `erase`
say what they do to the slot table, `update` changes the store alone
(`lookup?_update`). `churn` is many rounds of a registration and a release, told
by what they come to.
-/

namespace HostParsing

/-- A place for one buffer in the table of a registry. -/
structure Slot where
  generation : UInt32
  buffer : Option BufferId
deriving DecidableEq, Repr

/-- The generation after one; 0 is left out, so that no handle packs to a word
without a generation. -/
def Slot.nextGeneration (generation : UInt32) : UInt32 :=
  if generation + 1 = 0 then 1 else generation + 1

/-- How many generations a slot goes through before it is back at the first. -/
def Slot.cycle : Nat := UInt32.size - 1

/-- The generation `n` releases after one. -/
def Slot.laterGeneration (generation : UInt32) (n : Nat) : UInt32 :=
  if n = 0 then generation else UInt32.ofNat (1 + (generation.toNat + n - 1) % cycle)

/-- The most slots that a handle can number. -/
def slotLimit : Nat := UInt32.size

/-- The owner of every live buffer. -/
structure Registry where
  slots : Array Slot
  /-- The slots without a buffer, the one released last in front. -/
  free : List UInt32
  /-- The number of slots with a buffer. -/
  live : Nat
  store : Store

namespace Registry

/-- A registry without buffers. -/
def empty : Registry := ⟨#[], [], 0, Store.empty⟩

instance : Inhabited Registry := ⟨empty⟩

/-- The buffer that a handle resolves to. -/
def lookup? (r : Registry) (h : Handle) : Option BufferId :=
  match r.slots[h.index.toNat]? with
  | some slot => if slot.generation = h.generation then slot.buffer else none
  | none => none

/-- The buffer that a handle resolves to, or the complaint that it is stale. -/
def resolve (r : Registry) (h : Handle) : Except Fault BufferId :=
  match r.lookup? h with
  | some id => .ok id
  | none => .error (.staleHandle h)

/-- Whether a handle resolves. -/
def contains (r : Registry) (h : Handle) : Bool :=
  (r.lookup? h).isSome

/-- The number of live buffers. -/
def size (r : Registry) : Nat := r.live

/-- Whether no buffer is live. -/
def isEmpty (r : Registry) : Bool := r.size == 0

/-- What lies at a place of the store. -/
def buffer (r : Registry) (id : BufferId) : Buffer :=
  r.store.get id

/-- The content behind a handle. -/
def read (r : Registry) (h : Handle) : Except Fault Buffer :=
  (r.resolve h).map r.buffer

/-- The registry with another buffer at a place of the store. -/
def update (r : Registry) (id : BufferId) (b : Buffer) : Registry :=
  { r with store := r.store.put id b }

/-- Take a buffer in: the slot released last is used, else a new one is added if
it can still be numbered. -/
def register (r : Registry) (b : Buffer) : Except Fault (Handle × Registry) :=
  match r.free with
  | index :: free =>
    let generation := (r.slots[index.toNat]?.map Slot.generation).getD 1
    .ok (⟨index, generation⟩,
      { slots := r.slots.setIfInBounds index.toNat ⟨generation, some r.store.size⟩
        free
        live := r.live + 1
        store := r.store.push b })
  | [] =>
    if r.slots.size < slotLimit then
      .ok (⟨UInt32.ofNat r.slots.size, 1⟩,
        { slots := r.slots.push ⟨1, some r.store.size⟩
          free := []
          live := r.live + 1
          store := r.store.push b })
    else
      .error (.registryFull r.slots.size)

/-- Release the buffer behind a handle: its slot moves on to the next generation
and becomes the first to be used again. -/
def erase (r : Registry) (h : Handle) : Except Fault Registry :=
  (r.resolve h).map fun _ =>
    { r with
      slots := r.slots.setIfInBounds h.index.toNat ⟨Slot.nextGeneration h.generation, none⟩
      free := h.index :: r.free
      live := r.live - 1 }

/-- Register a text. -/
def create (r : Registry) (text : String) : Except Fault (Handle × Registry) :=
  r.register (Buffer.ofText text)

/-- Register bytes that make up whole units. -/
def createOfBytes (r : Registry) (bytes : Bytes) : Except Fault (Handle × Registry) := do
  r.register (← Buffer.ofBytes bytes)

/-- Register a range of a byte array. -/
def createOfByteRange (r : Registry) (array : Bytes) (offset length : Nat) :
    Except Fault (Handle × Registry) := do
  r.register (← Buffer.ofByteRange array offset length)

/-- Register a copy of a range of code units. -/
def substringChars (r : Registry) (h : Handle) (first last : Nat) :
    Except Fault (Handle × Registry) := do
  r.register (← (← r.read h).substringChars first last)

/-- Register a copy of a range of bytes. -/
def substringBytes (r : Registry) (h : Handle) (first last : Nat) :
    Except Fault (Handle × Registry) := do
  r.register (← (← r.read h).substringBytes first last)

/-- The registry after `n` more rounds in which the slot at an index is given an
empty buffer and released. -/
def passRounds (r : Registry) (index : UInt32) (n : Nat) : Registry :=
  { r with
    slots := r.slots.modify index.toNat fun slot =>
      { slot with generation := Slot.laterGeneration slot.generation n }
    store := r.store.skip n }

/-- Register an empty buffer and release it, `n` times over; the last handle
issued is answered. The first round finds the slot, which all others use. -/
def churn (r : Registry) : Nat → Except Fault (Option Handle × Registry)
  | 0 => .ok (none, r)
  | n + 1 => do
    let (h, r) ← r.create ""
    let r ← r.erase h
    .ok (some ⟨h.index, Slot.laterGeneration h.generation n⟩, r.passRounds h.index n)

@[simp] theorem lookup?_update (r : Registry) (id : BufferId) (b : Buffer) (h : Handle) :
    (r.update id b).lookup? h = r.lookup? h := rfl

theorem update_buffer (r : Registry) (id : BufferId) : r.update id (r.buffer id) = r := by
  rw [update, buffer, Store.put_get]

theorem contains_iff {r : Registry} {h : Handle} :
    r.contains h = true ↔ ∃ id, r.lookup? h = some id := by
  simp [contains, Option.isSome_iff_exists]

theorem resolve_eq_ok_iff {r : Registry} {h : Handle} {id : BufferId} :
    r.resolve h = .ok id ↔ r.lookup? h = some id := by
  unfold resolve
  split <;> simp_all

end Registry
end HostParsing
