import HostParsing.Buffer.Basic
/-!
# The store of buffers

Buffers lie in a store that only grows, so a place in it is a buffer's identity:
no two buffers ever share one. `push` takes the next place, `put` writes to a
place that is taken. An empty buffer needs no cell of its own, so a run of them
takes its places at once (`skip`, `push_empty`).
-/

namespace HostParsing

/-- The place of a buffer in the store. No two buffers ever share one. -/
abbrev BufferId := Nat

/-- Every buffer that was ever registered, by its place. -/
structure Store where
  /-- How many places are taken. -/
  size : Nat
  /-- What lies at a place. -/
  get : BufferId → Buffer
  get_beyond : ∀ id, size ≤ id → get id = Buffer.empty

namespace Store

/-- The store without buffers. -/
def empty : Store := ⟨0, fun _ => Buffer.empty, fun _ _ => rfl⟩

instance : Inhabited Store := ⟨empty⟩

/-- The store with a buffer at the next place. -/
def push (s : Store) (b : Buffer) : Store where
  size := s.size + 1
  get id := if id = s.size then b else s.get id
  get_beyond id h := by
    rw [if_neg (Nat.ne_of_gt h)]
    exact s.get_beyond id (Nat.le_of_succ_le h)

/-- The store with empty buffers at the next `n` places. -/
def skip (s : Store) (n : Nat) : Store where
  size := s.size + n
  get := s.get
  get_beyond id h := s.get_beyond id (Nat.le_of_add_right_le h)

/-- The store with another buffer at a place, if that is taken. -/
def put (s : Store) (id : BufferId) (b : Buffer) : Store where
  size := s.size
  get other := if other = id ∧ id < s.size then b else s.get other
  get_beyond other h := by
    rw [if_neg fun ⟨e, taken⟩ => Nat.not_le_of_lt taken (e ▸ h)]
    exact s.get_beyond other h

@[ext] theorem ext {s t : Store} (size : s.size = t.size) (get : ∀ id, s.get id = t.get id) :
    s = t := by
  obtain ⟨n, f, _⟩ := s
  obtain ⟨m, g, _⟩ := t
  obtain rfl : n = m := size
  obtain rfl : f = g := funext get
  rfl

@[simp] theorem size_push (s : Store) (b : Buffer) : (s.push b).size = s.size + 1 := rfl

@[simp] theorem size_skip (s : Store) (n : Nat) : (s.skip n).size = s.size + n := rfl

@[simp] theorem size_put (s : Store) (id : BufferId) (b : Buffer) :
    (s.put id b).size = s.size := rfl

@[simp] theorem get_push_self (s : Store) (b : Buffer) : (s.push b).get s.size = b :=
  if_pos rfl

theorem get_push_of_lt {s : Store} {id : BufferId} (h : id < s.size) (b : Buffer) :
    (s.push b).get id = s.get id :=
  if_neg (Nat.ne_of_lt h)

@[simp] theorem get_skip (s : Store) (n : Nat) (id : BufferId) :
    (s.skip n).get id = s.get id := rfl

theorem get_put_self {s : Store} {id : BufferId} (h : id < s.size) (b : Buffer) :
    (s.put id b).get id = b :=
  if_pos ⟨rfl, h⟩

theorem get_put_of_ne {s : Store} {id other : BufferId} (h : other ≠ id) (b : Buffer) :
    (s.put id b).get other = s.get other :=
  if_neg fun taken => h taken.1

/-- Writing back what lies at a place changes nothing. -/
theorem put_get (s : Store) (id : BufferId) : s.put id (s.get id) = s := by
  ext other
  · rfl
  · simp only [put]
    split
    · rename_i same
      rw [same.1]
    · rfl

/-- An empty buffer takes a place and no cell. -/
theorem push_empty (s : Store) : s.push Buffer.empty = s.skip 1 := by
  ext id
  · rfl
  · simp only [push, get_skip]
    split
    · rename_i e
      exact (s.get_beyond id (Nat.le_of_eq e.symm)).symm
    · rfl

@[simp] theorem skip_zero (s : Store) : s.skip 0 = s := rfl

theorem skip_skip (s : Store) (m n : Nat) : (s.skip m).skip n = s.skip (m + n) :=
  ext (Nat.add_assoc s.size m n) fun _ => rfl

end Store
end HostParsing
