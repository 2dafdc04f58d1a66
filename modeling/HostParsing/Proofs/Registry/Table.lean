import HostParsing.Proofs.Registry.Cycle
import Mathlib.Data.List.Nodup
import Mathlib.Data.List.Perm.Subperm
/-!
# The slot table

What a registry's four parts have to do with one another (`Sound`): the free
slots are the vacant ones, each listed once, the counter counts the others, and
no two slots hold the same buffer. `register` and `erase` are told by their
effect on one slot, all others staying as they are (`Registered`, `Erased`), and
by their effect on `lookup?` (`Registered.lookup?`, `Erased.lookup?`); that both
keep the table sound follows from the former. On a sound table a registration is
refused exactly when every slot that can be numbered holds a buffer
(`register_spec`).
-/

namespace HostParsing.Registry

/-- The parts of the table are in step. -/
structure Sound (r : Registry) : Prop where
  size_le : r.slots.size ≤ slotLimit
  free_nodup : r.free.Nodup
  mem_free_iff : ∀ index : UInt32, index ∈ r.free ↔ ∃ g, r.slots[index.toNat]? = some ⟨g, none⟩
  live_add_free : r.live + r.free.length = r.slots.size
  generation_ne_zero : ∀ {i : Nat} {slot : Slot}, r.slots[i]? = some slot → slot.generation ≠ 0
  lt_size : ∀ {i : Nat} {g id}, r.slots[i]? = some ⟨g, some id⟩ → id < r.store.size
  /-- No two slots hold the same buffer. -/
  apart : ∀ {i j : Nat} {g g' id}, r.slots[i]? = some ⟨g, some id⟩ →
    r.slots[j]? = some ⟨g', some id⟩ → i = j

/-- A registration of `b` that issues `h`: one slot, vacant or new, takes the
buffer. -/
structure Registered (r : Registry) (b : Buffer) (h : Handle) (r' : Registry) : Prop where
  vacant : ∀ {slot : Slot}, r.slots[h.index.toNat]? = some slot → slot = ⟨h.generation, none⟩
  slots : ∀ i : Nat, r'.slots[i]? =
    if i = h.index.toNat then some ⟨h.generation, some r.store.size⟩ else r.slots[i]?
  /-- The slot released last, or a new one if none is free. -/
  free : (r.free = h.index :: r'.free ∧ r'.slots.size = r.slots.size) ∨
    (r.free = [] ∧ r'.free = [] ∧ h.index.toNat = r.slots.size ∧ h.generation = 1 ∧
      r'.slots.size = r.slots.size + 1)
  live : r'.live = r.live + 1
  store : r'.store = r.store.push b

/-- A release of `h`: its slot becomes vacant and moves on to the next generation. -/
structure Erased (r : Registry) (h : Handle) (r' : Registry) : Prop where
  held : ∃ id, r.slots[h.index.toNat]? = some ⟨h.generation, some id⟩
  slots : ∀ i : Nat, r'.slots[i]? =
    if i = h.index.toNat then some ⟨Slot.nextGeneration h.generation, none⟩ else r.slots[i]?
  free : r'.free = h.index :: r.free
  live : r'.live = r.live - 1
  store : r'.store = r.store
  size : r'.slots.size = r.slots.size

variable {r r' : Registry} {b : Buffer} {h : Handle}

theorem sound_empty : empty.Sound where
  size_le := Nat.zero_le _
  free_nodup := List.nodup_nil
  mem_free_iff index := by simp [empty]
  live_add_free := rfl
  generation_ne_zero found := by simp [empty] at found
  lt_size found := by simp [empty] at found
  apart found := by simp [empty] at found

/-- One slot in another state is seen through the handles of that slot alone. -/
theorem lookup?_of_slots {index : UInt32} {slot : Slot} (slots : ∀ i : Nat,
      r'.slots[i]? = if i = index.toNat then some slot else r.slots[i]?) (other : Handle) :
    r'.lookup? other =
      if other.index = index then if slot.generation = other.generation then slot.buffer else none
      else r.lookup? other := by
  simp only [lookup?, slots, UInt32.toNat_inj]
  by_cases same : other.index = index
  · rw [if_pos same, if_pos same]
  · rw [if_neg same, if_neg same]

/-- The slots without a buffer and the one at hand are not more than all. -/
theorem Sound.free_length_lt (sound : r.Sound) {g : UInt32} {id : BufferId}
    (held : r.slots[h.index.toNat]? = some ⟨g, some id⟩) : r.free.length < r.slots.size := by
  have notFree : h.index ∉ r.free := fun free => by
    obtain ⟨_, e⟩ := (sound.mem_free_iff _).mp free
    simp [e] at held
  have nodup : ((h.index :: r.free).map UInt32.toNat).Nodup :=
    List.Nodup.map (fun _ _ => UInt32.toNat_inj.mp)
      (List.nodup_cons.mpr ⟨notFree, sound.free_nodup⟩)
  have inside : (h.index :: r.free).map UInt32.toNat ⊆ List.range r.slots.size := by
    intro i hi
    obtain ⟨index, member, rfl⟩ := List.mem_map.mp hi
    rw [List.mem_range]
    rcases List.mem_cons.mp member with rfl | free
    · exact (Array.getElem?_eq_some_iff.mp held).1
    · obtain ⟨_, e⟩ := (sound.mem_free_iff _).mp free
      exact (Array.getElem?_eq_some_iff.mp e).1
  have := (nodup.subperm inside).length_le
  rw [List.length_map, List.length_cons, List.length_range] at this
  omega

/-! ## Registering -/

/-- On a sound table a registration is refused exactly when every slot that can
be numbered holds a buffer. -/
theorem register_spec (sound : r.Sound) (b : Buffer) :
    (r.live < slotLimit ∧ ∃ h r', r.register b = .ok (h, r') ∧ r.Registered b h r') ∨
      (r.live = slotLimit ∧ r.register b = .error (.registryFull slotLimit)) := by
  have counted := sound.live_add_free
  have bound := sound.size_le
  unfold register
  cases free : r.free with
  | cons index rest =>
    left
    obtain ⟨g, e⟩ := (sound.mem_free_iff index).mp (by simp [free])
    obtain ⟨inside, -⟩ := Array.getElem?_eq_some_iff.mp e
    rw [free, List.length_cons] at counted
    refine ⟨by omega, _, _, rfl, ?_⟩
    simp only [e, Option.map_some, Option.getD_some]
    refine ⟨fun found => by simpa [e] using found.symm, fun i => ?_, .inl ⟨free, by simp⟩, rfl, rfl⟩
    rw [Array.getElem?_setIfInBounds]
    by_cases same : i = index.toNat
    · subst same; simp [inside]
    · simp [same, Ne.symm same]
  | nil =>
    rw [free, List.length_nil, Nat.add_zero] at counted
    simp only
    split
    · rename_i room
      left
      have index : (UInt32.ofNat r.slots.size).toNat = r.slots.size :=
        UInt32.toNat_ofNat_of_lt' room
      refine ⟨by omega, _, _, rfl, ?_⟩
      refine ⟨fun found => ?_, fun i => ?_, .inr ⟨free, rfl, index, rfl, by simp⟩, rfl, rfl⟩
      · simp [index] at found
      · simp only [index, Array.getElem?_push]
    · right
      have full : r.slots.size = slotLimit := by omega
      exact ⟨by omega, by rw [full]⟩

theorem Registered.of_register (sound : r.Sound) (e : r.register b = .ok (h, r')) :
    r.Registered b h r' := by
  rcases register_spec sound b with ⟨-, _, _, e', done⟩ | ⟨-, e'⟩
  · rw [e] at e'
    cases e'
    exact done
  · rw [e] at e'
    cases e'

namespace Registered

theorem fresh (done : r.Registered b h r') : r.lookup? h = none := by
  cases found : r.lookup? h with
  | none => rfl
  | some id => cases done.vacant (lookup?_eq_some_iff.mp found)

/-- The handle issued resolves to the new buffer, all others as before. -/
theorem lookup? (done : r.Registered b h r') (other : Handle) :
    r'.lookup? other = if other = h then some r.store.size else r.lookup? other := by
  rw [lookup?_of_slots done.slots]
  by_cases index : other.index = h.index
  · rw [if_pos index]
    by_cases generation : h.generation = other.generation
    · have same : other = h := by cases other; cases h; simp_all
      rw [if_pos generation, if_pos same]
    · have ne : other ≠ h := fun e => generation (congrArg _ e.symm)
      have vacant : r.lookup? other = none := by
        cases found : r.lookup? other with
        | none => rfl
        | some id =>
          rw [lookup?_eq_some_iff, index] at found
          exact congrArg Slot.buffer (done.vacant found)
      rw [if_neg generation, if_neg ne, vacant]
  · rw [if_neg index, if_neg fun e => index (congrArg _ e)]

theorem sound (done : r.Registered b h r') (sound : r.Sound) : r'.Sound := by
  have self := done.slots h.index.toNat
  rw [if_pos rfl] at self
  have inside := (Array.getElem?_eq_some_iff.mp self).1
  have index := h.index.toNat_lt
  have counted := sound.live_add_free
  constructor
  case size_le =>
    rcases done.free with ⟨-, e⟩ | ⟨-, -, e, -, e'⟩
    · rw [e]; exact sound.size_le
    · simp only [slotLimit, UInt32.size]; omega
  case free_nodup =>
    rcases done.free with ⟨e, -⟩ | ⟨-, e, -⟩
    · exact (List.nodup_cons.mp (e ▸ sound.free_nodup)).2
    · rw [e]; exact List.nodup_nil
  case mem_free_iff =>
    intro other
    rw [done.slots]
    by_cases same : other = h.index
    · subst same
      have notFree : h.index ∉ r'.free := by
        rcases done.free with ⟨e, -⟩ | ⟨-, e, -⟩
        · exact (List.nodup_cons.mp (e ▸ sound.free_nodup)).1
        · simp [e]
      simp [notFree]
    · rw [if_neg (fun e => same (UInt32.toNat_inj.mp e)), ← sound.mem_free_iff]
      rcases done.free with ⟨e, -⟩ | ⟨e, e', -⟩
      · simp [e, same]
      · simp [e, e']
  case live_add_free =>
    rcases done.free with ⟨e, e'⟩ | ⟨e, e', -, -, e''⟩
    · rw [e, List.length_cons] at counted
      rw [done.live, e']
      omega
    · rw [e] at counted
      rw [done.live, e', e'']
      simp only [List.length_nil] at counted ⊢
      omega
  case generation_ne_zero =>
    intro i slot found
    rw [done.slots] at found
    split at found
    · cases found
      rcases done.free with ⟨e, -⟩ | ⟨-, -, -, e, -⟩
      · obtain ⟨g, met⟩ := (sound.mem_free_iff h.index).mp (by simp [e])
        have := sound.generation_ne_zero met
        rwa [congrArg Slot.generation (done.vacant met)] at this
      · simp [e]
    · exact sound.generation_ne_zero found
  case lt_size =>
    intro i g id found
    rw [done.slots] at found
    rw [done.store, Store.size_push]
    split at found
    · cases found; exact Nat.lt_succ_self _
    · exact Nat.lt_succ_of_lt (sound.lt_size found)
  case apart =>
    intro i j g g' id foundI foundJ
    rw [done.slots] at foundI foundJ
    split at foundI <;> split at foundJ
    · simp_all
    · cases foundI; exact absurd (sound.lt_size foundJ) (Nat.lt_irrefl _)
    · cases foundJ; exact absurd (sound.lt_size foundI) (Nat.lt_irrefl _)
    · exact sound.apart foundI foundJ

end Registered

/-! ## Releasing -/

theorem Erased.of_erase (e : r.erase h = .ok r') : r.Erased h r' := by
  obtain ⟨⟨id, found⟩, rfl⟩ := erase_eq_ok_iff.mp e
  have held := lookup?_eq_some_iff.mp found
  obtain ⟨inside, -⟩ := Array.getElem?_eq_some_iff.mp held
  refine ⟨⟨id, held⟩, fun i => ?_, rfl, rfl, rfl, by simp⟩
  rw [Array.getElem?_setIfInBounds]
  by_cases same : i = h.index.toNat
  · subst same; simp [inside]
  · simp [same, Ne.symm same]

namespace Erased

/-- The handle released resolves no more, all others as before. -/
theorem lookup? (done : r.Erased h r') (other : Handle) :
    r'.lookup? other = if other = h then none else r.lookup? other := by
  rw [lookup?_of_slots done.slots]
  by_cases index : other.index = h.index
  · rw [if_pos index, ite_self]
    by_cases generation : h.generation = other.generation
    · have same : other = h := by cases other; cases h; simp_all
      rw [if_pos same]
    · have ne : other ≠ h := fun e => generation (congrArg _ e.symm)
      obtain ⟨held, e⟩ := done.held
      have stale : r.lookup? other = none := by
        simp only [Registry.lookup?, index, e, if_neg generation]
      rw [if_neg ne, stale]
  · rw [if_neg index, if_neg fun e => index (congrArg _ e)]

theorem sound (done : r.Erased h r') (sound : r.Sound) : r'.Sound := by
  obtain ⟨id, held⟩ := done.held
  have counted := sound.live_add_free
  have room := sound.free_length_lt held
  constructor
  case size_le => rw [done.size]; exact sound.size_le
  case free_nodup =>
    rw [done.free, List.nodup_cons]
    refine ⟨fun free => ?_, sound.free_nodup⟩
    obtain ⟨_, e⟩ := (sound.mem_free_iff _).mp free
    simp [held] at e
  case mem_free_iff =>
    intro other
    rw [done.slots, done.free, List.mem_cons]
    by_cases same : other = h.index
    · subst same; simp
    · rw [if_neg (fun e => same (UInt32.toNat_inj.mp e)), ← sound.mem_free_iff]
      simp [same]
  case live_add_free =>
    rw [done.live, done.free, done.size, List.length_cons]
    omega
  case generation_ne_zero =>
    intro i slot found
    rw [done.slots] at found
    split at found
    · cases found; exact Slot.nextGeneration_ne_zero _
    · exact sound.generation_ne_zero found
  case lt_size =>
    intro i g id found
    rw [done.slots] at found
    rw [done.store]
    split at found
    · cases found
    · exact sound.lt_size found
  case apart =>
    intro i j g g' id foundI foundJ
    rw [done.slots] at foundI foundJ
    split at foundI <;> split at foundJ
    · cases foundI
    · cases foundI
    · cases foundJ
    · exact sound.apart foundI foundJ

end Erased

theorem Sound.update (sound : r.Sound) (id : BufferId) (b : Buffer) : (r.update id b).Sound :=
  { sound with }

end HostParsing.Registry
