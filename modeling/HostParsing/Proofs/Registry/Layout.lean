import HostParsing.Proofs.Registry.Run
/-!
# The layout of the table

What the table looks like is told by what was done to the registry (`Layout`). Its
free slots are the vacant ones among those that were ever released, in the order
of their last release (`lastReleased`), and there are as many slots as there were
ever buffers live at a time (`peak`): a slot is only added when all hold a buffer.
Each of the three ways to change a registry keeps that (`Registered.layout`,
`Erased.layout`, `Layout.update`), and so does every run (`table_of_runAll`).
-/

namespace HostParsing.Registry

/-- The slots that were released, each once, the one released last in front. -/
def lastReleased : List Event → List UInt32
  | [] => []
  | .released index :: events => index :: (lastReleased events).filter (· ≠ index)
  | .registered _ :: events | .wrote _ :: events => lastReleased events

/-- How many buffers are live after what was done to an empty registry. -/
def liveAfter : List Event → Nat
  | [] => 0
  | .registered _ :: events => liveAfter events + 1
  | .released _ :: events => liveAfter events - 1
  | .wrote _ :: events => liveAfter events

/-- The most buffers that were live at a time. -/
def peak : List Event → Nat
  | [] => 0
  | event :: events => max (peak events) (liveAfter (event :: events))

/-- Whether there is a slot at an index, and it holds no buffer. -/
def vacant (r : Registry) (index : UInt32) : Bool :=
  r.slots[index.toNat]?.any (·.buffer.isNone)

/-- What the table looks like after what was done to an empty registry. -/
structure Layout (r : Registry) (events : List Event) : Prop where
  live : r.live = liveAfter events
  held : r.live = r.slots.countP (·.buffer.isSome)
  free : r.free = (lastReleased events).filter r.vacant
  size : r.slots.size = peak events

variable {r r' : Registry} {events : List Event} {b : Buffer} {h : Handle}

theorem mem_free_iff_vacant (sound : r.Sound) (index : UInt32) :
    index ∈ r.free ↔ r.vacant index = true := by
  rw [sound.mem_free_iff, vacant, Option.any_eq_true]
  constructor
  · rintro ⟨g, found⟩
    exact ⟨_, found, rfl⟩
  · rintro ⟨⟨g, buffer⟩, found, none⟩
    exact ⟨g, Option.isNone_iff_eq_none.mp none ▸ found⟩

/-- One slot in another state is vacant or not by that state. -/
theorem vacant_of_slots {index : UInt32} {slot : Slot} (slots : ∀ i : Nat,
      r'.slots[i]? = if i = index.toNat then some slot else r.slots[i]?) (other : UInt32) :
    r'.vacant other = if other = index then slot.buffer.isNone else r.vacant other := by
  simp only [vacant, slots, UInt32.toNat_inj]
  split <;> rfl

/-- One slot in another state counts by that state, and no more by its old one. -/
theorem countP_of_slots {i : Nat} {old slot : Slot} {p : Slot → Bool}
    (found : r.slots[i]? = some old)
    (slots : ∀ j : Nat, r'.slots[j]? = if j = i then some slot else r.slots[j]?) :
    r'.slots.countP p + (if p old then 1 else 0) =
      r.slots.countP p + (if p slot then 1 else 0) := by
  obtain ⟨inside, rfl⟩ := Array.getElem?_eq_some_iff.mp found
  have same : r'.slots = r.slots.set i slot inside := by
    refine Array.ext_getElem? fun j => ?_
    rw [slots, Array.getElem?_set]
    by_cases e : j = i
    · simp [e]
    · simp [e, Ne.symm e]
  have counted : (if p r.slots[i] then 1 else 0) ≤ r.slots.countP p :=
    Array.boole_getElem_le_countP inside
  rw [same, Array.countP_set]
  omega

/-! ## What each event does -/

theorem layout_empty : Layout empty [] where
  live := rfl
  held := rfl
  free := rfl
  size := rfl

theorem Registered.layout (done : r.Registered b h r') (sound : r.Sound) (before : Layout r events) :
    Layout r' (.registered h.index :: events) := by
  have counted := sound.live_add_free
  have free : r'.free = r.free.filter (· ≠ h.index) := by
    rcases done.free with ⟨free, -⟩ | ⟨free, free', -⟩
    · have distinct := free ▸ sound.free_nodup
      rw [free, List.filter_cons_of_neg (by simp)]
      refine (List.filter_eq_self.mpr fun index member => ?_).symm
      exact decide_eq_true fun same => (List.nodup_cons.mp distinct).1 (same ▸ member)
    · rw [free, free', List.filter_nil]
  constructor
  case live => rw [done.live, before.live, liveAfter]
  case held =>
    rcases done.free with ⟨free, -⟩ | ⟨-, -, index, -, size⟩
    · obtain ⟨g, found⟩ := (sound.mem_free_iff h.index).mp (by simp [free])
      have one := countP_of_slots (p := (·.buffer.isSome)) found done.slots
      rw [done.live, before.held]
      simpa using one.symm
    · have pushed : r'.slots = r.slots.push ⟨h.generation, some r.store.size⟩ := by
        refine Array.ext_getElem? fun i => ?_
        rw [done.slots, Array.getElem?_push, index]
      rw [done.live, before.held, pushed, Array.countP_push]
      rfl
  case free =>
    rw [free, before.free, List.filter_filter, lastReleased]
    refine List.filter_congr fun index _ => ?_
    rw [vacant_of_slots done.slots]
    by_cases same : index = h.index <;> simp [same]
  case size =>
    rw [peak, liveAfter, ← before.size, ← before.live]
    rcases done.free with ⟨free, size⟩ | ⟨free, -, -, -, size⟩
    · rw [free, List.length_cons] at counted
      omega
    · rw [free, List.length_nil] at counted
      omega

theorem Erased.layout (done : r.Erased h r') (sound : r.Sound) (before : Layout r events) :
    Layout r' (.released h.index :: events) := by
  obtain ⟨id, held⟩ := done.held
  have counted := sound.live_add_free
  have occupied : r.vacant h.index = false := by simp [vacant, held]
  constructor
  case live => rw [done.live, before.live, liveAfter]
  case held =>
    have one := countP_of_slots (p := (·.buffer.isSome)) held done.slots
    rw [done.live, before.held]
    simp at one
    omega
  case free =>
    have vacated : r'.vacant h.index = true := by simp [vacant_of_slots done.slots]
    rw [done.free, before.free, lastReleased, List.filter_cons_of_pos vacated, List.filter_filter]
    refine congrArg _ (List.filter_congr fun index _ => ?_)
    rw [vacant_of_slots done.slots]
    by_cases same : index = h.index <;> simp [same, occupied]
  case size =>
    rw [peak, liveAfter, ← before.size, ← before.live, done.size]
    omega

theorem Layout.update (before : Layout r events) (sound : r.Sound) (id : BufferId) (b : Buffer) :
    Layout (r.update id b) (.wrote id :: events) where
  live := before.live
  held := before.held
  free := before.free
  size := by
    have counted := sound.live_add_free
    rw [peak, liveAfter, ← before.size, ← before.live]
    exact (Nat.max_eq_left (Nat.le.intro counted)).symm

/-- What was done to an empty registry tells what its table looks like. -/
theorem Trace.layout (trace : Trace empty events r) : Layout r events := by
  induction trace with
  | stays => exact layout_empty
  | registers before made ih =>
    have sound := before.sound sound_empty
    exact (Registered.of_register sound made).layout sound ih
  | releases before gone ih => exact (Erased.of_erase gone).layout (before.sound sound_empty) ih
  | writes before id b ih => exact ih.update (before.sound sound_empty) id b

/-- After every run the free slots are the vacant ones, each listed once, in the
order of their last release, and the counter counts the others; so a release never
takes it below zero, and a registration finds the slot released last, or adds one
if all hold a buffer. No slot has generation 0. There are as many slots as there
were ever buffers live at a time, and never more than can be numbered. -/
theorem table_of_runAll (calls : List Call) :
    let r := (runAll Desk.empty calls).registry
    let events := eventsIn Desk.empty calls
    (r.free.Nodup ∧ (∀ index, index ∈ r.free ↔ r.vacant index = true) ∧
      r.free = (lastReleased events).filter r.vacant) ∧
    (r.live = liveAfter events ∧ r.live = r.slots.countP (·.buffer.isSome) ∧
      r.live + r.free.length = r.slots.size) ∧
    (∀ h after, r.erase h = .ok after → r.live = after.live + 1 ∧ after.free = h.index :: r.free) ∧
    (∀ b h after, r.register b = .ok (h, after) →
      (r.free = h.index :: after.free ∧ h.index.toNat < r.slots.size) ∨
        (r.free = [] ∧ h.index.toNat = r.slots.size)) ∧
    (∀ slot ∈ r.slots, slot.generation ≠ 0) ∧
    r.slots.size ≤ slotLimit ∧ r.slots.size = peak events := by
  intro r events
  have trace : Trace empty events r := trace_runAll (d := Desk.empty) sound_empty calls
  have sound := trace.sound sound_empty
  have layout := trace.layout
  refine ⟨⟨sound.free_nodup, mem_free_iff_vacant sound, layout.free⟩,
    ⟨layout.live, layout.held, sound.live_add_free⟩, fun h after gone => ?_, fun b h after made => ?_,
    fun slot member => ?_, sound.size_le, layout.size⟩
  · have done := Erased.of_erase gone
    obtain ⟨id, held⟩ := done.held
    have room := sound.free_length_lt held
    have counted := sound.live_add_free
    exact ⟨by rw [done.live]; omega, done.free⟩
  · have done := Registered.of_register sound made
    rcases done.free with ⟨free, size⟩ | ⟨free, -, index, -⟩
    · refine .inl ⟨free, ?_⟩
      obtain ⟨g, found⟩ := (sound.mem_free_iff h.index).mp (by simp [free])
      exact (Array.getElem?_eq_some_iff.mp found).1
    · exact .inr ⟨free, index⟩
  · obtain ⟨i, inside, rfl⟩ := Array.mem_iff_getElem.mp member
    exact sound.generation_ne_zero (Array.getElem?_eq_getElem inside)

/-- Two slots are released and the last one is used again. -/
theorem table_of_runAll_reused :
    let r := (runAll Desk.empty [.create "a", .create "b", .erase 4294967297, .erase 1,
      .create "c"]).registry
    r.free = [1] ∧ r.live = 1 ∧ r.slots.size = 2 ∧
      ∀ b h after, r.register b = .ok (h, after) → h.index = 1 := by
  intro r
  obtain ⟨-, -, -, reuses, -, -, size⟩ := table_of_runAll [.create "a", .create "b",
    .erase 4294967297, .erase 1, .create "c"]
  have free : r.free = [1] := by decide
  refine ⟨free, by decide, size, fun b h after made => ?_⟩
  rcases reuses b h after made with ⟨found, -⟩ | ⟨none, -⟩
  · exact (List.cons.inj (found.symm.trans free)).1
  · cases free.symm.trans none

end HostParsing.Registry
