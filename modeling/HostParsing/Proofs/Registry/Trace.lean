import HostParsing.Proofs.Registry.Moved
/-!
# Traces

What was done to a registry, one event after the other (`Trace`). A trace tells
how often each slot was released (`Trace.moved`), and what became of a place of
the store: its buffer changes only when it is written to
(`Trace.buffer_of_not_wrote`), and once no handle resolves to it none ever does,
because a registration takes a place that was never used (`Trace.unseen`).

Rounds of a registration and a release use one slot, and leave the contents as
they were (`rounds_spec`).
-/

namespace HostParsing.Registry

/-- What can be done to a registry. -/
inductive Event
  /-- The slot at an index took a buffer. -/
  | registered (index : UInt32)
  /-- The slot at an index gave its buffer up. -/
  | released (index : UInt32)
  /-- The buffer at a place of the store was written to. -/
  | wrote (id : BufferId)
deriving DecidableEq, Repr

/-- The events that lead from one registry to another, the latest in front. -/
inductive Trace (r : Registry) : List Event → Registry → Prop
  | stays : Trace r [] r
  | registers {events : List Event} {met r' : Registry} {b : Buffer} {h : Handle}
      (before : Trace r events met) (made : met.register b = .ok (h, r')) :
    Trace r (.registered h.index :: events) r'
  | releases {events : List Event} {met r' : Registry} {h : Handle}
      (before : Trace r events met) (gone : met.erase h = .ok r') :
    Trace r (.released h.index :: events) r'
  | writes {events : List Event} {met : Registry} (before : Trace r events met) (id : BufferId)
      (b : Buffer) : Trace r (.wrote id :: events) (met.update id b)

variable {r r' r'' : Registry} {events more : List Event} {h : Handle} {id : BufferId}

theorem Trace.trans (first : Trace r events r') (rest : Trace r' more r'') :
    Trace r (more ++ events) r'' := by
  induction rest with
  | stays => exact first
  | registers _ made ih => exact ih.registers made
  | releases _ gone ih => exact ih.releases gone
  | writes _ id b ih => exact ih.writes id b

/-- A trace releases a slot as often as it says. -/
theorem Trace.moved (trace : Trace r events r') (index : UInt32) :
    Moved index r (events.count (.released index)) r' := by
  induction trace with
  | stays => exact .stays
  | registers _ made ih => simpa [List.count_cons] using ih.registers made
  | releases _ gone ih => simpa [List.count_cons] using ih.releases gone
  | writes _ id b ih => simpa [List.count_cons] using ih.writes id b

theorem Trace.sound (trace : Trace r events r') (sound : r.Sound) : r'.Sound :=
  (trace.moved 0).sound sound

/-! ## Places of the store -/

/-- Places that are taken stay taken. -/
theorem Trace.size_store_le (trace : Trace r events r') (sound : r.Sound) :
    r.store.size ≤ r'.store.size := by
  induction trace with
  | stays => exact Nat.le_refl _
  | registers before made ih =>
    have done := Registered.of_register (before.sound sound) made
    rw [done.store, Store.size_push]
    exact Nat.le_succ_of_le ih
  | releases _ gone ih =>
    rw [(Erased.of_erase gone).store]
    exact ih
  | writes _ id b ih => exact ih

/-- A buffer to which no handle resolves is out of reach of all handles for good. -/
theorem Trace.unseen (trace : Trace r events r') (sound : r.Sound) (taken : id < r.store.size)
    (unseen : ∀ h, r.lookup? h ≠ some id) (h : Handle) : r'.lookup? h ≠ some id := by
  induction trace with
  | stays => exact unseen h
  | registers before made ih =>
    have done := Registered.of_register (before.sound sound) made
    rw [done.lookup?]
    split
    -- The place is taken, so it is not the one that the new buffer gets.
    · have older := before.size_store_le sound
      rw [ne_eq, Option.some.injEq]
      exact Nat.ne_of_gt (Nat.lt_of_lt_of_le taken older)
    · exact ih
  | releases _ gone ih =>
    rw [(Erased.of_erase gone).lookup?]
    split
    · nofun
    · exact ih
  | writes _ place b ih => exact ih

/-- A buffer stays as it is until it is written to. -/
theorem Trace.buffer_of_not_wrote (trace : Trace r events r') (sound : r.Sound)
    (taken : id < r.store.size) (untouched : .wrote id ∉ events) : r'.buffer id = r.buffer id := by
  induction trace with
  | stays => rfl
  | registers before made ih =>
    have done := Registered.of_register (before.sound sound) made
    have older := before.size_store_le sound
    rw [buffer, done.store, Store.get_push_of_lt (Nat.lt_of_lt_of_le taken older)]
    exact ih fun wrote => untouched (List.mem_cons_of_mem _ wrote)
  | releases _ gone ih =>
    rw [buffer, (Erased.of_erase gone).store]
    exact ih fun wrote => untouched (List.mem_cons_of_mem _ wrote)
  | writes _ place b ih =>
    rw [List.mem_cons, not_or, Event.wrote.injEq] at untouched
    rw [buffer, update, Store.get_put_of_ne untouched.1]
    exact ih untouched.2

/-! ## Rounds -/

/-- So many registrations and releases of one slot, in turn. -/
def rounds (index : UInt32) : Nat → List Event
  | 0 => []
  | n + 1 => .released index :: .registered index :: rounds index n

theorem rounds_add (index : UInt32) (m n : Nat) :
    rounds index (m + n) = rounds index n ++ rounds index m := by
  induction n with
  | zero => rfl
  | succ n ih => rw [← Nat.add_assoc, rounds, rounds, ih, List.cons_append, List.cons_append]

theorem count_released_rounds (index other : UInt32) (n : Nat) :
    (rounds other n).count (.released index) = if other = index then n else 0 := by
  induction n with
  | zero => rw [rounds, List.count_nil, ite_self]
  | succ n ih =>
    by_cases same : other = index <;> simp_all [rounds]

/-- A buffer that is registered can be released at once, which leaves the
contents as they were. -/
theorem round_spec (sound : r.Sound) {b : Buffer} {met : Registry}
    (made : r.register b = .ok (h, met)) : ∃ after, met.erase h = .ok after ∧
      Trace r (rounds h.index 1) after ∧ r.contents h = none ∧ after.contents = r.contents := by
  have registered := Registered.of_register sound made
  have found : met.lookup? h = some r.store.size := by rw [registered.lookup?, if_pos rfl]
  obtain ⟨after, gone⟩ : ∃ after, met.erase h = .ok after :=
    ⟨_, erase_eq_ok_iff.mpr ⟨⟨_, found⟩, rfl⟩⟩
  have fresh : r.contents h = none := by rw [contents, registered.fresh]; rfl
  refine ⟨after, gone, (Trace.stays.registers made).releases gone, fresh, ?_⟩
  rw [(Erased.of_erase gone).contents, registered.contents sound, Contents.drop_put fresh]

/-- Rounds of registrations and releases all use the slot that the first one
finds, and leave the contents as they were. -/
theorem rounds_spec (sound : r.Sound) {met : Registry} (made : r.create "" = .ok (h, met))
    (n : Nat) : ∃ last r', r.churn (n + 1) = .ok (some last, r') ∧ last.index = h.index ∧
      Trace r (rounds h.index (n + 1)) r' ∧ r.contents last = none ∧ r'.contents = r.contents := by
  induction n generalizing r h met with
  | zero =>
    obtain ⟨after, gone, trace, fresh, same⟩ := round_spec sound made
    refine ⟨h, after, ?_, rfl, trace, fresh, same⟩
    rw [churn_succ, made]
    simp only [bind, Except.bind, gone]
    rfl
  | succ n ih =>
    obtain ⟨after, gone, trace, -, same⟩ := round_spec sound made
    -- The slot just released is the first to be used again, so the other rounds
    -- begin at the same index.
    obtain ⟨met', made', -⟩ := round_of_erase gone
    obtain ⟨last, r', others, index, trace', fresh, same'⟩ := ih (trace.sound sound) made'
    refine ⟨last, r', ?_, index, ?_, same ▸ fresh, same'.trans same⟩
    · rw [churn_succ, made]
      simp only [bind, Except.bind, gone, others]
      rfl
    · rw [Nat.add_comm, rounds_add]
      exact trace.trans trace'

/-- Rounds are refused exactly when the table is full. -/
theorem churn_spec (sound : r.Sound) (n : Nat) :
    (r.live < slotLimit ∧ ∃ last r', r.churn (n + 1) = .ok (some last, r') ∧
        Trace r (rounds last.index (n + 1)) r' ∧
        r.contents last = none ∧ r'.contents = r.contents) ∨
      (r.live = slotLimit ∧ r.churn (n + 1) = .error (.registryFull slotLimit)) := by
  rcases register_spec sound Buffer.empty with ⟨room, h, met, made, -⟩ | ⟨full, refused⟩
  · obtain ⟨last, r', done, index, trace, fresh, same⟩ := rounds_spec sound made n
    exact .inl ⟨room, last, r', done, index ▸ trace, fresh, same⟩
  · have created : r.create "" = .error (.registryFull slotLimit) := refused
    exact .inr ⟨full, by rw [churn_succ, created]; rfl⟩

end HostParsing.Registry
