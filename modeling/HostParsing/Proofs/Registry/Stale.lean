import HostParsing.Proofs.Registry.Run
/-!
# Handles that were released

A slot has the generation of a handle again after a whole cycle of releases. A
handle that was released therefore stays stale until its slot has been released
2³² − 1 times, and resolves to whatever buffer the slot holds at the end of each
cycle (`contains_after_erase_iff`). While it is stale, every call that needs it
is refused.
-/

namespace HostParsing.Registry

/-- Whether the slot at an index holds a buffer. -/
def occupied (r : Registry) (index : UInt32) : Bool :=
  (r.slots[index.toNat]?.bind Slot.buffer).isSome

variable {d : Desk} {r : Registry} {h : Handle}

theorem contains_iff_occupied (r : Registry) (h : Handle) :
    r.contains h = true ↔ r.occupied h.index = true ∧ r.generation? h.index = some h.generation := by
  simp only [contains, occupied, generation?, lookup?]
  cases r.slots[h.index.toNat]? with
  | none => simp
  | some slot =>
    simp only [Option.bind_some, Option.map_some, Option.some.injEq]
    split <;> simp_all

theorem Erased.generation {r' : Registry} (done : r.Erased h r') :
    r'.generation? h.index = some (Slot.nextGeneration h.generation) := by
  rw [generation?, done.slots, if_pos rfl]
  rfl

theorem Erased.generation_ne_zero {r' : Registry} (done : r.Erased h r') (sound : r.Sound) :
    h.generation ≠ 0 := by
  obtain ⟨id, held⟩ := done.held
  exact sound.generation_ne_zero held

theorem handleOfRaw_toRaw (issued : h.generation ≠ 0) : handleOfRaw h.toRaw = .ok h := by
  rw [handleOfRaw, Handle.ofRaw?_toRaw issued]

/-- A handle that does not resolve is refused wherever it is needed. -/
theorem run_of_stale (issued : h.generation ≠ 0) (stale : d.registry.contains h = false) {call : Call}
    (named : call.named = some h.toRaw) : call.run d = .error (.staleHandle h) := by
  refine run_of_missing named ?_
  have none : d.registry.contents h = none := by
    rw [contains_eq_isSome, Option.isSome_eq_false_iff] at stale
    exact Option.isNone_iff_eq_none.mp stale
  rw [Contents.find, handleOfRaw_toRaw issued]
  simp only [bind, Except.bind, none]

/-- A handle that was released resolves again exactly when its slot holds a
buffer and has come to the end of a cycle of releases, the first of which was its
own. At all other times, every call that needs it is refused. -/
theorem contains_after_erase_iff (reached : Reachable d) (gone : d.registry.erase h = .ok r)
    (calls : List Call) :
    let released : Desk := { d with registry := r }
    let later := runAll released calls
    (later.registry.contains h = true ↔ later.registry.occupied h.index = true ∧
        Slot.cycle ∣ releasesIn released h.index calls + 1) ∧
      (later.registry.contains h = false →
        (Call.contains h.toRaw).run later = .ok (.flag false, later) ∧
        ∀ call : Call, call.named = some h.toRaw →
          call.run later = .error (.staleHandle h)) := by
  intro released later
  have erased := Erased.of_erase gone
  have issued := erased.generation_ne_zero reached.sound
  -- The release itself is one place in the cycle, each later one another.
  have generation : later.registry.generation? h.index =
      some (Slot.laterGeneration h.generation (releasesIn released h.index calls + 1)) := by
    have sound : released.registry.Sound := erased.sound reached.sound
    rw [← Slot.laterGeneration_next]
    exact (moved_runAll sound calls h.index).generation sound erased.generation
  refine ⟨?_, fun stale => ⟨?_, fun call named => run_of_stale issued stale named⟩⟩
  · rw [contains_iff_occupied, generation, Option.some.injEq,
      Slot.laterGeneration_eq_self_iff issued]
  · rw [Call.run, handleOfRaw_toRaw issued]
    simp only [Except.map, stale]

/-- A handle stays stale while its slot is used again once. -/
theorem contains_after_erase_reused :
    let d := (Call.create "a").after Desk.empty
    let released := (Call.erase 1).after d
    let later := runAll released [.create "b"]
    (later.registry.contains ⟨0, 1⟩ = true ↔ later.registry.occupied 0 = true ∧
        Slot.cycle ∣ releasesIn released 0 [.create "b"] + 1) ∧
      later.registry.contains ⟨0, 1⟩ = false :=
  ⟨(contains_after_erase_iff (Reachable.empty.call (.create "a")) rfl [.create "b"]).1, by decide⟩

/-- A handle that was released resolves to another text after its slot has been
used 2³² − 2 times more. -/
theorem released_handle_resolves :
    let d := (Call.create "a").after Desk.empty
    let later := runAll ((Call.erase 1).after d) [.churn 4294967294, .create "b"]
    d.registry.contains ⟨0, 1⟩ = true ∧
      ((Call.erase 1).after d).registry.contains ⟨0, 1⟩ = false ∧
      later.registry.contains ⟨0, 1⟩ = true ∧
      (later.registry.read ⟨0, 1⟩).map Buffer.toText = .ok "b" := by
  decide

end HostParsing.Registry
