import HostParsing.Proofs.Registry.Contents
/-!
# Registrations, releases and writes

Whatever is done to a registry comes down to these three (`Moved`). From there
the table stays sound and its counter right (`Moved.sound`, `Moved.counted`), and
a slot moves on by as many generations as it is released (`Moved.generation`).
-/

namespace HostParsing.Registry

/-- Registrations, releases and writes lead from one registry to another, and
the slot at an index is released so many times on the way. -/
inductive Moved (index : UInt32) (r : Registry) : Nat → Registry → Prop
  | stays : Moved index r 0 r
  | registers {n : Nat} {met r' : Registry} {b : Buffer} {h : Handle}
      (before : Moved index r n met) (made : met.register b = .ok (h, r')) :
    Moved index r n r'
  | releases {n : Nat} {met r' : Registry} {h : Handle}
      (before : Moved index r n met) (gone : met.erase h = .ok r') :
    Moved index r (n + if h.index = index then 1 else 0) r'
  | writes {n : Nat} {met : Registry} (before : Moved index r n met) (id : BufferId) (b : Buffer) :
    Moved index r n (met.update id b)

variable {index : UInt32} {r r' : Registry} {n : Nat} {h : Handle}

theorem Moved.sound (moved : Moved index r n r') (sound : r.Sound) : r'.Sound := by
  induction moved with
  | stays => exact sound
  | registers _ made ih => exact (Registered.of_register ih made).sound ih
  | releases _ gone ih => exact (Erased.of_erase gone).sound ih
  | writes _ id b ih => exact ih.update id b

theorem Moved.counted (moved : Moved index r n r') (sound : r.Sound) (counted : r.Counted) :
    r'.Counted := by
  induction moved with
  | stays => exact counted
  | registers before made ih =>
    have met := before.sound sound
    exact (Registered.of_register met made).counted met ih
  | releases _ gone ih => exact (Erased.of_erase gone).counted ih
  | writes _ id b ih => exact ih.update id b

/-- The generation of the slot at an index. -/
def generation? (r : Registry) (index : UInt32) : Option UInt32 :=
  r.slots[index.toNat]?.map Slot.generation

/-- A slot moves on by as many generations as it is released. -/
theorem Moved.generation (moved : Moved index r n r') (sound : r.Sound) {g : UInt32}
    (known : r.generation? index = some g) :
    r'.generation? index = some (Slot.laterGeneration g n) := by
  induction moved with
  | stays => exact known
  | registers before made ih =>
    have done := Registered.of_register (before.sound sound) made
    rw [generation?, done.slots]
    split
    · rename_i same
      rw [generation?, same] at ih
      obtain ⟨slot, found, generation⟩ := Option.map_eq_some_iff.mp ih
      rw [done.vacant found] at generation
      exact congrArg some generation
    · exact ih
  | releases before gone ih =>
    have done := Erased.of_erase gone
    obtain ⟨id, held⟩ := done.held
    rw [generation?, done.slots]
    split
    · rename_i same
      have index := UInt32.toNat_inj.mp same
      subst index
      simp only [generation?, held, Option.map_some, Option.some.injEq] at ih
      rw [if_pos rfl, Option.map_some, ih, ← Slot.laterGeneration_one, Slot.laterGeneration_add]
    · rename_i other
      rw [if_neg fun e => other (congrArg _ e.symm), Nat.add_zero]
      exact ih
  | writes _ id b ih => exact ih

end HostParsing.Registry
