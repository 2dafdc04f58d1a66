import HostParsing.Proofs.Registry.Occupancy
import HostParsing.Proofs.Registry.Stale
/-!
# Packed handles

A handle is packed by a shift and an or, and unpacked by a shift and two truncations
(`Handle.toRaw_eq_or`, `Handle.ofRaw?_eq_ite`). These are inverse to each other on the
handles with a generation other than 0 and the words with a low half other than 0. Every
handle that a run issues is among the former (`generation_ne_zero_of_issued`), so it packs to
a word from which it can be had back, and to another word than any other live buffer's
(`raw_handles_bijective`).
-/

namespace HostParsing

namespace Handle

theorem toNat_index_shift (h : Handle) :
    (h.index.toUInt64 <<< 32).toNat = h.index.toNat <<< 32 := by
  have bound := h.index.toNat_lt
  rw [UInt64.toNat_shiftLeft, UInt32.toNat_toUInt64, Nat.mod_eq_of_lt]
  · rfl
  · change h.index.toNat <<< 32 < 2 ^ 64
    rw [Nat.shiftLeft_eq]
    omega

/-- The slot is shifted into the high half, above the generation. -/
theorem toRaw_eq_or (h : Handle) :
    h.toRaw = h.index.toUInt64 <<< 32 ||| h.generation.toUInt64 := by
  apply UInt64.toNat_inj.mp
  have low : h.generation.toNat < 2 ^ 32 := h.generation.toNat_lt
  rw [UInt64.toNat_or, toNat_index_shift, UInt32.toNat_toUInt64,
    ← Nat.shiftLeft_add_eq_or_of_lt low, Nat.shiftLeft_eq, toNat_toRaw]

/-- The generation is the low half of a word and the slot its high half. -/
theorem ofRaw?_eq_ite (raw : UInt64) : ofRaw? raw =
    if raw.toUInt32 = 0 then none else some ⟨(raw >>> 32).toUInt32, raw.toUInt32⟩ := by
  have low : UInt32.ofNat (raw.toNat % UInt32.size) = raw.toUInt32 := by
    apply UInt32.toNat_inj.mp
    simp [UInt32.size]
  have high : UInt32.ofNat (raw.toNat / UInt32.size) = (raw >>> 32).toUInt32 := by
    apply UInt32.toNat_inj.mp
    simp [UInt32.size, Nat.shiftRight_eq_div_pow]
  have zero : raw.toNat % UInt32.size = 0 ↔ raw.toUInt32 = 0 := by
    rw [← UInt32.toNat_inj]
    simp [UInt32.size]
  rw [ofRaw?, low, high]
  simp only [zero]

end Handle

namespace Registry

/-- A word is unpacked exactly if its low half is not 0. -/
theorem handleOfRaw_eq_ite (raw : UInt64) : handleOfRaw raw =
    if raw.toUInt32 = 0 then .error (.notAHandle raw)
    else .ok ⟨(raw >>> 32).toUInt32, raw.toUInt32⟩ := by
  rw [handleOfRaw, Handle.ofRaw?_eq_ite]
  split <;> split at * <;> simp_all

variable {raw : UInt64} {h : Handle}

theorem toRaw_of_handleOfRaw (unpacked : handleOfRaw raw = .ok h) : h.toRaw = raw := by
  unfold handleOfRaw at unpacked
  split at unpacked
  · rename_i found
    cases unpacked
    exact Handle.toRaw_of_ofRaw? found
  · cases unpacked

theorem toRaw_ne_zero (issued : h.generation ≠ 0) : h.toRaw ≠ 0 := by
  rintro zero
  have unpacked := handleOfRaw_toRaw issued
  rw [zero, handleOfRaw_eq_ite] at unpacked
  cases unpacked

/-- Packing tells handles apart. -/
theorem toRaw_inj {other : Handle} (issued : h.generation ≠ 0) (issued' : other.generation ≠ 0) :
    h.toRaw = other.toRaw ↔ h = other := by
  constructor
  · intro same
    have unpacked := handleOfRaw_toRaw issued
    rw [same, handleOfRaw_toRaw issued'] at unpacked
    exact (Except.ok.inj unpacked).symm
  · exact congrArg _

/-- Whatever is called, every handle issued has a generation. -/
theorem generation_ne_zero_of_issued {calls : List Call} (issued : h ∈ issuedIn Desk.empty calls) :
    h.generation ≠ 0 := by
  have none : Registry.empty.Numbered h.index [] := .missing rfl rfl
  obtain ⟨n, numbered⟩ := (numbered_runAll (d := Desk.empty) sound_empty none calls).exists_eq
  have member : h ∈ occupancies Desk.empty h.index calls := List.mem_filter.mpr ⟨issued, by simp⟩
  rw [List.nil_append] at numbered
  rw [numbered] at member
  obtain ⟨i, found⟩ := List.mem_iff_getElem?.mp member
  rw [(getElem?_handlesOf.mp found).2, ne_eq, ← UInt32.toNat_inj, Slot.toNat_laterGeneration_one]
  simp

/-- Packing and unpacking are inverse bijections between the handles with a generation
other than 0 and the words with a low half other than 0; any other word is refused. No handle
that a run issues packs to 0 or is refused when it comes back, and at any moment two handles
that resolve pack to the same word exactly if they resolve to the same buffer. -/
theorem raw_handles_bijective :
    (∀ h : Handle, h.toRaw = h.index.toUInt64 <<< 32 ||| h.generation.toUInt64) ∧
    (∀ raw : UInt64, (∃ h, handleOfRaw raw = .ok h) ↔ raw.toUInt32 ≠ 0) ∧
    (∀ raw : UInt64, raw.toUInt32 ≠ 0 →
      ∃ h, handleOfRaw raw = .ok h ∧ h.generation ≠ 0 ∧ h.toRaw = raw) ∧
    (∀ raw : UInt64, raw.toUInt32 = 0 → handleOfRaw raw = .error (.notAHandle raw)) ∧
    (∀ h : Handle, h.generation ≠ 0 → handleOfRaw h.toRaw = .ok h) ∧
    ∀ calls : List Call,
      (∀ h ∈ issuedIn Desk.empty calls,
        h.generation ≠ 0 ∧ h.toRaw ≠ 0 ∧ handleOfRaw h.toRaw = .ok h) ∧
      ∀ h other id id', (runAll Desk.empty calls).registry.lookup? h = some id →
        (runAll Desk.empty calls).registry.lookup? other = some id' →
        (h.toRaw = other.toRaw ↔ id = id') := by
  refine ⟨Handle.toRaw_eq_or, fun raw => ?_, fun raw low => ?_, fun raw low => ?_,
    fun h issued => handleOfRaw_toRaw issued, fun calls => ⟨fun h issued => ?_, ?_⟩⟩
  · rw [handleOfRaw_eq_ite]
    split <;> simp_all
  · have unpacked := handleOfRaw_eq_ite raw
    rw [if_neg low] at unpacked
    exact ⟨_, unpacked, low, toRaw_of_handleOfRaw unpacked⟩
  · rw [handleOfRaw_eq_ite, if_pos low]
  · have generation := generation_ne_zero_of_issued issued
    exact ⟨generation, toRaw_ne_zero generation, handleOfRaw_toRaw generation⟩
  · intro h other id id' found found'
    have sound : (runAll Desk.empty calls).registry.Sound :=
      (trace_runAll (d := Desk.empty) sound_empty calls).sound sound_empty
    have live := sound.generation_ne_zero (lookup?_eq_some_iff.mp found)
    have live' := sound.generation_ne_zero (lookup?_eq_some_iff.mp found')
    rw [toRaw_inj live live']
    constructor
    · rintro rfl
      exact Option.some.inj (found.symm.trans found')
    · rintro rfl
      exact sound.lookup?_inj found' found

/-- The handles of two texts, the word of the second, and a word without a generation. -/
theorem raw_handles_bijective_second :
    let calls : List Call := [.create "a", .create "b"]
    (∃ h, handleOfRaw 4294967297 = .ok h ∧ h.generation ≠ 0 ∧ h.toRaw = 4294967297) ∧
      handleOfRaw 4294967296 = .error (.notAHandle 4294967296) ∧
      handleOfRaw (⟨1, 1⟩ : Handle).toRaw = .ok ⟨1, 1⟩ ∧
      (⟨1, 1⟩ ∈ issuedIn Desk.empty calls ∧ (⟨1, 1⟩ : Handle).toRaw ≠ 0) ∧
      ((⟨0, 1⟩ : Handle).toRaw = (⟨1, 1⟩ : Handle).toRaw ↔ (0 : BufferId) = 1) := by
  intro calls
  obtain ⟨-, -, unpacks, refuses, returns, runs⟩ := raw_handles_bijective
  have second : (⟨1, 1⟩ : Handle) ∈ issuedIn Desk.empty calls := by decide
  obtain ⟨issued, apart⟩ := runs calls
  exact ⟨unpacks _ (by decide), refuses _ (by decide), returns _ (by decide),
    ⟨second, (issued _ second).2.1⟩, apart ⟨0, 1⟩ ⟨1, 1⟩ 0 1 rfl rfl⟩

end Registry
end HostParsing
