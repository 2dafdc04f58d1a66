import HostParsing.Registry.Basic
/-!
# The cycle of generations

A slot's generations run through 1, 2, …, 2³² − 1 and start again at 1, so that
`n` releases lead from one to the generation `n` places further on in the cycle
(`laterGeneration_next`, `laterGeneration_add`), which is the same one exactly
when `n` is a multiple of the cycle's length (`laterGeneration_eq_self_iff`).

`churn` is told by what its rounds come to. `churn_succ` is the rounds
themselves: a registration and a release, and then the others.
-/

namespace HostParsing

namespace Slot

theorem cycle_eq : cycle = 4294967295 := rfl

theorem toNat_nextGeneration (g : UInt32) :
    (nextGeneration g).toNat = 1 + g.toNat % cycle := by
  have hg := g.toNat_lt
  unfold nextGeneration
  have wraps : g + 1 = 0 ↔ g.toNat = cycle := by
    rw [← UInt32.toNat_inj, UInt32.toNat_add, cycle_eq]
    simp only [UInt32.reduceToNat]
    omega
  split
  · rename_i last
    rw [wraps.mp last]
    rfl
  · rename_i inside
    have below : g.toNat ≠ cycle := fun e => inside (wraps.mpr e)
    simp only [cycle_eq] at below ⊢
    rw [UInt32.toNat_add]
    simp only [UInt32.reduceToNat]
    omega

theorem nextGeneration_ne_zero (g : UInt32) : nextGeneration g ≠ 0 := by
  rw [ne_eq, ← UInt32.toNat_inj, toNat_nextGeneration]
  simp

@[simp] theorem laterGeneration_zero (g : UInt32) : laterGeneration g 0 = g := rfl

theorem toNat_laterGeneration_succ (g : UInt32) (n : Nat) :
    (laterGeneration g (n + 1)).toNat = 1 + (g.toNat + n) % cycle := by
  simp only [laterGeneration, Nat.add_one_ne_zero, if_false, UInt32.toNat_ofNat', cycle_eq]
  omega

theorem toNat_laterGeneration {g : UInt32} (issued : g ≠ 0) (n : Nat) :
    (laterGeneration g n).toNat = 1 + (g.toNat - 1 + n) % cycle := by
  have bound := g.toNat_lt
  have pos : g.toNat ≠ 0 := fun e => issued (UInt32.toNat_inj.mp (by simpa using e))
  cases n with
  | zero =>
    rw [laterGeneration_zero, Nat.add_zero, cycle_eq]
    omega
  | succ n =>
    rw [toNat_laterGeneration_succ, show g.toNat - 1 + (n + 1) = g.toNat + n by omega]

theorem toNat_laterGeneration_one (n : Nat) : (laterGeneration 1 n).toNat = 1 + n % cycle := by
  rw [toNat_laterGeneration (by decide)]
  simp

/-- A release more is one place further on. -/
theorem laterGeneration_next (g : UInt32) (n : Nat) :
    laterGeneration (nextGeneration g) n = laterGeneration g (n + 1) := by
  apply UInt32.toNat_inj.mp
  cases n with
  | zero => rw [laterGeneration_zero, toNat_nextGeneration, toNat_laterGeneration_succ, Nat.add_zero]
  | succ n =>
    have next := toNat_nextGeneration g
    rw [toNat_laterGeneration_succ, toNat_laterGeneration_succ, next]
    simp only [cycle_eq]
    omega

@[simp] theorem laterGeneration_one (g : UInt32) : laterGeneration g 1 = nextGeneration g := by
  rw [← laterGeneration_next, laterGeneration_zero]

theorem laterGeneration_add (g : UInt32) (m n : Nat) :
    laterGeneration (laterGeneration g m) n = laterGeneration g (m + n) := by
  induction m generalizing g with
  | zero => rw [laterGeneration_zero, Nat.zero_add]
  | succ m ih =>
    rw [← laterGeneration_next, ih, laterGeneration_next, Nat.add_right_comm]

/-- A generation comes back after whole cycles and at no other time. -/
theorem laterGeneration_eq_self_iff {g : UInt32} (h : g ≠ 0) (n : Nat) :
    laterGeneration g n = g ↔ cycle ∣ n := by
  have hg := g.toNat_lt
  have pos : g.toNat ≠ 0 := fun e => h (UInt32.toNat_inj.mp (by simpa using e))
  rw [← UInt32.toNat_inj, toNat_laterGeneration h]
  simp only [cycle_eq]
  omega

example : laterGeneration 1 4294967294 = 4294967295 ∧ laterGeneration 1 4294967295 = 1 := by
  decide

end Slot

namespace Registry

/-! ## Rounds of a registration and a release -/

theorem passRounds_zero (r : Registry) (index : UInt32) : r.passRounds index 0 = r := by
  obtain ⟨slots, free, live, store⟩ := r
  simp only [passRounds, Slot.laterGeneration_zero, Store.skip_zero, mk.injEq, and_self, and_true]
  apply Array.ext_getElem?
  intro i
  rw [Array.getElem?_modify]
  split <;> simp

theorem passRounds_add (r : Registry) (index : UInt32) (m n : Nat) :
    (r.passRounds index m).passRounds index n = r.passRounds index (m + n) := by
  simp only [passRounds, Store.skip_skip, mk.injEq, and_true]
  apply Array.ext_getElem?
  intro i
  simp only [Array.getElem?_modify]
  split
  · cases r.slots[i]? with
    | none => rfl
    | some slot => simp only [Option.map_some, Slot.laterGeneration_add]
  · rfl

theorem erase_eq_ok_iff {r r' : Registry} {h : Handle} :
    r.erase h = .ok r' ↔ (∃ id, r.lookup? h = some id) ∧
      { r with
        slots := r.slots.setIfInBounds h.index.toNat ⟨Slot.nextGeneration h.generation, none⟩
        free := h.index :: r.free
        live := r.live - 1 } = r' := by
  unfold erase resolve
  cases r.lookup? h with
  | none => simp [Except.map]
  | some id => simp [Except.map]

theorem lookup?_eq_some_iff {r : Registry} {h : Handle} {id : BufferId} :
    r.lookup? h = some id ↔ r.slots[h.index.toNat]? = some ⟨h.generation, some id⟩ := by
  unfold lookup?
  cases r.slots[h.index.toNat]? with
  | none => simp
  | some slot =>
    obtain ⟨g, buffer⟩ := slot
    simp only [Option.some.injEq]
    split <;> simp_all

/-- The slot released last takes the next buffer, which is empty and released
again: a round. -/
theorem round_of_erase {r r' : Registry} {h : Handle} (e : r.erase h = .ok r') :
    ∃ met, r'.create "" = .ok (⟨h.index, Slot.nextGeneration h.generation⟩, met) ∧
      met.erase ⟨h.index, Slot.nextGeneration h.generation⟩ = .ok (r'.passRounds h.index 1) := by
  obtain ⟨⟨id, found⟩, rfl⟩ := erase_eq_ok_iff.mp e
  have inside : h.index.toNat < r.slots.size := by
    obtain ⟨inside, -⟩ := Array.getElem?_eq_some_iff.mp (lookup?_eq_some_iff.mp found)
    exact inside
  have slot : (r.slots.setIfInBounds h.index.toNat ⟨Slot.nextGeneration h.generation, none⟩)[
      h.index.toNat]? = some ⟨Slot.nextGeneration h.generation, none⟩ := by
    rw [Array.getElem?_setIfInBounds_self_of_lt inside]
  refine ⟨_, by simp only [create, register, slot, Option.map_some, Option.getD_some]; rfl, ?_⟩
  refine erase_eq_ok_iff.mpr ⟨⟨r.store.size, lookup?_eq_some_iff.mpr ?_⟩, ?_⟩
  · simp [inside]
  · simp only [passRounds, mk.injEq, true_and, Nat.add_sub_cancel]
    refine ⟨Array.ext_getElem? fun i => ?_, ?_⟩
    · simp only [Array.getElem?_modify, Array.getElem?_setIfInBounds, Array.size_setIfInBounds]
      split <;> simp_all
    · exact Store.push_empty r.store

/-- After a release, rounds come to what `passRounds` tells. -/
theorem churn_of_erase {r r' : Registry} {h : Handle} (e : r.erase h = .ok r') (n : Nat) :
    r'.churn n = .ok (if n = 0 then none else some ⟨h.index, Slot.laterGeneration h.generation n⟩,
      r'.passRounds h.index n) := by
  cases n with
  | zero => rw [passRounds_zero]; rfl
  | succ n =>
    obtain ⟨met, created, erased⟩ := round_of_erase e
    simp only [churn, created, erased, bind, Except.bind, Slot.laterGeneration_next, passRounds_add,
      Nat.add_one_ne_zero, if_false, Nat.add_comm 1 n]

/-- Rounds, one after the other: the first is a registration and a release. -/
theorem churn_succ (r : Registry) (n : Nat) :
    r.churn (n + 1) = (do
      let (h, met) ← r.create ""
      let after ← met.erase h
      let (last, rest) ← after.churn n
      .ok (some (last.getD h), rest)) := by
  rw [churn]
  simp only [bind, Except.bind]
  cases r.create "" with
  | error fault => rfl
  | ok made =>
    obtain ⟨h, met⟩ := made
    simp only
    cases erased : met.erase h with
    | error fault => rfl
    | ok after =>
      simp only [churn_of_erase erased]
      cases n <;> rfl

end Registry
end HostParsing
