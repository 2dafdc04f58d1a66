import HostParsing.Proofs.Buffer.Text
import HostParsing.Proofs.Buffer.Refinement
import HostParsing.Proofs.Registry.Run
/-!
# Pieces of a buffer side by side

A range of a buffer and the range behind it make up the range of both. Their bytes,
in copies that are registered under handles of their own as well, always do. Their
texts do unless the place between the ranges lies within a surrogate pair, each half
of which is then read as an unpaired surrogate (`slices_join_iff`).
-/

namespace HostParsing

namespace Buffer

open Utf16 (cutsPair decodeLossy pairAt)

variable {b : Buffer} {units : List UInt16} {first mid last : Nat}

/-! ## Ranges of a list of units -/

/-- The last unit of a range is the one in front of its end. -/
theorem getLast?_extract (inside : mid ≤ units.length) :
    (units.extract first mid).getLast? = if first < mid then units[mid - 1]? else none := by
  rw [List.extract_eq_take_drop, List.getLast?_eq_getElem?, List.length_take, List.length_drop,
    List.getElem?_take, List.getElem?_drop]
  split
  · rename_i nonempty
    have last : first + (min (mid - first) (units.length - first) - 1) = mid - 1 := by omega
    rw [if_pos (by omega), last]
  · rw [if_neg (by omega)]

theorem head?_extract :
    (units.extract mid last).head? = if mid < last then units[mid]? else none := by
  rw [List.extract_eq_take_drop, List.head?_eq_getElem?, List.getElem?_take, List.getElem?_drop]
  by_cases nonempty : mid < last
  · rw [if_pos nonempty, if_pos (by omega), Nat.add_zero]
  · rw [if_neg nonempty, if_neg (by omega)]

/-- Ranges side by side cut a pair if neither is empty and the pair lies across the place
between them. -/
theorem cutsPair_extract (inside : mid ≤ units.length) :
    cutsPair (units.extract first mid) (units.extract mid last) = true ↔
      first < mid ∧ mid < last ∧ pairAt units (mid - 1) = true := by
  rw [cutsPair, getLast?_extract inside, head?_extract]
  by_cases front : first < mid
  · by_cases back : mid < last
    · have next : mid - 1 + 1 = mid := by omega
      simp only [front, back, ↓reduceIte, pairAt, next, true_and]
    · simp [back]
  · simp [front]

/-! ## Ranges of a buffer -/

theorem substringChars_of_range (order : first ≤ last) (inside : last ≤ b.length) :
    b.substringChars first last = .ok (ofUnits (b.units.extract first last)) := by
  have range : Plain.CharRange b.units first last := ⟨order, length_units b ▸ inside⟩
  have copied := toOption_substringChars b.units first last
  rw [ofUnits_units, Plain.chars, if_pos range] at copied
  exact eq_ok_of_toOption copied

theorem sliceChars_of_range (order : first ≤ last) (inside : last ≤ b.length) :
    b.sliceChars first last = .ok (decodeLossy (b.units.extract first last)) := by
  rw [sliceChars, substringChars_of_range order inside]
  show Except.ok (decodeLossy (ofUnits (b.units.extract first last)).units) = _
  rw [units_ofUnits]

theorem sliceChars_join_iff (order : first ≤ mid) (order' : mid ≤ last) (inside : last ≤ b.length) :
    ∃ front back whole, b.sliceChars first mid = .ok front ∧ b.sliceChars mid last = .ok back ∧
      b.sliceChars first last = .ok whole ∧
      (front ++ back = whole ↔ ¬ (first < mid ∧ mid < last ∧ pairAt b.units (mid - 1) = true)) := by
  have cut : mid ≤ b.units.length := by
    rw [length_units]
    omega
  refine ⟨_, _, _, sliceChars_of_range order (by omega), sliceChars_of_range order' inside,
    sliceChars_of_range (by omega) inside, ?_⟩
  rw [← extract_append_extract order order', Utf16.decodeLossy_append_iff, Bool.eq_false_iff, ne_eq,
    cutsPair_extract cut]

theorem substringChars_join (order : first ≤ mid) (order' : mid ≤ last) (inside : last ≤ b.length) :
    ∃ front back whole, b.substringChars first mid = .ok front ∧
      b.substringChars mid last = .ok back ∧ b.substringChars first last = .ok whole ∧
      front.bytes ++ back.bytes = whole.bytes := by
  refine ⟨_, _, _, substringChars_of_range order (by omega), substringChars_of_range order' inside,
    substringChars_of_range (by omega) inside, ?_⟩
  rw [bytes_ofUnits, bytes_ofUnits, bytes_ofUnits, ← Bytes.ofUnits_append,
    extract_append_extract order order']

end Buffer

namespace Registry

open Utf16 (pairAt)

variable {d : Desk} {raw : UInt64} {h : Handle} {b part : Buffer} {first last : Nat}

/-! ## Copies in a registry -/

/-- A range that is there is copied into a buffer of its own, if there is room for one;
the handle of what was copied is found as before. -/
theorem run_substringChars (sound : d.registry.Sound) (room : d.registry.live < slotLimit)
    (found : d.registry.contents.find raw = .ok (h, b))
    (cut : b.substringChars first last = .ok part) :
    ∃ copy d', (Call.substringChars raw first last).run d = .ok (.handle copy, d') ∧
      d.registry.Registered part copy d'.registry ∧
      d'.registry.contents.find raw = .ok (h, b) := by
  have given : (Call.substringChars raw first last).given d.registry.contents =
      some (.ok part) := by
    simp only [Call.given, found, bind, Except.bind, cut]
  obtain ⟨names, holds⟩ := Contents.find_eq_ok_iff.mp found
  obtain ⟨copy, d', ran, done⟩ := run_issues sound room given
  have kept := done.keeps sound holds
  exact ⟨copy, d', ran, done, Contents.find_eq_ok_iff.mpr ⟨names, kept⟩⟩

/-- Two ranges of a buffer side by side are read as the range of both exactly if the
place between them does not lie within a surrogate pair: it may lie anywhere, next to
unpaired surrogates too, but for one with units on both sides, a high surrogate right in
front of it and a low one right behind. The copies of the ranges always make up, byte for
byte, the copy of the range of both; and so do copies that are registered one after the
other, wherever a handle resolves to the buffer and there is room for three. -/
theorem slices_join_iff (b : Buffer) (first mid last : Nat) (order : first ≤ mid)
    (order' : mid ≤ last) (inside : last ≤ b.length) :
    (∃ front back whole, b.sliceChars first mid = .ok front ∧ b.sliceChars mid last = .ok back ∧
      b.sliceChars first last = .ok whole ∧
      (front ++ back = whole ↔
        ¬ (first < mid ∧ mid < last ∧ pairAt b.units (mid - 1) = true))) ∧
    (∃ front back whole, b.substringChars first mid = .ok front ∧
      b.substringChars mid last = .ok back ∧ b.substringChars first last = .ok whole ∧
      front.bytes ++ back.bytes = whole.bytes) ∧
    ∀ (d : Desk) (raw : UInt64) (h : Handle), Reachable d →
      d.registry.contents.find raw = .ok (h, b) → d.registry.size + 3 ≤ slotLimit →
      ∃ front back whole d₁ d₂ d₃,
        (Call.substringChars raw first mid).run d = .ok (.handle front, d₁) ∧
        (Call.substringChars raw mid last).run d₁ = .ok (.handle back, d₂) ∧
        (Call.substringChars raw first last).run d₂ = .ok (.handle whole, d₃) ∧
        ∃ part part' both, d₃.registry.contents front = some part ∧
          d₃.registry.contents back = some part' ∧ d₃.registry.contents whole = some both ∧
          part.bytes ++ part'.bytes = both.bytes := by
  refine ⟨Buffer.sliceChars_join_iff order order' inside,
    Buffer.substringChars_join order order' inside, ?_⟩
  intro d raw h reached found room
  obtain ⟨part, part', both, cut, cut', cut'', joined⟩ :=
    Buffer.substringChars_join order order' inside
  have room : d.registry.live + 3 ≤ slotLimit := room
  have sound := reached.sound
  obtain ⟨front, d₁, ran₁, done₁, found₁⟩ := run_substringChars sound (by omega) found cut
  have sound₁ := done₁.sound sound
  have live₁ := done₁.live
  obtain ⟨back, d₂, ran₂, done₂, found₂⟩ := run_substringChars sound₁ (by omega) found₁ cut'
  have sound₂ := done₂.sound sound₁
  have live₂ := done₂.live
  obtain ⟨whole, d₃, ran₃, done₃, -⟩ := run_substringChars sound₂ (by omega) found₂ cut''
  refine ⟨front, back, whole, d₁, d₂, d₃, ran₁, ran₂, ran₃, part, part', both, ?_, ?_, ?_, joined⟩
  · exact done₃.keeps sound₂ (done₂.keeps sound₁ (done₁.content sound))
  · exact done₃.keeps sound₂ (done₂.content sound₁)
  · exact done₃.content sound₂

/-- A text cut between the halves of its pair, and its copies in a registry. -/
theorem slices_join_iff_pair :
    let b := Buffer.ofText "a😀b"
    let d := (Call.create "a😀b").after Desk.empty
    (∃ front back whole, b.sliceChars 0 2 = .ok front ∧ b.sliceChars 2 4 = .ok back ∧
      b.sliceChars 0 4 = .ok whole ∧ front ++ back ≠ whole) ∧
    ∃ front back whole d₁ d₂ d₃,
      (Call.substringChars 1 0 2).run d = .ok (.handle front, d₁) ∧
      (Call.substringChars 1 2 4).run d₁ = .ok (.handle back, d₂) ∧
      (Call.substringChars 1 0 4).run d₂ = .ok (.handle whole, d₃) ∧
      ∃ part part' both, d₃.registry.contents front = some part ∧
        d₃.registry.contents back = some part' ∧ d₃.registry.contents whole = some both ∧
        part.bytes ++ part'.bytes = both.bytes := by
  intro b d
  obtain ⟨⟨front, back, whole, read, read', read'', joins⟩, -, copies⟩ :=
    slices_join_iff b 0 2 4 (by decide) (by decide) (by decide)
  refine ⟨⟨front, back, whole, read, read', read'', fun same => ?_⟩, ?_⟩
  · exact joins.mp same (by decide)
  · exact copies d 1 ⟨0, 1⟩ (Reachable.empty.call (.create "a😀b")) rfl (by decide)

end Registry
end HostParsing
