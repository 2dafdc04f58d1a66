import HostParsing.Proofs.Buffer.Units
import HostParsing.Proofs.Text.Forgiving
/-!
# Texts, code units and bytes

A text, its code units and their bytes are images of one another, and nothing is
lost on the way from one to the next or back (`lossless`). A buffer has a text
exactly if it is the buffer of that text (`toText?_eq_ok_iff`); where it has none
there is a surrogate that is not part of a pair (`toText?_eq_error_iff`). The reading
that never fails replaces those surrogates and nothing else
(`toText_replaces_unpaired`).
-/

namespace HostParsing.Buffer

open Utf16 (Encodes unpairedAt)

variable {b : Buffer} {text : String}

theorem eq_ofText_iff : b = ofText text ↔ b.units = Utf16.encode text := by
  constructor
  · rintro rfl
    exact units_ofUnits (Utf16.encode text)
  · intro same
    rw [← ofUnits_units b, same]
    rfl

theorem encodes_units_iff : Encodes b.units text.toList ↔ b = ofText text := by
  rw [eq_ofText_iff, Utf16.encodes_iff]
  rfl

theorem toText?_eq_ok_iff : b.toText? = .ok text ↔ b = ofText text := by
  rw [← encodes_units_iff, ← Utf16.decode?_eq_some_iff, toText?]
  cases Utf16.decode? b.units with
  | none => simp
  | some read => simp

theorem toText?_eq_error_iff {fault : Fault} :
    b.toText? = .error fault ↔
      fault = .unpairedSurrogate ∧ ∃ i, unpairedAt b.units i = true := by
  rw [← Utf16.decode?_eq_none_iff, toText?]
  cases Utf16.decode? b.units with
  | none => simp [eq_comm]
  | some read => simp

theorem toText_ofText (text : String) : (ofText text).toText = text :=
  Utf16.decodeLossy_of_encodes (encodes_units_iff.mpr rfl)

/-- Texts, units and bytes are lossless images of each other. The units of a text
are the only ones that stand for its characters. Whole units and their bytes are
read back as they were. A buffer has a text if it is the buffer of that text, and
only then; otherwise, and only then, it is refused for an unpaired surrogate. -/
theorem lossless (text : String) (units : List UInt16) (bytes : Bytes) (b c : Buffer) :
    (Encodes units text.toList ↔ units = (Bytes.ofText text).toUnits) ∧
    (ofText text).toText = text ∧ (ofText text).toText? = .ok text ∧
    (Bytes.ofUnits units).toUnits = units ∧
    (Bytes.ofUnits bytes.toUnits = bytes ↔ bytes.length % 2 = 0) ∧
    (b.toText? = .ok text ↔ b = ofText text) ∧
    ((∃ fault, b.toText? = .error fault ∧ fault.kind = .encoding) ↔
      ∃ i, unpairedAt b.units i = true) ∧
    (b.toText? = .ok text ∧ c.toText? = .ok text → b = c) := by
  refine ⟨?_, toText_ofText text, toText?_eq_ok_iff.mpr rfl, Bytes.toUnits_ofUnits units, ⟨?_, ?_⟩,
    toText?_eq_ok_iff, ⟨?_, ?_⟩, ?_⟩
  · rw [Bytes.ofText, Bytes.toUnits_ofUnits]
    exact Utf16.encodes_iff
  · intro same
    rw [← same, Bytes.length_ofUnits]
    exact Nat.mul_mod_right 2 _
  · exact Bytes.ofUnits_toUnits bytes
  · rintro ⟨fault, refused, -⟩
    exact (toText?_eq_error_iff.mp refused).2
  · intro unpaired
    exact ⟨.unpairedSurrogate, toText?_eq_error_iff.mpr ⟨rfl, unpaired⟩, rfl⟩
  · rintro ⟨read, read'⟩
    rw [toText?_eq_ok_iff.mp read, toText?_eq_ok_iff.mp read']

/-- A text with a surrogate pair, and the buffer that is left when its second half
is cut off. -/
theorem lossless_pair :
    let pair := ofText "😀"
    let half := ofUnits [0xD83D]
    Encodes [0xD83D, 0xDE00] ['😀'] ∧ pair.toText? = .ok "😀" ∧
      ∃ fault, half.toText? = .error fault ∧ fault.kind = .encoding := by
  have whole := lossless "😀" [0xD83D, 0xDE00] [] (ofUnits [0xD83D]) (ofText "😀")
  exact ⟨whole.1.mpr (by decide), whole.2.2.1, whole.2.2.2.2.2.2.1.mpr ⟨0, by decide⟩⟩

/-! ## The forgiving reading -/

/-- The text of a buffer, written again, is the buffer's units but for the unpaired
surrogates among them. -/
theorem encode_toText (b : Buffer) : Utf16.encode b.toText =
    b.units.mapIdx fun i u => if unpairedAt b.units i then 0xFFFD else u :=
  Utf16.encode_decodeLossy b.units

/-- The forgiving reading of a buffer replaces its unpaired surrogates and nothing else.
Written again it has as many units as the buffer: the replacement in the place of every
surrogate that is not part of a pair, and in every other place the unit that was there.
It is the strict reading where there is one. What was written again is read as the same
text, forgivingly or strictly. -/
theorem toText_replaces_unpaired (b : Buffer) :
    let written := Utf16.encode b.toText
    written.length = b.length ∧
    (∀ i, i < b.length →
      (unpairedAt b.units i = false → written[i]? = b.units[i]?) ∧
      (unpairedAt b.units i = true → written[i]? = some 0xFFFD)) ∧
    (∀ text, b.toText? = .ok text → b.toText = text) ∧
    (ofText b.toText).units = written ∧
    (ofText b.toText).toText = b.toText ∧ (ofText b.toText).toText? = .ok b.toText := by
  intro written
  have replaced : written =
      b.units.mapIdx fun i u => if unpairedAt b.units i then 0xFFFD else u := encode_toText b
  refine ⟨?_, ?_, ?_, ?_, toText_ofText b.toText, toText?_eq_ok_iff.mpr rfl⟩
  · rw [replaced, List.length_mapIdx, length_units]
  · intro i inside
    rw [← length_units] at inside
    have there : b.units[i]? = some b.units[i] := List.getElem?_eq_getElem inside
    constructor
    · intro kept
      rw [replaced, List.getElem?_mapIdx, there, kept]
      rfl
    · intro unpaired
      rw [replaced, List.getElem?_mapIdx, there, unpaired]
      rfl
  · intro text strict
    obtain rfl := toText?_eq_ok_iff.mp strict
    exact toText_ofText text
  · exact units_ofUnits written

/-- A pair between a high and a low surrogate, and a high one at the end. -/
theorem toText_replaces_unpaired_mixed :
    let b := ofUnits [0xD83D, 0xD83D, 0xDE00, 0xDE00, 97, 0xD83D]
    let written := Utf16.encode b.toText
    written.length = 6 ∧ written[0]? = some 0xFFFD ∧ written[1]? = some 0xD83D ∧
      written[2]? = some 0xDE00 ∧ written[3]? = some 0xFFFD ∧ written[5]? = some 0xFFFD ∧
      (ofText "a😀").toText = "a😀" := by
  intro b
  obtain ⟨length, unit, -⟩ := toText_replaces_unpaired b
  have pair := toText_replaces_unpaired (ofText "a😀")
  exact ⟨length.trans (by decide), (unit 0 (by decide)).2 (by decide), (unit 1 (by decide)).1 (by decide),
    (unit 2 (by decide)).1 (by decide), (unit 3 (by decide)).2 (by decide),
    (unit 5 (by decide)).2 (by decide), pair.2.2.1 "a😀" (toText?_eq_ok_iff.mpr rfl)⟩

end HostParsing.Buffer
