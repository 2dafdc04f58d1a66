import HostParsing.Proofs.Buffer.Demands
import HostParsing.Proofs.Buffer.Units
/-!
# Units and bytes at even offsets

A unit lies in the two bytes from twice its index on, so every call by unit is a call by
byte at twice the indices. `Agree` is that two results cannot be told apart but for the
numbers in a refusal's message:

* `agree_span`: the two kinds of range find the same bytes, or are refused alike, from
  which calls by range follow;
* `charAt_eq_ok_iff`, `setCharAt_cases`: a unit is read as its two bytes are, and is set
  as they are, one after the other.
-/

namespace HostParsing

namespace Bytes

/-- The low byte of a unit, which is stored first. -/
def lowByte (unit : UInt16) : UInt8 := UInt8.ofNat (unit.toNat % 256)

/-- The high byte of a unit. -/
def highByte (unit : UInt16) : UInt8 := UInt8.ofNat (unit.toNat / 256)

theorem toNat_toUnit (low high : UInt8) :
    (toUnit low high).toNat = low.toNat + 256 * high.toNat := by
  have below := low.toNat_lt
  have below' := high.toNat_lt
  rw [toUnit, UInt16.toNat_ofNat']
  omega

theorem eq_toUnit_iff {unit : UInt16} {low high : UInt8} :
    unit = toUnit low high ↔ unit.toNat = low.toNat + 256 * high.toNat := by
  rw [← UInt16.toNat_inj, toNat_toUnit]

/-- Two bytes that are written over are set one after the other. -/
theorem overwrite_pair {bytes : Bytes} {start : Nat} (inside : start + 1 < bytes.length)
    (low high : UInt8) :
    bytes.overwrite start [low, high] = (bytes.set start low).set (start + 1) high := by
  have first : bytes.set start low = bytes.take start ++ low :: bytes.drop (start + 1) := by
    rw [List.set_eq_take_append_cons_drop, if_pos (by omega)]
  have taken : (bytes.take start).length = start := List.length_take_of_le (by omega)
  have next : bytes.drop (start + 1) = bytes[start + 1] :: bytes.drop (start + 2) :=
    List.drop_eq_getElem_cons inside
  rw [first, List.set_append_right _ _ (by omega), taken, Nat.add_sub_cancel_left, next]
  show bytes.take start ++ [low, high] ++ bytes.drop (start + 2) =
    bytes.take start ++ low :: high :: bytes.drop (start + 2)
  rw [List.append_assoc]
  rfl

end Bytes

namespace Buffer

open Bytes (lowByte highByte)

/-- The same answer, or refusals of one kind. -/
def Agree {α : Type} (result other : Except Fault α) : Prop :=
  result.mapError Fault.kind = other.mapError Fault.kind

variable {α β : Type} {b : Buffer} {result other : Except Fault α} {first last index : Nat}

theorem Agree.refl (result : Except Fault α) : Agree result result := rfl

theorem Agree.of_refused {fault fault' : Fault} (same : fault.kind = fault'.kind) :
    Agree (.error fault : Except Fault α) (.error fault') :=
  congrArg Except.error same

/-- Whatever is made of an answer, results that agree still do. -/
theorem Agree.map (agree : Agree result other) (f : α → β) :
    Agree (result.map f) (other.map f) := by
  have inside : ∀ r : Except Fault α,
      (r.map f).mapError Fault.kind = (r.mapError Fault.kind).map f := by
    intro r
    cases r <;> rfl
  unfold Agree at agree ⊢
  rw [inside, inside, agree]

/-! ## Ranges -/

/-- A range of units is the range of bytes between twice its ends. -/
theorem agree_span (b : Buffer) (first last : Nat) :
    Agree (b.byteSpan (2 * first) (2 * last)) (b.charSpan first last) := by
  have stored := b.two_mul_length
  have even : (2 * last - 2 * first) % 2 = 0 := by omega
  unfold byteSpan charSpan
  by_cases order : first ≤ last
  · rw [dif_pos order, dif_pos (show 2 * first ≤ 2 * last by omega)]
    by_cases inside : last ≤ b.length
    · rw [dif_pos inside, dif_pos (show 2 * last ≤ b.byteLength by omega), dif_pos even]
      exact .refl _
    · rw [dif_neg inside, dif_neg (show ¬ 2 * last ≤ b.byteLength by omega)]
      exact .of_refused rfl
  · rw [dif_neg order, dif_neg (show ¬ 2 * first ≤ 2 * last by omega)]
    exact .of_refused rfl

/-! ## One unit -/

theorem byteAt_of_lt (inside : index < b.byteLength) : b.byteAt index = .ok b.bytes[index] := by
  rw [byteAt, List.getElem?_eq_getElem inside]

theorem charAt_of_lt (inside : index < b.length) (room : 2 * index < b.bytes.length)
    (room' : 2 * index + 1 < b.bytes.length) :
    b.charAt index = .ok (Bytes.toUnit b.bytes[2 * index] b.bytes[2 * index + 1]) := by
  rw [charAt, dif_pos inside]

/-- A unit can be read exactly if its two bytes can. -/
theorem exists_charAt_iff (b : Buffer) (index : Nat) : (∃ unit, b.charAt index = .ok unit) ↔
    (∃ low, b.byteAt (2 * index) = .ok low) ∧ ∃ high, b.byteAt (2 * index + 1) = .ok high := by
  have byte (i : Nat) : (Demand.one .bufferBytes i (2 * b.length)).Decides (b.byteAt i) :=
    Demand.decides_of_faultIn trivial (faultIn_byteAt b i)
  have char : (Demand.one .buffer index b.length).Decides (b.charAt index) :=
    Demand.decides_of_faultIn trivial (faultIn_charAt b index)
  rw [(byte _).answered_iff, (byte _).answered_iff, char.answered_iff]
  show index < b.length ↔ 2 * index < 2 * b.length ∧ 2 * index + 1 < 2 * b.length
  omega

/-- A unit is read as its two bytes are, the low one first. -/
theorem charAt_eq_ok_iff {unit : UInt16} : b.charAt index = .ok unit ↔
    ∃ low high, b.byteAt (2 * index) = .ok low ∧ b.byteAt (2 * index + 1) = .ok high ∧
      unit.toNat = low.toNat + 256 * high.toNat := by
  have stored := b.two_mul_length
  by_cases inside : index < b.length
  · have room : 2 * index < b.byteLength := by omega
    have room' : 2 * index + 1 < b.byteLength := by omega
    rw [charAt_of_lt inside room room', byteAt_of_lt room, byteAt_of_lt room']
    constructor
    · intro same
      cases same
      exact ⟨_, _, rfl, rfl, Bytes.toNat_toUnit _ _⟩
    · rintro ⟨low, high, same, same', value⟩
      cases same
      cases same'
      exact congrArg Except.ok (Bytes.eq_toUnit_iff.mpr value).symm
  · constructor
    · intro read
      rw [charAt, dif_neg inside] at read
      cases read
    · rintro ⟨low, high, read, read', -⟩
      have ⟨unit, there⟩ := (exists_charAt_iff b index).mpr ⟨⟨low, read⟩, high, read'⟩
      rw [charAt, dif_neg inside] at there
      cases there

theorem setByteAt_of_lt (inside : index < b.byteLength) (byte : UInt8) :
    ∃ after, b.setByteAt index byte = .ok after ∧ after.bytes = b.bytes.set index byte := by
  unfold setByteAt
  rw [if_pos inside]
  exact ⟨_, rfl, rfl⟩

theorem setByteAt_of_not_lt (outside : ¬ index < b.byteLength) (byte : UInt8) :
    b.setByteAt index byte = .error (.outOfBounds .bufferBytes index b.byteLength) := by
  rw [setByteAt, if_neg outside]

/-- A unit is set as its two bytes are, one after the other; if it is not there, neither
is any of the two bytes. -/
theorem setCharAt_cases (b : Buffer) (index : Nat) (unit : UInt16) :
    (∃ half after, b.setByteAt (2 * index) (lowByte unit) = .ok half ∧
        half.setByteAt (2 * index + 1) (highByte unit) = .ok after ∧
        b.setCharAt index unit = .ok after) ∨
      (∃ fault low high, b.setCharAt index unit = .error fault ∧
        b.setByteAt (2 * index) (lowByte unit) = .error low ∧
        b.setByteAt (2 * index + 1) (highByte unit) = .error high ∧ fault.kind = low.kind) := by
  have stored := b.two_mul_length
  by_cases inside : index < b.length
  · left
    obtain ⟨half, set, bytes⟩ :=
      setByteAt_of_lt (show 2 * index < b.byteLength by omega) (lowByte unit)
    have room : 2 * index + 1 < half.byteLength := by
      rw [byteLength, bytes, List.length_set]
      simp only [byteLength] at stored
      omega
    obtain ⟨after, set', bytes'⟩ := setByteAt_of_lt room (highByte unit)
    refine ⟨half, after, set, set', ?_⟩
    unfold setCharAt
    rw [dif_pos inside]
    refine congrArg Except.ok (eq_of_bytes ?_)
    rw [bytes', bytes]
    exact Bytes.overwrite_pair (by simp only [byteLength] at stored; omega) _ _
  · right
    refine ⟨.outOfBounds .buffer index b.length, _, _, ?_, setByteAt_of_not_lt (by omega) _,
      setByteAt_of_not_lt (by omega) _, rfl⟩
    rw [setCharAt, dif_neg inside]

/-! ## Calls -/

/-- Calls by unit are calls by byte at twice the indices, however large these are. To
delete, replace or copy a range and to read it as text answers and leaves the same, or is
refused for the same kind of fault. A unit can be read exactly if both its bytes can, and
is then their number, the low byte first. To set a unit leaves what setting its two bytes
does, or is refused as that is; nothing is half done. -/
theorem bytes_agree_with_chars (b : Buffer) :
    (∀ (first last : Nat) (text : String),
      Agree ((Call.deleteBytes (2 * first) (2 * last)).run b)
        ((Call.deleteChars first last).run b) ∧
      Agree ((Call.replaceBytes (2 * first) (2 * last) text).run b)
        ((Call.replaceChars first last text).run b) ∧
      Agree ((Call.sliceBytes (2 * first) (2 * last)).run b)
        ((Call.sliceChars first last).run b) ∧
      Agree (b.substringBytes (2 * first) (2 * last)) (b.substringChars first last)) ∧
    (∀ index : Nat,
      ((∃ unit, b.charAt index = .ok unit) ↔
        (∃ low, b.byteAt (2 * index) = .ok low) ∧ ∃ high, b.byteAt (2 * index + 1) = .ok high) ∧
      ∀ unit : UInt16, b.charAt index = .ok unit ↔
        ∃ low high, b.byteAt (2 * index) = .ok low ∧ b.byteAt (2 * index + 1) = .ok high ∧
          unit.toNat = low.toNat + 256 * high.toNat) ∧
    ∀ (index : Nat) (unit : UInt16),
      Agree (((Call.setByteAt (2 * index) (lowByte unit)).run b).bind fun (_, half) =>
          (Call.setByteAt (2 * index + 1) (highByte unit)).run half)
        ((Call.setCharAt index unit).run b) ∧
      b.runAll [.setByteAt (2 * index) (lowByte unit),
          .setByteAt (2 * index + 1) (highByte unit)] =
        b.runAll [.setCharAt index unit] := by
  refine ⟨fun first last text => ?_, fun index => ?_, fun index unit => ?_⟩
  · have spans := agree_span b first last
    exact ⟨(spans.map _).map _, (spans.map _).map _, ((spans.map _).map _).map _, spans.map _⟩
  · exact ⟨exists_charAt_iff b index, fun unit => charAt_eq_ok_iff⟩
  · rcases setCharAt_cases b index unit with
      ⟨half, after, set, set', done⟩ | ⟨fault, low, high, refused, refused', refused'', same⟩
    · constructor
      · simp only [Call.run, Call.edit, set, set', done, Except.map, Except.bind]
        exact .refl _
      · simp only [runAll, Call.run, Call.edit, set, set', done, Except.map]
    · constructor
      · simp only [Call.run, Call.edit, refused, refused', Except.map, Except.bind]
        exact .of_refused same.symm
      · simp only [runAll, Call.run, Call.edit, refused, refused', refused'',
          Except.map]

end Buffer
end HostParsing
