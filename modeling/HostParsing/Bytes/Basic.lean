import HostParsing.Utf16
/-!
# The byte layout of code units

A code unit is stored as two bytes, the low one first. `ofUnits` lays a list of
units out and `toUnits` reads it back; `toUnits_ofUnits` and `ofUnits_toUnits`
say that on lists of even length nothing is lost either way.
-/

namespace HostParsing

/-- Stored bytes, in order. -/
abbrev Bytes := List UInt8

namespace Bytes

/-- The two bytes of a unit, the low one first. -/
def ofUnit (u : UInt16) : Bytes :=
  [UInt8.ofNat (u.toNat % 256), UInt8.ofNat (u.toNat / 256)]

/-- The unit of a low and a high byte. -/
def toUnit (low high : UInt8) : UInt16 :=
  UInt16.ofNat (low.toNat + 256 * high.toNat)

/-- The bytes of a run of units. -/
def ofUnits (units : List UInt16) : Bytes :=
  units.flatMap ofUnit

/-- The bytes of a text. -/
def ofText (text : String) : Bytes :=
  ofUnits (Utf16.encode text)

/-- The units that bytes hold; an odd byte at the end belongs to none. -/
def toUnits : Bytes → List UInt16
  | low :: high :: rest => toUnit low high :: toUnits rest
  | _ => []

@[simp] theorem length_ofUnit (u : UInt16) : (ofUnit u).length = 2 := rfl

@[simp] theorem length_ofUnits (units : List UInt16) :
    (ofUnits units).length = 2 * units.length := by
  induction units with
  | nil => rfl
  | cons u units ih =>
    simp only [ofUnits, List.flatMap_cons, List.length_append, length_ofUnit, List.length_cons]
    simp only [ofUnits] at ih
    omega

@[simp] theorem length_ofText (text : String) :
    (ofText text).length = 2 * (Utf16.encode text).length :=
  length_ofUnits _

theorem toUnit_ofUnit (u : UInt16) :
    toUnit (UInt8.ofNat (u.toNat % 256)) (UInt8.ofNat (u.toNat / 256)) = u := by
  apply UInt16.toNat_inj.mp
  have := u.toNat_lt
  simp only [toUnit, UInt16.toNat_ofNat', UInt8.toNat_ofNat']
  omega

@[simp] theorem toUnits_ofUnits (units : List UInt16) : toUnits (ofUnits units) = units := by
  induction units with
  | nil => rfl
  | cons u units ih =>
    change toUnit _ _ :: toUnits (ofUnits units) = u :: units
    rw [ih, toUnit_ofUnit]

theorem ofUnit_toUnit (low high : UInt8) : ofUnit (toUnit low high) = [low, high] := by
  have hl := low.toNat_lt
  have hh := high.toNat_lt
  simp only [ofUnit, toUnit, UInt16.toNat_ofNat', List.cons.injEq, and_true]
  constructor <;> apply UInt8.toNat_inj.mp <;> simp only [UInt8.toNat_ofNat'] <;> omega

theorem ofUnits_toUnits (bytes : Bytes) (h : bytes.length % 2 = 0) :
    ofUnits (toUnits bytes) = bytes := by
  fun_induction toUnits bytes with
  | case1 low high rest ih =>
    have even : rest.length % 2 = 0 := by
      simp only [List.length_cons] at h
      omega
    change ofUnit (toUnit low high) ++ ofUnits (toUnits rest) = low :: high :: rest
    rw [ih even, ofUnit_toUnit]
    rfl
  | case2 bytes short =>
    match bytes, h, short with
    | [], _, _ => rfl
    | [_], h, _ => simp at h
    | low :: high :: rest, _, short => exact absurd rfl (short low high rest)

end Bytes
end HostParsing
