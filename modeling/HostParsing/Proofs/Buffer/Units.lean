import HostParsing.Buffer.Edit
/-!
# Units and bytes of a buffer

A buffer and the list of its units say the same (`ofUnits_units`,
`units_ofUnits`), and positions on one side are positions on the other: `2 * n`
bytes are `n` units (`take_ofUnits`, `drop_ofUnits`, `toUnits_getElem?`).

`splice` replaces a part of any list. Every way in which a buffer cuts and joins
its bytes is one, that of writing over what fits and moving the rest included
(`replace_eq_splice`), and a splice of bytes at even positions is the splice of
the units (`splice_ofUnits`).
-/

namespace HostParsing

/-- The list with the part from `first` to before `last` replaced. -/
def splice {α : Type} (list : List α) (first last : Nat) (new : List α) : List α :=
  list.take first ++ new ++ list.drop last

theorem set_eq_splice {α : Type} {list : List α} {i : Nat} (inside : i < list.length) (a : α) :
    list.set i a = splice list i (i + 1) [a] := by
  rw [List.set_eq_take_append_cons_drop, if_pos inside, splice, List.append_assoc,
    List.singleton_append]

/-- A part of a list and the part behind it are one part. -/
theorem extract_append_extract {α : Type} {list : List α} {first mid last : Nat}
    (order : first ≤ mid) (order' : mid ≤ last) :
    list.extract first mid ++ list.extract mid last = list.extract first last := by
  have behind : list.drop mid = (list.drop first).drop (mid - first) := by
    rw [List.drop_drop, Nat.add_sub_cancel' order]
  have count : last - first = (mid - first) + (last - mid) := by omega
  simp only [List.extract_eq_take_drop]
  rw [behind, count, List.take_add]

namespace Bytes

variable {bytes new : Bytes} {units : List UInt16} {first last i : Nat}

/-! ## Positions -/

theorem ofUnits_append (units more : List UInt16) :
    ofUnits (units ++ more) = ofUnits units ++ ofUnits more :=
  List.flatMap_append

theorem ofUnits_take_append_drop (units : List UInt16) (n : Nat) :
    ofUnits units = ofUnits (units.take n) ++ ofUnits (units.drop n) := by
  rw [← ofUnits_append, List.take_append_drop]

theorem take_ofUnits (units : List UInt16) (n : Nat) :
    (ofUnits units).take (2 * n) = ofUnits (units.take n) := by
  rcases Nat.le_or_le n units.length with short | long
  · rw [ofUnits_take_append_drop units n]
    exact List.take_left' (by rw [length_ofUnits, List.length_take_of_le short])
  · rw [List.take_of_length_le long, List.take_of_length_le (by rw [length_ofUnits]; omega)]

theorem drop_ofUnits (units : List UInt16) (n : Nat) :
    (ofUnits units).drop (2 * n) = ofUnits (units.drop n) := by
  rcases Nat.le_or_le n units.length with short | long
  · rw [ofUnits_take_append_drop units n]
    exact List.drop_left' (by rw [length_ofUnits, List.length_take_of_le short])
  · rw [List.drop_of_length_le long, List.drop_of_length_le (by rw [length_ofUnits]; omega)]
    rfl

/-- A unit lies in the two bytes from twice its position on. -/
theorem toUnits_getElem? (inside : 2 * i + 1 < bytes.length) :
    (toUnits bytes)[i]? = some (toUnit bytes[2 * i] bytes[2 * i + 1]) := by
  fun_induction toUnits bytes generalizing i with
  | case1 low high rest ih =>
    cases i with
    | zero => rfl
    | succ i =>
      have later : 2 * i + 1 < rest.length := by
        simp only [List.length_cons] at inside
        omega
      exact ih later
  | case2 bytes short =>
    rcases bytes with _ | ⟨low, _ | ⟨high, rest⟩⟩
    · simp at inside
    · simp at inside
    · exact absurd rfl (short low high rest)

/-! ## Splices -/

theorem overwrite_eq_splice (bytes : Bytes) (start : Nat) (new : Bytes) :
    bytes.overwrite start new = splice bytes start (start + new.length) new := rfl

theorem insert_eq_splice (bytes : Bytes) (start : Nat) (new : Bytes) :
    bytes.insert start new = splice bytes start start new := rfl

theorem remove_eq_splice (bytes : Bytes) (first last : Nat) :
    bytes.remove first last = splice bytes first last [] := by
  rw [remove, splice, List.append_nil]

theorem slice_eq_extract (bytes : Bytes) (first last : Nat) :
    bytes.slice first last = bytes.extract first last := by
  rw [slice, List.extract_eq_take_drop, List.drop_take]

theorem take_overwrite (inside : first ≤ bytes.length) (new : Bytes) :
    (bytes.overwrite first new).take (first + new.length) = bytes.take first ++ new :=
  List.take_left' (by rw [List.length_append, List.length_take_of_le inside])

theorem drop_overwrite (inside : first ≤ bytes.length) (new : Bytes) (n : Nat) :
    (bytes.overwrite first new).drop (first + new.length + n) =
      bytes.drop (first + new.length + n) := by
  rw [overwrite, ← List.drop_drop,
    List.drop_left' (by rw [List.length_append, List.length_take_of_le inside]), List.drop_drop]

/-- Bytes that are written over as far as they fit, and the rest put in behind or
taken out, are replaced. -/
theorem replace_eq_splice (order : first ≤ last) (inside : last ≤ bytes.length) :
    bytes.replace first last new = splice bytes first last new := by
  have inside' : first ≤ bytes.length := Nat.le_trans order inside
  unfold replace
  split
  · rename_i fits
    rw [overwrite_eq_splice, fits, Nat.add_sub_cancel' order]
  · split
    · rename_i longer
      have written : (new.take (last - first)).length = last - first :=
        List.length_take_of_le (Nat.le_of_lt longer)
      have reached : last = first + (new.take (last - first)).length := by omega
      have front := take_overwrite inside' (new.take (last - first))
      have back := drop_overwrite inside' (new.take (last - first)) 0
      rw [← reached] at front
      rw [Nat.add_zero, ← reached] at back
      rw [insert, front, back, List.append_assoc (bytes.take first), List.take_append_drop, splice]
    · rename_i shorter
      have reached : last = first + new.length + (last - first - new.length) := by omega
      have back := drop_overwrite inside' new (last - first - new.length)
      rw [← reached] at back
      rw [remove, take_overwrite inside', back, splice]

theorem splice_ofUnits (units : List UInt16) (first last : Nat) (new : List UInt16) :
    splice (ofUnits units) (2 * first) (2 * last) (ofUnits new) =
      ofUnits (splice units first last new) := by
  rw [splice, take_ofUnits, drop_ofUnits, ← ofUnits_append, ← ofUnits_append]
  rfl

theorem extract_ofUnits (units : List UInt16) (first last : Nat) :
    (ofUnits units).extract (2 * first) (2 * last) = ofUnits (units.extract first last) := by
  rw [List.extract_eq_take_drop, List.extract_eq_take_drop, ← Nat.mul_sub, drop_ofUnits, take_ofUnits]

end Bytes

namespace Buffer

variable {b c : Buffer}

theorem eq_of_bytes (same : b.bytes = c.bytes) : b = c := by
  cases b
  cases c
  cases same
  rfl

@[simp] theorem bytes_ofUnits (units : List UInt16) : (ofUnits units).bytes = Bytes.ofUnits units := rfl

@[simp] theorem units_ofUnits (units : List UInt16) : (ofUnits units).units = units :=
  Bytes.toUnits_ofUnits units

@[simp] theorem ofUnits_units (b : Buffer) : ofUnits b.units = b :=
  eq_of_bytes (Bytes.ofUnits_toUnits b.bytes b.even)

theorem byteLength_ofUnits (units : List UInt16) : (ofUnits units).byteLength = 2 * units.length :=
  Bytes.length_ofUnits units

theorem length_ofUnits (units : List UInt16) : (ofUnits units).length = units.length := by
  have := (ofUnits units).two_mul_length
  rw [byteLength_ofUnits] at this
  omega

theorem length_units (b : Buffer) : b.units.length = b.length := by
  have same := length_ofUnits b.units
  rw [ofUnits_units] at same
  exact same.symm

/-- A buffer of bytes is that of the units they hold. -/
theorem eq_ofUnits (b : Buffer) : b = ofUnits b.bytes.toUnits :=
  (ofUnits_units b).symm

end Buffer
end HostParsing
