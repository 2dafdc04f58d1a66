import HostParsing.Bytes.Basic
/-!
# Cutting and joining bytes

The ways in which stored bytes change: some are written over, some are put in
between, some are taken out. `replace` writes over what fits and then grows or
shrinks the rest, so bytes outside the range are moved only when the length
changes. The `length_` lemmas give the length after each of them.
-/

namespace HostParsing.Bytes

/-- The bytes with `new` written over those from `start` on. -/
def overwrite (bytes : Bytes) (start : Nat) (new : Bytes) : Bytes :=
  bytes.take start ++ new ++ bytes.drop (start + new.length)

/-- The bytes with `new` put in before `start`. -/
def insert (bytes : Bytes) (start : Nat) (new : Bytes) : Bytes :=
  bytes.take start ++ new ++ bytes.drop start

/-- The bytes without those from `first` to before `last`. -/
def remove (bytes : Bytes) (first last : Nat) : Bytes :=
  bytes.take first ++ bytes.drop last

/-- The bytes from `first` to before `last`. -/
def slice (bytes : Bytes) (first last : Nat) : Bytes :=
  (bytes.take last).drop first

/-- The bytes with those from `first` to before `last` replaced by `new`: what
fits into the range is written over it, the excess is put in behind it, and what
is left of the range is taken out. -/
def replace (bytes : Bytes) (first last : Nat) (new : Bytes) : Bytes :=
  if new.length = last - first then
    bytes.overwrite first new
  else if last - first < new.length then
    (bytes.overwrite first (new.take (last - first))).insert last (new.drop (last - first))
  else
    (bytes.overwrite first new).remove (first + new.length) last

theorem length_overwrite {bytes : Bytes} {start : Nat} {new : Bytes}
    (h : start + new.length ≤ bytes.length) :
    (bytes.overwrite start new).length = bytes.length := by
  simp only [overwrite, List.length_append, List.length_take, List.length_drop]
  omega

theorem length_insert {bytes : Bytes} {start : Nat} (h : start ≤ bytes.length) (new : Bytes) :
    (bytes.insert start new).length = bytes.length + new.length := by
  simp only [insert, List.length_append, List.length_take, List.length_drop]
  omega

theorem length_remove {bytes : Bytes} {first last : Nat} (order : first ≤ last)
    (h : last ≤ bytes.length) :
    (bytes.remove first last).length = bytes.length - (last - first) := by
  simp only [remove, List.length_append, List.length_take, List.length_drop]
  omega

theorem length_slice {bytes : Bytes} {first last : Nat} (h : last ≤ bytes.length) :
    (bytes.slice first last).length = last - first := by
  simp only [slice, List.length_drop, List.length_take]
  omega

theorem length_replace {bytes : Bytes} {first last : Nat} (order : first ≤ last)
    (h : last ≤ bytes.length) (new : Bytes) :
    (bytes.replace first last new).length = bytes.length - (last - first) + new.length := by
  unfold replace
  split
  · rw [length_overwrite] <;> omega
  · split
    · have fits : (new.take (last - first)).length = last - first := by
        rw [List.length_take]; omega
      have kept : (bytes.overwrite first (new.take (last - first))).length = bytes.length :=
        length_overwrite (by omega)
      rw [length_insert (by omega), kept, List.length_drop]
      omega
    · have kept : (bytes.overwrite first new).length = bytes.length :=
        length_overwrite (by omega)
      rw [length_remove (by omega) (by omega), kept]
      omega

end HostParsing.Bytes
