/-!
# Handles

A handle names a slot of a registry and the generation the slot had when the
handle was issued. For a host it is packed into one 64-bit word, the slot above
the generation. No handle of generation 0 is ever issued, so a word whose low
half is 0 is no handle: `ofRaw?_toRaw` and `toRaw_of_ofRaw?` say that packing and
unpacking are inverse on all others.
-/

namespace HostParsing

/-- A slot and the generation it is expected to have. -/
structure Handle where
  index : UInt32
  generation : UInt32
deriving DecidableEq, Repr

namespace Handle

/-- The handle as one word, the slot in the high half. -/
def toRaw (h : Handle) : UInt64 :=
  UInt64.ofNat (h.index.toNat * UInt32.size + h.generation.toNat)

/-- The handle in a word, unless its generation is 0. -/
def ofRaw? (raw : UInt64) : Option Handle :=
  if raw.toNat % UInt32.size = 0 then
    none
  else
    some ⟨UInt32.ofNat (raw.toNat / UInt32.size), UInt32.ofNat (raw.toNat % UInt32.size)⟩

/-- How a handle is written in a message. -/
def describe (h : Handle) : String :=
  "string#" ++ toString h.index.toNat ++ "v" ++ toString h.generation.toNat

theorem toNat_toRaw (h : Handle) :
    h.toRaw.toNat = h.index.toNat * UInt32.size + h.generation.toNat := by
  have hi := h.index.toNat_lt
  have hg := h.generation.toNat_lt
  simp only [toRaw, UInt64.toNat_ofNat', UInt32.size]
  omega

theorem ofRaw?_toRaw {h : Handle} (issued : h.generation ≠ 0) : ofRaw? h.toRaw = some h := by
  have hi := h.index.toNat_lt
  have hg := h.generation.toNat_lt
  have pos : h.generation.toNat ≠ 0 := fun e => issued (UInt32.toNat_inj.mp (by simpa using e))
  have low : h.toRaw.toNat % UInt32.size = h.generation.toNat := by
    rw [toNat_toRaw, UInt32.size]; omega
  have high : h.toRaw.toNat / UInt32.size = h.index.toNat := by
    rw [toNat_toRaw, UInt32.size]; omega
  rw [ofRaw?, low, high, if_neg pos, UInt32.ofNat_toNat, UInt32.ofNat_toNat]

theorem toRaw_of_ofRaw? {raw : UInt64} {h : Handle} (e : ofRaw? raw = some h) :
    h.toRaw = raw := by
  have bound := raw.toNat_lt
  simp only [ofRaw?] at e
  split at e
  · contradiction
  · cases e
    apply UInt64.toNat_inj.mp
    rw [toNat_toRaw]
    simp only [UInt32.toNat_ofNat', UInt32.size]
    omega

end Handle
end HostParsing
