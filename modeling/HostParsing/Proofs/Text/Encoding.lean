import HostParsing.Utf16
/-!
# The UTF-16 encoding form

`Encodes` is the rule by which code units stand for characters: a unit stands for
the character of its number, a high and a low surrogate together for a character
from 65536 on. It is told of both sides at once, apart from how either is come by:

* `encodes_iff`: `ofChar` writes the only units that stand for given characters;
* `decode_eq_map_some_iff`: `decode` reads the only characters that given units
  stand for, if they stand for any;
* `none_mem_decode_iff`: it marks a surrogate exactly where one is not part of a
  pair (`unpairedAt`).
-/

namespace HostParsing.Utf16

/-- Units that stand for characters. -/
inductive Encodes : List UInt16 → List Char → Prop
  | nil : Encodes [] []
  | unit {u : UInt16} {c : Char} {units : List UInt16} {chars : List Char}
      (value : c.toNat = u.toNat) (rest : Encodes units chars) :
    Encodes (u :: units) (c :: chars)
  | pair {high low : UInt16} {c : Char} {units : List UInt16} {chars : List Char}
      (is_high : isHigh high = true) (is_low : isLow low = true)
      (value : c.toNat = 0x10000 + (high.toNat - 0xD800) * 0x400 + (low.toNat - 0xDC00))
      (rest : Encodes units chars) :
    Encodes (high :: low :: units) (c :: chars)

/-- Whether a high surrogate stands at a place and a low one right after it. -/
def pairAt (units : List UInt16) (i : Nat) : Bool :=
  units[i]?.any isHigh && units[i + 1]?.any isLow

/-- Whether a surrogate that is not part of a pair stands at a place. -/
def unpairedAt (units : List UInt16) : Nat → Bool
  | 0 => units[0]?.any isSurrogate && !pairAt units 0
  | i + 1 => units[i + 1]?.any isSurrogate && !pairAt units (i + 1) && !pairAt units i

variable {u high low : UInt16} {c : Char} {units : List UInt16} {chars : List Char}

/-! ## Surrogates and characters -/

theorem isHigh_iff : isHigh u = true ↔ 0xD800 ≤ u.toNat ∧ u.toNat < 0xDC00 := by
  simp [isHigh]

theorem isLow_iff : isLow u = true ↔ 0xDC00 ≤ u.toNat ∧ u.toNat < 0xE000 := by
  simp [isLow]

theorem isSurrogate_iff : isSurrogate u = true ↔ 0xD800 ≤ u.toNat ∧ u.toNat < 0xE000 := by
  simp only [isSurrogate, Bool.or_eq_true, isHigh_iff, isLow_iff]
  omega

theorem isHigh_of_isLow (h : isLow u = true) : isHigh u = false := by
  rw [Bool.eq_false_iff, ne_eq, isHigh_iff]
  rw [isLow_iff] at h
  omega

/-- A character is no surrogate. -/
theorem toNat_not_surrogate (c : Char) : c.toNat < 0xD800 ∨ 0xE000 ≤ c.toNat ∧ c.toNat < 0x110000 := by
  rcases c.valid with below | ⟨above, bound⟩
  · exact .inl below
  · exact .inr ⟨above, bound⟩

theorem toNat_ofNat_of_valid {n : Nat} (valid : n.isValidChar) : (Char.ofNat n).toNat = n := by
  rw [Char.ofNat, dif_pos valid]
  rfl

theorem ofChar_of_unit (value : c.toNat = u.toNat) : ofChar c = [u] := by
  have bound : c.toNat < 0x10000 := value ▸ u.toNat_lt
  rw [ofChar, if_pos bound, value, UInt16.ofNat_toNat]

theorem ofChar_of_pair (is_high : isHigh high = true) (is_low : isLow low = true)
    (value : c.toNat = 0x10000 + (high.toNat - 0xD800) * 0x400 + (low.toNat - 0xDC00)) :
    ofChar c = [high, low] := by
  rw [isHigh_iff] at is_high
  rw [isLow_iff] at is_low
  have first : 0xD800 + (c.toNat - 0x10000) / 0x400 = high.toNat := by omega
  have second : 0xDC00 + (c.toNat - 0x10000) % 0x400 = low.toNat := by omega
  rw [ofChar, if_neg (by omega), first, second, UInt16.ofNat_toNat, UInt16.ofNat_toNat]

/-- The character of a unit is the one of its number. -/
theorem ofUnit?_eq_some_iff : ofUnit? u = some c ↔ c.toNat = u.toNat := by
  unfold ofUnit?
  have valid := toNat_not_surrogate c
  split
  · rename_i surrogate
    rw [isSurrogate_iff] at surrogate
    simp only [reduceCtorEq, false_iff]
    omega
  · rename_i plain
    rw [isSurrogate_iff] at plain
    have bound := u.toNat_lt
    have number : (Char.ofNat u.toNat).toNat = u.toNat :=
      toNat_ofNat_of_valid (by unfold Nat.isValidChar; omega)
    rw [Option.some.injEq, ← Char.toNat_inj, number, eq_comm]

theorem ofUnit?_eq_none_iff : ofUnit? u = none ↔ isSurrogate u = true := by
  unfold ofUnit?
  split <;> simp_all

/-- The character of a pair is the one of the number they make up. -/
theorem ofPair_eq_iff (is_high : isHigh high = true) (is_low : isLow low = true) :
    ofPair high low = c ↔
      c.toNat = 0x10000 + (high.toNat - 0xD800) * 0x400 + (low.toNat - 0xDC00) := by
  rw [isHigh_iff] at is_high
  rw [isLow_iff] at is_low
  rw [ofPair, ← Char.toNat_inj, toNat_ofNat_of_valid (by unfold Nat.isValidChar; omega), eq_comm]

/-! ## Writing -/

theorem encodes_flatMap_ofChar (chars : List Char) : Encodes (chars.flatMap ofChar) chars := by
  induction chars with
  | nil => exact .nil
  | cons c chars ih =>
    have valid := toNat_not_surrogate c
    rw [List.flatMap_cons, ofChar]
    split
    · rename_i small
      exact .unit (by rw [UInt16.toNat_ofNat']; omega) ih
    · have first : (UInt16.ofNat (0xD800 + (c.toNat - 0x10000) / 0x400)).toNat =
          0xD800 + (c.toNat - 0x10000) / 0x400 := by rw [UInt16.toNat_ofNat']; omega
      have second : (UInt16.ofNat (0xDC00 + (c.toNat - 0x10000) % 0x400)).toNat =
          0xDC00 + (c.toNat - 0x10000) % 0x400 := by rw [UInt16.toNat_ofNat']; omega
      refine .pair ?_ ?_ ?_ ih
      · rw [isHigh_iff]; omega
      · rw [isLow_iff]; omega
      · omega

/-- There is one way to write characters. -/
theorem encodes_iff : Encodes units chars ↔ units = chars.flatMap ofChar := by
  constructor
  · intro encodes
    induction encodes with
    | nil => rfl
    | unit value _ ih => rw [List.flatMap_cons, ofChar_of_unit value, ← ih]; rfl
    | pair is_high is_low value _ ih =>
      rw [List.flatMap_cons, ofChar_of_pair is_high is_low value, ← ih]; rfl
  · rintro rfl
    exact encodes_flatMap_ofChar chars

/-! ## Reading -/

theorem decode_cons_of_ofUnit? (value : c.toNat = u.toNat) (rest : List UInt16) :
    decode (u :: rest) = some c :: decode rest := by
  have character := ofUnit?_eq_some_iff.mpr value
  have plain : isSurrogate u = false := by
    rw [Bool.eq_false_iff, ne_eq, ← ofUnit?_eq_none_iff, character]
    nofun
  rw [decode_cons_of_not_isSurrogate plain, ← character, ofUnit?, plain]
  rfl

/-- There is one way to read units that stand for characters. -/
theorem decode_eq_map_some_iff : decode units = chars.map some ↔ Encodes units chars := by
  constructor
  · intro read
    fun_induction decode units generalizing chars with
    | case1 =>
      obtain rfl := List.map_eq_nil_iff.mp read.symm
      exact .nil
    | case2 u =>
      obtain ⟨c, rest, rfl, character, ended⟩ := List.map_eq_cons_iff.mp read.symm
      obtain rfl := List.map_eq_nil_iff.mp ended
      exact .unit (ofUnit?_eq_some_iff.mp character.symm) .nil
    | case3 u v rest paired ih =>
      rw [Bool.and_eq_true] at paired
      obtain ⟨c, chars, rfl, character, more⟩ := List.map_eq_cons_iff.mp read.symm
      rw [Option.some.injEq, eq_comm] at character
      exact .pair paired.1 paired.2 ((ofPair_eq_iff paired.1 paired.2).mp character) (ih more.symm)
    | case4 u v rest _ ih =>
      obtain ⟨c, chars, rfl, character, more⟩ := List.map_eq_cons_iff.mp read.symm
      exact .unit (ofUnit?_eq_some_iff.mp character.symm) (ih more.symm)
  · intro encodes
    induction encodes with
    | nil => rfl
    | unit value _ ih => rw [decode_cons_of_ofUnit? value, ih]; rfl
    | pair is_high is_low value _ ih =>
      rw [decode, is_high, is_low, (ofPair_eq_iff is_high is_low).mpr value, ih]
      rfl

/-! ## Unpaired surrogates -/

theorem unpairedAt_nil (i : Nat) : unpairedAt [] i = false := by
  cases i <;> rfl

theorem pairAt_cons_succ (u : UInt16) (units : List UInt16) (i : Nat) :
    pairAt (u :: units) (i + 1) = pairAt units i := by
  simp [pairAt]

/-- A surrogate further on is unpaired whatever stands in front, unless that is
the other half of its pair. -/
theorem unpairedAt_cons_succ (u : UInt16) (units : List UInt16) (i : Nat) :
    unpairedAt (u :: units) (i + 1) = (unpairedAt units i && !(i == 0 && pairAt (u :: units) 0)) := by
  cases i with
  | zero => simp [unpairedAt, pairAt_cons_succ]
  | succ i => simp [unpairedAt, pairAt_cons_succ]

/-- Behind a unit that begins no pair, all is as it would be without that unit. -/
theorem unpairedAt_behind_unit (alone : pairAt (u :: units) 0 = false) (i : Nat) :
    unpairedAt (u :: units) (i + 1) = unpairedAt units i := by
  rw [unpairedAt_cons_succ, alone, Bool.and_false, Bool.not_false, Bool.and_true]

/-- Behind a pair, all is as it would be without the pair. -/
theorem unpairedAt_behind_pair (is_low : isLow low = true) (i : Nat) :
    unpairedAt (high :: low :: units) (i + 2) = unpairedAt units i := by
  have alone : pairAt (low :: units) 0 = false := by simp [pairAt, isHigh_of_isLow is_low]
  rw [unpairedAt_cons_succ, unpairedAt_behind_unit alone]
  simp

theorem exists_unpairedAt_cons (u : UInt16) (units : List UInt16)
    (alone : pairAt (u :: units) 0 = false) :
    (∃ i, unpairedAt (u :: units) i = true) ↔
      isSurrogate u = true ∨ ∃ i, unpairedAt units i = true := by
  have first : unpairedAt (u :: units) 0 = isSurrogate u := by simp [unpairedAt, alone]
  constructor
  · rintro ⟨_ | i, unpaired⟩
    · exact .inl (first ▸ unpaired)
    · exact .inr ⟨i, unpairedAt_behind_unit alone i ▸ unpaired⟩
  · rintro (surrogate | ⟨i, unpaired⟩)
    · exact ⟨0, first.trans surrogate⟩
    · exact ⟨i + 1, (unpairedAt_behind_unit alone i).trans unpaired⟩

theorem exists_unpairedAt_pair (is_high : isHigh high = true) (is_low : isLow low = true)
    (units : List UInt16) :
    (∃ i, unpairedAt (high :: low :: units) i = true) ↔ ∃ i, unpairedAt units i = true := by
  have paired : pairAt (high :: low :: units) 0 = true := by simp [pairAt, is_high, is_low]
  constructor
  · rintro ⟨_ | _ | i, unpaired⟩
    · simp [unpairedAt, paired] at unpaired
    · simp [unpairedAt, paired] at unpaired
    · exact ⟨i, unpairedAt_behind_pair is_low i ▸ unpaired⟩
  · rintro ⟨i, unpaired⟩
    exact ⟨i + 2, (unpairedAt_behind_pair is_low i).trans unpaired⟩

/-- A surrogate is marked exactly if it is not part of a pair. -/
theorem none_mem_decode_iff : none ∈ decode units ↔ ∃ i, unpairedAt units i = true := by
  fun_induction decode units with
  | case1 => simp [unpairedAt_nil]
  | case2 u =>
    rw [exists_unpairedAt_cons u [] (by simp [pairAt]), List.mem_singleton, eq_comm,
      ofUnit?_eq_none_iff]
    simp [unpairedAt_nil]
  | case3 u v rest paired ih =>
    rw [Bool.and_eq_true] at paired
    rw [exists_unpairedAt_pair paired.1 paired.2, ← ih]
    simp
  | case4 u v rest single ih =>
    rw [exists_unpairedAt_cons u (v :: rest) (by simpa [pairAt] using single), ← ih, List.mem_cons,
      eq_comm, ofUnit?_eq_none_iff]

/-! ## Whole texts -/

theorem mapM_id_eq_some_iff {read : List (Option Char)} :
    read.mapM id = some chars ↔ read = chars.map some := by
  induction read generalizing chars with
  | nil => cases chars <;> simp
  | cons first read ih =>
    cases first with
    | none => cases chars <;> simp
    | some c =>
      rw [List.mapM_cons, id, Option.bind_eq_bind, Option.bind_some, Option.bind_eq_bind,
        Option.bind_eq_some_iff]
      simp only [ih, Option.pure_def, Option.some.injEq]
      constructor
      · rintro ⟨chars, rfl, rfl⟩
        rfl
      · intro read_eq
        obtain ⟨d, rest, rfl, same, more⟩ := List.map_eq_cons_iff.mp read_eq.symm
        exact ⟨rest, more.symm, by rw [Option.some.inj same]⟩

theorem mapM_id_eq_none_iff {read : List (Option Char)} : read.mapM id = none ↔ none ∈ read := by
  induction read with
  | nil => simp
  | cons first read ih =>
    cases first with
    | none => simp
    | some c =>
      rw [List.mapM_cons, List.mem_cons, ← ih]
      cases read.mapM id <;> simp

/-- The strict reading is the text that the units stand for. -/
theorem decode?_eq_some_iff {text : String} :
    decode? units = some text ↔ Encodes units text.toList := by
  rw [decode?, Option.map_eq_some_iff, ← decode_eq_map_some_iff, ← mapM_id_eq_some_iff]
  constructor
  · rintro ⟨chars, read, rfl⟩
    rw [read, String.toList_ofList]
  · intro read
    exact ⟨text.toList, read, String.ofList_toList⟩

/-- The strict reading fails exactly for an unpaired surrogate. -/
theorem decode?_eq_none_iff : decode? units = none ↔ ∃ i, unpairedAt units i = true := by
  rw [decode?, Option.map_eq_none_iff, mapM_id_eq_none_iff, none_mem_decode_iff]

/-- Of units that stand for characters the forgiving reading is the strict one. -/
theorem decodeLossy_of_encodes {text : String} (encodes : Encodes units text.toList) :
    decodeLossy units = text := by
  rw [decodeLossy, decode_eq_map_some_iff.mpr encodes, List.map_map]
  simp [Function.comp_def]

end HostParsing.Utf16
