import HostParsing.Proofs.Text.Encoding
/-!
# The forgiving reading

What a reader that puts a replacement character for every unpaired surrogate makes of
units, unit by unit and piece by piece:

* `encode_decodeLossy`: the text that is read has as many units, those in the place of
  an unpaired surrogate replaced and all others as they were;
* `decodeLossy_append_iff`: two pieces are read as the whole unless the place between
  them lies within a surrogate pair (`cutsPair`). There, and only there, one character
  of the whole is two of the pieces (`length_decode_append`).
-/

namespace HostParsing.Utf16

/-- Whether one piece of units ends with a high surrogate and the next begins with a low
one. -/
def cutsPair (front back : List UInt16) : Bool :=
  front.getLast?.any isHigh && back.head?.any isLow

variable {u high low : UInt16} {front back : List UInt16}

/-! ## Unit by unit -/

theorem ofChar_replacement : ofChar replacement = [0xFFFD] := by decide

theorem ofChar_getD_ofUnit? (u : UInt16) :
    ofChar ((ofUnit? u).getD replacement) = [if isSurrogate u then 0xFFFD else u] := by
  cases read : ofUnit? u with
  | none =>
    have surrogate := ofUnit?_eq_none_iff.mp read
    simp only [Option.getD_none, ofChar_replacement, surrogate, ↓reduceIte]
  | some c =>
    have plain : ¬ isSurrogate u = true := by
      rw [← ofUnit?_eq_none_iff, read]
      nofun
    rw [if_neg plain]
    exact ofChar_of_unit (ofUnit?_eq_some_iff.mp read)

theorem ofChar_ofPair (is_high : isHigh high = true) (is_low : isLow low = true) :
    ofChar (ofPair high low) = [high, low] :=
  ofChar_of_pair is_high is_low ((ofPair_eq_iff is_high is_low).mp rfl)

theorem encode_decodeLossy_eq_flatMap (units : List UInt16) :
    encode (decodeLossy units) =
      (decode units).flatMap fun read => ofChar (read.getD replacement) := by
  simp only [encode, decodeLossy, String.toList_ofList, List.flatMap_map]

/-- The units of the text that is read are the units that were read, but for the
unpaired surrogates among them. -/
theorem encode_decodeLossy (units : List UInt16) :
    encode (decodeLossy units) =
      units.mapIdx fun i u => if unpairedAt units i then 0xFFFD else u := by
  rw [encode_decodeLossy_eq_flatMap]
  -- What one step of the reader takes is one unit or a pair, and leaves the places behind
  -- it as they are without what was taken.
  fun_induction decode units with
  | case1 => rfl
  | case2 u =>
    have first : unpairedAt [u] 0 = isSurrogate u := by simp [unpairedAt, pairAt]
    simp only [List.flatMap_cons, List.flatMap_nil, List.append_nil, ofChar_getD_ofUnit?,
      List.mapIdx_cons, List.mapIdx_nil, first]
  | case3 u v rest paired ih =>
    rw [Bool.and_eq_true] at paired
    obtain ⟨is_high, is_low⟩ := paired
    have pair : pairAt (u :: v :: rest) 0 = true := by simp [pairAt, is_high, is_low]
    have first : unpairedAt (u :: v :: rest) 0 = false := by simp [unpairedAt, pair]
    have second : unpairedAt (u :: v :: rest) 1 = false := by simp [unpairedAt, pair]
    rw [List.flatMap_cons, ih, Option.getD_some, ofChar_ofPair is_high is_low]
    simp [List.mapIdx_cons, first, second, unpairedAt_behind_pair is_low]
  | case4 u v rest single ih =>
    have alone : pairAt (u :: v :: rest) 0 = false := by simpa [pairAt] using single
    have first : unpairedAt (u :: v :: rest) 0 = isSurrogate u := by simp [unpairedAt, alone]
    rw [List.flatMap_cons, ih, ofChar_getD_ofUnit?]
    simp [List.mapIdx_cons (a := u), first, unpairedAt_behind_unit alone]

/-! ## Piece by piece -/

theorem cutsPair_nil_left (back : List UInt16) : cutsPair [] back = false := rfl

theorem cutsPair_cons_of_ne_nil (u : UInt16) (nonempty : front ≠ []) (back : List UInt16) :
    cutsPair (u :: front) back = cutsPair front back := by
  obtain ⟨v, rest, rfl⟩ := List.exists_cons_of_ne_nil nonempty
  simp only [cutsPair, List.getLast?_cons_cons]

/-- A cut that is harmless stays so without what is far in front of it. -/
theorem cutsPair_of_cons (harmless : cutsPair (u :: front) back = false) :
    cutsPair front back = false := by
  by_cases empty : front = []
  · rw [empty]
    exact cutsPair_nil_left back
  · rw [← cutsPair_cons_of_ne_nil u empty]
    exact harmless

theorem decode_cons_of_not_pair {v : UInt16} {rest : List UInt16}
    (single : (isHigh u && isLow v) = false) :
    decode (u :: v :: rest) = ofUnit? u :: decode (v :: rest) := by
  rw [decode, single]
  rfl

theorem decode_cons_of_not_high (plain : isHigh u = false) (rest : List UInt16) :
    decode (u :: rest) = ofUnit? u :: decode rest := by
  cases rest with
  | nil => rfl
  | cons v rest => exact decode_cons_of_not_pair (by rw [plain, Bool.false_and])

/-- Pieces that cut no pair are read one after the other. -/
theorem decode_append (harmless : cutsPair front back = false) :
    decode (front ++ back) = decode front ++ decode back := by
  fun_induction decode front with
  | case1 => rfl
  | case2 u =>
    cases back with
    | nil => rfl
    | cons v rest =>
      have single : (isHigh u && isLow v) = false := by simpa [cutsPair] using harmless
      exact decode_cons_of_not_pair single
  | case3 u v rest paired ih =>
    have later := ih (cutsPair_of_cons (cutsPair_of_cons harmless))
    rw [List.cons_append, List.cons_append, decode, if_pos paired, later]
    rfl
  | case4 u v rest single ih =>
    have later := ih (cutsPair_of_cons harmless)
    rw [List.cons_append, List.cons_append, decode_cons_of_not_pair (by simpa using single)]
    rw [← List.cons_append, later]
    rfl

/-- Pieces that cut a pair, taken apart at the cut. -/
theorem exists_of_cutsPair (cut : cutsPair front back = true) :
    ∃ before high low behind, front = before ++ [high] ∧ back = low :: behind ∧
      isHigh high = true ∧ isLow low = true := by
  rw [cutsPair, Bool.and_eq_true, Option.any_eq_true, Option.any_eq_true] at cut
  obtain ⟨⟨high, ends, is_high⟩, low, begins, is_low⟩ := cut
  obtain ⟨before, rfl⟩ := List.getLast?_eq_some_iff.mp ends
  obtain ⟨behind, rfl⟩ := List.head?_eq_some_iff.mp begins
  exact ⟨before, high, low, behind, rfl, rfl, is_high, is_low⟩

/-- Where a pair is cut, its one character is two in the pieces. -/
theorem length_decode_append (cut : cutsPair front back = true) :
    (decode front ++ decode back).length = (decode (front ++ back)).length + 1 := by
  obtain ⟨before, high, low, behind, rfl, rfl, is_high, is_low⟩ := exists_of_cutsPair cut
  have not_low : isLow high = false := by
    rw [Bool.eq_false_iff]
    intro is_low'
    simp [isHigh_of_isLow is_low'] at is_high
  have pair : decode (high :: low :: behind) = some (ofPair high low) :: decode behind := by
    rw [decode, is_high, is_low]
    rfl
  have halves : decode (before ++ [high]) = decode before ++ [ofUnit? high] :=
    decode_append (by simp [cutsPair, not_low])
  have rest : decode (low :: behind) = ofUnit? low :: decode behind :=
    decode_cons_of_not_high (isHigh_of_isLow is_low) behind
  have whole : decode (before ++ [high] ++ low :: behind) =
      decode before ++ some (ofPair high low) :: decode behind := by
    rw [List.append_assoc, List.singleton_append, decode_append (by simp [cutsPair, not_low]),
      pair]
  rw [halves, rest, whole]
  simp only [List.length_append, List.length_cons, List.length_nil]
  omega

/-- Two pieces are read as the whole exactly if they cut no pair. -/
theorem decodeLossy_append_iff :
    decodeLossy front ++ decodeLossy back = decodeLossy (front ++ back) ↔
      cutsPair front back = false := by
  constructor
  · intro same
    rw [Bool.eq_false_iff]
    intro cut
    have longer := length_decode_append cut
    have lengths := congrArg String.length same
    simp only [decodeLossy, String.length_append, String.length_ofList, List.length_map] at lengths
    rw [List.length_append] at longer
    omega
  · intro harmless
    simp only [decodeLossy, decode_append harmless, List.map_append, String.ofList_append]

end HostParsing.Utf16
