import HostParsing.Proofs.Buffer.Plain
/-!
# Buffers as plain lists

Every edit of a buffer is the edit of a plain list of units, and is refused
exactly if that is (the `toOption_` lemmas, one for each kind of edit). So is
every call (`run_ofUnits`), and a whole run from any origin is the run on the
list (`runAll_refines`).
-/

namespace HostParsing.Buffer

open Plain (CharRange ByteRange onBytes)

variable {b : Buffer} {units new : List UInt16} {first last index : Nat}

/-! ## Edits of a span -/

theorem bytes_delete_eq_splice (s : Span b.byteLength) :
    (b.delete s).bytes = splice b.bytes s.first s.last [] :=
  Bytes.remove_eq_splice b.bytes s.first s.last

theorem bytes_replace_eq_splice (s : Span b.byteLength) (text : String) :
    (b.replace s text).bytes = splice b.bytes s.first s.last (Bytes.ofText text) :=
  Bytes.replace_eq_splice s.first_le_last s.last_le

theorem bytes_slice_eq_extract (s : Span b.byteLength) :
    (b.slice s).bytes = b.bytes.extract s.first s.last :=
  Bytes.slice_eq_extract b.bytes s.first s.last

/-- What is done to a range of units is done if there is that range. -/
theorem toOption_charSpan {act : Span (ofUnits units).byteLength → Buffer} {after : List UInt16}
    (does : ∀ s, s.first = 2 * first → s.last = 2 * last → (act s).bytes = Bytes.ofUnits after) :
    (((ofUnits units).charSpan first last).map act).toOption =
      if CharRange units first last then some (ofUnits after) else none := by
  unfold charSpan
  by_cases order : first ≤ last
  · by_cases inside : last ≤ units.length
    · have range : CharRange units first last := ⟨order, inside⟩
      rw [dif_pos order, dif_pos ((length_ofUnits units).symm ▸ inside), if_pos range]
      exact congrArg some (eq_of_bytes (does _ rfl rfl))
    · have range : ¬ CharRange units first last := fun h => inside h.2
      rw [dif_pos order, dif_neg ((length_ofUnits units).symm ▸ inside), if_neg range]
      rfl
  · have range : ¬ CharRange units first last := fun h => order h.1
    rw [dif_neg order, if_neg range]
    rfl

/-- What is done to a range of bytes is done if there is that range and it is a
whole number of units long. -/
theorem toOption_byteSpan {act : Span (ofUnits units).byteLength → Buffer} {change : Bytes → Bytes}
    (does : ∀ s, s.first = first → s.last = last → (act s).bytes = change (Bytes.ofUnits units)) :
    (((ofUnits units).byteSpan first last).map act).toOption =
      if ByteRange units first last then some (ofUnits (onBytes units change)) else none := by
  unfold byteSpan
  by_cases order : first ≤ last
  · by_cases inside : last ≤ (ofUnits units).byteLength
    · by_cases even : (last - first) % 2 = 0
      · have range : ByteRange units first last := ⟨order, inside, even⟩
        have after := does ⟨first, last, order, inside, even⟩ rfl rfl
        rw [dif_pos order, dif_pos inside, dif_pos even, if_pos range, onBytes, ← after,
          ← eq_ofUnits]
        rfl
      · have range : ¬ ByteRange units first last := fun h => even h.2.2
        rw [dif_pos order, dif_pos inside, dif_neg even, if_neg range]
        rfl
    · have range : ¬ ByteRange units first last := fun h => inside h.2.1
      rw [dif_pos order, dif_neg inside, if_neg range]
      rfl
  · have range : ¬ ByteRange units first last := fun h => order h.1
    rw [dif_neg order, if_neg range]
    rfl

theorem toOption_deleteChars : ((ofUnits units).deleteChars first last).toOption =
    if CharRange units first last then some (ofUnits (splice units first last [])) else none := by
  refine toOption_charSpan fun s start stop => ?_
  rw [bytes_delete_eq_splice, start, stop]
  exact Bytes.splice_ofUnits units first last []

theorem toOption_deleteBytes : ((ofUnits units).deleteBytes first last).toOption =
    if ByteRange units first last then some (ofUnits (onBytes units (splice · first last [])))
    else none := by
  refine toOption_byteSpan fun s start stop => ?_
  rw [bytes_delete_eq_splice, start, stop]
  rfl

theorem toOption_replaceChars (text : String) :
    ((ofUnits units).replaceChars first last text).toOption =
      if CharRange units first last then
        some (ofUnits (splice units first last (Utf16.encode text)))
      else none := by
  refine toOption_charSpan fun s start stop => ?_
  rw [bytes_replace_eq_splice, start, stop]
  exact Bytes.splice_ofUnits units first last (Utf16.encode text)

theorem toOption_replaceBytes (text : String) :
    ((ofUnits units).replaceBytes first last text).toOption =
      if ByteRange units first last then
        some (ofUnits (onBytes units (splice · first last (Bytes.ofText text))))
      else none := by
  refine toOption_byteSpan fun s start stop => ?_
  rw [bytes_replace_eq_splice, start, stop]
  rfl

theorem toOption_substringChars (units : List UInt16) (first last : Nat) :
    ((ofUnits units).substringChars first last).toOption =
      (Plain.chars units first last).map ofUnits := by
  unfold Plain.chars
  rw [apply_ite (Option.map ofUnits)]
  refine toOption_charSpan fun s start stop => ?_
  rw [bytes_slice_eq_extract, start, stop]
  exact Bytes.extract_ofUnits units first last

theorem toOption_substringBytes (units : List UInt16) (first last : Nat) :
    ((ofUnits units).substringBytes first last).toOption =
      (Plain.bytes units first last).map ofUnits := by
  unfold Plain.bytes
  rw [apply_ite (Option.map ofUnits)]
  refine toOption_byteSpan fun s start stop => ?_
  rw [bytes_slice_eq_extract, start, stop]
  rfl

/-! ## Edits at an index -/

theorem toOption_setByteAt (byte : UInt8) : ((ofUnits units).setByteAt index byte).toOption =
    if index < (Bytes.ofUnits units).length then some (ofUnits (onBytes units (·.set index byte)))
    else none := by
  have same : (ofUnits units).byteLength = (Bytes.ofUnits units).length := rfl
  unfold setByteAt
  by_cases inside : index < (Bytes.ofUnits units).length
  · rw [if_pos (same ▸ inside), if_pos inside, onBytes, eq_ofUnits ⟨_, _⟩]
    rfl
  · rw [if_neg (same ▸ inside), if_neg inside]
    rfl

theorem toOption_setCharAt (unit : UInt16) : ((ofUnits units).setCharAt index unit).toOption =
    if index < units.length then some (ofUnits (units.set index unit)) else none := by
  unfold setCharAt
  simp only [length_ofUnits]
  by_cases inside : index < units.length
  · rw [dif_pos inside, if_pos inside]
    refine congrArg some (eq_of_bytes ?_)
    rw [set_eq_splice inside]
    exact (Bytes.overwrite_eq_splice ..).trans
      (Bytes.splice_ofUnits units index (index + 1) [unit])
  · rw [dif_neg inside, if_neg inside]
    rfl

theorem toOption_insertUnits : ((ofUnits units).insertUnits index new).toOption =
    if index ≤ units.length then some (ofUnits (splice units index index new)) else none := by
  unfold insertUnits
  simp only [length_ofUnits]
  by_cases inside : index ≤ units.length
  · rw [dif_pos inside, if_pos inside]
    exact congrArg some (eq_of_bytes ((Bytes.insert_eq_splice ..).trans
      (Bytes.splice_ofUnits units index index new)))
  · rw [dif_neg inside, if_neg inside]
    rfl

/-! ## Appending -/

theorem appendUnits_ofUnits (units new : List UInt16) :
    (ofUnits units).appendUnits new = ofUnits (units ++ new) :=
  eq_of_bytes (Bytes.ofUnits_append units new).symm

theorem toOption_appendPart (text : String) (start count : Nat) :
    ((ofUnits units).appendPart text start count).toOption =
      if start + count ≤ (Utf16.encode text).length ∧ start + count < wordLimit then
        some (ofUnits (units ++ (Utf16.encode text).extract start (start + count)))
      else none := by
  unfold appendPart
  by_cases word : start + count < wordLimit
  · by_cases inside : start + count ≤ (Utf16.encode text).length
    · rw [if_neg (Nat.not_le.mpr word), if_neg (Nat.not_lt.mpr inside), if_pos ⟨inside, word⟩,
        appendUnits_ofUnits, List.extract_eq_take_drop, Nat.add_sub_cancel_left]
      rfl
    · rw [if_neg (Nat.not_le.mpr word), if_pos (Nat.lt_of_not_le inside), if_neg fun h => inside h.1]
      rfl
  · rw [if_pos (Nat.le_of_not_lt word), if_neg fun h => word h.2]
    rfl

/-! ## Reading -/

theorem toOption_byteAt :
    ((ofUnits units).byteAt index).toOption = (Bytes.ofUnits units)[index]? := by
  unfold byteAt
  rw [bytes_ofUnits]
  cases (Bytes.ofUnits units)[index]? with
  | none => rfl
  | some byte => rfl

theorem toOption_charAt : ((ofUnits units).charAt index).toOption = units[index]? := by
  unfold charAt
  simp only [length_ofUnits]
  by_cases inside : index < units.length
  · have stored : 2 * index + 1 < (Bytes.ofUnits units).length := by
      rw [Bytes.length_ofUnits]
      omega
    have read := Bytes.toUnits_getElem? stored
    rw [Bytes.toUnits_ofUnits] at read
    rw [dif_pos inside, read]
    rfl
  · rw [dif_neg inside, List.getElem?_eq_none (Nat.le_of_not_lt inside)]
    rfl

theorem toOption_toText? : (ofUnits units).toText?.toOption = Utf16.decode? units := by
  unfold toText?
  rw [units_ofUnits]
  cases Utf16.decode? units with
  | none => rfl
  | some text => rfl

/-! ## Calls -/

theorem toOption_map {α β : Type} (f : α → β) (asked : Except Fault α) :
    (asked.map f).toOption = asked.toOption.map f := by
  cases asked with
  | error _ => rfl
  | ok _ => rfl

theorem eq_ok_of_toOption {α : Type} {asked : Except Fault α} {answer : α}
    (answered : asked.toOption = some answer) : asked = .ok answer := by
  cases asked with
  | error _ => cases answered
  | ok _ => exact congrArg Except.ok (Option.some.inj answered)

theorem toOption_edit {edited : Except Fault Buffer} {allowed : Prop} [Decidable allowed]
    {after : List UInt16}
    (does : edited.toOption = if allowed then some (ofUnits after) else none) :
    (Call.edit edited).toOption = (Plain.edit allowed after).map (Prod.map id ofUnits) := by
  rw [Call.edit, toOption_map, does, Plain.edit]
  split <;> rfl

theorem toOption_slice {cut : Except Fault Buffer} {cutUnits : Option (List UInt16)}
    (does : cut.toOption = cutUnits.map ofUnits) :
    ((cut.map toText).map (Answer.text ·, ofUnits units)).toOption =
      (cutUnits.map (Answer.text <| Utf16.decodeLossy ·, units)).map (Prod.map id ofUnits) := by
  rw [toOption_map, toOption_map, does]
  cases cutUnits with
  | none => rfl
  | some cut => simp [toText]

/-- A call on a buffer answers what it does on the plain list, leaves the buffer of
the list that it leaves there, and is refused if it is refused there. -/
theorem run_ofUnits (units : List UInt16) (call : Call) :
    (call.run (ofUnits units)).toOption = (Plain.run units call).map (Prod.map id ofUnits) := by
  cases call with
  | length => exact congrArg (fun n => some (Answer.number n, _)) (length_ofUnits units)
  | byteLength => exact congrArg (fun n => some (Answer.number n, _)) (byteLength_ofUnits units)
  | isEmpty => cases units <;> rfl
  | bytes => rfl
  | units => exact congrArg (fun us => some (Answer.units us, _)) (units_ofUnits units)
  | toText =>
    exact congrArg (fun us => some (Answer.text (Utf16.decodeLossy us), _)) (units_ofUnits units)
  | toText? =>
    rw [Call.run, toOption_map, toOption_toText?, Plain.run, Option.map_map]
    rfl
  | byteAt index =>
    rw [Call.run, toOption_map, toOption_byteAt, Plain.run, Option.map_map]
    rfl
  | charAt index =>
    rw [Call.run, toOption_map, toOption_charAt, Plain.run, Option.map_map]
    rfl
  | setByteAt index byte => exact toOption_edit (toOption_setByteAt byte)
  | setCharAt index unit => exact toOption_edit (toOption_setCharAt unit)
  | insertChar index unit => exact toOption_edit toOption_insertUnits
  | append text =>
    exact toOption_edit (congrArg some (appendUnits_ofUnits units (Utf16.encode text)))
  | appendPart text start count => exact toOption_edit (toOption_appendPart text start count)
  | appendChar unit => exact toOption_edit (congrArg some (appendUnits_ofUnits units [unit]))
  | insert index text => exact toOption_edit toOption_insertUnits
  | deleteChars first last => exact toOption_edit toOption_deleteChars
  | deleteBytes first last => exact toOption_edit toOption_deleteBytes
  | replaceChars first last text => exact toOption_edit (toOption_replaceChars text)
  | replaceBytes first last text => exact toOption_edit (toOption_replaceBytes text)
  | sliceChars first last => exact toOption_slice (toOption_substringChars units first last)
  | sliceBytes first last => exact toOption_slice (toOption_substringBytes units first last)

/-- The same of calls one after another. -/
theorem runAll_ofUnits (units : List UInt16) (calls : List Call) :
    (ofUnits units).runAll calls = ofUnits (Plain.runAll units calls) := by
  induction calls generalizing units with
  | nil => rfl
  | cons call calls ih =>
    have step := run_ofUnits units call
    unfold Plain.runAll runAll
    cases plain : Plain.run units call with
    | none =>
      cases ran : call.run (ofUnits units) with
      | error fault => exact ih units
      | ok done => simp [plain, ran, Except.toOption] at step
    | some done =>
      cases ran : call.run (ofUnits units) with
      | error fault => simp [plain, ran, Except.toOption] at step
      | ok left =>
        have same : left = Prod.map id ofUnits done := by
          simpa [plain, ran, Except.toOption] using step
        rw [same]
        exact ih done.2

/-! ## Origins -/

theorem toOption_ofBytes (bytes : Bytes) :
    (ofBytes bytes).toOption =
      if bytes.length % 2 = 0 then some (ofUnits bytes.toUnits) else none := by
  unfold ofBytes
  split
  · rename_i even
    exact congrArg some (eq_ofUnits ⟨bytes, even⟩)
  · rfl

theorem toOption_ofByteRange (array : Bytes) (offset length : Nat) :
    (ofByteRange array offset length).toOption =
      if offset + length ≤ array.length ∧ offset + length < wordLimit ∧ length % 2 = 0 then
        some (ofUnits (Bytes.toUnits (array.extract offset (offset + length))))
      else none := by
  unfold ofByteRange
  by_cases word : offset + length < wordLimit
  · by_cases inside : offset + length ≤ array.length
    · have cut : (array.slice offset (offset + length)).length = length := by
        rw [Bytes.length_slice inside, Nat.add_sub_cancel_left]
      rw [if_neg (Nat.not_le.mpr word), if_neg (Nat.not_lt.mpr inside), toOption_ofBytes, cut,
        Bytes.slice_eq_extract]
      simp only [inside, word, true_and]
    · rw [if_neg (Nat.not_le.mpr word), if_pos (Nat.lt_of_not_le inside), if_neg fun h => inside h.1]
      rfl
  · rw [if_pos (Nat.le_of_not_lt word), if_neg fun h => word h.2.1]
    rfl

/-- A buffer can be made exactly if the list can, and it is the buffer of the list. -/
theorem toOption_build (origin : Origin) : origin.build.toOption = origin.plain.map ofUnits := by
  cases origin with
  | empty => rfl
  | text text => rfl
  | units units => rfl
  | bytes bytes =>
    unfold Origin.plain
    rw [apply_ite (Option.map ofUnits)]
    exact toOption_ofBytes bytes
  | byteRange array offset length =>
    unfold Origin.plain
    rw [apply_ite (Option.map ofUnits)]
    exact toOption_ofByteRange array offset length

/-- Whatever is done to a buffer, from any origin on, is done to a plain list of
units: the buffer holds exactly that list, has two bytes for every unit of it, reads
and answers what the list does, and refuses what cannot be done to the list. -/
theorem runAll_refines (origin : Origin) (calls : List Call) :
    (origin.build.map (·.runAll calls)).toOption =
      (origin.plain.map (Plain.runAll · calls)).map ofUnits ∧
    ∀ units, (ofUnits units).byteLength = 2 * (ofUnits units).length ∧
      (ofUnits units).units = units ∧
      (∀ call : Call,
        (call.run (ofUnits units)).toOption = (Plain.run units call).map (Prod.map id ofUnits)) ∧
      ∀ first last,
        ((ofUnits units).substringChars first last).toOption =
          (Plain.chars units first last).map ofUnits ∧
        ((ofUnits units).substringCharsFrom first).toOption =
          (Plain.chars units first units.length).map ofUnits ∧
        ((ofUnits units).substringBytes first last).toOption =
          (Plain.bytes units first last).map ofUnits ∧
        ((ofUnits units).substringBytesFrom first).toOption =
          (Plain.bytes units first (2 * units.length)).map ofUnits := by
  constructor
  · rw [toOption_map, toOption_build, Option.map_map, Option.map_map]
    exact congrArg (origin.plain.map ·) (funext fun units => runAll_ofUnits units calls)
  · intro units
    refine ⟨(ofUnits units).two_mul_length.symm, units_ofUnits units, run_ofUnits units,
      fun first last => ⟨toOption_substringChars units first last, ?_,
        toOption_substringBytes units first last, ?_⟩⟩
    · rw [substringCharsFrom, length_ofUnits, toOption_substringChars]
    · rw [substringBytesFrom, byteLength_ofUnits, toOption_substringBytes]

end HostParsing.Buffer
