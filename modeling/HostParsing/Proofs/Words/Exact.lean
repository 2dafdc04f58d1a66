import HostParsing.Proofs.Words.Checks
/-!
# Words are as good as exact numbers

An operation on a buffer answers with words what it does with exact numbers, and is
refused where it is refused with them (`run_eq`). So it never stops: each sum, product or
difference that is reached is a word, and each range that is reached is there. A buffer is
made of whole units, so that the second byte of a unit that is there is there too
(`charAt_eq`), and a sum of two words that is no word itself is refused before anything is
cut (`appendPart_eq`, `ofByteRange_eq`).

The one thing that may stop an operation on arrays is the room for a text that is encoded.
It takes twice the bytes of the text, whatever the text comes to in units, and is asked for
after the range was checked and before the buffer is written to (`run_of_not_roomFits`).
`words_are_exact` puts calls and whole runs of them together.
-/

namespace HostParsing.Words

open Buffer (Answer Call Origin RoomFits TextFits)

variable {α : Type} {buffer : Buffer} {first last index start stop : UInt64} {text : String}

/-! ## Ranges -/

/-- An edit that succeeds leaves a buffer that is an array. -/
def Stays (edited : Except Fault Buffer) : Prop :=
  ∀ after, edited = .ok after → after.byteLength < arrayLimit

section
variable (short : buffer.byteLength < arrayLimit) (first last : UInt64)
include short

theorem deleteChars_eq : deleteChars buffer.bytes first last =
    told ((buffer.deleteChars first.toNat last.toNat).map Buffer.bytes) := by
  rw [Buffer.deleteChars, map_map]
  exact charRange_bind short fun s start stop _ bound bound' => takeOut_span bound bound'

theorem deleteBytes_eq : deleteBytes buffer.bytes first last =
    told ((buffer.deleteBytes first.toNat last.toNat).map Buffer.bytes) := by
  rw [Buffer.deleteBytes, map_map]
  exact byteRange_bind short fun s start stop _ bound bound' => takeOut_span bound bound'

theorem substringChars_eq : substringChars buffer.bytes first last =
    told ((buffer.substringChars first.toNat last.toNat).map Buffer.bytes) := by
  rw [Buffer.substringChars, map_map]
  exact charRange_bind short fun s start stop _ bound bound' => cut_span bound bound'

theorem substringBytes_eq : substringBytes buffer.bytes first last =
    told ((buffer.substringBytes first.toNat last.toNat).map Buffer.bytes) := by
  rw [Buffer.substringBytes, map_map]
  exact byteRange_bind short fun s start stop _ bound bound' => cut_span bound bound'

variable (fits : TextFits text) (roomy : RoomFits text)
include fits roomy

theorem replaceChars_eq (room : Stays (buffer.replaceChars first.toNat last.toNat text)) :
    replaceChars buffer.bytes first last text =
      told ((buffer.replaceChars first.toNat last.toNat text).map Buffer.bytes) := by
  rw [Buffer.replaceChars, map_map]
  refine charRange_bind short fun s start stop given bound bound' => ?_
  have made : buffer.replaceChars first.toNat last.toNat text = .ok (buffer.replace s text) := by
    rw [Buffer.replaceChars, given]
    rfl
  exact spliceEncoded_span bound bound' short fits roomy (room _ made)

theorem replaceBytes_eq (room : Stays (buffer.replaceBytes first.toNat last.toNat text)) :
    replaceBytes buffer.bytes first last text =
      told ((buffer.replaceBytes first.toNat last.toNat text).map Buffer.bytes) := by
  rw [Buffer.replaceBytes, map_map]
  refine byteRange_bind short fun s start stop given bound bound' => ?_
  have made : buffer.replaceBytes first.toNat last.toNat text = .ok (buffer.replace s text) := by
    rw [Buffer.replaceBytes, given]
    rfl
  exact spliceEncoded_span bound bound' short fits roomy (room _ made)

end

/-! ## Units and bytes -/

section
variable (short : buffer.byteLength < arrayLimit) (index : UInt64)
include short

theorem byteAt_eq : byteAt buffer.bytes index = told (buffer.byteAt index.toNat) := by
  rw [byteAt, Buffer.byteAt, toNat_byteLength short]
  cases buffer.bytes[index.toNat]? <;> rfl

theorem setByteAt_eq (byte : UInt8) :
    setByteAt buffer.bytes index byte =
      told ((buffer.setByteAt index.toNat byte).map Buffer.bytes) := by
  rw [setByteAt, Buffer.setByteAt, toNat_byteLength short]
  by_cases inside : index.toNat < buffer.byteLength
  · rw [if_pos inside]
    exact if_pos inside
  · rw [if_neg inside]
    exact if_neg inside

theorem charAt_eq : charAt buffer.bytes index = told (buffer.charAt index.toNat) := by
  by_cases inside : index.toNat < buffer.length
  · obtain ⟨offset, counted, exact⟩ := exists_charOffset short inside
    -- The bytes are twice as many as the units, so the second byte of the last one is there.
    have pair : offset.toNat + 1 < buffer.bytes.length := by
      have := buffer.two_mul_length
      simp only [Buffer.byteLength] at this
      omega
    have word : offset.toNat + (1 : UInt64).toNat < wordLimit :=
      Nat.lt_trans pair (Nat.lt_trans short arrayLimit_lt_wordLimit)
    obtain ⟨next, summed, exact'⟩ := exists_plus word
    have exact'' : next.toNat = offset.toNat + 1 := exact'
    rw [charAt, counted, ok_bind, fetch_of_lt (by omega), ok_bind, summed, ok_bind,
      fetch_of_lt (by omega), ok_bind, Buffer.charAt, dif_pos inside]
    simp only [exact'', exact]
    rfl
  · rw [charAt, charOffset_of_not_lt short inside, Buffer.charAt, dif_neg inside]
    rfl

theorem setCharAt_eq (unit : UInt16) :
    setCharAt buffer.bytes index unit =
      told ((buffer.setCharAt index.toNat unit).map Buffer.bytes) := by
  by_cases inside : index.toNat < buffer.length
  · obtain ⟨offset, counted, exact⟩ := exists_charOffset short inside
    have pair : offset.toNat + 2 ≤ buffer.bytes.length := by
      have := buffer.two_mul_length
      simp only [Buffer.byteLength] at this
      omega
    have word : offset.toNat + unitSize.toNat < wordLimit :=
      Nat.lt_of_le_of_lt pair (Nat.lt_trans short arrayLimit_lt_wordLimit)
    obtain ⟨stop, summed, exact'⟩ := exists_plus word
    have exact'' : stop.toNat = offset.toNat + (Bytes.ofUnit unit).length := exact'
    rw [setCharAt, counted, ok_bind, summed, ok_bind,
      copyOver_of_inside (Nat.le_trans (Nat.le_of_eq exact'') pair) exact'', exact,
      Buffer.setCharAt, dif_pos inside]
    rfl
  · rw [setCharAt, charOffset_of_not_lt short inside, Buffer.setCharAt, dif_neg inside]
    rfl

end

/-! ## Growth -/

theorem extendUnits_eq {units : List UInt16}
    (room : (buffer.appendUnits units).byteLength < arrayLimit) :
    extendUnits buffer.bytes units = .ok (buffer.appendUnits units).bytes := by
  rw [Buffer.byteLength, Buffer.bytes_appendUnits, List.length_append, Bytes.length_ofUnits] at room
  exact extendUnits_of_lt room

theorem extendUnit_eq {unit : UInt16} (room : (buffer.appendChar unit).byteLength < arrayLimit) :
    extendUnit buffer.bytes unit = .ok (buffer.appendChar unit).bytes := by
  have stored : (buffer.appendChar unit).bytes = buffer.bytes ++ Bytes.ofUnit unit := by
    rw [Buffer.appendChar, Buffer.bytes_appendUnits, Bytes.ofUnits, List.flatMap_singleton]
  rw [Buffer.byteLength, stored, List.length_append] at room
  rw [stored]
  exact extendUnit_of_lt room

/-- Units that are there are set room aside for, cut out and stored. -/
theorem extend_part {units : List UInt16} {count : UInt64}
    (sum : stop.toNat = start.toNat + count.toNat) (inside : stop.toNat ≤ units.length)
    (room : (buffer.appendUnits ((units.drop start.toNat).take count.toNat)).byteLength <
      arrayLimit) :
    (do
      let room ← times count unitSize
      setAside buffer.bytes room
      let part ← cut units start stop
      extendUnits buffer.bytes part) =
      .ok (buffer.appendUnits ((units.drop start.toNat).take count.toNat)).bytes := by
  have part : units.extract start.toNat stop.toNat = (units.drop start.toNat).take count.toNat := by
    rw [List.extract_eq_take_drop, sum, Nat.add_sub_cancel_left]
  have many : ((units.drop start.toNat).take count.toNat).length = count.toNat := by
    rw [List.length_take, List.length_drop]
    omega
  have grown : buffer.bytes.length + 2 * count.toNat < arrayLimit := by
    rwa [Buffer.byteLength, Buffer.bytes_appendUnits, List.length_append, Bytes.length_ofUnits,
      many] at room
  have word : count.toNat * unitSize.toNat < wordLimit := by
    have := arrayLimit_lt_wordLimit
    show count.toNat * 2 < wordLimit
    omega
  obtain ⟨bytes, counted, exact⟩ := exists_times word
  have exact' : bytes.toNat = count.toNat * 2 := exact
  rw [counted, ok_bind, setAside, if_pos (by omega), ok_bind, cut_of_inside (by omega) inside,
    ok_bind, part, extendUnits_eq room]

/-- A sum that is no word is refused; one that is decides whether the units are there. -/
theorem appendPart_eq (fits : TextFits text) (start count : UInt64)
    (room : Stays (buffer.appendPart text start.toNat count.toNat)) :
    appendPart buffer.bytes text start count =
      told ((buffer.appendPart text start.toNat count.toNat).map Buffer.bytes) := by
  have short := length_encode_lt fits
  rw [appendPart, collect_of_fits fits, ok_bind]
  by_cases word : start.toNat + count.toNat < wordLimit
  · obtain ⟨stop, summed, sum⟩ := exists_plusOr word .textRangeOverflow
    have behind_iff : len (Utf16.encode text) < stop ↔
        (Utf16.encode text).length < start.toNat + count.toNat := by
      rw [len_lt_iff short, sum]
    simp only [Buffer.appendPart, if_neg (Nat.not_le.mpr word)] at room ⊢
    rw [summed, ok_bind]
    by_cases behind : (Utf16.encode text).length < start.toNat + count.toNat
    · rw [if_pos (behind_iff.mpr behind), if_pos behind, sum, toNat_len short]
      rfl
    · rw [if_neg behind] at room ⊢
      rw [if_neg (mt behind_iff.mp behind), extend_part sum (by omega) (room _ rfl)]
      rfl
  · rw [plusOr_of_le (Nat.le_of_not_lt word), Buffer.appendPart, if_pos (Nat.le_of_not_lt word)]
    rfl

section
variable (short : buffer.byteLength < arrayLimit) (index : UInt64)
include short

/-- Units are put in where there is a unit or the end, and refused behind it. -/
theorem putIn_units {units : List UInt16}
    (room : Stays (buffer.insertUnits index.toNat units)) :
    (insertionOffset buffer.bytes index >>= fun offset =>
        putIn buffer.bytes offset offset (Bytes.ofUnits units)) =
      told ((buffer.insertUnits index.toNat units).map Buffer.bytes) := by
  by_cases inside : index.toNat ≤ buffer.length
  · obtain ⟨offset, counted, exact⟩ := exists_insertionOffset short inside
    have stored : offset.toNat ≤ buffer.bytes.length := by
      have := buffer.two_mul_length
      simp only [Buffer.byteLength] at this
      omega
    rw [Buffer.insertUnits, dif_pos inside] at room ⊢
    have room : (buffer.bytes.insert (2 * index.toNat) (Bytes.ofUnits units)).length < arrayLimit :=
      room _ rfl
    rw [← exact, Bytes.length_insert stored] at room
    rw [counted, ok_bind, putIn_of_le stored room, exact]
    rfl
  · rw [insertionOffset_of_not_le short inside, Buffer.insertUnits, dif_neg inside]
    rfl

theorem insertChar_eq (unit : UInt16) (room : Stays (buffer.insertChar index.toNat unit)) :
    insertChar buffer.bytes index unit =
      told ((buffer.insertChar index.toNat unit).map Buffer.bytes) :=
  putIn_units short index room

theorem insert_eq (fits : TextFits text) (roomy : RoomFits text)
    (room : Stays (buffer.insert index.toNat text)) :
    insert buffer.bytes index text =
      told ((buffer.insert index.toNat text).map Buffer.bytes) := by
  simp only [insert, encode_of_fits fits roomy, ok_bind]
  exact putIn_units short index room

end

/-! ## New buffers -/

section
variable {call : Call} (fits : call.Fits) {m n : Nat}
include fits

theorem exists_word (named : call.numbers = [n]) : ∃ word : UInt64, word.toNat = n :=
  ⟨.ofNat n, toNat_ofNat (fits.numbers n (by simp [named]))⟩

theorem exists_words (named : call.numbers = [m, n]) :
    (∃ word : UInt64, word.toNat = m) ∧ ∃ word : UInt64, word.toNat = n :=
  ⟨⟨.ofNat m, toNat_ofNat (fits.numbers m (by simp [named]))⟩,
    .ofNat n, toNat_ofNat (fits.numbers n (by simp [named]))⟩

end

theorem edit_eq {edited : Except Fault Buffer} {done : Run Bytes}
    (does : done = told (edited.map Buffer.bytes)) :
    edit done = told ((Call.edit edited).map (Prod.map id Buffer.bytes)) := by
  rw [does]
  cases edited <;> rfl

theorem stays_of_edit {edited : Except Fault Buffer}
    (room : ∀ done, Call.edit edited = .ok done → done.2.byteLength < arrayLimit) :
    Stays edited := by
  rintro after rfl
  exact room _ rfl

theorem slice_eq {cut : Except Fault Buffer} {done : Run Bytes}
    (does : done = told (cut.map Buffer.bytes)) :
    (done.map fun bytes => (Answer.text (toText bytes), buffer.bytes)) =
      told (((cut.map Buffer.toText).map fun text => (Answer.text text, buffer)).map
        (Prod.map id Buffer.bytes)) := by
  rw [does]
  cases cut <;> rfl

theorem ask_eq {read : Except Fault α} {done : Run α} (does : done = told read)
    (answer : α → Answer) :
    (done.map fun a => (answer a, buffer.bytes)) =
      told ((read.map fun a => (answer a, buffer)).map (Prod.map id Buffer.bytes)) := by
  rw [does]
  cases read <;> rfl

theorem toText?_eq : toText? buffer.bytes = told buffer.toText? := by
  rw [toText?, Buffer.toText?, Buffer.units]
  cases Utf16.decode? buffer.bytes.toUnits <;> rfl

/-- A call whose numbers are words does with them what it does with exact numbers, if it
leaves a buffer that is an array. -/
theorem run_eq (short : buffer.byteLength < arrayLimit) {call : Call} (fits : call.Fits)
    (roomy : call.HasRoom)
    (room : ∀ done, call.run buffer = .ok done → done.2.byteLength < arrayLimit) :
    run buffer.bytes call = told ((call.run buffer).map (Prod.map id Buffer.bytes)) := by
  cases call with
  | length =>
    rw [run, toNat_length short]
    rfl
  | byteLength =>
    rw [run, toNat_byteLength short]
    rfl
  | isEmpty | bytes | units | toText => rfl
  | toText? => exact ask_eq toText?_eq Answer.text
  | byteAt index =>
    obtain ⟨index, rfl⟩ := exists_word fits rfl
    rw [run, UInt64.ofNat_toNat]
    exact ask_eq (byteAt_eq short index) (Answer.number ·.toNat)
  | charAt index =>
    obtain ⟨index, rfl⟩ := exists_word fits rfl
    rw [run, UInt64.ofNat_toNat]
    exact ask_eq (charAt_eq short index) (Answer.number ·.toNat)
  | setByteAt index byte =>
    obtain ⟨index, rfl⟩ := exists_word fits rfl
    rw [run, UInt64.ofNat_toNat]
    exact edit_eq (setByteAt_eq short index byte)
  | setCharAt index unit =>
    obtain ⟨index, rfl⟩ := exists_word fits rfl
    rw [run, UInt64.ofNat_toNat]
    exact edit_eq (setCharAt_eq short index unit)
  | insertChar index unit =>
    obtain ⟨index, rfl⟩ := exists_word fits rfl
    rw [run, UInt64.ofNat_toNat]
    exact edit_eq (insertChar_eq short index unit (stays_of_edit room))
  | append text => exact edit_eq (extendUnits_eq (stays_of_edit room _ rfl))
  | appendPart text start count =>
    obtain ⟨⟨start, rfl⟩, count, rfl⟩ := exists_words fits rfl
    rw [run, UInt64.ofNat_toNat, UInt64.ofNat_toNat]
    exact edit_eq (appendPart_eq (fits.text text rfl) start count (stays_of_edit room))
  | appendChar unit => exact edit_eq (extendUnit_eq (stays_of_edit room _ rfl))
  | insert index text =>
    obtain ⟨index, rfl⟩ := exists_word fits rfl
    rw [run, UInt64.ofNat_toNat]
    exact edit_eq (insert_eq short index (fits.text text rfl) (roomy text rfl) (stays_of_edit room))
  | deleteChars first last =>
    obtain ⟨⟨first, rfl⟩, last, rfl⟩ := exists_words fits rfl
    rw [run, UInt64.ofNat_toNat, UInt64.ofNat_toNat]
    exact edit_eq (deleteChars_eq short first last)
  | deleteBytes first last =>
    obtain ⟨⟨first, rfl⟩, last, rfl⟩ := exists_words fits rfl
    rw [run, UInt64.ofNat_toNat, UInt64.ofNat_toNat]
    exact edit_eq (deleteBytes_eq short first last)
  | replaceChars first last text =>
    obtain ⟨⟨first, rfl⟩, last, rfl⟩ := exists_words fits rfl
    rw [run, UInt64.ofNat_toNat, UInt64.ofNat_toNat]
    exact edit_eq (replaceChars_eq short first last (fits.text text rfl) (roomy text rfl)
      (stays_of_edit room))
  | replaceBytes first last text =>
    obtain ⟨⟨first, rfl⟩, last, rfl⟩ := exists_words fits rfl
    rw [run, UInt64.ofNat_toNat, UInt64.ofNat_toNat]
    exact edit_eq (replaceBytes_eq short first last (fits.text text rfl) (roomy text rfl)
      (stays_of_edit room))
  | sliceChars first last =>
    obtain ⟨⟨first, rfl⟩, last, rfl⟩ := exists_words fits rfl
    rw [run, UInt64.ofNat_toNat, UInt64.ofNat_toNat]
    exact slice_eq (substringChars_eq short first last)
  | sliceBytes first last =>
    obtain ⟨⟨first, rfl⟩, last, rfl⟩ := exists_words fits rfl
    rw [run, UInt64.ofNat_toNat, UInt64.ofNat_toNat]
    exact slice_eq (substringBytes_eq short first last)

/-! ## Texts that are too long to be set room aside for -/

/-- Every buffer that a list of calls leaves on its way is an array. -/
def Within (b : Buffer) (calls : List Call) : Prop :=
  ∀ n, (b.runAll (calls.take n)).byteLength < arrayLimit

/-- Calls one after another leave what they do with exact numbers, and none stops. -/
theorem runAll_eq {calls : List Call} (fits : ∀ call ∈ calls, call.Fits ∧ call.HasRoom)
    (within : Within buffer calls) :
    runAll buffer.bytes calls = .ok (buffer.runAll calls).bytes := by
  induction calls generalizing buffer with
  | nil => rfl
  | cons call calls ih =>
    have short : buffer.byteLength < arrayLimit := within 0
    have later : ∀ n, (buffer.runAll (call :: calls.take n)).byteLength < arrayLimit :=
      fun n => within (n + 1)
    have room : ∀ done, call.run buffer = .ok done → done.2.byteLength < arrayLimit := by
      intro done ran
      have next := later 0
      rwa [Buffer.runAll, ran] at next
    have rest : ∀ call ∈ calls, call.Fits ∧ call.HasRoom :=
      fun call among => fits call (.tail _ among)
    obtain ⟨named, roomy⟩ := fits call (.head _)
    rw [runAll, run_eq short named roomy room]
    simp only [Buffer.runAll] at later ⊢
    cases ran : call.run buffer with
    | error fault =>
      rw [ran] at later
      exact ih rest later
    | ok done =>
      rw [ran] at later
      exact ih rest later

end HostParsing.Words
