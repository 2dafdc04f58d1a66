import HostParsing.Proofs.Buffer.Replacement
import HostParsing.Proofs.Words.Operations
/-!
# Checked offsets and ranges

What lets an operation on words go on: a buffer is an array, shorter than half of what a
word can tell, so an index that was checked can be doubled (`exists_timesUnitSize`). Offsets
and ranges are checked on words as they are in exact numbers. `charRange_bind` and
`byteRange_bind` say so of whatever is done next with the range, given its `Span`; and with
the bounds of a span nothing stops that is cut out, removed or replaced. The three ways to
write over a part that may grow or shrink are in `spliceEncoded_of_inside`.
-/

namespace HostParsing.Words

open Buffer (RoomFits TextFits)

variable {α : Type} {buffer : Buffer} {first last index start stop : UInt64} {text : String}

/-! ## Texts -/

theorem length_ofText_lt (fits : TextFits text) : (Bytes.ofText text).length < arrayLimit := by
  simp only [TextFits] at fits
  simp only [Bytes.length_ofText, arrayLimit]
  omega

/-- A text is an array itself, so twice its length is a word. -/
theorem exists_room (short : text.utf8ByteSize < arrayLimit) :
    ∃ room, times (.ofNat text.utf8ByteSize) unitSize = .ok room ∧
      room.toNat = 2 * text.utf8ByteSize := by
  have counted : (UInt64.ofNat text.utf8ByteSize).toNat = text.utf8ByteSize :=
    toNat_ofNat (Nat.lt_trans short arrayLimit_lt_wordLimit)
  have word : (UInt64.ofNat text.utf8ByteSize).toNat * unitSize.toNat < wordLimit := by
    have double : 2 * arrayLimit = wordLimit := rfl
    rw [counted]
    show text.utf8ByteSize * 2 < wordLimit
    omega
  obtain ⟨room, made, exact⟩ := exists_times word
  rw [counted] at exact
  exact ⟨room, made, exact.trans (Nat.mul_comm ..)⟩

theorem encode_of_fits (fits : TextFits text) (roomy : RoomFits text) :
    encode text = .ok (Bytes.ofText text) := by
  simp only [RoomFits] at roomy
  have array : text.utf8ByteSize < arrayLimit := by
    simp only [arrayLimit]
    omega
  obtain ⟨room, made, exact⟩ := exists_room array
  have aside : setAside [] room = .ok () := by
    refine if_pos ?_
    simp only [List.length_nil, exact, arrayLimit]
    omega
  have short : ([] : Bytes).length + 2 * (Utf16.encode text).length < arrayLimit := by
    rw [List.length_nil, Nat.zero_add, ← Bytes.length_ofText]
    exact length_ofText_lt fits
  rw [encode, made, ok_bind, aside, ok_bind]
  exact (extendUnits_of_lt short).trans (congrArg Except.ok (List.nil_append _))

theorem collect_of_fits (fits : TextFits text) : collect text = .ok (Utf16.encode text) :=
  if_pos (by rw [← Bytes.length_ofText]; exact length_ofText_lt fits)

theorem length_encode_lt (fits : TextFits text) : (Utf16.encode text).length < arrayLimit := by
  have := length_ofText_lt fits
  rw [Bytes.length_ofText] at this
  omega

/-! ## Checks -/

theorem toNat_byteLength (short : buffer.byteLength < arrayLimit) :
    (len buffer.bytes).toNat = buffer.byteLength :=
  toNat_len short

theorem toNat_length (short : buffer.byteLength < arrayLimit) :
    (length buffer.bytes).toNat = buffer.length := by
  rw [length, UInt64.toNat_div, toNat_len short]
  rfl

theorem exists_timesUnitSize (short : buffer.byteLength < arrayLimit)
    (inside : index.toNat ≤ buffer.length) :
    ∃ offset, times index unitSize = .ok offset ∧ offset.toNat = 2 * index.toNat := by
  have word : index.toNat * unitSize.toNat < wordLimit := by
    have := buffer.two_mul_length
    have := arrayLimit_lt_wordLimit
    show index.toNat * 2 < wordLimit
    omega
  obtain ⟨offset, counted, exact⟩ := exists_times word
  exact ⟨offset, counted, exact.trans (Nat.mul_comm ..)⟩

theorem exists_charOffset (short : buffer.byteLength < arrayLimit)
    (inside : index.toNat < buffer.length) :
    ∃ offset, charOffset buffer.bytes index = .ok offset ∧ offset.toNat = 2 * index.toNat := by
  have before : ¬ length buffer.bytes ≤ index := by
    rw [UInt64.le_iff_toNat_le, toNat_length short]
    omega
  rw [charOffset, if_neg before]
  exact exists_timesUnitSize short (Nat.le_of_lt inside)

theorem charOffset_of_not_lt (short : buffer.byteLength < arrayLimit)
    (outside : ¬ index.toNat < buffer.length) :
    charOffset buffer.bytes index =
      refuse (.outOfBounds .buffer index.toNat buffer.length) := by
  have behind : length buffer.bytes ≤ index := by
    rw [UInt64.le_iff_toNat_le, toNat_length short]
    omega
  rw [charOffset, if_pos behind, toNat_length short]

theorem exists_insertionOffset (short : buffer.byteLength < arrayLimit)
    (inside : index.toNat ≤ buffer.length) :
    ∃ offset, insertionOffset buffer.bytes index = .ok offset ∧ offset.toNat = 2 * index.toNat := by
  have before : ¬ length buffer.bytes < index := by
    rw [UInt64.lt_iff_toNat_lt, toNat_length short]
    omega
  rw [insertionOffset, if_neg before]
  exact exists_timesUnitSize short inside

theorem insertionOffset_of_not_le (short : buffer.byteLength < arrayLimit)
    (outside : ¬ index.toNat ≤ buffer.length) :
    insertionOffset buffer.bytes index =
      refuse (.outOfBounds .buffer index.toNat buffer.length) := by
  have behind : length buffer.bytes < index := by
    rw [UInt64.lt_iff_toNat_lt, toNat_length short]
    omega
  rw [insertionOffset, if_pos behind, toNat_length short]

theorem checkRange_eq (first last length : UInt64) (extent : Extent) :
    checkRange first last length extent =
      if first.toNat ≤ last.toNat then
        if last.toNat ≤ length.toNat then .ok ()
        else refuse (.outOfBounds extent last.toNat length.toNat)
      else refuse (.invertedRange first.toNat last.toNat) := by
  simp only [checkRange, UInt64.lt_iff_toNat_lt, ← Nat.not_le, ite_not]

/-- A range of units is refused as it is in exact numbers, and otherwise has the bounds of
the exact range. -/
theorem charRange_bind_run (short : buffer.byteLength < arrayLimit)
    {f : Span buffer.byteLength → Run α} {next : UInt64 × UInt64 → Run α}
    (does : ∀ (s : Span buffer.byteLength) (start stop : UInt64),
      buffer.charSpan first.toNat last.toNat = .ok s → start.toNat = s.first →
      stop.toNat = s.last → next (start, stop) = f s) :
    (charRange buffer.bytes first last >>= next) =
      (told (buffer.charSpan first.toNat last.toNat) >>= f) := by
  rw [charRange, checkRange_eq, toNat_length short]
  by_cases order : first.toNat ≤ last.toNat
  · by_cases inside : last.toNat ≤ buffer.length
    · obtain ⟨start, counted, exact⟩ := exists_timesUnitSize short (Nat.le_trans order inside)
      obtain ⟨stop, counted', exact'⟩ := exists_timesUnitSize short inside
      obtain ⟨s, given, bound, bound'⟩ := Buffer.exists_charSpan order inside
      rw [if_pos order, if_pos inside, ok_bind, counted, ok_bind, counted', given]
      exact does s start stop given (exact.trans bound.symm) (exact'.trans bound'.symm)
    · rw [if_pos order, if_neg inside, Buffer.charSpan, dif_pos order, dif_neg inside]
      rfl
  · rw [if_neg order, Buffer.charSpan, dif_neg order]
    rfl

/-- The same of a range of bytes. -/
theorem byteRange_bind_run (short : buffer.byteLength < arrayLimit)
    {f : Span buffer.byteLength → Run α} {next : UInt64 × UInt64 → Run α}
    (does : ∀ (s : Span buffer.byteLength) (start stop : UInt64),
      buffer.byteSpan first.toNat last.toNat = .ok s → start.toNat = s.first →
      stop.toNat = s.last → next (start, stop) = f s) :
    (byteRange buffer.bytes first last >>= next) =
      (told (buffer.byteSpan first.toNat last.toNat) >>= f) := by
  rw [byteRange, checkRange_eq, toNat_byteLength short]
  by_cases order : first.toNat ≤ last.toNat
  · by_cases inside : last.toNat ≤ buffer.byteLength
    · obtain ⟨count, counted, exact⟩ := exists_minus order
      have whole : count % unitSize = 0 ↔ (last.toNat - first.toNat) % 2 = 0 := by
        rw [← UInt64.toNat_inj, UInt64.toNat_mod, exact]
        rfl
      rw [if_pos order, if_pos inside, ok_bind, counted, ok_bind]
      by_cases even : (last.toNat - first.toNat) % 2 = 0
      · obtain ⟨s, given, bound, bound'⟩ := Buffer.exists_byteSpan order inside even
        rw [if_pos (whole.mpr even), given]
        exact does s first last given bound.symm bound'.symm
      · rw [if_neg (mt whole.mp even), Buffer.byteSpan, dif_pos order, dif_pos inside, dif_neg even]
        rfl
    · rw [if_pos order, if_neg inside, Buffer.byteSpan, dif_pos order, dif_neg inside]
      rfl
  · rw [if_neg order, Buffer.byteSpan, dif_neg order]
    rfl

theorem told_bind_ok {β : Type} (given : Except Fault β) (f : β → α) :
    (told given >>= fun b => .ok (f b)) = told (given.map f) := by
  cases given <;> rfl

/-- What is done with a range of units is done with the exact range. -/
theorem charRange_bind (short : buffer.byteLength < arrayLimit)
    {f : Span buffer.byteLength → α} {next : UInt64 × UInt64 → Run α}
    (does : ∀ (s : Span buffer.byteLength) (start stop : UInt64),
      buffer.charSpan first.toNat last.toNat = .ok s → start.toNat = s.first →
      stop.toNat = s.last → next (start, stop) = .ok (f s)) :
    (charRange buffer.bytes first last >>= next) =
      told ((buffer.charSpan first.toNat last.toNat).map f) :=
  (charRange_bind_run short does).trans (told_bind_ok _ f)

theorem byteRange_bind (short : buffer.byteLength < arrayLimit)
    {f : Span buffer.byteLength → α} {next : UInt64 × UInt64 → Run α}
    (does : ∀ (s : Span buffer.byteLength) (start stop : UInt64),
      buffer.byteSpan first.toNat last.toNat = .ok s → start.toNat = s.first →
      stop.toNat = s.last → next (start, stop) = .ok (f s)) :
    (byteRange buffer.bytes first last >>= next) =
      told ((buffer.byteSpan first.toNat last.toNat).map f) :=
  (byteRange_bind_run short does).trans (told_bind_ok _ f)

/-! ## Ranges -/

/-- Writing over a part that may grow or shrink does not stop, whichever it does. -/
theorem spliceEncoded_of_inside {bytes new : Bytes} (order : start.toNat ≤ stop.toNat)
    (inside : stop.toNat ≤ bytes.length) (short : bytes.length < arrayLimit)
    (short' : new.length < arrayLimit)
    (room : (bytes.replace start.toNat stop.toNat new).length < arrayLimit) :
    spliceEncoded bytes start stop new = .ok (bytes.replace start.toNat stop.toNat new) := by
  obtain ⟨removed, counted, exact⟩ := exists_minus order
  rw [Bytes.length_replace order inside] at room
  rw [spliceEncoded, counted, ok_bind, Bytes.replace, ← exact]
  rcases Nat.lt_trichotomy new.length removed.toNat with shorter | fits | longer
  · have word : start.toNat + (len new).toNat < wordLimit := by
      have := arrayLimit_lt_wordLimit
      rw [toNat_len short']
      omega
    obtain ⟨kept, summed, exact'⟩ := exists_plus word
    rw [toNat_len short'] at exact'
    have written : (bytes.overwrite start.toNat new).length = bytes.length :=
      Bytes.length_overwrite (by omega)
    rw [if_neg (mt (len_eq_iff short').mp (by omega)), if_neg (mt (lt_len_iff short').mp (by omega)),
      summed, ok_bind, copyOver_of_inside (by omega) exact', ok_bind,
      takeOut_of_inside (by omega) (by omega), exact', if_neg (by omega), if_neg (by omega)]
  · rw [if_pos ((len_eq_iff short').mpr fits), if_pos fits, copyOver_of_inside inside (by omega)]
  · have fitting : (new.take removed.toNat).length = removed.toNat :=
      List.length_take_of_le (Nat.le_of_lt longer)
    have written : (bytes.overwrite start.toNat (new.take removed.toNat)).length = bytes.length :=
      Bytes.length_overwrite (by omega)
    rw [if_neg (mt (len_eq_iff short').mp (by omega)), if_pos ((lt_len_iff short').mpr longer),
      cut_front (Nat.le_of_lt longer), ok_bind, copyOver_of_inside inside (by omega), ok_bind,
      cut_rest short' (Nat.le_of_lt longer), ok_bind,
      putIn_of_le (by omega) (by rw [List.length_drop]; omega), if_neg (by omega), if_pos longer]

section
variable {s : Span buffer.byteLength} (bound : start.toNat = s.first) (bound' : stop.toNat = s.last)
include bound bound'

theorem takeOut_span : takeOut buffer.bytes start stop = .ok (buffer.delete s).bytes := by
  have order : start.toNat ≤ stop.toNat := by rw [bound, bound']; exact s.first_le_last
  have inside : stop.toNat ≤ buffer.bytes.length := by rw [bound']; exact s.last_le
  rw [takeOut_of_inside order inside, bound, bound', Buffer.bytes_delete]

theorem cut_span : cut buffer.bytes start stop = .ok (buffer.slice s).bytes := by
  have order : start.toNat ≤ stop.toNat := by rw [bound, bound']; exact s.first_le_last
  have inside : stop.toNat ≤ buffer.bytes.length := by rw [bound']; exact s.last_le
  rw [cut_of_inside order inside, bound, bound', Buffer.bytes_slice, Bytes.slice_eq_extract]

theorem spliceEncoded_span (short : buffer.byteLength < arrayLimit) (fits : TextFits text)
    (roomy : RoomFits text) (room : (buffer.replace s text).byteLength < arrayLimit) :
    (encode text >>= fun encoded => spliceEncoded buffer.bytes start stop encoded) =
      .ok (buffer.replace s text).bytes := by
  have order : start.toNat ≤ stop.toNat := by rw [bound, bound']; exact s.first_le_last
  have inside : stop.toNat ≤ buffer.bytes.length := by rw [bound']; exact s.last_le
  rw [encode_of_fits fits roomy, ok_bind,
    spliceEncoded_of_inside order inside short (length_ofText_lt fits) (by rwa [bound, bound']),
    bound, bound', Buffer.bytes_replace]

end

end HostParsing.Words
