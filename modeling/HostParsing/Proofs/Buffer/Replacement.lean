import HostParsing.Proofs.Buffer.Refinement
/-!
# Replacing is one splice

A replacement writes over what fits and then grows or shrinks the rest. Whichever way
the length changes, the bytes in front of the range, those of the text and those behind
the range are left, in this order. So a replacement is a removal and an insertion after
it, refused as the removal is, and an insertion where nothing is removed
(`replacement_splices`).
-/

namespace HostParsing

/-- What is put in where something was taken out replaces it. -/
theorem splice_splice {α : Type} {list : List α} {first : Nat} (inside : first ≤ list.length)
    (last : Nat) (new : List α) :
    splice (splice list first last []) first first new = splice list first last new := by
  have front : (list.take first ++ list.drop last).take first = list.take first :=
    List.take_left' (List.length_take_of_le inside)
  have back : (list.take first ++ list.drop last).drop first = list.drop last :=
    List.drop_left' (List.length_take_of_le inside)
  simp only [splice, List.append_nil, front, back]

namespace Buffer

variable {b : Buffer} {first last index : Nat}

theorem charSpan_eq_ok {s : Span b.byteLength} (given : b.charSpan first last = .ok s) :
    first ≤ last ∧ last ≤ b.length ∧ s.first = 2 * first ∧ s.last = 2 * last := by
  unfold charSpan at given
  split at given
  · rename_i order
    split at given
    · rename_i inside
      cases given
      exact ⟨order, inside, rfl, rfl⟩
    · cases given
  · cases given

theorem exists_charSpan (order : first ≤ last) (inside : last ≤ b.length) :
    ∃ s, b.charSpan first last = .ok s ∧ s.first = 2 * first ∧ s.last = 2 * last := by
  rw [charSpan, dif_pos order, dif_pos inside]
  exact ⟨_, rfl, rfl, rfl⟩

theorem exists_byteSpan (order : first ≤ last) (inside : last ≤ b.byteLength)
    (even : (last - first) % 2 = 0) :
    ∃ s, b.byteSpan first last = .ok s ∧ s.first = first ∧ s.last = last := by
  rw [byteSpan, dif_pos order, dif_pos inside, dif_pos even]
  exact ⟨_, rfl, rfl, rfl⟩

theorem length_delete (s : Span b.byteLength) :
    2 * (b.delete s).length = 2 * b.length - (s.last - s.first) := by
  rw [two_mul_length, two_mul_length]
  exact Bytes.length_remove s.first_le_last s.last_le

theorem length_replace (s : Span b.byteLength) (text : String) :
    2 * (b.replace s text).length =
      2 * b.length - (s.last - s.first) + 2 * (Utf16.encode text).length := by
  rw [two_mul_length, two_mul_length, ← Bytes.length_ofText]
  exact Bytes.length_replace s.first_le_last s.last_le _

/-- An insertion inside a buffer is a splice of its bytes. -/
theorem insert_of_le (inside : index ≤ b.length) (text : String) :
    ∃ after, b.insert index text = .ok after ∧
      after.bytes = splice b.bytes (2 * index) (2 * index) (Bytes.ofText text) := by
  unfold insert insertUnits
  rw [dif_pos inside]
  exact ⟨_, rfl, rfl⟩

/-- A replacement is a removal and an insertion in its place. -/
theorem replaceChars_eq_insert_of_delete (b : Buffer) (first last : Nat) (text : String) :
    b.replaceChars first last text =
      (b.deleteChars first last).bind (·.insert first text) := by
  unfold replaceChars deleteChars
  cases given : b.charSpan first last with
  | error fault => rfl
  | ok s =>
    obtain ⟨order, inside, start, stop⟩ := charSpan_eq_ok given
    have room : first ≤ (b.delete s).length := by
      have := length_delete s
      omega
    have stored : 2 * first ≤ b.bytes.length := by
      have := b.two_mul_length
      simp only [byteLength] at this
      omega
    obtain ⟨after, inserted, bytes⟩ := insert_of_le room text
    show Except.ok (b.replace s text) = (b.delete s).insert first text
    rw [inserted]
    refine congrArg Except.ok (eq_of_bytes ?_)
    rw [bytes, bytes_replace_eq_splice, bytes_delete_eq_splice, start, stop,
      splice_splice stored]

/-- Where nothing is removed, a replacement is an insertion. -/
theorem replaceChars_self (b : Buffer) (index : Nat) (text : String) :
    b.replaceChars index index text = b.insert index text := by
  by_cases inside : index ≤ b.length
  · obtain ⟨s, given, start, stop⟩ := exists_charSpan (Nat.le_refl index) inside
    obtain ⟨after, inserted, bytes⟩ := insert_of_le inside text
    rw [replaceChars, given, inserted]
    refine congrArg Except.ok (eq_of_bytes ?_)
    rw [bytes, bytes_replace_eq_splice, start, stop]
  · rw [replaceChars, charSpan, dif_pos (Nat.le_refl index), dif_neg inside, insert, insertUnits,
      dif_neg inside]
    rfl

/-! ## Calls -/

theorem run_replaceChars (b : Buffer) (first last : Nat) (text : String) :
    (Call.replaceChars first last text).run b =
      ((Call.deleteChars first last).run b).bind fun (_, met) =>
        (Call.insert first text).run met := by
  simp only [Call.run, replaceChars_eq_insert_of_delete]
  cases b.deleteChars first last with
  | error fault => rfl
  | ok met => rfl

/-- What a replacement of units leaves. -/
theorem run_replaceChars_of_range (order : first ≤ last) (inside : last ≤ b.length)
    (text : String) :
    ∃ after, (Call.replaceChars first last text).run b = .ok (.done, after) ∧
      after.bytes = b.bytes.take (2 * first) ++ Bytes.ofText text ++ b.bytes.drop (2 * last) ∧
      after.length = b.length - (last - first) + (Utf16.encode text).length := by
  obtain ⟨s, given, start, stop⟩ := exists_charSpan order inside
  have bytes := bytes_replace_eq_splice s text
  have length := length_replace s text
  rw [start, stop] at bytes length
  refine ⟨b.replace s text, ?_, bytes, by omega⟩
  simp only [Call.run, replaceChars, given]
  rfl

/-- What a replacement of bytes leaves. -/
theorem run_replaceBytes_of_range (order : first ≤ last) (inside : last ≤ b.byteLength)
    (even : (last - first) % 2 = 0) (text : String) :
    ∃ after, (Call.replaceBytes first last text).run b = .ok (.done, after) ∧
      after.bytes = b.bytes.take first ++ Bytes.ofText text ++ b.bytes.drop last := by
  obtain ⟨s, given, start, stop⟩ := exists_byteSpan order inside even
  have bytes := bytes_replace_eq_splice s text
  rw [start, stop] at bytes
  refine ⟨b.replace s text, ?_, bytes⟩
  simp only [Call.run, replaceBytes, given]
  rfl

/-- Replacing is one splice, whichever way the length changes: any bytes that are written
over a range, put in behind it or taken out of it leave what was in front of the range,
the new bytes and what was behind it. So every replacement of a range that is there
leaves exactly that, and the length loses the units of the range and gains those of the
text. Replacing units answers and ends as deleting them and inserting the text does, with
the same fault if the range is bad, and as inserting the text does if the range is
empty. -/
theorem replacement_splices (b : Buffer) (text : String) :
    (∀ (first last : Nat) (new : Bytes), first ≤ last → last ≤ b.byteLength →
      b.bytes.replace first last new = b.bytes.take first ++ new ++ b.bytes.drop last) ∧
    (∀ first last : Nat, first ≤ last → last ≤ b.byteLength → (last - first) % 2 = 0 →
      ∃ after, (Call.replaceBytes first last text).run b = .ok (.done, after) ∧
        after.bytes = b.bytes.take first ++ Bytes.ofText text ++ b.bytes.drop last) ∧
    (∀ first last : Nat, first ≤ last → last ≤ b.length →
      ∃ after, (Call.replaceChars first last text).run b = .ok (.done, after) ∧
        after.bytes = b.bytes.take (2 * first) ++ Bytes.ofText text ++ b.bytes.drop (2 * last) ∧
        after.length = b.length - (last - first) + (Utf16.encode text).length) ∧
    (∀ first last : Nat, (Call.replaceChars first last text).run b =
      ((Call.deleteChars first last).run b).bind fun (_, met) =>
        (Call.insert first text).run met) ∧
    ∀ index : Nat,
      (Call.replaceChars index index text).run b = (Call.insert index text).run b := by
  refine ⟨fun first last new order inside => Bytes.replace_eq_splice order inside,
    fun first last order inside even => run_replaceBytes_of_range order inside even text,
    fun first last order inside => run_replaceChars_of_range order inside text,
    fun first last => run_replaceChars b first last text, fun index => ?_⟩
  simp only [Call.run, replaceChars_self]

/-- One unit in the place of four bytes that start within a unit, and three units in the
place of two. -/
theorem replacement_splices_at_odd :
    (∃ after, (Call.replaceBytes 1 5 "é").run (ofText "abcd") = .ok (.done, after) ∧
      after.bytes = [97, 233, 0, 0, 100, 0]) ∧
    ∃ after, (Call.replaceChars 1 3 "xyz").run (ofText "abcd") = .ok (.done, after) ∧
      after.bytes = [97, 0, 120, 0, 121, 0, 122, 0, 100, 0] ∧ after.length = 5 := by
  obtain ⟨after, shrunk, bytes⟩ :=
    (replacement_splices (ofText "abcd") "é").2.1 1 5 (by decide) (by decide) (by decide)
  obtain ⟨after', grown, bytes', length⟩ :=
    (replacement_splices (ofText "abcd") "xyz").2.2.1 1 3 (by decide) (by decide)
  exact ⟨⟨after, shrunk, bytes.trans (by decide)⟩,
    ⟨after', grown, bytes'.trans (by decide), length.trans (by decide)⟩⟩

end Buffer
end HostParsing
