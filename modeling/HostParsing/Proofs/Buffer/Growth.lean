import HostParsing.Proofs.Buffer.Refinement
/-!
# Ways to grow a buffer

A text can be appended as a whole, in parts, unit by unit, or be inserted at the end; it
can be inserted anywhere as a whole or unit by unit. Each way encodes and places the
units by itself, and all of them leave the same buffer (`growth_agrees`). That calls are
answered, one after the other, is told by `runEach`; what they leave is read off the
plain list (`runEach_cons_of_plain`).
-/

namespace HostParsing

/-- What is put in behind something that was put in stands right behind it. -/
theorem splice_next {α : Type} {list : List α} {index : Nat} (inside : index ≤ list.length)
    (a : α) (new : List α) :
    splice (splice list index index [a]) (index + 1) (index + 1) new =
      splice list index index (a :: new) := by
  have length : (list.take index ++ [a]).length = index + 1 := by
    rw [List.length_append, List.length_take_of_le inside, List.length_singleton]
  have front : (splice list index index [a]).take (index + 1) = list.take index ++ [a] :=
    List.take_left' length
  have back : (splice list index index [a]).drop (index + 1) = list.drop index :=
    List.drop_left' length
  rw [splice, front, back, splice, List.append_assoc (list.take index), List.singleton_append]

theorem splice_length {α : Type} (list new : List α) :
    splice list list.length list.length new = list ++ new := by
  rw [splice, List.take_length, List.drop_length, List.append_nil]

namespace Buffer

variable {units new met : List UInt16} {text : String} {index : Nat}

/-- The buffer after a list of calls, if every one of them is answered; the first one that
is not refuses the list. -/
def runEach (b : Buffer) : List Call → Except Fault Buffer
  | [] => .ok b
  | call :: calls => (call.run b).bind fun (_, after) => runEach after calls

/-! ## Calls that are answered -/

theorem run_of_plain {call : Call} {answer : Answer}
    (plain : Plain.run units call = some (answer, met)) :
    call.run (ofUnits units) = .ok (answer, ofUnits met) := by
  have ran := run_ofUnits units call
  rw [plain] at ran
  exact eq_ok_of_toOption ran

/-- A call that is answered on the plain list is one step of a run. -/
theorem runEach_cons_of_plain {call : Call} {answer : Answer}
    (plain : Plain.run units call = some (answer, met)) (calls : List Call) :
    (ofUnits units).runEach (call :: calls) = (ofUnits met).runEach calls := by
  rw [runEach, run_of_plain plain]
  rfl

theorem runEach_singleton_of_plain {call : Call} {answer : Answer}
    (plain : Plain.run units call = some (answer, met)) :
    (ofUnits units).runEach [call] = .ok (ofUnits met) :=
  runEach_cons_of_plain plain []

theorem plain_edit {allowed : Prop} [Decidable allowed] (given : allowed)
    (after : List UInt16) : Plain.edit allowed after = some (.done, after) :=
  if_pos given

theorem plain_appendPart {start count : Nat} (inside : start + count ≤ (Utf16.encode text).length)
    (word : start + count < wordLimit) : Plain.run units (.appendPart text start count) =
      some (.done, units ++ (Utf16.encode text).extract start (start + count)) :=
  plain_edit ⟨inside, word⟩ _

theorem plain_insert (inside : index ≤ units.length) (text : String) :
    Plain.run units (.insert index text) =
      some (.done, splice units index index (Utf16.encode text)) :=
  plain_edit inside _

/-! ## Unit by unit -/

theorem runEach_appendChars (units new : List UInt16) :
    (ofUnits units).runEach (new.map .appendChar) = .ok (ofUnits (units ++ new)) := by
  induction new generalizing units with
  | nil =>
    rw [List.append_nil]
    rfl
  | cons unit new ih =>
    have first : Plain.run units (.appendChar unit) = some (.done, units ++ [unit]) :=
      plain_edit trivial _
    rw [List.map_cons, runEach_cons_of_plain first, ih, List.append_assoc, List.singleton_append]

/-- Units that are put in one by one, each right behind the last, stand there as if they
had been put in together. -/
theorem runEach_insertChars (inside : index ≤ units.length) (new : List UInt16) :
    (ofUnits units).runEach (new.mapIdx fun i unit => .insertChar (index + i) unit) =
      .ok (ofUnits (splice units index index new)) := by
  induction new generalizing units index with
  | nil =>
    rw [splice, List.append_nil, List.take_append_drop]
    rfl
  | cons unit new ih =>
    have first : Plain.run units (.insertChar index unit) =
        some (.done, splice units index index [unit]) := plain_edit inside _
    have room : index + 1 ≤ (splice units index index [unit]).length := by
      simp only [splice, List.length_append, List.length_take, List.length_drop,
        List.length_singleton]
      omega
    have shifted : (fun i unit => Call.insertChar (index + (i + 1)) unit) =
        fun i unit => .insertChar (index + 1 + i) unit := by
      funext i unit
      rw [Nat.add_assoc, Nat.add_comm 1 i]
    rw [List.mapIdx_cons, Nat.add_zero, runEach_cons_of_plain first, shifted, ih room,
      splice_next inside]

/-! ## In parts -/

theorem runEach_appendParts {start count more : Nat}
    (inside : start + count + more ≤ (Utf16.encode text).length)
    (word : start + count + more < wordLimit) :
    (ofUnits units).runEach [.appendPart text start count, .appendPart text (start + count) more] =
      .ok (ofUnits (units ++ (Utf16.encode text).extract start (start + count + more))) := by
  rw [runEach_cons_of_plain (plain_appendPart (by omega) (by omega)),
    runEach_singleton_of_plain (plain_appendPart inside word), List.append_assoc,
    extract_append_extract (by omega) (by omega)]

/-- All ways to grow a buffer agree. Appending a text, appending all of it as a part,
inserting it at the end and appending its units one by one leave the same buffer. A part
that is appended in two pieces is the part, wherever it is cut, between the halves of a
surrogate pair too. Inserting a text anywhere leaves what inserting its units one after
the other does. All these calls are answered, as long as the end of a part is a number
that fits into a word. -/
theorem growth_agrees (b : Buffer) (text : String) :
    let new := Utf16.encode text
    (∃ after, after.units = b.units ++ new ∧
      b.runEach [.append text] = .ok after ∧
      (new.length < wordLimit → b.runEach [.appendPart text 0 new.length] = .ok after) ∧
      b.runEach [.insert b.length text] = .ok after ∧
      b.runEach (new.map .appendChar) = .ok after) ∧
    (∀ start count more : Nat, start + count + more ≤ new.length →
      start + count + more < wordLimit →
      ∃ after, after.units = b.units ++ new.extract start (start + count + more) ∧
        b.runEach [.appendPart text start count, .appendPart text (start + count) more] =
          .ok after ∧
        b.runEach [.appendPart text start (count + more)] = .ok after) ∧
    ∀ index : Nat, index ≤ b.length →
      ∃ after, after.units = splice b.units index index new ∧
        b.runEach [.insert index text] = .ok after ∧
        b.runEach (new.mapIdx fun i unit => .insertChar (index + i) unit) = .ok after := by
  intro new
  obtain ⟨units, rfl⟩ : ∃ units, b = ofUnits units := ⟨b.units, (ofUnits_units b).symm⟩
  simp only [units_ofUnits, length_ofUnits]
  refine ⟨⟨ofUnits (units ++ new), units_ofUnits _, ?_, fun word => ?_, ?_, ?_⟩, ?_, ?_⟩
  · exact runEach_singleton_of_plain (plain_edit trivial _)
  · have whole : new.extract 0 (0 + new.length) = new := by
      rw [List.extract_eq_take_drop, List.drop_zero, Nat.add_sub_cancel_left, List.take_length]
    have part : Plain.run units (.appendPart text 0 new.length) =
        some (.done, units ++ new.extract 0 (0 + new.length)) :=
      plain_appendPart (show 0 + new.length ≤ new.length by omega) (by omega)
    rw [whole] at part
    exact runEach_singleton_of_plain part
  · have inserted := plain_insert (Nat.le_refl units.length) text
    rw [splice_length] at inserted
    exact runEach_singleton_of_plain inserted
  · exact runEach_appendChars units new
  · intro start count more inside word
    have whole : Plain.run units (.appendPart text start (count + more)) =
        some (.done, units ++ new.extract start (start + (count + more))) :=
      plain_appendPart (show start + (count + more) ≤ new.length by omega) (by omega)
    rw [← Nat.add_assoc] at whole
    exact ⟨_, units_ofUnits _, runEach_appendParts inside word, runEach_singleton_of_plain whole⟩
  · intro index inside
    exact ⟨_, units_ofUnits _, runEach_singleton_of_plain (plain_insert inside text),
      runEach_insertChars inside new⟩

/-- A part that is cut between the halves of its pair, and a pair that is put in between
two units. -/
theorem growth_agrees_within_pair :
    let b := ofText "ab"
    (∃ after, b.runEach [.appendPart "é😀" 1 1, .appendPart "é😀" 2 1] = .ok after ∧
      b.runEach [.appendPart "é😀" 1 2] = .ok after ∧
      after.units = [97, 98, 0xD83D, 0xDE00]) ∧
    (∃ after, b.runEach [.insert 1 "😀"] = .ok after ∧
      b.runEach [.insertChar 1 0xD83D, .insertChar 2 0xDE00] = .ok after ∧
      after.units = [97, 0xD83D, 0xDE00, 98]) ∧
    ∃ after, b.runEach [.append "😀"] = .ok after ∧
      b.runEach [.appendPart "😀" 0 2] = .ok after := by
  intro b
  obtain ⟨-, parts, -⟩ := growth_agrees b "é😀"
  obtain ⟨⟨whole, -, appended, part, -⟩, -, inserts⟩ := growth_agrees b "😀"
  obtain ⟨after, units, pieces, both⟩ := parts 1 1 1 (by decide) (by decide)
  obtain ⟨after', units', inserted, chars⟩ := inserts 1 (by decide)
  exact ⟨⟨after, pieces, both, units.trans (by decide)⟩,
    ⟨after', inserted, chars, units'.trans (by decide)⟩, whole, appended, part (by decide)⟩

end Buffer
end HostParsing
