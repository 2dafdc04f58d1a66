import HostParsing.Proofs.Toml.Number
import HostParsing.Proofs.Toml.Quoted
import HostParsing.Toml.Format
import Mathlib.Data.List.TakeDrop
/-!
# Writing and reading lines

A text of lines, each of which gives one key its value, is read as the table of these keys
and values (`read?_lines`). What a value has to be for that is that it is read off the
front of its line as it was written (`Spells`), as numbers and quoted texts are. So the
format of this library, which writes such lines, is faithful (`faithful_format`).
-/

namespace HostParsing.Toml

variable {cs rest written : List Char} {c : Char} {value : Value} {n : Nat}

/-! ## Values -/

/-- What is written is read as a value, if the line ends after it. -/
structure Spells (written : List Char) (value : Value) : Prop where
  starts : ∃ first more, written = first :: more ∧ isBlank first = false
  read : ∀ rest, value? depthLimit (written ++ '\n' :: rest) = some (value, '\n' :: rest)

/-- What opens neither an array nor a table is no value that nests. -/
theorem value?_of_ne (array : c ≠ '[') (table : c ≠ '{') (rest : List Char) :
    value? depthLimit (c :: rest) = scalar? (c :: rest) := by
  rw [depthLimit, value?]
  · exact fun _ same => array (List.cons.inj same).1
  · exact fun _ same => table (List.cons.inj same).1

theorem spells_writeQuoted (cs : List Char) :
    Spells (writeQuoted cs) (.text (String.ofList cs)) := by
  obtain ⟨q, more, written, quote⟩ := writeQuoted_eq_cons cs
  have opens : isBlank q = false ∧ q ≠ '[' ∧ q ≠ '{' := by
    rcases quote with rfl | rfl <;> decide
  refine ⟨⟨q, more, written, opens.1⟩, fun rest => ?_⟩
  have ends : ('\n' :: rest).head? ≠ some (chooseStyle cs).quote := by
    rw [List.head?_cons]
    rcases quote_chooseStyle cs with quote | quote
    · rw [quote]
      decide
    · rw [quote]
      decide
  have read := readQuoted?_writeQuoted cs ends
  have whole : value? depthLimit (writeQuoted cs ++ '\n' :: rest) =
      scalar? (writeQuoted cs ++ '\n' :: rest) := by
    rw [written]
    exact value?_of_ne opens.2.1 opens.2.2 _
  rw [whole, scalar?, read]

theorem span_append_cons {p : Char → Bool} (all : ∀ c ∈ cs, p c = true) (stops : p c = false)
    (rest : List Char) : (cs ++ c :: rest).span p = (cs, c :: rest) := by
  rw [List.span_eq_takeWhile_dropWhile, List.takeWhile_append_of_pos all,
    List.dropWhile_append_of_pos all, List.takeWhile_cons_of_neg (Bool.eq_false_iff.mp stops),
    List.dropWhile_cons_of_neg (Bool.eq_false_iff.mp stops), List.append_nil]

/-- A word ends where its line does. -/
theorem takeWord_of_isWord (word : ∀ c ∈ cs, isWord c = true) (rest : List Char) :
    takeWord (cs ++ '\n' :: rest) = (cs, '\n' :: rest) := by
  rw [takeWord, span_append_cons word rfl]
  rfl

theorem spells_toDigits (small : n < UInt64.size) :
    Spells (Nat.toDigits 10 n) (.integer n) := by
  have digits (c : Char) (inside : c ∈ Nat.toDigits 10 n) : c.isDigit = true :=
    Nat.isDigit_of_mem_toDigits (by decide) (by decide) inside
  obtain ⟨first, more, written⟩ := List.exists_cons_of_ne_nil (@Nat.toDigits_ne_nil n 10)
  have digit : first.isDigit = true := digits first (written ▸ List.mem_cons_self)
  have other (c : Char) (letter : c.isDigit = false) : first ≠ c := by
    rintro rfl
    exact Bool.false_ne_true (letter.symm.trans digit)
  have word (c : Char) (inside : c ∈ Nat.toDigits 10 n) : isWord c = true := by
    have alphanumeric : c.isAlphanum = true := by
      rw [Char.isAlphanum, digits c inside, Bool.or_true]
    simp only [isWord, alphanumeric, Bool.true_or]
  refine ⟨⟨first, more, written, ?_⟩, fun rest => ?_⟩
  · simp only [isBlank, other ' ' rfl, other '\t' rfl, decide_false, Bool.or_false]
  · have unquoted : readQuoted? (Nat.toDigits 10 n ++ '\n' :: rest) = none := by
      rw [written]
      exact if_neg (not_or.mpr ⟨other quotationMark rfl, other apostrophe rfl⟩)
    have whole : value? depthLimit (Nat.toDigits 10 n ++ '\n' :: rest) =
        scalar? (Nat.toDigits 10 n ++ '\n' :: rest) := by
      rw [written]
      exact value?_of_ne (other '[' rfl) (other '{' rfl) _
    rw [whole, scalar?, unquoted]
    simp only [takeWord_of_isWord word rest, word?_toDigits small, Option.map_some]

/-! ## Tables -/

theorem Table.find?_of_not_mem {key : String} {table : Table}
    (absent : key ∉ table.map Prod.fst) : table.find? key = none := by
  rw [find?, Option.map_eq_none_iff, List.find?_eq_none]
  intro entry inside same
  exact absent (List.mem_map.mpr ⟨entry, inside, of_decide_eq_true same⟩)

/-- A new key comes last. -/
theorem Table.insertNew?_of_not_mem {key : String} {table : Table}
    (absent : key ∉ table.map Prod.fst) (value : Value) :
    table.insertNew? key value = some (table ++ [(key, value)]) := by
  rw [insertNew?, find?_of_not_mem absent]
  refine congrArg some ?_
  induction table with
  | nil => rfl
  | cons entry table ih =>
    rw [List.map_cons, List.mem_cons, not_or] at absent
    rw [put, if_neg (Ne.symm absent.1), ih absent.2]
    rfl

/-! ## Lines -/

theorem ne_of_isBareKey {other : Char} (bare : isBareKey c = true)
    (special : isBareKey other = false) : c ≠ other := by
  rintro rfl
  exact Bool.false_ne_true (special.symm.trans bare)

/-- A key, its value, and how that is written. -/
structure Line where
  key : String
  written : List Char
  value : Value

namespace Line

variable {line : Line} {lines : List Line}

/-- The characters of a line. -/
def chars (line : Line) : List Char :=
  line.key.toList ++ ' ' :: '=' :: ' ' :: (line.written ++ ['\n'])

/-- The key needs no quotes, and the value is read as it is written. -/
structure Plain (line : Line) : Prop where
  named : line.key ≠ ""
  bare : ∀ c ∈ line.key.toList, isBareKey c = true
  spells : Spells line.written line.value

/-- The entry that a line makes. -/
def entry (line : Line) : String × Value :=
  (line.key, line.value)

/-- What a line says. -/
def statement (line : Line) : Statement :=
  .assign ([], line.key) line.value

/-- Nothing before a key is passed over, and it is no header. -/
theorem exists_bare (plain : line.Plain) : ∃ first more,
    line.chars = first :: more ∧ isBareKey first = true := by
  obtain ⟨first, more, written⟩ := List.exists_cons_of_ne_nil
    fun empty => plain.named (String.toList_eq_nil_iff.mp empty)
  refine ⟨first, more ++ ' ' :: '=' :: ' ' :: (line.written ++ ['\n']), ?_,
    plain.bare first (written ▸ List.mem_cons_self)⟩
  rw [chars, written]
  rfl

theorem chars_append (line : Line) (rest : List Char) :
    line.chars ++ rest =
      line.key.toList ++ ' ' :: '=' :: ' ' :: (line.written ++ '\n' :: rest) := by
  simp only [chars, List.append_assoc, List.cons_append, List.nil_append]

theorem keyPart?_chars (plain : line.Plain) (rest : List Char) :
    keyPart? (line.chars ++ rest) =
      some (line.key, ' ' :: '=' :: ' ' :: (line.written ++ '\n' :: rest)) := by
  obtain ⟨first, more, written, bare⟩ := exists_bare plain
  have unquoted : ¬ (first = quotationMark ∨ first = apostrophe) :=
    not_or.mpr ⟨ne_of_isBareKey bare rfl, ne_of_isBareKey bare rfl⟩
  have spans := span_append_cons plain.bare (show isBareKey ' ' = false from rfl)
    ('=' :: ' ' :: (line.written ++ '\n' :: rest))
  have filled : line.key.toList ≠ [] := fun empty => plain.named (String.toList_eq_nil_iff.mp empty)
  rw [← chars_append, written, List.cons_append] at spans
  rw [written, List.cons_append, keyPart?, if_neg unquoted, spans]
  show (if line.key.toList = [] then none else _) = _
  rw [if_neg filled, String.ofList_toList]

theorem statement?_chars (plain : line.Plain) (rest : List Char) :
    statement? (line.chars ++ rest) = some (line.statement, '\n' :: rest) := by
  obtain ⟨first, more, written, bare⟩ := exists_bare plain
  obtain ⟨start, tail, starts, visible⟩ := plain.spells.starts
  have key : key? (line.chars ++ rest) =
      some (([], line.key), '=' :: ' ' :: (line.written ++ '\n' :: rest)) := by
    rw [key?, keyPart?_chars plain]
    rfl
  have value : value? depthLimit (skipBlanks (' ' :: (line.written ++ '\n' :: rest))) =
      some (line.value, '\n' :: rest) := by
    rw [← plain.spells.read rest, starts, skipBlanks, List.dropWhile_cons_of_pos rfl,
      List.cons_append, List.dropWhile_cons_of_neg (Bool.eq_false_iff.mp visible)]
  have noHeader (more : List Char) : line.chars ++ rest ≠ '[' :: more := by
    rw [written]
    exact fun same => ne_of_isBareKey bare rfl (List.cons.inj same).1
  rw [statement?]
  · rw [key]
    show (value? depthLimit _).map _ = _
    rw [value]
    rfl
  · exact fun _ => noHeader _
  · exact fun _ => noHeader _

theorem skipTrivia_chars (plain : line.Plain) (rest : List Char) :
    skipTrivia false (line.chars ++ rest) = line.chars ++ rest := by
  obtain ⟨first, more, written, bare⟩ := exists_bare plain
  have comment : first ≠ '#' := ne_of_isBareKey bare rfl
  have visible : isBlank first = false := by
    simp only [isBlank, Bool.or_eq_false_iff, decide_eq_false_iff_not]
    exact ⟨ne_of_isBareKey bare rfl, ne_of_isBareKey bare rfl⟩
  rw [written, List.cons_append, skipTrivia]
  · rw [if_neg Bool.false_ne_true, if_neg comment, if_neg (Bool.eq_false_iff.mp visible)]
  · exact ne_of_isBareKey bare rfl
  · exact fun _ same => absurd same (ne_of_isBareKey bare rfl)

theorem length_le_flatMap (lines : List Line) :
    lines.length ≤ (lines.flatMap chars).length := by
  induction lines with
  | nil => exact Nat.le_refl 0
  | cons line lines ih =>
    have visible : line.chars.length = line.key.toList.length + (line.written.length + 4) := by
      simp [chars]
    rw [List.flatMap_cons, List.length_append, List.length_cons, visible]
    omega

theorem statements?_lines (plain : ∀ line ∈ lines, line.Plain) {rounds : Nat}
    (enough : lines.length < rounds) :
    statements? rounds (lines.flatMap chars) = some (lines.map statement) := by
  obtain ⟨rounds, rfl⟩ := Nat.exists_eq_add_one_of_ne_zero (Nat.ne_zero_of_lt enough)
  induction lines generalizing rounds with
  | nil => rfl
  | cons line lines ih =>
    have first := plain line List.mem_cons_self
    obtain ⟨rounds, rfl⟩ := Nat.exists_eq_add_one_of_ne_zero
      (Nat.ne_zero_of_lt (Nat.lt_of_succ_lt_succ enough))
    have others := ih (fun line inside => plain line (List.mem_cons_of_mem _ inside)) rounds
      (Nat.lt_of_succ_lt_succ enough)
    have ended : lineEnd? ('\n' :: lines.flatMap chars) = some (lines.flatMap chars) := rfl
    obtain ⟨start, more, written, -⟩ := exists_bare first
    have read := statement?_chars first (lines.flatMap chars)
    rw [List.flatMap_cons, statements?, skipTrivia_chars first]
    rw [written, List.cons_append] at read ⊢
    simp only [read, ended, others]
    rfl

/-- Lines with different keys are carried out as they stand there. -/
theorem foldlM_statements (lines : List Line) (table : Table)
    (distinct : (table.map Prod.fst ++ lines.map key).Nodup) :
    (lines.map statement).foldlM Draft.step? ⟨table, []⟩ =
      some ⟨table ++ lines.map entry, []⟩ := by
  induction lines generalizing table with
  | nil => simp
  | cons line lines ih =>
    have absent : line.key ∉ table.map Prod.fst := fun inside =>
      (List.nodup_append.mp distinct).2.2 _ inside _ List.mem_cons_self rfl
    have stepped : Draft.step? ⟨table, []⟩ line.statement =
        some ⟨table ++ [line.entry], []⟩ := by
      have assigned : table.assign? [] line.key line.value =
          some (table ++ [line.entry]) := by
        rw [Table.assign?, Table.enter?, if_pos (by decide),
          Table.insertNew?_of_not_mem absent line.value]
        rfl
      show (table.assign? [] line.key line.value).map _ = _
      rw [assigned]
      rfl
    have more := ih (table ++ [line.entry]) (by simpa [entry] using distinct)
    rw [List.append_assoc] at more
    simp only [List.map_cons, List.foldlM_cons, stepped, Option.bind_eq_bind, Option.bind_some]
    exact more

end Line

/-- A text of plain lines with different keys is read as the table of these lines. -/
theorem read?_lines {lines : List Line} (plain : ∀ line ∈ lines, line.Plain)
    (distinct : (lines.map Line.key).Nodup) :
    read? (String.ofList (lines.flatMap Line.chars)) =
      some (lines.map Line.entry) := by
  have unmarked : dropMark (lines.flatMap Line.chars) = lines.flatMap Line.chars := by
    cases lines with
    | nil => rfl
    | cons line lines =>
      obtain ⟨first, more, written, bare⟩ := Line.exists_bare (plain line List.mem_cons_self)
      rw [List.flatMap_cons, written]
      exact if_neg (ne_of_isBareKey bare rfl)
  have enough := Nat.lt_succ_of_le (Line.length_le_flatMap lines)
  have carried := Line.foldlM_statements lines [] distinct
  rw [read?, String.toList_ofList, unmarked]
  simp only [Line.statements?_lines plain enough, Option.bind_eq_bind, Option.bind_some]
  rw [Draft.empty, carried]
  rfl

/-! ## The format -/

/-- The line that a field is written as. -/
def Line.ofField (field : String × Scalar) : Line :=
  ⟨field.1, field.2.written.toList, field.2.value⟩

theorem Scalar.spells (scalar : Scalar) : Spells scalar.written.toList scalar.value := by
  cases scalar with
  | word n =>
    rw [written, Nat.toString_eq_ofList_toDigits, String.toList_ofList]
    exact spells_toDigits n.toNat_lt
  | text s =>
    have spells := spells_writeQuoted s.toList
    rwa [String.ofList_toList, ← String.toList_ofList (l := writeQuoted s.toList)] at spells

theorem Line.plain_ofField {field : String × Scalar} (bare : IsBare field.1) :
    (Line.ofField field).Plain :=
  ⟨bare.1, List.all_eq_true.mp bare.2, field.2.spells⟩

theorem toList_writeFields (fields : Fields) :
    (writeFields fields).toList = (fields.map Line.ofField).flatMap Line.chars := by
  induction fields with
  | nil => rfl
  | cons field fields ih =>
    have first : (writeLine field.1 field.2.written).toList = (Line.ofField field).chars := by
      simp only [writeLine, String.toList_append, List.append_assoc, Line.chars, Line.ofField]
      rfl
    have more : writeFields (field :: fields) =
        writeLine field.1 field.2.written ++ writeFields fields := String.join_cons
    rw [more, String.toList_append, first, ih]
    rfl

/-- A field's value is found under its key. -/
theorem find?_map_entry (fields : Fields) (key : String) :
    Table.find? key ((fields.map Line.ofField).map Line.entry) =
      (fields.lookup key).map Scalar.value := by
  induction fields with
  | nil => rfl
  | cons field fields ih =>
    obtain ⟨name, scalar⟩ := field
    by_cases same : name = key
    · subst same
      simp [Table.find?, Line.entry, Line.ofField]
    · have other : (key == name) = false := beq_eq_false_iff_ne.mpr (Ne.symm same)
      simpa [Table.find?, Line.entry, Line.ofField, same, other, List.lookup_cons] using ih

/-- The format of this library is faithful. -/
theorem faithful_format : format.Faithful := by
  intro fields distinct bare
  refine ⟨_, ?_, find?_map_entry fields⟩
  show read? (writeFields fields) = _
  rw [← String.ofList_toList (s := writeFields fields), toList_writeFields]
  refine read?_lines ?_ ?_
  · intro line inside
    obtain ⟨field, among, rfl⟩ := List.mem_map.mp inside
    exact Line.plain_ofField (bare field among)
  · rwa [List.map_map]

end HostParsing.Toml
