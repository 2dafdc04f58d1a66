import HostParsing.Proofs.Buffer.Units
/-!
# Arithmetic and arrays on 64-bit words

Numbers here are words, and arrays are cut at words. `Run` is a result, or why there is
none: an operation may refuse, and it may stop. A sum, product or difference stops unless
it is exact, so one that has a result has not wrapped around; a part of an array that is
cut out, written over or put in stops unless its bounds are in order and inside, and
bytes that are written over stop unless they are as many as those they are written over.
Nothing stops that is asked for what is there: next to each definition is the lemma that
gives its result.
-/

namespace HostParsing

/-- No array has this many bytes, 2⁶³. -/
def arrayLimit : Nat := 9223372036854775808

theorem arrayLimit_lt_wordLimit : arrayLimit < wordLimit := by decide

namespace Words

/-- Why an operation has no result. -/
inductive Stop
  /-- It refuses. -/
  | refused (fault : Fault)
  /-- A sum, product or difference is no word. -/
  | overflow
  /-- An index or a range is not inside its array. -/
  | outside
  /-- Bytes are written over a range of another length. -/
  | mismatch
  /-- An array grows to `arrayLimit`. -/
  | tooLong
deriving DecidableEq, Repr

/-- A result, or why there is none. -/
abbrev Run (α : Type) := Except Stop α

variable {α β : Type} {a b : UInt64}

/-- No result, because of a fault. -/
def refuse (fault : Fault) : Run α := .error (.refused fault)

/-- The result of an operation that can only refuse. -/
def told : Except Fault α → Run α := Except.mapError Stop.refused

@[simp] theorem ok_bind (a : α) (f : α → Run β) : (Except.ok a >>= f) = f a := rfl

theorem map_map {γ : Type} (result : Except Fault α) (f : α → β) (g : β → γ) :
    (result.map f).map g = result.map (g ∘ f) := by
  cases result <;> rfl

/-! ## Arithmetic -/

/-- A product. -/
def times (a b : UInt64) : Run UInt64 :=
  if a.toNat * b.toNat < wordLimit then .ok (a * b) else .error .overflow

/-- A sum. -/
def plus (a b : UInt64) : Run UInt64 :=
  if a.toNat + b.toNat < wordLimit then .ok (a + b) else .error .overflow

/-- A difference. -/
def minus (a b : UInt64) : Run UInt64 :=
  if b.toNat ≤ a.toNat then .ok (a - b) else .error .overflow

/-- A sum that is refused, and does not stop, if it is no word. -/
def plusOr (fault : Fault) (a b : UInt64) : Run UInt64 :=
  if a.toNat + b.toNat < wordLimit then .ok (a + b) else refuse fault

theorem toNat_ofNat {n : Nat} (word : n < wordLimit) : (UInt64.ofNat n).toNat = n :=
  UInt64.toNat_ofNat_of_lt' word

theorem toNat_mul_of_lt (word : a.toNat * b.toNat < wordLimit) :
    (a * b).toNat = a.toNat * b.toNat :=
  (UInt64.toNat_mul a b).trans (Nat.mod_eq_of_lt word)

theorem toNat_add_of_lt (word : a.toNat + b.toNat < wordLimit) :
    (a + b).toNat = a.toNat + b.toNat :=
  (UInt64.toNat_add a b).trans (Nat.mod_eq_of_lt word)

theorem toNat_sub_of_le (order : b.toNat ≤ a.toNat) : (a - b).toNat = a.toNat - b.toNat :=
  UInt64.toNat_sub_of_le a b (UInt64.le_iff_toNat_le.mpr order)

theorem exists_times (word : a.toNat * b.toNat < wordLimit) :
    ∃ c, times a b = .ok c ∧ c.toNat = a.toNat * b.toNat :=
  ⟨a * b, if_pos word, toNat_mul_of_lt word⟩

theorem exists_plus (word : a.toNat + b.toNat < wordLimit) :
    ∃ c, plus a b = .ok c ∧ c.toNat = a.toNat + b.toNat :=
  ⟨a + b, if_pos word, toNat_add_of_lt word⟩

theorem exists_minus (order : b.toNat ≤ a.toNat) :
    ∃ c, minus a b = .ok c ∧ c.toNat = a.toNat - b.toNat :=
  ⟨a - b, if_pos order, toNat_sub_of_le order⟩

theorem exists_plusOr (word : a.toNat + b.toNat < wordLimit) (fault : Fault) :
    ∃ c, plusOr fault a b = .ok c ∧ c.toNat = a.toNat + b.toNat :=
  ⟨a + b, if_pos word, toNat_add_of_lt word⟩

theorem plusOr_of_le (reached : wordLimit ≤ a.toNat + b.toNat) (fault : Fault) :
    plusOr fault a b = refuse fault :=
  if_neg (Nat.not_lt.mpr reached)

section
variable {c : UInt64}

end

/-! ## Arrays -/

/-- The length of an array. -/
def len (array : List α) : UInt64 := .ofNat array.length

/-- The bounds of a range are in order and inside an array of a length. -/
def Inside (length : Nat) (first last : UInt64) : Prop :=
  first.toNat ≤ last.toNat ∧ last.toNat ≤ length

instance (length : Nat) (first last : UInt64) : Decidable (Inside length first last) :=
  inferInstanceAs (Decidable (_ ∧ _))

/-- What is at an index. -/
def fetch (array : List α) (index : UInt64) : Run α :=
  match array[index.toNat]? with
  | some a => .ok a
  | none => .error .outside

/-- A copy of a range. -/
def cut (array : List α) (first last : UInt64) : Run (List α) :=
  if Inside array.length first last then
    .ok (array.extract first.toNat last.toNat)
  else
    .error .outside

/-- The bytes with a range written over. -/
def copyOver (bytes : Bytes) (first last : UInt64) (new : Bytes) : Run Bytes := do
  let old ← cut bytes first last
  if old.length = new.length then
    .ok (bytes.overwrite first.toNat new)
  else
    .error .mismatch

/-- The bytes with something else in the place of a range. -/
def putIn (bytes : Bytes) (first last : UInt64) (new : Bytes) : Run Bytes :=
  if Inside bytes.length first last then
    if (splice bytes first.toNat last.toNat new).length < arrayLimit then
      .ok (splice bytes first.toNat last.toNat new)
    else
      .error .tooLong
  else
    .error .outside

/-- The bytes without a range. -/
def takeOut (bytes : Bytes) (first last : UInt64) : Run Bytes :=
  if Inside bytes.length first last then
    .ok (bytes.remove first.toNat last.toNat)
  else
    .error .outside

/-- Room for more bytes. -/
def setAside (bytes : Bytes) (room : UInt64) : Run Unit :=
  if bytes.length + room.toNat < arrayLimit then .ok () else .error .tooLong

/-- The bytes with one unit more. -/
def extendUnit (bytes : Bytes) (unit : UInt16) : Run Bytes :=
  if bytes.length + (Bytes.ofUnit unit).length < arrayLimit then
    .ok (bytes ++ Bytes.ofUnit unit)
  else
    .error .tooLong

/-- The bytes with units more, one after another. -/
def extendUnits (bytes : Bytes) (units : List UInt16) : Run Bytes :=
  units.foldlM extendUnit bytes

section
variable {array : List α} {bytes new : Bytes} {word first last : UInt64}

theorem toNat_len (short : array.length < arrayLimit) : (len array).toNat = array.length :=
  toNat_ofNat (Nat.lt_trans short arrayLimit_lt_wordLimit)

theorem len_lt_iff (short : array.length < arrayLimit) :
    len array < word ↔ array.length < word.toNat := by
  rw [UInt64.lt_iff_toNat_lt, toNat_len short]

theorem lt_len_iff (short : array.length < arrayLimit) :
    word < len array ↔ word.toNat < array.length := by
  rw [UInt64.lt_iff_toNat_lt, toNat_len short]

theorem len_eq_iff (short : array.length < arrayLimit) :
    len array = word ↔ array.length = word.toNat := by
  rw [← UInt64.toNat_inj, toNat_len short]

theorem fetch_of_lt (inside : word.toNat < array.length) :
    fetch array word = .ok array[word.toNat] := by
  rw [fetch, List.getElem?_eq_getElem inside]

theorem cut_of_inside (order : first.toNat ≤ last.toNat) (inside : last.toNat ≤ array.length) :
    cut array first last = .ok (array.extract first.toNat last.toNat) :=
  if_pos ⟨order, inside⟩

theorem cut_front (inside : last.toNat ≤ array.length) :
    cut array 0 last = .ok (array.take last.toNat) := by
  rw [cut_of_inside (Nat.zero_le _) inside, List.extract_eq_take_drop]
  rfl

theorem cut_rest (short : array.length < arrayLimit) (inside : first.toNat ≤ array.length) :
    cut array first (len array) = .ok (array.drop first.toNat) := by
  rw [cut_of_inside (by rw [toNat_len short]; exact inside) (Nat.le_of_eq (toNat_len short)),
    List.extract_eq_take_drop, toNat_len short,
    List.take_of_length_le (Nat.le_of_eq List.length_drop)]

theorem takeOut_of_inside (order : first.toNat ≤ last.toNat) (inside : last.toNat ≤ bytes.length) :
    takeOut bytes first last = .ok (bytes.remove first.toNat last.toNat) :=
  if_pos ⟨order, inside⟩

theorem copyOver_of_inside (inside : last.toNat ≤ bytes.length)
    (fits : last.toNat = first.toNat + new.length) :
    copyOver bytes first last new = .ok (bytes.overwrite first.toNat new) := by
  have order : first.toNat ≤ last.toNat := by omega
  have length : (bytes.extract first.toNat last.toNat).length = new.length := by
    rw [List.extract_eq_take_drop, List.length_take, List.length_drop]
    omega
  rw [copyOver, cut_of_inside order inside]
  exact if_pos length

theorem putIn_of_le (inside : first.toNat ≤ bytes.length)
    (room : bytes.length + new.length < arrayLimit) :
    putIn bytes first first new = .ok (bytes.insert first.toNat new) := by
  rw [← Bytes.length_insert inside, Bytes.insert_eq_splice] at room
  rw [putIn, if_pos ⟨Nat.le_refl _, inside⟩, if_pos room]
  rfl

theorem extendUnit_of_lt {unit : UInt16} (room : bytes.length + 2 < arrayLimit) :
    extendUnit bytes unit = .ok (bytes ++ Bytes.ofUnit unit) :=
  if_pos room

/-- Units that are stored one after another are stored as they are all at once. -/
theorem extendUnits_of_lt {units : List UInt16}
    (room : bytes.length + 2 * units.length < arrayLimit) :
    extendUnits bytes units = .ok (bytes ++ Bytes.ofUnits units) := by
  induction units generalizing bytes with
  | nil => exact congrArg Except.ok (List.append_nil bytes).symm
  | cons unit units ih =>
    rw [List.length_cons] at room
    have next : (bytes ++ Bytes.ofUnit unit).length + 2 * units.length < arrayLimit := by
      rw [List.length_append, Bytes.length_ofUnit]
      omega
    have rest := ih next
    rw [List.append_assoc] at rest
    rw [extendUnits, List.foldlM_cons, extendUnit_of_lt (by omega)]
    exact rest

end

end Words
end HostParsing
