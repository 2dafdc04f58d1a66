import HostParsing.Buffer.Call
/-!
# What calls ask of a buffer

The numbers of a call ask for something: a unit or a byte, a place between units, a
range. `Demand` is what is asked for and of how much, and `Demand.Met` says in plain
numbers whether it is there. A demand that is not met is refused for the first of three
reasons (`Demand.fault?`): it is no range at all, it reaches outside, it cuts a unit in
two. Every call by index or range is answered or refused as its demand says, and a call
without one is answered (`demands_decide`).
-/

namespace HostParsing.Buffer

/-- What the numbers of a call ask for, and how much there is of it. -/
inductive Demand
  /-- One of `length` units or bytes. -/
  | one (extent : Extent) (index length : Nat)
  /-- A place before, between or behind `length` units. -/
  | place (index length : Nat)
  /-- The units from `first` to before `last`. -/
  | chars (first last length : Nat)
  /-- The bytes from `first` to before `last`, which have to make up whole units. -/
  | bytes (first last length : Nat)
  /-- So many units of a text from `start` on. -/
  | part (start count length : Nat)
  /-- So many bytes of an array from `start` on, which have to make up whole units. -/
  | cut (start count length : Nat)
deriving DecidableEq, Repr

namespace Demand

/-- What is asked for is there. -/
def Met : Demand → Prop
  | one _ index length => index < length
  | place index length => index ≤ length
  | chars first last length => first ≤ last ∧ last ≤ length
  | bytes first last length => first ≤ last ∧ last ≤ length ∧ (last - first) % 2 = 0
  | part start count length => start + count ≤ length
  | cut start count length => start + count ≤ length ∧ count % 2 = 0

/-- A text or an array is no longer than a word can tell. -/
def Fits : Demand → Prop
  | part _ _ length | cut _ _ length => length < wordLimit
  | _ => True

instance : (d : Demand) → Decidable d.Met
  | one _ index length => inferInstanceAs (Decidable (index < length))
  | place index length => inferInstanceAs (Decidable (index ≤ length))
  | chars _ _ _ => inferInstanceAs (Decidable (_ ∧ _))
  | bytes _ _ _ => inferInstanceAs (Decidable (_ ∧ _ ∧ _))
  | part start count length => inferInstanceAs (Decidable (start + count ≤ length))
  | cut _ _ _ => inferInstanceAs (Decidable (_ ∧ _))

/-- A fault, if there is reason for it. -/
def refuseIf (reason : Prop) [Decidable reason] (fault : Fault) : Option Fault :=
  if reason then some fault else none

/-- Refuse a range that ends before it starts, or whose end is not a word. -/
def malformed? : Demand → Option Fault
  | chars first last _ | bytes first last _ =>
    refuseIf (¬ first ≤ last) (.invertedRange first last)
  | part start count _ => refuseIf (wordLimit ≤ start + count) .textRangeOverflow
  | cut start count _ => refuseIf (wordLimit ≤ start + count) .byteRangeOverflow
  | one _ _ _ | place _ _ => none

/-- Refuse what lies outside. -/
def outside? : Demand → Option Fault
  | one extent index length => refuseIf (¬ index < length) (.outOfBounds extent index length)
  | place index length => refuseIf (¬ index ≤ length) (.outOfBounds .buffer index length)
  | chars _ last length => refuseIf (¬ last ≤ length) (.outOfBounds .buffer last length)
  | bytes _ last length => refuseIf (¬ last ≤ length) (.outOfBounds .bufferBytes last length)
  | part start count length =>
    refuseIf (length < start + count) (.outOfBounds .sourceText (start + count) length)
  | cut start count length =>
    refuseIf (length < start + count) (.outOfBounds .byteArray (start + count) length)

/-- Refuse bytes that do not make up whole units. -/
def split? : Demand → Option Fault
  | bytes first last _ => refuseIf (¬ (last - first) % 2 = 0) (.splitUnit first last)
  | cut _ count _ => refuseIf (¬ count % 2 = 0) (.oddByteCount count)
  | one _ _ _ | place _ _ | chars _ _ _ | part _ _ _ => none

/-- The first reason to refuse a demand. -/
def fault? (d : Demand) : Option Fault :=
  d.malformed?.or (d.outside?.or d.split?)

/-- A result that is there exactly if the demand is met, and is refused for the first
reason otherwise. -/
structure Decides {α : Type} (d : Demand) (result : Except Fault α) : Prop where
  answered_iff : (∃ answer, result = .ok answer) ↔ d.Met
  refused_iff : ∀ fault, result = .error fault ↔ d.fault? = some fault

end Demand

/-- What the numbers of a call ask of a buffer, if it has any. -/
def Call.demand (b : Buffer) : Call → Option Demand
  | charAt index | setCharAt index _ => some (.one .buffer index b.length)
  | byteAt index | setByteAt index _ => some (.one .bufferBytes index (2 * b.length))
  | insert index _ | insertChar index _ => some (.place index b.length)
  | deleteChars first last | replaceChars first last _ | sliceChars first last =>
    some (.chars first last b.length)
  | deleteBytes first last | replaceBytes first last _ | sliceBytes first last =>
    some (.bytes first last (2 * b.length))
  | appendPart text start count => some (.part start count (Utf16.encode text).length)
  | length | byteLength | isEmpty | bytes | units | toText | toText? | append _ | appendChar _ =>
    none

/-- Why a result is not there. -/
def faultIn {α : Type} : Except Fault α → Option Fault
  | .ok _ => none
  | .error fault => some fault

variable {α β : Type} {b : Buffer} {d : Demand} {fault : Fault} {result : Except Fault α}

@[simp] theorem faultIn_map (f : α → β) (result : Except Fault α) :
    faultIn (result.map f) = faultIn result := by
  cases result <;> rfl

theorem faultIn_eq_some_iff : faultIn result = some fault ↔ result = .error fault := by
  cases result <;> simp [faultIn]

theorem faultIn_eq_none_iff : faultIn result = none ↔ ∃ answer, result = .ok answer := by
  cases result <;> simp [faultIn]

namespace Demand

/-! ## Reasons to refuse -/

section
variable {reason : Prop} [Decidable reason] {other : Fault}

theorem refuseIf_eq_none_iff : refuseIf reason fault = none ↔ ¬ reason := by
  by_cases given : reason <;> simp [refuseIf, given]

theorem refuseIf_eq_some_iff : refuseIf reason fault = some other ↔ reason ∧ fault = other := by
  by_cases given : reason <;> simp [refuseIf, given]

/-- What has to hold is checked first, and then what is left to check. -/
theorem faultIn_dite {next : reason → Except Fault α} {rest : Option Fault}
    (does : ∀ given, faultIn (next given) = rest) :
    faultIn (if given : reason then next given else .error fault) =
      (refuseIf (¬ reason) fault).or rest := by
  by_cases given : reason
  · rw [dif_pos given, does given, refuseIf_eq_none_iff.mpr (fun lacks => lacks given),
      Option.none_or]
  · rw [dif_neg given, refuseIf_eq_some_iff.mpr ⟨given, rfl⟩, Option.some_or]
    rfl

/-- What must not be is checked first, and then what is left to check. -/
theorem faultIn_ite {next : Except Fault α} {rest : Option Fault}
    (does : ¬ reason → faultIn next = rest) :
    faultIn (if reason then .error fault else next) = (refuseIf reason fault).or rest := by
  by_cases given : reason
  · rw [if_pos given, refuseIf_eq_some_iff.mpr ⟨given, rfl⟩, Option.some_or]
    rfl
  · rw [if_neg given, does given, refuseIf_eq_none_iff.mpr given, Option.none_or]

end

theorem fault?_eq_none_iff (fits : d.Fits) : d.fault? = none ↔ d.Met := by
  simp only [fault?, Option.or_eq_none_iff]
  cases d with
  | one extent index length | place index length | chars first last length =>
    simp [malformed?, outside?, split?, refuseIf_eq_none_iff, Met]
  | bytes first last length =>
    simp only [malformed?, outside?, split?, refuseIf_eq_none_iff, Met]
    omega
  | part start count length | cut start count length =>
    -- Where the end is no word, it lies behind the last unit as well.
    have word : length < wordLimit := fits
    simp only [malformed?, outside?, split?, refuseIf_eq_none_iff, Met, and_true]
    omega

theorem kind_of_malformed (malformed : d.malformed? = some fault) :
    fault.kind = .invalidArgument := by
  cases d with
  | one _ _ _ | place _ _ => cases malformed
  | _ =>
    obtain ⟨-, rfl⟩ := refuseIf_eq_some_iff.mp malformed
    rfl

theorem kind_of_outside (outside : d.outside? = some fault) : fault.kind = .outOfBounds := by
  cases d with
  | _ =>
    obtain ⟨-, rfl⟩ := refuseIf_eq_some_iff.mp outside
    rfl

theorem kind_of_split (split : d.split? = some fault) : fault.kind = .invalidArgument := by
  cases d with
  | bytes _ _ _ | cut _ _ _ =>
    obtain ⟨-, rfl⟩ := refuseIf_eq_some_iff.mp split
    rfl
  | one _ _ _ | place _ _ | chars _ _ _ | part _ _ _ => cases split

theorem decides_of_faultIn (fits : d.Fits) (same : faultIn result = d.fault?) :
    d.Decides result where
  answered_iff := by rw [← faultIn_eq_none_iff, same, fault?_eq_none_iff fits]
  refused_iff fault := by rw [← faultIn_eq_some_iff, same]

end Demand

open Demand (faultIn_dite faultIn_ite)

/-! ## Ranges and indices -/

theorem faultIn_charSpan (b : Buffer) (first last : Nat) :
    faultIn (b.charSpan first last) = (Demand.chars first last b.length).fault? :=
  faultIn_dite fun _ => faultIn_dite fun _ => rfl

theorem faultIn_byteSpan (b : Buffer) (first last : Nat) :
    faultIn (b.byteSpan first last) = (Demand.bytes first last (2 * b.length)).fault? := by
  rw [b.two_mul_length]
  refine faultIn_dite fun order => faultIn_dite fun inside => ?_
  exact Eq.trans (faultIn_dite fun _ => rfl) Option.or_none

theorem faultIn_byteAt (b : Buffer) (index : Nat) :
    faultIn (b.byteAt index) = (Demand.one .bufferBytes index (2 * b.length)).fault? := by
  rw [b.two_mul_length, byteAt]
  by_cases inside : index < b.byteLength
  · have fits : (Demand.one .bufferBytes index b.byteLength).Fits := trivial
    rw [List.getElem?_eq_getElem inside, (Demand.fault?_eq_none_iff fits).mpr inside]
    rfl
  · rw [List.getElem?_eq_none (Nat.le_of_not_lt inside)]
    simp [faultIn, Demand.fault?, Demand.malformed?, Demand.outside?, Demand.refuseIf, inside]

theorem faultIn_setByteAt (b : Buffer) (index : Nat) (byte : UInt8) :
    faultIn (b.setByteAt index byte) =
      (Demand.one .bufferBytes index (2 * b.length)).fault? := by
  rw [b.two_mul_length]
  exact faultIn_dite fun _ => rfl

theorem faultIn_charAt (b : Buffer) (index : Nat) :
    faultIn (b.charAt index) = (Demand.one .buffer index b.length).fault? :=
  faultIn_dite fun _ => rfl

theorem faultIn_setCharAt (b : Buffer) (index : Nat) (unit : UInt16) :
    faultIn (b.setCharAt index unit) = (Demand.one .buffer index b.length).fault? :=
  faultIn_dite fun _ => rfl

theorem faultIn_insertUnits (b : Buffer) (index : Nat) (units : List UInt16) :
    faultIn (b.insertUnits index units) = (Demand.place index b.length).fault? :=
  faultIn_dite fun _ => rfl

/-! ## Parts of texts and arrays -/

theorem faultIn_appendPart (b : Buffer) (text : String) (start count : Nat) :
    faultIn (b.appendPart text start count) =
      (Demand.part start count (Utf16.encode text).length).fault? :=
  faultIn_ite fun _ => faultIn_ite fun _ => rfl

theorem faultIn_ofBytes (bytes : Bytes) : faultIn (ofBytes bytes) =
    Demand.refuseIf (¬ bytes.length % 2 = 0) (.oddByteCount bytes.length) :=
  Eq.trans (faultIn_dite fun _ => rfl) Option.or_none

theorem faultIn_ofByteRange (array : Bytes) (start count : Nat) :
    faultIn (ofByteRange array start count) = (Demand.cut start count array.length).fault? := by
  refine faultIn_ite fun word => faultIn_ite fun inside => ?_
  have taken : (array.slice start (start + count)).length = count := by
    rw [Bytes.length_slice (Nat.le_of_not_lt inside), Nat.add_sub_cancel_left]
  rw [faultIn_ofBytes, taken]
  rfl

/-! ## Calls -/

/-- Every call is answered or refused as its demand says. -/
theorem faultIn_run {call : Call} (asks : call.demand b = some d) :
    faultIn (call.run b) = d.fault? := by
  cases call with
  | charAt index =>
    cases asks
    exact (faultIn_map _ _).trans (faultIn_charAt b index)
  | setCharAt index unit =>
    cases asks
    exact (faultIn_map _ _).trans (faultIn_setCharAt b index unit)
  | byteAt index =>
    cases asks
    exact (faultIn_map _ _).trans (faultIn_byteAt b index)
  | setByteAt index byte =>
    cases asks
    exact (faultIn_map _ _).trans (faultIn_setByteAt b index byte)
  | insert index text =>
    cases asks
    exact (faultIn_map _ _).trans (faultIn_insertUnits b index (Utf16.encode text))
  | insertChar index unit =>
    cases asks
    exact (faultIn_map _ _).trans (faultIn_insertUnits b index [unit])
  | deleteChars first last | replaceChars first last text =>
    cases asks
    exact (faultIn_map _ _).trans ((faultIn_map _ _).trans (faultIn_charSpan b first last))
  | deleteBytes first last | replaceBytes first last text =>
    cases asks
    exact (faultIn_map _ _).trans ((faultIn_map _ _).trans (faultIn_byteSpan b first last))
  | sliceChars first last =>
    cases asks
    exact (faultIn_map _ _).trans ((faultIn_map _ _).trans ((faultIn_map _ _).trans
      (faultIn_charSpan b first last)))
  | sliceBytes first last =>
    cases asks
    exact (faultIn_map _ _).trans ((faultIn_map _ _).trans ((faultIn_map _ _).trans
      (faultIn_byteSpan b first last)))
  | appendPart text start count =>
    cases asks
    exact (faultIn_map _ _).trans (faultIn_appendPart b text start count)
  | _ => cases asks

/-- A call without numbers is answered, unless it asks for a text that is not there. -/
theorem run_of_undemanding {call : Call} (asks : call.demand b = none) (other : call ≠ .toText?) :
    ∃ answered, call.run b = .ok answered := by
  cases call with
  | toText? => exact absurd rfl other
  | length | byteLength | isEmpty | bytes | units | toText => exact ⟨_, rfl⟩
  | append text | appendChar unit => exact ⟨_, rfl⟩
  | _ => cases asks

/-- A call that is refused might as well not have been made. -/
theorem runAll_of_refused {call : Call} (refused : call.run b = .error fault)
    (later : List Call) : b.runAll (call :: later) = b.runAll later := by
  rw [runAll, refused]

/-- The numbers of a call decide about it. A call by index or range, a copy of a range
and a buffer made of part of an array are answered exactly if what they ask for is
there; otherwise they are refused for the first reason that holds, in this order: an
invalid argument because the range is none or ends at no word, an index out of bounds, an
invalid argument because a unit is cut in two. Any other call is answered. A call that is
refused leaves the bytes as they are, for itself and for all calls after it. -/
theorem demands_decide (b : Buffer) :
    (∀ (call : Call) (d : Demand), call.demand b = some d → d.Fits → d.Decides (call.run b)) ∧
    (∀ call : Call, call.demand b = none → call ≠ .toText? → ∃ answered, call.run b = .ok answered) ∧
    (∀ first last : Nat,
      (Demand.chars first last b.length).Decides (b.substringChars first last) ∧
      (Demand.bytes first last (2 * b.length)).Decides (b.substringBytes first last)) ∧
    (∀ (array : Bytes) (start count : Nat), array.length < wordLimit →
      (Demand.cut start count array.length).Decides (ofByteRange array start count)) ∧
    (∀ (d : Demand) fault,
      (d.malformed? = some fault → fault.kind = .invalidArgument) ∧
      (d.outside? = some fault → fault.kind = .outOfBounds) ∧
      (d.split? = some fault → fault.kind = .invalidArgument)) ∧
    ∀ (call : Call) fault, call.run b = .error fault →
      (b.runAll [call]).bytes = b.bytes ∧
        ∀ later, b.runAll (call :: later) = b.runAll later := by
  refine ⟨fun call d asks fits => Demand.decides_of_faultIn fits (faultIn_run asks),
    fun call asks other => run_of_undemanding asks other, fun first last => ⟨?_, ?_⟩,
    fun array start count word => ?_, fun d fault => ?_, fun call fault refused => ?_⟩
  · exact Demand.decides_of_faultIn trivial
      ((faultIn_map _ _).trans (faultIn_charSpan b first last))
  · exact Demand.decides_of_faultIn trivial
      ((faultIn_map _ _).trans (faultIn_byteSpan b first last))
  · exact Demand.decides_of_faultIn word (faultIn_ofByteRange array start count)
  · exact ⟨Demand.kind_of_malformed, Demand.kind_of_outside, Demand.kind_of_split⟩
  · refine ⟨?_, runAll_of_refused refused⟩
    rw [runAll_of_refused refused]
    rfl

/-- A buffer of two units. Two bytes from the second one on can be deleted, three
cannot, and a part of a text whose end is no word is refused although the end would wrap
around to a place inside; the buffer stays. -/
theorem demands_decide_at_edges :
    let b := ofText "ab"
    let huge := wordLimit - 1
    (∃ answered, (Call.deleteBytes 1 3).run b = .ok answered) ∧
      (Call.deleteBytes 1 4).run b = .error (.splitUnit 1 4) ∧
      (Call.appendPart "xyz" 2 huge).run b = .error .textRangeOverflow ∧
      (b.runAll [.appendPart "xyz" 2 huge]).bytes = b.bytes ∧
      ofByteRange [1, 2, 3] 0 3 = .error (.oddByteCount 3) := by
  intro b huge
  obtain ⟨decides, -, -, cuts, -, keeps⟩ := demands_decide b
  have fits : (Demand.part 2 huge (Utf16.encode "xyz").length).Fits := by
    show (Utf16.encode "xyz").length < wordLimit
    decide
  have overflow : (Call.appendPart "xyz" 2 huge).run b = .error .textRangeOverflow :=
    ((decides (.appendPart "xyz" 2 huge) _ rfl fits).refused_iff _).mpr (by decide)
  refine ⟨?_, ?_, overflow, (keeps _ _ overflow).1, ?_⟩
  · exact (decides (.deleteBytes 1 3) _ rfl trivial).answered_iff.mpr (by decide)
  · exact ((decides (.deleteBytes 1 4) _ rfl trivial).refused_iff _).mpr (by decide)
  · exact ((cuts [1, 2, 3] 0 3 (by decide)).refused_iff _).mpr (by decide)

end HostParsing.Buffer
