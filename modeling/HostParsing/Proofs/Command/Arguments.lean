import HostParsing.Command.Arguments
/-!
# The language of arguments

What the reader of arguments accepts, told without it. Arguments are taken apart into items
(`Reads`): a flag with the argument after it, an option that nobody knows, a path. Either
the items say something (`Means`), or the leftmost of them that gives offence is told, or
that there is no path (`Rejects`).

These leave no choice (`Tells.unique`). So it is enough to follow the reader from item to
item and see that its draft is what the items before say; that nothing else is accepted, and
no other fault told, comes with it.
-/

namespace HostParsing.Command

variable {text argument : String} {n : UInt64} {fault fault' : NumberFault} {c : Char}
  {digits before after : List Char}

/-! ## Numbers -/

/-- The characters of a text that should be digits: all but one plus sign at the front. -/
def numeral (text : String) : List Char :=
  match text.toList with
  | '+' :: digits => digits
  | digits => digits

/-- A text is the decimal numeral of a number: it has digits and, apart from a sign,
nothing else. Zeros at the front make no difference. -/
def IsNumber (text : String) (n : UInt64) : Prop :=
  numeral text ≠ [] ∧ (∀ c ∈ numeral text, c.isDigit) ∧
    Nat.ofDigitChars 10 (numeral text) 0 = n.toNat

/-- Digits of a number that has 64 bits. -/
def Fits (digits : List Char) : Prop :=
  (∀ c ∈ digits, c.isDigit) ∧ Nat.ofDigitChars 10 digits 0 < UInt64.size

/-- What keeps a text from being a number: there is no digit, or there is a first character
with which it no longer fits. -/
inductive NotNumber (text : String) : NumberFault → Prop
  | empty : text = "" → NotNumber text .empty
  | onlySign : text = "+" → NotNumber text .invalidDigit
  | invalidDigit {before : List Char} {c : Char} {after : List Char} :
    numeral text = before ++ c :: after → Fits before → ¬ c.isDigit →
      NotNumber text .invalidDigit
  | tooLarge {before : List Char} {c : Char} {after : List Char} :
    numeral text = before ++ c :: after → Fits before → c.isDigit →
      UInt64.size ≤ Nat.ofDigitChars 10 (before ++ [c]) 0 → NotNumber text .tooLarge

theorem fits_nil : Fits [] := ⟨by simp, by decide⟩

theorem fits_concat_iff (fits : Fits before) :
    Fits (before ++ [c]) ↔ c.isDigit ∧ Nat.ofDigitChars 10 (before ++ [c]) 0 < UInt64.size := by
  simp only [Fits, List.mem_append, List.mem_singleton]
  constructor
  · exact fun ⟨all, small⟩ => ⟨all c (.inr rfl), small⟩
  · rintro ⟨digit, small⟩
    exact ⟨fun d inside => inside.elim (fits.1 d) fun same => same ▸ digit, small⟩

/-- If a run of characters does not fit, there is a first one with which it does not. -/
theorem fits_or_exists_first (digits : List Char) :
    Fits digits ∨ ∃ before c after, digits = before ++ c :: after ∧ Fits before ∧
      ¬ Fits (before ++ [c]) := by
  generalize shape : digits.reverse = backwards
  induction backwards generalizing digits with
  | nil => exact .inl (List.reverse_eq_nil_iff.mp shape ▸ fits_nil)
  | cons c rest ih =>
    obtain rfl : digits = rest.reverse ++ [c] := by simpa using congrArg List.reverse shape
    rcases ih rest.reverse (by simp) with fits | ⟨before, d, after, split, fits, first⟩
    · by_cases more : Fits (rest.reverse ++ [c])
      · exact .inl more
      · exact .inr ⟨_, c, [], rfl, fits, more⟩
    · exact .inr ⟨before, d, after ++ [c], by simp [split], fits, first⟩

theorem le_ofDigitChars (n : Nat) (digits : List Char) : n ≤ Nat.ofDigitChars 10 digits n := by
  induction digits generalizing n with
  | nil => simp
  | cons c rest ih =>
    rw [Nat.ofDigitChars_cons]
    exact Nat.le_trans (by omega) (ih _)

/-- Digits that fit are read, whatever comes behind them. -/
theorem readDigits_append {n : Nat} (rest : List Char) (all : ∀ c ∈ digits, c.isDigit)
    (small : Nat.ofDigitChars 10 digits n < UInt64.size) :
    readDigits n (digits ++ rest) = readDigits (Nat.ofDigitChars 10 digits n) rest := by
  induction digits generalizing n with
  | nil => simp
  | cons c digits ih =>
    rw [Nat.ofDigitChars_cons] at small ⊢
    have next := Nat.lt_of_le_of_lt (le_ofDigitChars _ digits) small
    rw [List.cons_append, readDigits, if_pos (all c List.mem_cons_self), if_pos next]
    exact ih (fun d inside => all d (List.mem_cons_of_mem c inside)) small

theorem readDigits_of_fits (fits : Fits digits) :
    readDigits 0 digits = .ok (Nat.ofDigitChars 10 digits 0) := by
  simpa [readDigits] using readDigits_append [] fits.1 fits.2

theorem readDigits_at_invalidDigit (fits : Fits before) (strange : ¬ c.isDigit) :
    readDigits 0 (before ++ c :: after) = .error .invalidDigit := by
  rw [readDigits_append _ fits.1 fits.2, readDigits, if_neg strange]

theorem readDigits_at_tooLarge (fits : Fits before) (digit : c.isDigit)
    (large : UInt64.size ≤ Nat.ofDigitChars 10 (before ++ [c]) 0) :
    readDigits 0 (before ++ c :: after) = .error .tooLarge := by
  rw [Nat.ofDigitChars_append, Nat.ofDigitChars_cons, Nat.ofDigitChars_nil] at large
  rw [readDigits_append _ fits.1 fits.2, readDigits, if_pos digit, if_neg (by omega)]

theorem numeral_eq_nil_iff : numeral text = [] ↔ text = "" ∨ text = "+" := by
  have sign : text = "+" ↔ text.toList = ['+'] := by rw [← String.toList_inj]; rfl
  rw [sign, ← String.toList_eq_nil_iff, numeral]
  split <;> simp_all

theorem readNumber_of_numeral (filled : numeral text ≠ []) :
    readNumber text = (readDigits 0 (numeral text)).map UInt64.ofNat := by
  unfold readNumber numeral at *
  split <;> simp_all

theorem readNumber_of_isNumber (number : IsNumber text n) : readNumber text = .ok n := by
  obtain ⟨filled, all, value⟩ := number
  have fits : Fits (numeral text) := ⟨all, value ▸ n.toNat_lt_size⟩
  rw [readNumber_of_numeral filled, readDigits_of_fits fits, value, Except.map, UInt64.ofNat_toNat]

theorem readNumber_of_notNumber (wrong : NotNumber text fault) :
    readNumber text = .error fault := by
  cases wrong with
  | empty blank => rw [blank]; rfl
  | onlySign sign => rw [sign]; rfl
  | invalidDigit split fits strange =>
    rw [readNumber_of_numeral (by simp [split]), split, readDigits_at_invalidDigit fits strange]
    rfl
  | tooLarge split fits digit large =>
    rw [readNumber_of_numeral (by simp [split]), split, readDigits_at_tooLarge fits digit large]
    rfl

/-- A text is a number, or there is a reason why it is none. -/
theorem isNumber_or_notNumber (text : String) :
    (∃ n, IsNumber text n) ∨ ∃ fault, NotNumber text fault := by
  by_cases filled : numeral text = []
  · rcases numeral_eq_nil_iff.mp filled with blank | sign
    · exact .inr ⟨_, .empty blank⟩
    · exact .inr ⟨_, .onlySign sign⟩
  rcases fits_or_exists_first (numeral text) with
    ⟨all, small⟩ | ⟨before, c, after, split, fits, first⟩
  · exact .inl ⟨UInt64.ofNatLT _ small, filled, all, by simp⟩
  rw [fits_concat_iff fits] at first
  by_cases digit : c.isDigit
  · exact .inr ⟨_, .tooLarge split fits digit (by simpa [digit] using first)⟩
  · exact .inr ⟨_, .invalidDigit split fits digit⟩

theorem readNumber_eq_ok_iff : readNumber text = .ok n ↔ IsNumber text n := by
  refine ⟨fun read => ?_, readNumber_of_isNumber⟩
  rcases isNumber_or_notNumber text with ⟨m, number⟩ | ⟨fault, wrong⟩
  · rw [readNumber_of_isNumber number] at read
    cases read
    exact number
  · rw [readNumber_of_notNumber wrong] at read
    cases read

theorem readNumber_eq_error_iff : readNumber text = .error fault ↔ NotNumber text fault := by
  refine ⟨fun read => ?_, readNumber_of_notNumber⟩
  rcases isNumber_or_notNumber text with ⟨m, number⟩ | ⟨fault', wrong⟩
  · rw [readNumber_of_isNumber number] at read
    cases read
  · rw [readNumber_of_notNumber wrong] at read
    cases read
    exact wrong

theorem IsNumber.unique {m : UInt64} (number : IsNumber text n) (other : IsNumber text m) :
    n = m := by
  rw [← readNumber_eq_ok_iff] at number other
  exact Except.ok.inj (number.symm.trans other)

theorem NotNumber.unique (wrong : NotNumber text fault) (other : NotNumber text fault') :
    fault = fault' := by
  rw [← readNumber_eq_error_iff] at wrong other
  exact Except.error.inj (wrong.symm.trans other)

theorem NotNumber.not_isNumber (wrong : NotNumber text fault) : ¬ IsNumber text n := by
  rw [← readNumber_eq_error_iff] at wrong
  rw [← readNumber_eq_ok_iff, wrong]
  exact nofun

/-! ## Items -/

/-- What arguments consist of. -/
inductive Item
  | option (flag : Flag) (value : Option String)
  | unknown (argument : String)
  | path (argument : String)

/-- Arguments are these items. A flag takes the argument after it, whatever that is, and
only at the end is there none. -/
inductive Reads : List String → List Item → Prop
  | nil : Reads [] []
  | valueless {argument : String} {flag : Flag} :
    argument = flag.word → Reads [argument] [.option flag none]
  | option {argument value : String} {rest : List String} {flag : Flag} {items : List Item} :
    argument = flag.word → Reads rest items →
      Reads (argument :: value :: rest) (.option flag (some value) :: items)
  | unknown {argument : String} {rest : List String} {items : List Item} :
    (∀ flag : Flag, argument ≠ flag.word) → "--".toList <+: argument.toList → Reads rest items →
      Reads (argument :: rest) (.unknown argument :: items)
  | path {argument : String} {rest : List String} {items : List Item} :
    ¬ "--".toList <+: argument.toList → Reads rest items →
      Reads (argument :: rest) (.path argument :: items)

/-- The path that an item is. -/
def Item.path? : Item → Option String
  | path argument => some argument
  | _ => none

/-- The value that an item has for a flag. -/
def Item.valueFor? (flag : Flag) : Item → Option String
  | option other value => if other = flag then value else none
  | _ => none

/-- The paths among items. -/
def paths (items : List Item) : List String :=
  items.filterMap Item.path?

/-- The value that items have last for a flag. -/
def lastValue (flag : Flag) (items : List Item) : Option String :=
  (items.filterMap (Item.valueFor? flag)).getLast?

/-- Nothing is wrong with an item itself: it is a path, or a flag with a number. -/
def Item.Good : Item → Prop
  | option _ (some value) => ∃ n, IsNumber value n
  | option _ none => False
  | unknown _ => False
  | path _ => True

/-- Nothing is wrong with items so far; a path may still come. -/
structure Blameless (items : List Item) : Prop where
  good : ∀ item ∈ items, item.Good
  paths : (paths items).length ≤ 1

/-- What an item does wrong, after those before it. -/
inductive Offends (before : List Item) : Item → ArgumentFault → Prop
  | missingValue (flag : Flag) : Offends before (.option flag none) (.missingValue flag)
  | notANumber {flag : Flag} {value : String} {fault : NumberFault} : NotNumber value fault →
      Offends before (.option flag (some value)) (.notANumber flag value fault)
  | unknown (argument : String) : Offends before (.unknown argument) (.unknownOption argument)
  | unexpected {argument : String} : paths before ≠ [] →
      Offends before (.path argument) (.unexpected argument)

/-- The number that a draft has for a flag. -/
def Draft.number (d : Draft) : Flag → Option UInt64
  | .timeoutMicros => d.timeoutMicros
  | .cancelAfterMs => d.cancelAfterMs

/-- Nothing is wrong with items and this is what they say: their path, if there is one, and
for each flag the number that comes last, if there is any. -/
structure Means (items : List Item) (d : Draft) : Prop where
  good : ∀ item ∈ items, item.Good
  file : paths items = d.file.toList
  number (flag : Flag) : Option.Rel IsNumber (lastValue flag items) (d.number flag)

/-- Arguments as a draft that is complete. -/
def Arguments.draft (a : Arguments) : Draft :=
  ⟨some a.file, a.timeoutMicros, a.cancelAfterMs⟩

/-- Items are not accepted: one of them gives offence after others that do not, or no path
has come when all have been read. -/
inductive Rejects (items : List Item) : ArgumentFault → Prop
  | offence {before : List Item} {item : Item} {after : List Item} {fault : ArgumentFault} :
    items = before ++ item :: after → Blameless before → Offends before item fault →
      Rejects items fault
  | noFile : Blameless items → paths items = [] → Rejects items .noFile

/-- What reading arguments may come to when they are these items. -/
def Tells (items : List Item) : Except ArgumentFault Arguments → Prop
  | .ok a => Means items a.draft
  | .error fault => Rejects items fault

section

variable {flag : Flag} {value argument : String} {n : UInt64} {arguments : List String}
  {item : Item} {items other before after : List Item} {d e : Draft} {fault fault' : ArgumentFault}

/-! ## Arguments are one list of items -/

theorem Flag.ofWord?_word (flag : Flag) : ofWord? flag.word = some flag := by
  cases flag <;> decide

theorem Flag.ofWord?_eq_none (other : ∀ flag : Flag, argument ≠ flag.word) :
    ofWord? argument = none := by
  rw [ofWord?, if_neg (other _), if_neg (other _)]

theorem Flag.word_injective {flag other : Flag} (same : flag.word = other.word) : flag = other := by
  have := ofWord?_word flag
  rw [same, ofWord?_word] at this
  exact (Option.some.inj this).symm

theorem Flag.dashed (flag : Flag) : "--".toList <+: flag.word.toList := by
  cases flag <;> decide

theorem looksLikeFlag_iff : looksLikeFlag argument ↔ "--".toList <+: argument.toList := by
  rw [looksLikeFlag, decide_eq_true_iff, List.prefix_iff_eq_take, eq_comm]
  rfl

theorem exists_reads : ∀ arguments, ∃ items, Reads arguments items
  | [] => ⟨[], .nil⟩
  | argument :: rest => by
    by_cases word : ∃ flag : Flag, argument = flag.word
    · obtain ⟨flag, word⟩ := word
      match rest with
      | [] => exact ⟨_, .valueless word⟩
      | value :: rest =>
        obtain ⟨items, reads⟩ := exists_reads rest
        exact ⟨_, .option word reads⟩
    · obtain ⟨items, reads⟩ := exists_reads rest
      by_cases dashed : "--".toList <+: argument.toList
      · exact ⟨_, .unknown (not_exists.mp word) dashed reads⟩
      · exact ⟨_, .path dashed reads⟩

theorem Reads.unique (reads : Reads arguments items) (reads' : Reads arguments other) :
    items = other := by
  induction reads generalizing other with
  | nil => cases reads'; rfl
  | valueless word =>
    cases reads' with
    | valueless word' => rw [Flag.word_injective (word.symm.trans word')]
    | unknown none => exact absurd word (none _)
    | path plain => exact absurd (word ▸ Flag.dashed _) plain
  | option word reads ih =>
    cases reads' with
    | option word' reads' => rw [Flag.word_injective (word.symm.trans word'), ih reads']
    | unknown none => exact absurd word (none _)
    | path plain => exact absurd (word ▸ Flag.dashed _) plain
  | unknown none dashed reads ih =>
    cases reads' with
    | valueless word => exact absurd word (none _)
    | option word => exact absurd word (none _)
    | unknown _ _ reads' => rw [ih reads']
    | path plain => exact absurd dashed plain
  | path plain reads ih =>
    cases reads' with
    | valueless word => exact absurd (word ▸ Flag.dashed _) plain
    | option word => exact absurd (word ▸ Flag.dashed _) plain
    | unknown _ dashed => exact absurd dashed plain
    | path _ reads' => rw [ih reads']

/-! ## Items say one thing -/

theorem paths_append (items more : List Item) :
    paths (items ++ more) = paths items ++ paths more :=
  List.filterMap_append ..

theorem lastValue_concat (flag : Flag) (items : List Item) (item : Item) :
    lastValue flag (items ++ [item]) = (item.valueFor? flag).or (lastValue flag items) := by
  rw [lastValue, List.filterMap_append, List.getLast?_append]
  cases value : item.valueFor? flag <;> simp [lastValue, value]

theorem Draft.set_number (d : Draft) (flag other : Flag) (n : UInt64) :
    (d.set flag n).number other = if flag = other then some n else d.number other := by
  cases flag <;> cases other <;> rfl

theorem Draft.set_file (d : Draft) (flag : Flag) (n : UInt64) : (d.set flag n).file = d.file := by
  cases flag <;> rfl

theorem Draft.ext_number (file : d.file = e.file) (number : ∀ flag, d.number flag = e.number flag) :
    d = e := by
  have micros : d.timeoutMicros = e.timeoutMicros := number .timeoutMicros
  have ms : d.cancelAfterMs = e.cancelAfterMs := number .cancelAfterMs
  cases d
  simp_all

theorem Means.unique (means : Means items d) (means' : Means items e) : d = e := by
  refine Draft.ext_number ?_ fun flag => ?_
  · have same := means.file.symm.trans means'.file
    cases file : d.file <;> cases file' : e.file <;> simp_all
  · have number := means.number flag
    have number' := means'.number flag
    generalize lastValue flag items = last at number number'
    generalize d.number flag = n at number ⊢
    generalize e.number flag = m at number' ⊢
    cases number with
    | none => cases number'; rfl
    | some number => cases number' with
      | some number' => rw [number.unique number']

theorem Arguments.draft_injective {a b : Arguments} (same : a.draft = b.draft) : a = b := by
  cases a
  cases b
  simp_all [draft]

theorem Means.blameless (means : Means items d) : Blameless items :=
  ⟨means.good, by rw [means.file]; cases d.file <;> simp⟩

theorem Offends.not_blameless (offends : Offends before item fault) :
    ¬ Blameless (before ++ item :: after) := by
  rintro ⟨good, single⟩
  have good := good item (by simp)
  cases offends with
  | missingValue flag => exact good
  | notANumber wrong => exact good.elim fun n => wrong.not_isNumber
  | unknown argument => exact good
  | @unexpected argument some =>
    have early : 0 < (paths before).length := List.length_pos_iff.mpr some
    have here : paths (.path argument :: after) = argument :: paths after := rfl
    rw [paths_append, here, List.length_append, List.length_cons] at single
    omega

theorem Offends.unique (offends : Offends before item fault)
    (offends' : Offends before item fault') : fault = fault' := by
  cases offends with
  | notANumber wrong => cases offends' with
    | notANumber wrong' => rw [wrong.unique wrong']
  | _ => cases offends'; rfl

/-- Items before the leftmost offence do not reach past any offence. -/
theorem Offends.length_le {rest : List Item} (offends : Offends before item fault)
    (blameless : Blameless other) (same : before ++ item :: after = other ++ rest) :
    other.length ≤ before.length := by
  refine Nat.le_of_not_lt fun longer => ?_
  have first : before ++ [item] <+: before ++ item :: after := ⟨after, by simp⟩
  obtain ⟨more, rfl⟩ : before ++ [item] <+: other :=
    List.prefix_of_prefix_length_le first ⟨rest, same.symm⟩ (by simp; omega)
  rw [List.append_assoc] at blameless
  exact offends.not_blameless blameless

theorem Rejects.unique (rejects : Rejects items fault) (rejects' : Rejects items fault') :
    fault = fault' := by
  cases rejects with
  | noFile blameless => cases rejects' with
    | noFile => rfl
    | offence split _ offends => exact absurd (split ▸ blameless) offends.not_blameless
  | offence split blameless offends => cases rejects' with
    | noFile blameless' => exact absurd (split ▸ blameless') offends.not_blameless
    | offence split' blameless' offends' =>
      have same := split.symm.trans split'
      have le := offends.length_le blameless' same
      have ge := offends'.length_le blameless same.symm
      obtain ⟨rfl, tail⟩ := List.append_inj same (Nat.le_antisymm ge le)
      obtain ⟨rfl, -⟩ := List.cons.inj tail
      exact offends.unique offends'

theorem Rejects.not_says {a : Arguments} (rejects : Rejects items fault) :
    ¬ Means items a.draft := by
  intro means
  cases rejects with
  | offence split _ offends => exact offends.not_blameless (split ▸ means.blameless)
  | noFile _ none => simp [means.file, Arguments.draft] at none

theorem Tells.unique {outcome outcome' : Except ArgumentFault Arguments}
    (tells : Tells items outcome) (tells' : Tells items outcome') : outcome = outcome' := by
  cases outcome <;> cases outcome'
  · exact congrArg _ (Rejects.unique tells tells')
  · exact absurd tells' (Rejects.not_says tells)
  · exact absurd tells (Rejects.not_says tells')
  · exact congrArg _ (Arguments.draft_injective (Means.unique tells tells'))

/-! ## The reader goes from item to item -/

theorem Means.nil : Means [] ⟨none, none, none⟩ :=
  ⟨by simp, rfl, fun flag => by cases flag <;> exact .none⟩

theorem Means.option (means : Means before d) (number : IsNumber value n) :
    Means (before ++ [.option flag (some value)]) (d.set flag n) where
  good item inside := by
    rcases List.mem_append.mp inside with early | last
    · exact means.good item early
    · exact List.mem_singleton.mp last ▸ ⟨n, number⟩
  file := by rw [paths_append, means.file, d.set_file]; exact List.append_nil _
  number other := by
    rw [lastValue_concat, d.set_number, Item.valueFor?]
    split
    · exact .some number
    · exact means.number other

theorem Means.path (means : Means before d) (noFile : d.file = none) :
    Means (before ++ [.path argument]) { d with file := some argument } where
  good item inside := by
    rcases List.mem_append.mp inside with early | last
    · exact means.good item early
    · exact List.mem_singleton.mp last ▸ trivial
  file := by rw [paths_append, means.file, noFile]; rfl
  number flag := by rw [lastValue_concat]; exact means.number flag

/-- What reading arguments on comes to, when the draft means what the items before say. -/
theorem parseFrom_spec (reads : Reads arguments items) (means : Means before d) :
    Tells (before ++ items) (Arguments.parseFrom d arguments) := by
  induction reads generalizing before d with
  | nil =>
    rw [Arguments.parseFrom, List.append_nil]
    cases file : d.file with
    | none => exact .noFile means.blameless (by rw [means.file, file]; rfl)
    | some path =>
      have complete : Arguments.draft ⟨path, d.timeoutMicros, d.cancelAfterMs⟩ = d := by
        rw [Arguments.draft, ← file]
      exact complete ▸ means
  | valueless word =>
    rw [Arguments.parseFrom, word, Flag.ofWord?_word]
    exact .offence rfl means.blameless (.missingValue _)
  | @option argument value rest flag items word reads ih =>
    rw [Arguments.parseFrom, word, Flag.ofWord?_word]
    cases read : readNumber value with
    | error fault =>
      simp only [read]
      exact .offence rfl means.blameless (.notANumber (readNumber_eq_error_iff.mp read))
    | ok n =>
      rw [List.append_cons]
      simpa only [read] using ih (means.option (readNumber_eq_ok_iff.mp read))
  | unknown none dashed reads ih =>
    rw [Arguments.parseFrom, Flag.ofWord?_eq_none none, if_pos (looksLikeFlag_iff.mpr dashed)]
    exact .offence rfl means.blameless (.unknown _)
  | @path argument rest items plain reads ih =>
    have noFlag : Flag.ofWord? argument = none :=
      Flag.ofWord?_eq_none fun flag same => plain (same ▸ flag.dashed)
    rw [Arguments.parseFrom, noFlag, if_neg (mt looksLikeFlag_iff.mp plain)]
    cases file : d.file with
    | none =>
      rw [List.append_cons]
      exact ih (means.path file)
    | some path =>
      exact .offence rfl means.blameless (.unexpected (by simp [means.file, file]))

/-- Whatever the arguments are, they are one list of items and no other. They are accepted
just when each item is in order and one of them, and only one, is a path; what comes of them
is what the items say. Otherwise the fault is that of the leftmost item that gives offence,
and that there is no path only if none does. -/
theorem parse_follows_grammar (arguments : List String) :
    ∃ items, (∀ other, Reads arguments other ↔ other = items) ∧
      ((∃ a, Arguments.parse arguments = .ok a) ↔
        (∀ item ∈ items, item.Good) ∧ ∃ file, paths items = [file]) ∧
      (∀ a, Arguments.parse arguments = .ok a ↔ Means items a.draft) ∧
      ∀ fault, Arguments.parse arguments = .error fault ↔ Rejects items fault := by
  obtain ⟨items, reads⟩ := exists_reads arguments
  have told : Tells items (Arguments.parse arguments) := parseFrom_spec reads Means.nil
  have iff (outcome) : Arguments.parse arguments = outcome ↔ Tells items outcome :=
    ⟨fun same => same ▸ told, told.unique⟩
  refine ⟨items, fun other => ⟨fun reads' => reads'.unique reads, fun same => same ▸ reads⟩, ?_,
    fun a => iff (.ok a), fun fault => iff (.error fault)⟩
  constructor
  · rintro ⟨a, parsed⟩
    have means : Means items a.draft := (iff _).mp parsed
    exact ⟨means.good, a.file, means.file⟩
  · rintro ⟨good, file, single⟩
    have blameless : Blameless items := ⟨good, by simp [single]⟩
    cases outcome : Arguments.parse arguments with
    | ok a => exact ⟨a, rfl⟩
    | error fault =>
      cases (iff _).mp outcome with
      | offence split _ offends => exact absurd (split ▸ blameless) offends.not_blameless
      | noFile _ none => simp [single] at none

/-- A flag takes another flag for its value, and what is wrong behind it is not told. -/
example : Arguments.parse ["--timeout-micros", "--cancel-after-ms", "notes.md", "--verbose"] =
    .error (.notANumber .timeoutMicros "--cancel-after-ms" .invalidDigit) := by
  rfl

end

end HostParsing.Command
