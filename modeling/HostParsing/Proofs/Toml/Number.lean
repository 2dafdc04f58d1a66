import HostParsing.Toml.Statement
/-!
# Writing and reading a number

The decimal digits of a number are read as that number, and as nothing else: neither as a
truth value nor as a date or a time (`word?_toDigits`).
-/

namespace HostParsing.Toml

variable {cs rest : List Char} {c : Char} {n : Nat}

/-! ## Digits -/

theorem digitValue?_of_isDigit (digit : c.isDigit = true) :
    digitValue? c = some (c.toNat - '0'.toNat) ∧ c.toNat - '0'.toNat < 10 := by
  simp only [Char.isDigit, Bool.and_eq_true, decide_eq_true_eq] at digit
  have low : 48 ≤ c.toNat := digit.1
  have high : c.toNat ≤ 57 := digit.2
  have zero : '0'.toNat = 48 := rfl
  exact ⟨if_pos digit, by omega⟩

theorem digits?_of_isDigit (digits : ∀ c ∈ cs, c.isDigit = true) {between : Bool}
    (filled : between = true ∨ cs ≠ []) :
    digits? 10 between cs = some (cs.map fun c => c.toNat - '0'.toNat) := by
  induction cs generalizing between with
  | nil => rw [digits?, if_pos (filled.resolve_right fun more => more rfl)]; rfl
  | cons c cs ih =>
    obtain ⟨value, small⟩ := digitValue?_of_isDigit (digits c List.mem_cons_self)
    have others := ih (fun c inside => digits c (List.mem_cons_of_mem _ inside)) (.inl rfl)
    simp only [digits?, value, Option.filter_some, small, decide_true, if_true, others,
      Option.map_some, List.map_cons]

/-- A run of digits is read as the number that they write. -/
theorem natural?_of_isDigit (digits : ∀ c ∈ cs, c.isDigit = true) (filled : cs ≠ []) :
    natural? 10 cs = some (Nat.ofDigitChars 10 cs 0) := by
  rw [natural?, digits?_of_isDigit digits (.inr filled), Option.map_some, ofDigits,
    List.foldl_map, Nat.ofDigitChars_eq_foldl]

/-- No number but 0 starts with a zero. -/
theorem head?_toDigits (starts : (Nat.toDigits 10 n).head? = some '0') : n = 0 := by
  induction n using Nat.strongRecOn with
  | ind n ih =>
    rw [Nat.toDigits_eq_if (by decide)] at starts
    split at starts
    · exact Nat.digitChar_eq_zero.mp (Option.some.inj starts)
    · obtain ⟨first, more, shape⟩ := List.exists_cons_of_ne_nil (@Nat.toDigits_ne_nil (n / 10) 10)
      have tens := ih (n / 10) (by omega)
      rw [shape] at starts tens
      have := tens starts
      omega

theorem decimal?_toDigits (n : Nat) : decimal? (Nat.toDigits 10 n) = some n := by
  have single : ¬ ((Nat.toDigits 10 n).head? = some '0' ∧ (Nat.toDigits 10 n).length ≠ 1) := by
    rintro ⟨starts, more⟩
    rw [head?_toDigits starts] at more
    exact more rfl
  rw [decimal?, if_neg single, natural?_of_isDigit
    (fun c inside => Nat.isDigit_of_mem_toDigits (by decide) (by decide) inside) Nat.toDigits_ne_nil,
    Nat.ofDigitChars_ten_toDigits]

/-- Digits have neither a sign nor the mark of a radix. -/
theorem unboundedInteger?_of_isDigit (digits : ∀ c ∈ cs, c.isDigit = true) :
    unboundedInteger? cs = (decimal? cs).map Int.ofNat := by
  unfold unboundedInteger?
  split
  · exact absurd (digits 'x' (by simp)) (by decide)
  · exact absurd (digits 'o' (by simp)) (by decide)
  · exact absurd (digits 'b' (by simp)) (by decide)
  · exact absurd (digits '+' (by simp)) (by decide)
  · exact absurd (digits '-' (by simp)) (by decide)
  · rfl

/-! ## Dates and times -/

theorem mem_of_twoDigits? {value : Nat} (taken : twoDigits? cs = some (value, rest)) :
    ∀ c ∈ rest, c ∈ cs := by
  rcases cs with _ | ⟨a, _ | ⟨b, more⟩⟩
  · cases taken
  · cases taken
  · rw [twoDigits?] at taken
    split at taken
    · cases taken
      exact fun c inside => List.mem_cons_of_mem _ (List.mem_cons_of_mem _ inside)
    · cases taken

/-- What is not there cannot be expected. -/
theorem expect?_of_not_mem {wanted : Char} (absent : wanted ∉ cs) : expect? wanted cs = none := by
  cases cs with
  | nil => rfl
  | cons c cs =>
    refine if_neg ?_
    rintro rfl
    exact absent List.mem_cons_self

theorem afterDate?_of_not_mem (absent : '-' ∉ cs) : afterDate? cs = none := by
  rw [afterDate?]
  cases first : twoDigits? cs with
  | none => rfl
  | some century =>
    cases second : twoDigits? century.2 with
    | none => simp only [Option.bind_eq_bind, Option.bind_some, second, Option.bind_none]
    | some year =>
      have gone : '-' ∉ year.2 := fun inside =>
        absent (mem_of_twoDigits? first _ (mem_of_twoDigits? second _ inside))
      simp only [Option.bind_eq_bind, Option.bind_some, second, expect?_of_not_mem gone,
        Option.bind_none]

theorem afterTime?_of_not_mem (absent : ':' ∉ cs) : afterTime? cs = none := by
  rw [afterTime?, afterMinutes?]
  cases first : twoDigits? cs with
  | none => rfl
  | some hour =>
    have gone : ':' ∉ hour.2 := fun inside => absent (mem_of_twoDigits? first _ inside)
    simp only [Option.bind_eq_bind, Option.bind_some, expect?_of_not_mem gone, Option.bind_none]

theorem isMoment_of_isDigit (digits : ∀ c ∈ cs, c.isDigit = true) : isMoment cs = false := by
  have dash : '-' ∉ cs := fun inside => absurd (digits _ inside) (by decide)
  have colon : ':' ∉ cs := fun inside => absurd (digits _ inside) (by decide)
  rw [isMoment, afterDate?_of_not_mem dash, afterTime?_of_not_mem colon]
  rfl

/-- The digits of a number of 64 bits are read as that number. -/
theorem word?_toDigits (small : n < UInt64.size) :
    word? (Nat.toDigits 10 n) = some (.integer n) := by
  have digits (c : Char) (inside : c ∈ Nat.toDigits 10 n) : c.isDigit = true :=
    Nat.isDigit_of_mem_toDigits (by decide) (by decide) inside
  have letter (word : List Char) (c : Char) (inside : c ∈ word) (other : c.isDigit = false) :
      Nat.toDigits 10 n ≠ word := by
    rintro rfl
    exact Bool.false_ne_true (other.symm.trans (digits c inside))
  have read : integer? (Nat.toDigits 10 n) = some (n : Int) := by
    have inRange : (decide (-(Int.pow 2 127) ≤ (n : Int)) && decide ((n : Int) < Int.pow 2 128)) =
        true := by
      have small : n < 18446744073709551616 := small
      simp only [Bool.and_eq_true, decide_eq_true_eq]
      show -(2 ^ 127 : Int) ≤ n ∧ (n : Int) < 2 ^ 128
      omega
    rw [integer?, unboundedInteger?_of_isDigit digits, decimal?_toDigits, Option.map_some,
      Option.filter_some, Int.ofNat_eq_natCast, if_pos inRange]
  rw [word?, if_neg (letter _ 't' (by decide) rfl), if_neg (letter _ 'f' (by decide) rfl),
    isMoment_of_isDigit digits, read]
  rfl

end HostParsing.Toml
