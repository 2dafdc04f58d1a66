import HostParsing.Toml.Writer
import Mathlib.Tactic.SplitIfs
/-!
# Quoting and reading a text

A text that is written in quotes is read as it was (`readQuoted?_writeQuoted`), whichever
of the four styles it is written in. Quotes that stand for themselves are what makes this
more than one step for each character: three in a row would close the text, so a reader
holds them back until it sees what follows (`pending`), and no style lets more of them
stand in a row than a reader may hold back (`Style.surplus`).
-/

namespace HostParsing.Toml

variable {style : Style} {mode mode' : Mode} {c : Char} {cs rest text after added : List Char}
  {run best : Nat}

/-- How many quotes in a row may be part of a text. -/
def Style.surplus (style : Style) : Nat :=
  if style.triple then 2 else 0

/-- Where a reader is after quotes that may be part of the text. -/
def pending : Nat → Mode
  | 0 => .plain
  | count + 1 => .quotes (count + 1)

/-! ## One character -/

theorem scan_of_go (moved : move style mode c = .go added mode')
    (read : scan style mode' rest = some (text, after)) :
    scan style mode (c :: rest) = some (added ++ text, after) := by
  rw [scan, moved]
  simp only [read, Option.map_some]

/-- Line ends are not plain. -/
theorem not_lineEnd_of_isPlain (plain : isPlain c = true) : c ≠ '\n' ∧ c ≠ '\r' := by
  constructor
  · rintro rfl
    exact absurd plain (by decide)
  · rintro rfl
    exact absurd plain (by decide)

/-- A plain character stands for itself if it is not the quote, and not the backslash where
that has a meaning. -/
theorem move_of_isPlain (plain : isPlain c = true) (other : c ≠ style.quote)
    (literal : style.escapes = true → c ≠ backslash) : move style .plain c = .go [c] .plain := by
  have line := not_lineEnd_of_isPlain plain
  have escape : ¬ (style.escapes && decide (c = backslash)) = true := by
    simpa using literal
  simp only [move, plainMove, if_neg other, if_neg escape, line, decide_false, Bool.and_false,
    Bool.false_eq_true, if_false, plain, if_true]

/-- A quote is held back where more of them may be part of the text. -/
theorem scan_pending_quote (more : run < style.surplus)
    (read : scan style (pending (run + 1)) rest = some (text, after)) :
    scan style (pending run) (style.quote :: rest) = some (text, after) := by
  obtain ⟨quote, triple⟩ := style
  cases triple with
  | false => exact absurd more (Nat.not_lt_zero run)
  | true =>
    have more : run < 2 := more
    have moved : move ⟨quote, true⟩ (pending run) quote = .go [] (pending (run + 1)) := by
      cases run with
      | zero => exact if_pos rfl
      | succ count => exact (if_pos rfl).trans (if_pos more)
    exact scan_of_go moved read

/-- Another character tells that the quotes held back are part of the text. -/
theorem scan_pending_of_ne (other : c ≠ style.quote)
    (read : scan style .plain (c :: rest) = some (text, after)) :
    scan style (pending run) (c :: rest) = some (List.replicate run style.quote ++ text, after) := by
  cases run with
  | zero => exact read
  | succ count =>
    have moved : move style (pending (count + 1)) c =
        (plainMove style c).after (List.replicate (count + 1) style.quote) := if_neg other
    rw [scan, moved]
    rw [scan, move] at read
    cases plain : plainMove style c with
    | fail => rw [plain] at read; cases read
    | stop added => rw [plain] at read; cases read; rfl
    | stopBefore added => rw [plain] at read; cases read; rfl
    | go added mode =>
      rw [plain] at read
      obtain ⟨⟨more, left⟩, scanned, told⟩ := Option.map_eq_some_iff.mp read
      cases told
      simp only [Move.after, scanned, Option.map_some, List.append_assoc]

theorem scan_closing (ends : rest.head? ≠ some style.quote) (count : Nat) :
    scan style (.closing count) rest = some (List.replicate count style.quote, rest) := by
  cases rest with
  | nil => rfl
  | cons c rest =>
    have other : ¬ (c = style.quote ∧ count < 2) := fun same => ends (congrArg some same.1)
    rw [scan, move, if_neg other]

/-- The closing quotes leave those that were held back to the text. -/
theorem scan_quotes (few : run ≤ style.surplus) (ends : rest.head? ≠ some style.quote) :
    scan style (pending run) (style.quotes ++ rest) =
      some (List.replicate run style.quote, rest) := by
  obtain ⟨quote, triple⟩ := style
  cases triple with
  | false =>
    obtain rfl : run = 0 := Nat.le_zero.mp few
    have moved : move ⟨quote, false⟩ .plain quote = .stop [] := if_pos rfl
    show scan ⟨quote, false⟩ .plain (quote :: rest) = _
    rw [scan, moved]
    rfl
  | true =>
    have closed := scan_closing ends
    have opened : move ⟨quote, true⟩ .plain quote = .go [] (.quotes 1) := if_pos rfl
    have held : move ⟨quote, true⟩ (.quotes 1) quote = .go [] (.quotes 2) := if_pos rfl
    have closes : move ⟨quote, true⟩ (.quotes 2) quote = .go [] (.closing 0) := if_pos rfl
    have surplus (count : Nat) (few : count < 2) :
        move ⟨quote, true⟩ (.closing count) quote = .go [] (.closing (count + 1)) :=
      if_pos ⟨rfl, few⟩
    show scan ⟨quote, true⟩ (pending run) (quote :: quote :: quote :: rest) = _
    have few : run ≤ 2 := few
    obtain rfl | rfl | rfl : run = 0 ∨ run = 1 ∨ run = 2 := by omega
    · exact scan_of_go opened (scan_of_go held (scan_of_go closes (closed 0)))
    · exact scan_of_go held (scan_of_go closes (scan_of_go (surplus 0 (by decide)) (closed 1)))
    · exact scan_of_go closes (scan_of_go (surplus 0 (by decide))
        (scan_of_go (surplus 1 (by decide)) (closed 2)))

/-! ## Escapes -/

theorem digitValue?_upperDigit : ∀ n < 16, digitValue? (upperDigit n) = some n := by decide

theorem charOfCode?_toNat (c : Char) : charOfCode? c.toNat = some c := by
  have valid : c.toNat < 0xD800 ∨ (0xDFFF < c.toNat ∧ c.toNat < 0x110000) := c.valid
  rw [charOfCode?, if_pos valid, Char.ofNat_toNat]

theorem Style.lt_surplus_iff (style : Style) :
    run < style.surplus ↔ style.triple = true ∧ run < 2 := by
  rw [surplus]
  cases style.triple with
  | false => simp
  | true => simp

theorem escape_eq_cons (triple : Bool) (other : c ≠ quotationMark) :
    ∃ first more, escape triple c = first :: more ∧ first ≠ quotationMark := by
  have slash : backslash ≠ quotationMark := by decide
  rw [escape]
  split_ifs
  · exact ⟨_, _, rfl, slash⟩
  · exact ⟨_, _, rfl, slash⟩
  · exact ⟨_, _, rfl, slash⟩
  · exact ⟨_, _, rfl, slash⟩
  · exact ⟨_, _, rfl, slash⟩
  · exact ⟨_, _, rfl, by decide⟩
  · exact ⟨_, _, rfl, slash⟩
  · exact ⟨_, _, rfl, other⟩
  · exact ⟨_, _, rfl, slash⟩

section Doubled

variable (doubled : style.quote = quotationMark)

include doubled

theorem move_backslash : move style .plain backslash = .go [] .escape := by
  rw [move, plainMove, Style.escapes, doubled]
  rfl

/-- A backslash and a letter stand for one character. -/
theorem scan_letter {letter : Char} (named : escaped? letter = some c)
    (read : scan style .plain rest = some (text, after)) :
    scan style .plain (backslash :: letter :: rest) = some (c :: text, after) := by
  have moved : move style .escape letter = .go [c] .plain := by
    rw [move, escapeMove, named]
  exact scan_of_go (move_backslash doubled) (scan_of_go moved read)

/-- A backslash and four digits stand for the character with that code. -/
theorem scan_code (small : c.toNat < 0x100)
    (read : scan style .plain rest = some (text, after)) :
    scan style .plain (backslash :: 'u' :: '0' :: '0' :: upperDigit (c.toNat / 16) ::
      upperDigit (c.toNat % 16) :: rest) = some (c :: text, after) := by
  have digit (left value n : Nat) (more : 1 < left) (small : n < 16) :
      move style (.code left value) (upperDigit n) = .go [] (.code (left - 1) (16 * value + n)) := by
    rw [move, codeMove, digitValue?_upperDigit n small]
    exact if_neg (Nat.not_le.mpr more)
  have high := digit 2 0 (c.toNat / 16) (by decide) (by omega)
  rw [Nat.mul_zero, Nat.zero_add] at high
  have last : move style (.code 1 (c.toNat / 16)) (upperDigit (c.toNat % 16)) = .go [c] .plain := by
    have code : 16 * (c.toNat / 16) + c.toNat % 16 = c.toNat := Nat.div_add_mod _ _
    simp only [move, codeMove, digitValue?_upperDigit _ (Nat.mod_lt _ (by decide : 16 > 0)), code,
      charOfCode?_toNat]
    rfl
  have four : move style .escape 'u' = .go [] (.code 4 0) := rfl
  have zeros := scan_of_go (digit 4 0 0 (by decide) (by decide))
    (scan_of_go (digit 3 0 0 (by decide) (by decide)) (scan_of_go high (scan_of_go last read)))
  exact scan_of_go (move_backslash doubled) (scan_of_go four zeros)

/-- A character that is plain stands for itself. -/
theorem scan_escape (other : c ≠ quotationMark)
    (read : scan style .plain rest = some (text, after)) :
    scan style .plain (escape style.triple c ++ rest) = some (c :: text, after) := by
  rw [escape]
  split_ifs with backspace tab feed ret slash line triple plain
  · exact backspace ▸ scan_letter doubled rfl read
  · exact tab ▸ scan_letter doubled rfl read
  · exact feed ▸ scan_letter doubled rfl read
  · exact ret ▸ scan_letter doubled rfl read
  · subst slash
    exact scan_letter doubled rfl read
  · have moved : move style .plain '\n' = .go ['\n'] .plain := by
      rw [move, plainMove, Style.escapes, doubled, triple]
      rfl
    exact line ▸ scan_of_go moved read
  · exact line ▸ scan_letter doubled rfl read
  · exact scan_of_go (move_of_isPlain plain (doubled ▸ other) fun _ => slash) read
  · have low : c.toNat < 0x100 := by
      simp only [isPlain, Bool.or_eq_true, Bool.and_eq_true, decide_eq_true_eq, ne_eq] at plain
      omega
    exact scan_code doubled low read

/-- A text between double quotes is read as it was written; `run` quotes were held back
before it. -/
theorem scan_escapeAll (few : run ≤ style.surplus) (ends : rest.head? ≠ some style.quote) :
    scan style (pending run) (escapeAll style.triple run cs ++ (style.quotes ++ rest)) =
      some (List.replicate run style.quote ++ cs, rest) := by
  induction cs generalizing run with
  | nil =>
    rw [List.append_nil]
    exact scan_quotes few ends
  | cons c cs ih =>
    have fresh := ih (Nat.zero_le style.surplus)
    by_cases quote : c = quotationMark
    · obtain rfl : c = style.quote := quote.trans doubled.symm
      rw [escapeAll, if_pos quote]
      split
      · next literal =>
        have more := style.lt_surplus_iff.mpr literal
        rw [List.append_cons (List.replicate run _), ← List.replicate_succ']
        exact scan_pending_quote more (ih more)
      · have other : backslash ≠ style.quote := doubled ▸ by decide
        have named : escaped? style.quote = some style.quote := doubled ▸ rfl
        exact scan_pending_of_ne other (scan_letter doubled named fresh)
    · have written : escapeAll style.triple run (c :: cs) =
          escape style.triple c ++ escapeAll style.triple 0 cs := if_neg quote
      obtain ⟨first, more, starts, other⟩ := escape_eq_cons style.triple quote
      have read := scan_escape doubled quote fresh
      rw [written, List.append_assoc]
      rw [starts] at read ⊢
      exact scan_pending_of_ne (doubled ▸ other) read

end Doubled

/-! ## Texts that stand for themselves -/

theorem run_le_longestRun (q : Char) (cs : List Char) :
    ∀ run best, run ≤ longestRun q run best cs ∧ best ≤ longestRun q run best cs := by
  induction cs with
  | nil => exact fun run best => ⟨Nat.le_max_left .., Nat.le_max_right ..⟩
  | cons c cs ih =>
    intro run best
    rw [longestRun]
    split
    · have := ih (run + 1) best
      omega
    · have := ih 0 (max run best)
      omega

/-- A text between single quotes is read as it stands there; `run` quotes were held back
before it. -/
theorem scan_raw (single : style.quote = apostrophe)
    (readable : ∀ c ∈ cs, isPlain c = true ∨ c = '\n' ∧ style.triple = true)
    (runs : longestRun style.quote run best cs ≤ style.surplus)
    (ends : rest.head? ≠ some style.quote) :
    scan style (pending run) (cs ++ (style.quotes ++ rest)) =
      some (List.replicate run style.quote ++ cs, rest) := by
  induction cs generalizing run best with
  | nil =>
    rw [List.append_nil]
    exact scan_quotes (Nat.le_trans (run_le_longestRun style.quote [] run best).1 runs) ends
  | cons c cs ih =>
    have others := fun c inside => readable c (List.mem_cons_of_mem _ inside)
    rw [longestRun] at runs
    by_cases quote : c = style.quote
    · subst quote
      rw [if_pos rfl] at runs
      have more := Nat.le_trans (run_le_longestRun style.quote cs (run + 1) best).1 runs
      rw [List.append_cons (List.replicate run _), ← List.replicate_succ']
      exact scan_pending_quote more (ih others runs)
    · rw [if_neg quote] at runs
      have raw : style.escapes = false := by
        rw [Style.escapes, single]
        rfl
      have moved : move style .plain c = .go [c] .plain := by
        rcases readable c List.mem_cons_self with plain | ⟨rfl, triple⟩
        · exact move_of_isPlain plain quote fun escapes =>
            absurd (raw.symm.trans escapes) Bool.false_ne_true
        · rw [move, plainMove, if_neg quote, raw, triple]
          rfl
      have read := scan_of_go moved (ih others runs)
      exact scan_pending_of_ne quote read

/-! ## The whole text -/

theorem chooseStyle_spec (cs : List Char) :
    (chooseStyle cs).quote = quotationMark ∨
      (chooseStyle cs).quote = apostrophe ∧
      (∀ c ∈ cs, isPlain c = true ∨ c = '\n' ∧ (chooseStyle cs).triple = true) ∧
      longestRun (chooseStyle cs).quote 0 0 cs ≤ (chooseStyle cs).surplus := by
  have readable (codes : cs.any needsCode = false) (c : Char) (inside : c ∈ cs) :
      isPlain c = true ∨ c = '\n' := by
    have literal := List.any_eq_false.mp codes c inside
    simp only [needsCode, Bool.and_eq_true, Bool.not_eq_true', decide_eq_true_eq, not_and,
      ne_eq, Decidable.not_not] at literal
    cases plain : isPlain c with
    | true => exact .inl rfl
    | false => exact .inr (literal plain)
  unfold chooseStyle
  dsimp only
  split_ifs with one two three four
  · exact .inl rfl
  · simp only [Bool.and_eq_true, Bool.not_eq_true', decide_eq_true_eq] at two
    refine .inr ⟨rfl, fun c inside => .inl ?_, Nat.le_of_eq two.2⟩
    refine (readable two.1.1 c inside).resolve_right fun line => ?_
    exact absurd (List.contains_iff_mem.mpr (line ▸ inside)) (Bool.eq_false_iff.mp two.1.2)
  · exact .inl rfl
  · simp only [Bool.and_eq_true, Bool.not_eq_true', decide_eq_true_eq] at four
    exact .inr ⟨rfl, fun c inside => (readable four.1 c inside).imp_right (⟨·, rfl⟩), four.2⟩
  · exact .inl rfl

theorem quote_chooseStyle (cs : List Char) :
    (chooseStyle cs).quote = quotationMark ∨ (chooseStyle cs).quote = apostrophe :=
  (chooseStyle_spec cs).imp_right And.left

theorem writeQuoted_eq_cons (cs : List Char) :
    ∃ q more, writeQuoted cs = q :: more ∧ (q = quotationMark ∨ q = apostrophe) := by
  have quote := quote_chooseStyle cs
  rw [writeQuoted]
  generalize chooseStyle cs = style at quote ⊢
  obtain ⟨q, triple⟩ := style
  cases triple with
  | false => exact ⟨q, _, rfl, quote⟩
  | true => exact ⟨q, _, rfl, quote⟩

/-- What stands between the quotes is read as the text, in the style chosen for it. -/
theorem scan_chooseStyle (ends : rest.head? ≠ some (chooseStyle cs).quote) :
    let style := chooseStyle cs
    scan style .plain ((if style.escapes then escapeAll style.triple 0 cs else cs) ++
      (style.quotes ++ rest)) = some (cs, rest) := by
  intro style
  rcases chooseStyle_spec cs with doubled | ⟨single, readable, runs⟩
  · have escapes : style.escapes = true := decide_eq_true doubled
    rw [escapes, if_pos rfl]
    exact scan_escapeAll doubled (Nat.zero_le _) ends
  · have raw : style.escapes = false := by
      rw [Style.escapes, single]
      rfl
    rw [raw, if_neg Bool.false_ne_true]
    exact scan_raw single readable runs ends

/-- What a reader adds in front is in front of the text. -/
theorem exists_of_scan_go (moved : move style mode c = .go added mode')
    (read : scan style mode (c :: rest) = some (text, after)) :
    ∃ more, scan style mode' rest = some (more, after) ∧ text = added ++ more := by
  rw [scan, moved] at read
  obtain ⟨⟨more, left⟩, scanned, told⟩ := Option.map_eq_some_iff.mp read
  cases told
  exact ⟨more, scanned, rfl⟩

/-- A text without line ends does not start with one. -/
theorem newline?_of_scan {q : Char} (quote : q = quotationMark ∨ q = apostrophe)
    (read : scan ⟨q, true⟩ .plain cs = some (text, after)) (flat : '\n' ∉ text) :
    newline? cs = none := by
  unfold newline?
  split
  · have moved : move ⟨q, true⟩ .plain '\n' = .go ['\n'] .plain := by
      rcases quote with rfl | rfl <;> rfl
    obtain ⟨more, -, rfl⟩ := exists_of_scan_go moved read
    exact absurd List.mem_cons_self flat
  · have moved : move ⟨q, true⟩ .plain '\r' = .go ['\r'] .lineReturn := by
      rcases quote with rfl | rfl <;> rfl
    obtain ⟨more, next, rfl⟩ := exists_of_scan_go moved read
    have returned : move ⟨q, true⟩ .lineReturn '\n' = .go ['\n'] .plain := rfl
    obtain ⟨more, -, rfl⟩ := exists_of_scan_go returned next
    exact absurd (List.mem_cons_of_mem _ List.mem_cons_self) flat
  · rfl

/-- One quote opens a text on one line. Were there two and a third character, either the
third closes the text after the second, or they open one that may span lines. -/
theorem readQuoted?_single {q : Char} (quote : q = quotationMark ∨ q = apostrophe)
    (read : scan ⟨q, false⟩ .plain cs = some (text, after)) (ends : after.head? ≠ some q) :
    readQuoted? (q :: cs) = some (text, after) := by
  rcases cs with _ | ⟨second, _ | ⟨third, body⟩⟩
  · exact (if_pos quote).trans read
  · exact (if_pos quote).trans read
  · refine (if_pos quote).trans ((if_neg fun same => ends ?_).trans read)
    obtain ⟨rfl, rfl⟩ := same
    have closes : move ⟨third, false⟩ .plain third = .stop [] := if_pos rfl
    rw [scan, closes] at read
    cases read
    rfl

/-- What is written in quotes is read as it was, if no further quote follows. -/
theorem readQuoted?_writeQuoted (cs : List Char)
    (ends : rest.head? ≠ some (chooseStyle cs).quote) :
    readQuoted? (writeQuoted cs ++ rest) = some (cs, rest) := by
  have read := scan_chooseStyle ends
  have quote := quote_chooseStyle cs
  rw [writeQuoted]
  generalize chooseStyle cs = style at ends read quote
  dsimp only at read ⊢
  generalize (if style.escapes then escapeAll style.triple 0 cs else cs) = body at read ⊢
  obtain ⟨q, triple⟩ := style
  cases triple with
  | false =>
    have written : (Style.quotes ⟨q, false⟩ ++ [] ++ body ++ Style.quotes ⟨q, false⟩) ++ rest =
        q :: (body ++ (Style.quotes ⟨q, false⟩ ++ rest)) := by
      simp only [Style.quotes, List.append_assoc]
      rfl
    exact (congrArg readQuoted? written).trans (readQuoted?_single quote read ends)
  | true =>
    have opened (inside : List Char) : readQuoted? (q :: q :: q :: inside) =
        scan ⟨q, true⟩ .plain ((newline? inside).getD inside) :=
      (if_pos quote).trans (if_pos ⟨rfl, rfl⟩)
    have written (first : List Char) :
        (Style.quotes ⟨q, true⟩ ++ first ++ body ++ Style.quotes ⟨q, true⟩) ++ rest =
          q :: q :: q :: (first ++ (body ++ (Style.quotes ⟨q, true⟩ ++ rest))) := by
      simp only [Style.quotes, List.append_assoc]
      rfl
    rw [written, opened]
    by_cases lines : '\n' ∈ cs
    · rw [if_pos ⟨rfl, List.contains_iff_mem.mpr lines⟩]
      exact read
    · rw [if_neg fun held => lines (List.contains_iff_mem.mp held.2), List.nil_append,
        newline?_of_scan quote read lines]
      exact read

end HostParsing.Toml
