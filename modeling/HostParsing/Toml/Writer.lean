import HostParsing.Toml.Quoted
/-!
# Writing texts

How a text is quoted when it is written: in the plainest of the four styles that
can hold it (`chooseStyle`). Between double quotes, characters that cannot stand
for themselves are escaped; between three double quotes a quote may stand for
itself unless two came right before it. A text with line ends starts on the line
after its opening quotes.
-/

namespace HostParsing.Toml

/-- The length of the longest run of a character, where a run of length `run` and
the longest before it, of length `best`, came in front. -/
def longestRun (q : Char) (run best : Nat) : List Char → Nat
  | [] => max run best
  | c :: rest =>
    if c = q then longestRun q (run + 1) best rest else longestRun q 0 (max run best) rest

/-- A control character other than the tab and the line feed. -/
def needsCode (c : Char) : Bool :=
  !isPlain c && c ≠ '\n'

/-- The style in which a text is written. -/
def chooseStyle (cs : List Char) : Style :=
  let codes := cs.any needsCode
  let backslashes := cs.contains backslash
  let lines := cs.contains '\n'
  let doubles := longestRun quotationMark 0 0 cs
  let singles := longestRun apostrophe 0 0 cs
  if !codes && !backslashes && !lines && doubles = 0 then ⟨quotationMark, false⟩
  else if !codes && !lines && singles = 0 then ⟨apostrophe, false⟩
  else if !codes && !backslashes && doubles ≤ 2 then ⟨quotationMark, true⟩
  else if !codes && singles ≤ 2 then ⟨apostrophe, true⟩
  else ⟨quotationMark, lines⟩

/-- A digit below 16, letters in upper case. -/
def upperDigit (n : Nat) : Char :=
  if n < 10 then Char.ofNat ('0'.toNat + n) else Char.ofNat ('A'.toNat + (n - 10))

/-- A character other than a quote, as it is written between double quotes. -/
def escape (triple : Bool) (c : Char) : List Char :=
  if c = '\x08' then [backslash, 'b']
  else if c = '\t' then [backslash, 't']
  else if c = '\x0c' then [backslash, 'f']
  else if c = '\r' then [backslash, 'r']
  else if c = backslash then [backslash, backslash]
  else if c = '\n' then if triple then ['\n'] else [backslash, 'n']
  else if isPlain c then [c]
  else [backslash, 'u', '0', '0', upperDigit (c.toNat / 16), upperDigit (c.toNat % 16)]

/-- A text as it is written between double quotes, where `run` quotes that stand
for themselves came right before it. -/
def escapeAll (triple : Bool) (run : Nat) : List Char → List Char
  | [] => []
  | c :: rest =>
    if c = quotationMark then
      if triple ∧ run < 2 then
        c :: escapeAll triple (run + 1) rest
      else
        backslash :: c :: escapeAll triple 0 rest
    else
      escape triple c ++ escapeAll triple 0 rest

/-- The quotes on either side of a text. -/
def Style.quotes (style : Style) : List Char :=
  List.replicate (if style.triple then 3 else 1) style.quote

/-- A text in quotes. -/
def writeQuoted (cs : List Char) : List Char :=
  let style := chooseStyle cs
  let opening := style.quotes ++ (if style.triple ∧ cs.contains '\n' then ['\n'] else [])
  let body := if style.escapes then escapeAll style.triple 0 cs else cs
  opening ++ body ++ style.quotes

/-- The line that gives a key its value. -/
def writeLine (key value : String) : String :=
  key ++ " = " ++ value ++ "\n"

end HostParsing.Toml
