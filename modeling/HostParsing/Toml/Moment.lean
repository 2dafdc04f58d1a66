import HostParsing.Toml.Character
/-!
# Dates and times

A moment is a date, a time, or a date and a time with or without an offset from
universal time. Seconds may be left out, and the 60th is a leap second. Only
whether a text is a moment matters here, so the readers answer what follows.
-/

namespace HostParsing.Toml

/-- The number in two decimal digits, and what follows them. -/
def twoDigits? : List Char → Option (Nat × List Char)
  | a :: b :: rest =>
    if a.isDigit ∧ b.isDigit then
      some (10 * (a.toNat - '0'.toNat) + (b.toNat - '0'.toNat), rest)
    else
      none
  | _ => none

/-- What follows a given character. -/
def expect? (wanted : Char) : List Char → Option (List Char)
  | c :: rest => if c = wanted then some rest else none
  | [] => none

/-- The number of days in a month. -/
def daysIn (year month : Nat) : Nat :=
  if month = 2 then
    if year % 4 = 0 ∧ (year % 100 ≠ 0 ∨ year % 400 = 0) then 29 else 28
  else if month ∈ [4, 6, 9, 11] then
    30
  else
    31

/-- What follows a date. -/
def afterDate? (cs : List Char) : Option (List Char) := do
  let (century, cs) ← twoDigits? cs
  let (year, cs) ← twoDigits? cs
  let (month, cs) ← twoDigits? (← expect? '-' cs)
  let (day, cs) ← twoDigits? (← expect? '-' cs)
  if 1 ≤ month ∧ month ≤ 12 ∧ 1 ≤ day ∧ day ≤ daysIn (100 * century + year) month then
    some cs
  else
    none

/-- What follows the hours and minutes of a day. -/
def afterMinutes? (cs : List Char) : Option (List Char) := do
  let (hour, cs) ← twoDigits? cs
  let (minute, cs) ← twoDigits? (← expect? ':' cs)
  if hour ≤ 23 ∧ minute ≤ 59 then some cs else none

/-- What follows the fraction of a second, if there is one. -/
def afterFraction? : List Char → Option (List Char)
  | '.' :: cs =>
    if (cs.head?.any Char.isDigit) then some (cs.dropWhile Char.isDigit) else none
  | cs => some cs

/-- What follows a time. -/
def afterTime? (cs : List Char) : Option (List Char) := do
  match ← afterMinutes? cs with
  | ':' :: cs =>
    let (second, cs) ← twoDigits? cs
    if second ≤ 60 then afterFraction? cs else none
  | cs => some cs

/-- What follows an offset from universal time. -/
def afterOffset? : List Char → Option (List Char)
  | c :: cs =>
    if c = 'Z' ∨ c = 'z' then some cs
    else if c = '+' ∨ c = '-' then afterMinutes? cs
    else none
  | [] => none

/-- Whether a text is a date. -/
def isDate (cs : List Char) : Bool :=
  afterDate? cs = some []

/-- Whether a text is a date, a time or both. -/
def isMoment (cs : List Char) : Bool :=
  match afterDate? cs with
  | some [] => true
  | some (t :: cs) =>
    (t = 'T' || t = 't' || t = ' ') &&
      (match afterTime? cs with
      | some [] => true
      | some cs => afterOffset? cs = some []
      | none => false)
  | none => afterTime? cs = some []

end HostParsing.Toml
