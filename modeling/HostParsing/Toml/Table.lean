/-!
# Tables

What a TOML text means: a table of values by key. A table remembers how it came
about, because that decides what may still be added to it. `assign` adds a value
under a key that may have several parts, and `declare?` and `extend?` open the
tables that the headers of a text name. Each of them is refused where a key would
be given twice.

A table that was opened by a header, or stands between braces, takes no further
keys from outside; one that a longer header or a longer key implied does, if it
is of the kind that the longer name asks for.
-/

namespace HostParsing.Toml

/-- How a table came about. -/
inductive Origin
  /-- It was opened by a header. -/
  | header
  /-- A longer header named it on the way. -/
  | implied
  /-- A key of several parts named it on the way. -/
  | dotted
  /-- It was written between braces. -/
  | braces
deriving DecidableEq, Repr

/-- A value. Floats, dates and times are kept as they are written. -/
inductive Value
  | text (value : String)
  | integer (value : Int)
  | float (written : String)
  | boolean (value : Bool)
  | moment (written : String)
  | array (items : List Value)
  | table (origin : Origin) (entries : List (String × Value))
  /-- The tables that headers with double brackets opened, oldest first. -/
  | tables (elements : List (List (String × Value)))

/-- Values by key, in the order in which the keys came. -/
abbrev Table := List (String × Value)

namespace Table

/-- The value under a key. -/
def find? (key : String) (table : Table) : Option Value :=
  (List.find? (fun entry => entry.1 = key) table).map Prod.snd

/-- The table with a value under a key, in the place of an older one if there is
one. -/
def put (key : String) (value : Value) : Table → Table
  | [] => [(key, value)]
  | (k, v) :: rest => if k = key then (k, value) :: rest else (k, v) :: put key value rest

/-- The table with a value under a new key. -/
def insertNew? (key : String) (value : Value) (table : Table) : Option Table :=
  match find? key table with
  | some _ => none
  | none => some (put key value table)

/-- Change the table at the end of a path, and with it those on the way. Tables
that are missing on the way are made; a value that is no table, or a table that
takes no keys from outside, ends the way. In an array of tables the way goes
through the last one. `byKey` tells the path of a key from that of a header. -/
def enter? (byKey : Bool) (change : Origin → Table → Option Table) :
    List String → Origin → Table → Option Table
  | [], origin, table => change origin table
  | key :: path, _, table =>
    match find? key table with
    | none =>
      let origin := if byKey then Origin.dotted else Origin.implied
      (enter? byKey change path origin []).map fun entries =>
        put key (.table origin entries) table
    | some (.table origin entries) =>
      if origin = .braces ∨ (byKey ∧ origin = .header) then
        none
      else
        (enter? byKey change path origin entries).map fun entries =>
          put key (.table origin entries) table
    | some (.tables elements) =>
      match elements.getLast? with
      | none => none
      | some entries =>
        (enter? byKey change path .header entries).map fun entries =>
          put key (.tables (elements.dropLast ++ [entries])) table
    | some _ => none

/-- Add a value under a key; `path` holds all its parts but the last. Where there
is a path, it must lead to a table that only keys of several parts have made. -/
def assign? (path : List String) (key : String) (value : Value) (table : Table) :
    Option Table :=
  enter? true
    (fun origin parent =>
      if origin = .dotted ↔ path ≠ [] then insertNew? key value parent else none)
    path .header table

/-- Open the table that a header names. -/
def declare? (path : List String) (key : String) (root : Table) : Option Table :=
  enter? false
    (fun _ parent =>
      match find? key parent with
      | none => some (put key (.table .header []) parent)
      | some (.table .implied entries) => some (put key (.table .header entries) parent)
      | some _ => none)
    path .header root

/-- Open a further table in the array of tables that a header names. -/
def extend? (path : List String) (key : String) (root : Table) : Option Table :=
  enter? false
    (fun _ parent =>
      match find? key parent with
      | none => some (put key (.tables [[]]) parent)
      | some (.tables elements) => some (put key (.tables (elements ++ [[]])) parent)
      | some _ => none)
    path .header root

@[simp] theorem find?_put_self (key : String) (value : Value) (table : Table) :
    find? key (put key value table) = some value := by
  induction table with
  | nil => simp [find?, put]
  | cons entry rest ih =>
    obtain ⟨k, v⟩ := entry
    by_cases h : k = key
    · simp [put, h, find?]
    · simpa [put, h, find?] using ih

theorem find?_put_of_ne {key other : String} (value : Value) (h : other ≠ key) (table : Table) :
    find? other (put key value table) = find? other table := by
  induction table with
  | nil => simp [find?, put, Ne.symm h]
  | cons entry rest ih =>
    obtain ⟨k, v⟩ := entry
    by_cases e : k = key
    · subst e
      simp [put, find?, Ne.symm h]
    · by_cases o : k = other
      · simp [put, find?, o, h]
      · simpa [put, e, find?, o] using ih

end Table
end HostParsing.Toml
