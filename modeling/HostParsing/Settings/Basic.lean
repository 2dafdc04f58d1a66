import HostParsing.Toml.Format
/-!
# Settings

What a user may set: how long a parse may take, how much is logged, how large new
buffers are. Each setting may be absent. `fields` is what a format writes of settings,
`read?` what it reads; unknown keys are passed over in reading, absent settings in writing.
-/

namespace HostParsing

/-- How much is logged. -/
inductive LogLevel
  | off
  | error
  | warn
  | info
  | debug
  | trace
deriving DecidableEq, Repr

/-- The level that a word names, in upper or lower case. -/
def LogLevel.ofWord? (word : String) : Option LogLevel :=
  match word.toLower with
  | "off" => some .off
  | "error" => some .error
  | "warn" => some .warn
  | "info" => some .info
  | "debug" => some .debug
  | "trace" => some .trace
  | _ => none

/-- What a user may set. -/
structure Settings where
  timeoutMicros : Option UInt64
  logLevel : Option String
  initialCapacity : Option UInt64
deriving DecidableEq, Repr

namespace Settings

/-- No setting at all. -/
def none : Settings := ⟨.none, .none, .none⟩

instance : Inhabited Settings := ⟨none⟩

/-- The time a parse may take, in microseconds; a limit of 0 is no limit. -/
def timeout (s : Settings) : Option UInt64 :=
  s.timeoutMicros.filter (· ≠ 0)

/-- How much is logged; a level that is not known counts as absent. -/
def logFilter (s : Settings) : LogLevel :=
  (s.logLevel.bind LogLevel.ofWord?).getD .info

/-- A setting that is a word, which may be absent but not of another type. -/
def word? : Option Toml.Value → Option (Option UInt64)
  | .none => some .none
  | some (.integer n) =>
    if 0 ≤ n ∧ n < UInt64.size then some (some (UInt64.ofNat n.toNat)) else .none
  | some _ => .none

/-- A setting that is a text, which may be absent but not of another type. -/
def text? : Option Toml.Value → Option (Option String)
  | .none => some .none
  | some (.text value) => some (some value)
  | some _ => .none

/-- The settings in a table. -/
def ofTable? (table : Toml.Table) : Option Settings := do
  let timeoutMicros ← word? (table.find? "timeout_micros")
  let logLevel ← text? (table.find? "log_level")
  let initialCapacity ← word? (table.find? "initial_capacity")
  some { timeoutMicros, logLevel, initialCapacity }

/-- The settings that a text writes in a format. -/
def read? (format : Toml.Format) (text : String) : Option Settings :=
  (format.read? text).bind ofTable?

/-- The field of a setting, if it is present. -/
def field (key : String) (setting : Option Toml.Scalar) : Toml.Fields :=
  (setting.map fun value => (key, value)).toList

/-- The fields of settings, in the order in which they are written. -/
def fields (s : Settings) : Toml.Fields :=
  field "timeout_micros" (s.timeoutMicros.map .word) ++
    field "log_level" (s.logLevel.map .text) ++
    field "initial_capacity" (s.initialCapacity.map .word)

end Settings
end HostParsing
