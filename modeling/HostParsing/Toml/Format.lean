import HostParsing.Toml.Document
import HostParsing.Toml.Writer
/-!
# Formats

How settings become text and text becomes a table. A format writes keys with their values
and reads a text back; what is known of it is the law `Format.Faithful`, that the text of
some fields means these fields. `format` is the format of this library, one line for each
field.
-/

namespace HostParsing.Toml

/-- A value that a setting may have. -/
inductive Scalar
  | word (n : UInt64)
  | text (s : String)
deriving DecidableEq, Repr

/-- The value that is read where a setting is written. -/
def Scalar.value : Scalar → Value
  | word n => .integer n.toNat
  | text s => .text s

/-- A setting as it is written behind its key. -/
def Scalar.written : Scalar → String
  | word n => toString n.toNat
  | text s => String.ofList (writeQuoted s.toList)

/-- Keys with their values, in the order in which they are written. -/
abbrev Fields := List (String × Scalar)

/-- How fields are written, and what a text means, if it means anything. -/
structure Format where
  write : Fields → String
  read? : String → Option Table

/-- A key that is written without quotes. -/
def IsBare (key : String) : Prop :=
  key ≠ "" ∧ key.toList.all isBareKey = true

instance (key : String) : Decidable (IsBare key) := inferInstanceAs (Decidable (_ ∧ _))

/-- The text of fields with different bare keys is read as the table that has each value
under its key, and nothing else. -/
def Format.Faithful (format : Format) : Prop :=
  ∀ fields : Fields, (fields.map Prod.fst).Nodup → (∀ field ∈ fields, IsBare field.1) →
    ∃ table, format.read? (format.write fields) = some table ∧
      ∀ key, table.find? key = (fields.lookup key).map Scalar.value

/-- One line for each field. -/
def writeFields (fields : Fields) : String :=
  String.join (fields.map fun field => writeLine field.1 field.2.written)

/-- The format of this library. -/
def format : Format := ⟨writeFields, read?⟩

end HostParsing.Toml
