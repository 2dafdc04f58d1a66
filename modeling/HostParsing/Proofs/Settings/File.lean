import HostParsing.Proofs.Files.Tree
import HostParsing.Proofs.Toml.Document
import HostParsing.Settings.File
/-!
# Saving and loading settings

Settings that are saved to a file are loaded from it as they were (`load_save`), in any
format that is faithful to the fields it writes. There is one field for each setting that is
present; what the file means is the table of these fields, and a key that is not in the
table is an absent setting.
-/

namespace HostParsing.Settings

open Toml (Fields Format Scalar Table Value)

variable {format : Format} {key other text : String} {setting : Option Scalar}

/-! ## Fields -/

theorem keys_field : ((field key setting).map Prod.fst).Sublist [key] := by
  cases setting with
  | none => exact List.nil_sublist _
  | some a => exact List.Sublist.refl _

/-- A setting is under its key among its own field, if it is present. -/
theorem lookup_field : (field key setting).lookup other =
    if key = other then setting else .none := by
  cases setting with
  | none => exact (ite_self _).symm
  | some value =>
    by_cases same : key = other
    · simp [field, same]
    · simp [field, same, Ne.symm same]

theorem keys_fields (s : Settings) : (s.fields.map Prod.fst).Sublist
    ["timeout_micros", "log_level", "initial_capacity"] := by
  rw [fields, List.map_append, List.map_append]
  exact (keys_field.append keys_field).append keys_field

theorem nodup_fields (s : Settings) : (s.fields.map Prod.fst).Nodup :=
  (keys_fields s).nodup (by decide)

theorem bare_fields (s : Settings) : ∀ field ∈ s.fields, Toml.IsBare field.1 := by
  have all : ∀ key ∈ ["timeout_micros", "log_level", "initial_capacity"], Toml.IsBare key := by
    decide
  exact fun field inside => all _ ((keys_fields s).subset (List.mem_map_of_mem inside))

/-- The fields have each setting that is present under its key, and nothing else. -/
theorem lookup_fields (s : Settings) (key : String) :
    s.fields.lookup key =
      if "timeout_micros" = key then s.timeoutMicros.map .word
      else if "log_level" = key then s.logLevel.map .text
      else if "initial_capacity" = key then s.initialCapacity.map .word
      else .none := by
  rw [fields, List.lookup_append, List.lookup_append, lookup_field, lookup_field, lookup_field]
  by_cases one : "timeout_micros" = key
  · subst one
    simp
  · by_cases two : "log_level" = key
    · subst two
      simp
    · simp [one, two]

/-! ## The text of settings -/

/-- What the text of settings means in a faithful format. -/
theorem exists_table (faithful : format.Faithful) (s : Settings) :
    ∃ table, format.read? (format.write s.fields) = some table ∧ ∀ key, table.find? key =
      if "timeout_micros" = key then s.timeoutMicros.map fun n => .integer n.toNat
      else if "log_level" = key then s.logLevel.map .text
      else if "initial_capacity" = key then s.initialCapacity.map fun n => .integer n.toNat
      else .none := by
  obtain ⟨table, read, held⟩ := faithful s.fields (nodup_fields s) (bare_fields s)
  refine ⟨table, read, fun key => ?_⟩
  rw [held, lookup_fields]
  simp only [apply_ite (Option.map Scalar.value), Option.map_map, Option.map_none]
  rfl

theorem word?_map (word : Option UInt64) :
    word? (word.map fun n => .integer n.toNat) = some word := by
  cases word with
  | none => rfl
  | some n =>
    have fits : (0 : Int) ≤ n.toNat ∧ (n.toNat : Int) < UInt64.size :=
      ⟨Int.natCast_nonneg _, Int.ofNat_lt.mpr n.toNat_lt⟩
    rw [Option.map_some, word?, if_pos fits, Int.toNat_natCast, UInt64.ofNat_toNat]

theorem text?_map (text : Option String) : text? (text.map .text) = some text := by
  cases text with
  | none => rfl
  | some text => rfl

theorem read?_write (faithful : format.Faithful) (s : Settings) :
    read? format (format.write s.fields) = some s := by
  obtain ⟨table, read, held⟩ := exists_table faithful s
  have timeout := held "timeout_micros"
  have level := held "log_level"
  have capacity := held "initial_capacity"
  rw [if_pos rfl] at timeout
  rw [if_neg (by decide), if_pos rfl] at level
  rw [if_neg (by decide), if_neg (by decide), if_pos rfl] at capacity
  rw [read?, read, Option.bind_some, ofTable?, timeout, level, capacity, word?_map, word?_map,
    text?_map]
  rfl

/-- Settings that are saved are loaded as they were, in any faithful format, of which the
format of this library is one. The file holds their text, which is a table with each setting
that is present under its key and nothing else. -/
theorem load_save :
    Toml.format.Faithful ∧
    ∀ format : Format, format.Faithful → ∀ (s : Settings) (tree after : FileTree) (path : String),
      s.saveIn format tree path = .ok after →
      loadIn format after.read path = .ok (some s) ∧
        after.read.readText path = .ok (format.write s.fields) ∧
        ∃ table, format.read? (format.write s.fields) = some table ∧ ∀ key, table.find? key =
          if "timeout_micros" = key then s.timeoutMicros.map fun n => .integer n.toNat
          else if "log_level" = key then s.logLevel.map .text
          else if "initial_capacity" = key then s.initialCapacity.map fun n => .integer n.toNat
          else .none := by
  refine ⟨Toml.faithful_format, fun format faithful s tree after path saved => ?_⟩
  obtain ⟨made, -, written⟩ := exists_of_bind_ok saved
  obtain ⟨held, read⟩ := FileTree.readText_write written
  have loaded : loadIn format after.read path = .ok (some s) := by
    simp only [loadIn, held, read, read?_write faithful, if_true]
  exact ⟨loaded, read, exists_table faithful s⟩

/-- The directories are not there yet, and the level is a text that only escapes can write. -/
theorem load_save_escaped :
    let s : Settings := ⟨some 18446744073709551615, some "'''\"\"\"\\\n\x07", .none⟩
    let path := "/home/.config/ts-bridge/config.toml"
    ∃ after, s.save FileTree.empty path = .ok after ∧ load after.read path = .ok (some s) := by
  intro s path
  have succeeds : (s.save FileTree.empty path).isOk = true := by decide +kernel
  cases saved : s.save FileTree.empty path with
  | error problem =>
    rw [saved] at succeeds
    cases succeeds
  | ok after =>
    have loaded := load_save.2 Toml.format load_save.1 s FileTree.empty after path saved
    exact ⟨after, rfl, loaded.1⟩

end HostParsing.Settings
