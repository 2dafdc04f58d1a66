import HostParsing.Files.Tree
/-!
# Writing and reading a file

What is written to a path is found and read there (`read_write`). The path is followed once before the
write and once after it; that it leads to the same place is because a write replaces no
directory, so all directories on the way stay what they were (`Node.isDirectory_put`).
-/

namespace HostParsing

namespace Node

/-- There is a node, and it is a directory. -/
def IsDirectory (node : Option Node) : Prop :=
  ∃ inside, node = some (.directory inside)

theorem not_isDirectory_none : ¬ IsDirectory none := by
  rintro ⟨inside, same⟩
  cases same

theorem not_isDirectory_file (content : ByteArray) : ¬ IsDirectory (some (.file content)) := by
  rintro ⟨inside, same⟩
  cases same

/-- Where no directory is replaced, directories stay directories. -/
theorem isDirectory_put {new node : Node} {place other : Place}
    (free : ¬ IsDirectory (node.get? place)) (held : IsDirectory (node.get? other)) :
    IsDirectory ((put new node place).get? other) := by
  induction place generalizing node other with
  | nil =>
    cases node with
    | directory inside => exact absurd ⟨inside, rfl⟩ free
    | file content =>
      cases other with
      | nil => exact absurd held (not_isDirectory_file content)
      | cons name rest => exact absurd held not_isDirectory_none
  | cons name rest ih =>
    cases node with
    | file content => exact held
    | directory inside =>
      cases other with
      | nil => exact ⟨_, rfl⟩
      | cons first more =>
        simp only [put, get?] at held ⊢
        by_cases same : first = name
        · subst same
          cases found : inside first with
          | none =>
            rw [found] at held
            exact absurd held not_isDirectory_none
          | some below =>
            simp only [get?, found] at free held
            simp only [if_pos, Option.getD_some]
            exact ih free held
        · simpa only [if_neg same] using held

end Node

/-- Where a computation of two parts succeeds, both do. -/
theorem exists_of_bind_ok {ε α β : Type} {first : Except ε α} {next : α → Except ε β} {b : β}
    (done : first >>= next = .ok b) : ∃ a, first = .ok a ∧ next a = .ok b := by
  cases first with
  | error reason => cases done
  | ok a => exact ⟨a, rfl, done⟩

namespace FileTree

variable {tree after : FileTree} {place place' : Place} {path name : String}
  {names : List String} {content : ByteArray}

theorem expectDirectory_eq_ok_iff :
    tree.expectDirectory place = .ok () ↔ Node.IsDirectory (tree.node? place) := by
  rw [expectDirectory, Node.IsDirectory]
  cases tree.node? place with
  | none => simp
  | some node =>
    cases node with
    | file content => simp
    | directory inside => simp

/-- A name other than the dots leads to the place of that name. -/
theorem eq_of_step (here : name ≠ ".") (above : name ≠ "..")
    (led : tree.step place name = .ok place') : place' = place ++ [name] := by
  obtain ⟨_, -, led⟩ := exists_of_bind_ok led
  rw [if_neg here, if_neg above] at led
  split at led
  · cases led
  · exact (Except.ok.inj led).symm

/-- A name leads to the same place where there are at least the same directories. -/
theorem step_of_directories
    (kept : ∀ place, Node.IsDirectory (tree.node? place) → Node.IsDirectory (after.node? place))
    (led : tree.step place name = .ok place') : after.step place name = .ok place' := by
  obtain ⟨_, directory, led⟩ := exists_of_bind_ok led
  have directory : after.expectDirectory place = .ok () :=
    expectDirectory_eq_ok_iff.mpr (kept place (expectDirectory_eq_ok_iff.mp directory))
  rw [step, directory]
  exact led

theorem foldlM_step_of_directories
    (kept : ∀ place, Node.IsDirectory (tree.node? place) → Node.IsDirectory (after.node? place))
    (led : names.foldlM tree.step place = .ok place') :
    names.foldlM after.step place = .ok place' := by
  induction names generalizing place with
  | nil => exact led
  | cons name names ih =>
    rw [List.foldlM_cons] at led ⊢
    obtain ⟨next, first, led⟩ := exists_of_bind_ok led
    rw [step_of_directories kept first]
    exact ih led

/-- What it takes to write a file, and what that does. -/
theorem exists_of_write (written : tree.write path content = .ok after) :
    Path.check path = .ok () ∧ Path.endsInSlash path = false ∧
      ∃ names name place, Path.names path = names ++ [name] ∧
        names.foldlM tree.step (tree.origin path) = .ok place ∧
        Node.IsDirectory (tree.node? place) ∧
        tree.step place name = .ok (place ++ [name]) ∧
        ¬ Node.IsDirectory (tree.node? (place ++ [name])) ∧
        after = tree.put (place ++ [name]) (.file content) := by
  obtain ⟨_, checked, written⟩ := exists_of_bind_ok written
  obtain ⟨place, led, written⟩ := exists_of_bind_ok written
  obtain ⟨_, directory, written⟩ := exists_of_bind_ok written
  cases last : (Path.names path).getLast? with
  | none => rw [last] at written; cases written
  | some name =>
    simp only [last] at written
    split at written
    · cases written
    · next fit =>
      rw [not_or, not_or, Bool.not_eq_true] at fit
      obtain ⟨place', stepped, written⟩ := exists_of_bind_ok written
      obtain rfl := eq_of_step fit.2.1 fit.2.2 stepped
      have names : Path.names path = (Path.names path).dropLast ++ [name] := by
        obtain ⟨names, split⟩ := List.getLast?_eq_some_iff.mp last
        rw [split, List.dropLast_concat]
      refine ⟨checked, fit.1, _, name, place, names, led, expectDirectory_eq_ok_iff.mp directory,
        stepped, ?_⟩
      split at written
      · cases written
      · next free =>
        cases written
        refine ⟨?_, rfl⟩
        rintro ⟨inside, held⟩
        exact free inside held

/-- What is written to a path is there. -/
theorem find_write (written : tree.write path content = .ok after) :
    after.find path = .ok (.file content) := by
  obtain ⟨checked, noSlash, names, name, place, split, led, directory, stepped, free, same⟩ :=
    exists_of_write written
  have kept (other : Place) (held : Node.IsDirectory (tree.node? other)) :
      Node.IsDirectory (after.node? other) := by
    rw [same]
    exact Node.isDirectory_put free held
  have held : after.node? (place ++ [name]) = some (.file content) := by
    obtain ⟨inside, found⟩ := directory
    rw [same]
    exact Node.get?_put_self _ found
  have followed : (Path.names path).foldlM after.step (after.origin path) =
      .ok (place ++ [name]) := by
    have origin : after.origin path = tree.origin path := by
      rw [same]
      rfl
    rw [origin, split, List.foldlM_append, foldlM_step_of_directories kept led]
    show [name].foldlM after.step place = _
    rw [List.foldlM_cons, step_of_directories kept stepped]
    rfl
  simp only [find, checked, followed, noSlash, held, bind, Except.bind, Bool.false_eq_true, if_false]

/-- What is written to a file is found there and read from it. -/
theorem read_write (written : tree.write path content = .ok after) :
    after.read path = ⟨true, .ok content⟩ := by
  rw [read, find_write written]
  rfl

/-- A text that is written to a file is there, and is read as that text. -/
theorem readText_write {text : String} (written : tree.write path text.toUTF8 = .ok after) :
    after.read.holds path = true ∧ after.read.readText path = .ok text := by
  have read := read_write written
  have decoded : String.fromUTF8? text.toUTF8 = some text := dif_pos text.isValidUTF8
  constructor
  · rw [Files.holds, read]
  · simp only [Files.readText, read, decoded, bind, Except.bind]

end FileTree
end HostParsing
