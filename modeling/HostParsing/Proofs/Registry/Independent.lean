import HostParsing.Proofs.Registry.Kept
import HostParsing.Proofs.Registry.Packing
/-!
# Independent calls

An edit writes to one place of the store. A call that has nothing to do with that place does
not read it (`Call.run_write`: it ends as it did, with the place written to) and does not
touch it, so the handle resolves to the same buffer afterwards (`Call.keeps_lookup?`,
`Call.keeps_buffer`). Hence the order of the two does not matter (`edit_commutes`).
-/

namespace HostParsing

/-! ## Writing to another place -/

namespace Store

variable {s : Store} {id : BufferId}

theorem put_push (taken : id < s.size) (b new : Buffer) :
    (s.put id b).push new = (s.push new).put id b := by
  ext other
  · rfl
  · simp only [push, put]
    by_cases last : other = s.size
    · simp [last, Nat.ne_of_gt taken]
    · simp [last, taken, Nat.lt_succ_of_lt taken]

theorem put_skip (taken : id < s.size) (b : Buffer) (n : Nat) :
    (s.put id b).skip n = (s.skip n).put id b := by
  ext other
  · rfl
  · simp [put, taken, Nat.lt_add_right n taken]

theorem put_comm {place : BufferId} (apart : place ≠ id) (s : Store) (b new : Buffer) :
    (s.put id b).put place new = (s.put place new).put id b := by
  ext other
  · rfl
  · simp only [put]
    by_cases same : other = id
    · simp [same, apart.symm]
    · simp [same]

end Store

namespace Registry

/-- The desk with another buffer at a place of the store. -/
def write (d : Desk) (id : BufferId) (b : Buffer) : Desk :=
  { d with registry := d.registry.update id b }

/-- Run a function on the buffer behind a handle: it answers something, and leaves a buffer in
the place of the one it was given. -/
def mutate {α : Type} (h : Handle) (f : Buffer → α × Buffer) (d : Desk) :
    Except Fault (α × Desk) :=
  (d.registry.resolve h).map fun id =>
    ((f (d.registry.buffer id)).1, write d id (f (d.registry.buffer id)).2)

/-- What an operation on a desk answers, or why it is refused. -/
def answerOf {α : Type} (op : Desk → Except Fault (α × Desk)) (d : Desk) : Except Fault α :=
  (op d).map Prod.fst

/-- The desk after an operation; one that is refused leaves it as it is. -/
def deskAfter {α : Type} (op : Desk → Except Fault (α × Desk)) (d : Desk) : Desk :=
  match op d with
  | .ok (_, later) => later
  | .error _ => d

/-- A call, as an operation on a desk. -/
def Call.op (call : Call) (d : Desk) : Except Fault (Answer × Desk) :=
  call.run d

/-- Two operations on a desk have the same two answers and lead to the same desk, whichever
comes first. -/
structure Commutes {α β : Type} (d : Desk) (first : Desk → Except Fault (α × Desk))
    (second : Desk → Except Fault (β × Desk)) : Prop where
  answer_first : answerOf first (deskAfter second d) = answerOf first d
  answer_second : answerOf second (deskAfter first d) = answerOf second d
  desk : deskAfter second (deskAfter first d) = deskAfter first (deskAfter second d)

/-- A call that neither names a handle nor edits the buffer behind it as a kept one. -/
def Call.Apart (d : Desk) (h : Handle) (call : Call) : Prop :=
  call.named ≠ some h.toRaw ∧
    ∀ number c, call = .editKept number c → d.kept[number]? ≠ d.registry.lookup? h

/-- A call that has nothing to do with the buffer at a place of the store. -/
structure Call.Spares (d : Desk) (id : BufferId) (call : Call) : Prop where
  named : ∀ raw, call.named = some raw → d.registry.resolveRaw raw ≠ .ok id
  kept : ∀ number c, call = .editKept number c → d.kept[number]? ≠ some id

variable {d : Desk} {r : Registry} {id : BufferId} {h : Handle}

theorem register_update (taken : id < r.store.size) (b new : Buffer) :
    (r.update id b).register new =
      (r.register new).map fun (h, r') => (h, r'.update id b) := by
  have pushed := Store.put_push taken b new
  unfold register update
  cases r.free with
  | cons index free => simp only [Store.size_put, pushed, Except.map]
  | nil =>
    simp only [Store.size_put, pushed]
    split <;> rfl

theorem erase_update (r : Registry) (id : BufferId) (b : Buffer) (h : Handle) :
    (r.update id b).erase h = (r.erase h).map (·.update id b) := by
  unfold erase resolve
  rw [lookup?_update]
  cases r.lookup? h <;> rfl

theorem passRounds_update (taken : id < r.store.size) (b : Buffer) (index : UInt32) (n : Nat) :
    (r.update id b).passRounds index n = (r.passRounds index n).update id b := by
  simp only [passRounds, update, Store.put_skip taken]

theorem churn_update (sound : r.Sound) (taken : id < r.store.size) (b : Buffer) (n : Nat) :
    (r.update id b).churn n = (r.churn n).map fun (h, r') => (h, r'.update id b) := by
  cases n with
  | zero => rfl
  | succ n =>
    simp only [churn, create, bind, Except.bind]
    rw [register_update taken]
    cases made : r.register (Buffer.ofText "") with
    | error fault => rfl
    | ok issued =>
      have done := Registered.of_register sound made
      simp only [Except.map, erase_update]
      cases gone : issued.2.erase issued.1 with
      | error fault => rfl
      | ok after =>
        have larger : id < after.store.size := by
          rw [(Erased.of_erase gone).store, done.store, Store.size_push]
          exact Nat.lt_succ_of_lt taken
        simp only [passRounds_update larger]

theorem read_update_of_ne (apart : r.lookup? h ≠ some id) (taken : id < r.store.size)
    (b : Buffer) : (r.update id b).read h = r.read h := by
  rw [read_update taken, if_neg apart]

theorem call_update {place : BufferId} (apart : place ≠ id) (b : Buffer) (c : Buffer.Call) :
    (r.update id b).call place c =
      (r.call place c).map fun (answer, after, r') => (answer, after, r'.update id b) := by
  have same : (r.update id b).buffer place = r.buffer place := Store.get_put_of_ne apart b
  simp only [call, same]
  cases c.run (r.buffer place) with
  | error fault => rfl
  | ok done => simp only [Except.map, update, Store.put_comm apart]

/-! ## Calls that have nothing to do with a place -/

theorem edited_write {place : BufferId} (apart : place ≠ id) (b : Buffer) (c : Buffer.Call) :
    Call.run.edited (write d id b) place c =
      (Call.run.edited d place c).map fun (answer, later) => (answer, write later id b) := by
  simp only [Call.run.edited, write, call_update apart]
  cases d.registry.call place c <;> rfl

theorem issue_write (taken : id < d.registry.store.size) (b : Buffer)
    (given : Except Fault Buffer) :
    Call.run.issue (write d id b) (given >>= (d.registry.update id b).register) =
      (Call.run.issue d (given >>= d.registry.register)).map fun (answer, later) =>
        (answer, write later id b) := by
  cases given with
  | error fault => rfl
  | ok new =>
    simp only [bind, Except.bind, register_update taken]
    cases d.registry.register new <;> rfl

theorem lookup?_ne_of_resolveRaw {raw : UInt64} (apart : d.registry.resolveRaw raw ≠ .ok id)
    (unpacked : handleOfRaw raw = .ok h) : d.registry.lookup? h ≠ some id := by
  intro found
  refine apart ?_
  rw [resolveRaw, unpacked]
  exact resolve_eq_ok_iff.mpr found

theorem resolveRaw_write (d : Desk) (id : BufferId) (b : Buffer) (raw : UInt64) :
    (write d id b).registry.resolveRaw raw = d.registry.resolveRaw raw := rfl

theorem find_write {raw : UInt64} (apart : d.registry.resolveRaw raw ≠ .ok id) (b : Buffer) :
    (write d id b).registry.contents.find raw = d.registry.contents.find raw := by
  unfold Contents.find
  cases unpacked : handleOfRaw raw with
  | error fault => rfl
  | ok h =>
    have other := lookup?_ne_of_resolveRaw apart unpacked
    have same : (write d id b).registry.contents h = d.registry.contents h := by
      simp only [contents, write, lookup?_update]
      cases found : d.registry.lookup? h with
      | none => rfl
      | some place =>
        have ne : place ≠ id := fun e => other (e ▸ found)
        exact congrArg some (Store.get_put_of_ne ne b)
    simp only [bind, Except.bind, same]

theorem given_write {call : Call} (spares : call.Spares d id) (b : Buffer) :
    call.given (write d id b).registry.contents = call.given d.registry.contents := by
  cases call with
  | substringChars raw first last | substringBytes raw first last =>
    simp only [Call.given, find_write (spares.named raw rfl)]
  | _ => rfl

/-- A call does not read what it has nothing to do with: it ends as it did, with the place
written to. -/
theorem Call.run_write {call : Call} (spares : call.Spares d id) (sound : d.registry.Sound)
    (taken : id < d.registry.store.size) (b : Buffer) :
    call.run (write d id b) =
      (call.run d).map fun (answer, later) => (answer, write later id b) := by
  cases given : call.given d.registry.contents with
  | some new =>
    rw [run_of_given given, run_of_given ((given_write spares b).trans given)]
    exact issue_write taken b new
  | none =>
    cases call with
    | create | createOfBytes | createOfByteRange | register | substringChars | substringBytes =>
      cases given
    | isEmpty => rfl
    | unpack raw | contains raw =>
      simp only [run]
      cases handleOfRaw raw <;> rfl
    | read raw =>
      simp only [run, bind, Except.bind]
      cases unpacked : handleOfRaw raw with
      | error fault => rfl
      | ok h =>
        have other := lookup?_ne_of_resolveRaw (spares.named raw rfl) unpacked
        simp only [write, read_update_of_ne other taken]
        cases d.registry.read h <;> rfl
    | keep raw =>
      simp only [run, bind, Except.bind, resolveRaw_write]
      cases d.registry.resolveRaw raw <;> rfl
    | erase raw =>
      simp only [run, bind, Except.bind]
      cases handleOfRaw raw with
      | error fault => rfl
      | ok h =>
        simp only [write, erase_update]
        cases d.registry.erase h <;> rfl
    | churn n =>
      simp only [run, bind, Except.bind, write, churn_update sound taken]
      cases d.registry.churn n <;> rfl
    | edit raw c =>
      have apart := spares.named raw rfl
      simp only [run, bind, Except.bind, resolveRaw_write]
      cases resolved : d.registry.resolveRaw raw with
      | error fault => rfl
      | ok place => exact edited_write (fun same : place = id => apart (same ▸ resolved)) b c
    | editKept number c =>
      have apart := spares.kept number c rfl
      have other : d.kept[number]?.getD d.registry.store.size ≠ id := by
        cases kept : d.kept[number]? with
        | none => exact Nat.ne_of_gt taken
        | some place => exact fun same => apart (kept.trans (congrArg some same))
      exact edited_write other b c

/-- A call does not write to what it has nothing to do with. -/
theorem Call.keeps_buffer {call : Call} (spares : call.Spares d id) (sound : d.registry.Sound)
    (taken : id < d.registry.store.size) :
    (call.after d).registry.buffer id = d.registry.buffer id := by
  have none : call.editsOf d id = [] := by
    cases call with
    | edit raw c => exact if_neg (spares.named raw rfl)
    | editKept number c => exact if_neg (spares.kept number c rfl)
    | _ => rfl
  rw [call.buffer_after sound taken, none]
  rfl

/-- Only its release takes a handle from its buffer. -/
theorem Call.keeps_lookup? {call : Call} (spares : call.Spares d id) (sound : d.registry.Sound)
    (found : d.registry.lookup? h = some id) : (call.after d).registry.lookup? h = some id := by
  have effect := call.effect sound
  generalize call.issued d = handles, (call.after d).registry = r' at effect ⊢
  cases effect with
  | keeps slots =>
    rw [lookup?, slots]
    exact found
  | registers done =>
    rw [done.lookup?, if_neg, found]
    rintro rfl
    cases done.fresh.symm.trans found
  | erases unpacked done =>
    rw [done.lookup?, if_neg, found]
    rintro rfl
    exact lookup?_ne_of_resolveRaw (spares.named _ rfl) unpacked found
  | passes done => rw [(sound.passThrough done).2, found]

/-! ## Edits -/

variable {α β : Type}

theorem mutate_of_lookup? (found : d.registry.lookup? h = some id) (f : Buffer → α × Buffer) :
    mutate h f d =
      .ok ((f (d.registry.buffer id)).1, write d id (f (d.registry.buffer id)).2) := by
  rw [mutate, resolve_eq_ok_iff.mpr found]
  rfl

/-- An edit commutes with what neither reads the buffer nor touches it, nor the handle. -/
theorem mutate_commutes {other : Desk → Except Fault (β × Desk)}
    (found : d.registry.lookup? h = some id) (f : Buffer → α × Buffer)
    (still : (deskAfter other d).registry.lookup? h = some id)
    (same : (deskAfter other d).registry.buffer id = d.registry.buffer id)
    (ignores : ∀ b, other (write d id b) =
      (other d).map fun (answer, later) => (answer, write later id b)) :
    Commutes d (mutate h f) other := by
  have first := mutate_of_lookup? found f
  have last := mutate_of_lookup? still f
  rw [same] at last
  have met : deskAfter (mutate h f) d = write d id (f (d.registry.buffer id)).2 := by
    rw [deskAfter, first]
  constructor
  case answer_first => rw [answerOf, answerOf, first, last]; rfl
  case answer_second =>
    rw [met, answerOf, answerOf, ignores]
    cases other d <;> rfl
  case desk =>
    rw [met, deskAfter, deskAfter, ignores, last, deskAfter]
    cases other d <;> rfl

/-- A call that names another handle has nothing to do with the buffer behind this one. -/
theorem Call.Apart.spares {call : Call} (apart : call.Apart d h) (sound : d.registry.Sound)
    (found : d.registry.lookup? h = some id) : call.Spares d id where
  named raw names resolved := by
    obtain ⟨other, unpacked, found'⟩ := exists_of_resolveRaw resolved
    have same := sound.lookup?_inj found found'
    subst same
    exact apart.1 (names.trans (congrArg some (toRaw_of_handleOfRaw unpacked).symm))
  kept number c e := found ▸ apart.2 number c e

theorem deskAfter_op (d : Desk) (call : Call) : deskAfter call.op d = call.after d := by
  rw [deskAfter, Call.op, Call.after]
  cases call.run d <;> rfl

theorem mutate_commutes_call {call : Call} (apart : call.Apart d h) (sound : d.registry.Sound)
    (found : d.registry.lookup? h = some id) (f : Buffer → α × Buffer) :
    Commutes d (mutate h f) call.op := by
  have spares := apart.spares sound found
  have taken := sound.lookup?_lt found
  refine mutate_commutes found f ?_ ?_ (call.run_write spares sound taken)
  · rw [deskAfter_op]
    exact call.keeps_lookup? spares sound found
  · rw [deskAfter_op]
    exact call.keeps_buffer spares sound taken

theorem mutate_commutes_mutate {other : Handle} (apart : other ≠ h) (sound : d.registry.Sound)
    (found : d.registry.lookup? h = some id) (f : Buffer → α × Buffer)
    (g : Buffer → β × Buffer) : Commutes d (mutate h f) (mutate other g) := by
  cases found' : d.registry.lookup? other with
  | none =>
    have refused : ∀ b, mutate other g (write d id b) = .error (.staleHandle other) := fun b => by
      rw [mutate, resolve, write, lookup?_update, found']
      rfl
    have stale : mutate other g d = .error (.staleHandle other) := by
      rw [mutate, resolve, found']
      rfl
    have kept : deskAfter (mutate other g) d = d := by rw [deskAfter, stale]
    refine mutate_commutes found f (by rw [kept, found]) (by rw [kept]) fun b => ?_
    rw [refused, stale]
    rfl
  | some place =>
    have ne : place ≠ id := fun e => apart (sound.lookup?_inj found (e ▸ found'))
    have met := mutate_of_lookup? found' g
    have after : deskAfter (mutate other g) d =
        write d place (g (d.registry.buffer place)).2 := by rw [deskAfter, met]
    refine mutate_commutes found f (by rw [after]; exact found) ?_ fun b => ?_
    · rw [after]
      exact Store.get_put_of_ne ne.symm _
    · have same : (write d id b).registry.buffer place = d.registry.buffer place :=
        Store.get_put_of_ne ne b
      have found'' : (write d id b).registry.lookup? other = some place := found'
      rw [mutate_of_lookup? found'' g, met, same]
      simp only [Except.map, write, update, Store.put_comm ne]

/-- What a call on a buffer makes of it: one that is refused leaves it. -/
def attempt (c : Buffer.Call) (b : Buffer) : Except Fault Answer × Buffer :=
  match c.run b with
  | .ok (answer, after) => (.ok (.edited answer after), after)
  | .error fault => (.error fault, b)

theorem run_edit_of_issued (issued : h.generation ≠ 0) (c : Buffer.Call) (d : Desk) :
    (Call.edit h.toRaw c).run d = (d.registry.resolve h).bind (Call.run.edited d · c) := by
  rw [Call.run, resolveRaw, handleOfRaw_toRaw issued]
  rfl

/-- A call put to the buffer behind a handle is a function run on it. -/
theorem run_edit_eq_mutate (issued : h.generation ≠ 0) (c : Buffer.Call) (d : Desk) :
    answerOf (Call.edit h.toRaw c).op d =
        (answerOf (mutate h (attempt c)) d).bind (fun answer => answer) ∧
      deskAfter (Call.edit h.toRaw c).op d = deskAfter (mutate h (attempt c)) d := by
  rw [answerOf, answerOf, deskAfter, deskAfter, Call.op, run_edit_of_issued issued, mutate]
  cases d.registry.resolve h with
  | error fault => exact ⟨rfl, rfl⟩
  | ok place =>
    simp only [Except.bind, Except.map, Call.run.edited, call, attempt]
    cases c.run (d.registry.buffer place) with
    | error fault => exact ⟨rfl, by simp only [write, update_buffer]⟩
    | ok done => exact ⟨rfl, rfl⟩

/-- An edit of a live buffer and anything that does not name its handle can be done in either
order: both have the same answers, the handle that is issued included, and the desk is the
same in the end. The edit may be any function that is run on the buffer, or any call that is
put to it, and either may be refused; the other may be any call, or any function that is run
on the buffer behind another handle. -/
theorem edit_commutes (reached : Reachable d) (live : d.registry.contains h = true) :
    (∀ (α : Type) (f : Buffer → α × Buffer) (call : Call), call.Apart d h →
      Commutes d (mutate h f) call.op) ∧
    (∀ (c : Buffer.Call) (call : Call), call.Apart d h →
      Commutes d (Call.edit h.toRaw c).op call.op) ∧
    ∀ (α β : Type) (f : Buffer → α × Buffer) (g : Buffer → β × Buffer) (other : Handle),
      other ≠ h → Commutes d (mutate h f) (mutate other g) := by
  have sound := reached.sound
  obtain ⟨id, found⟩ := contains_iff.mp live
  have issued : h.generation ≠ 0 := sound.generation_ne_zero (lookup?_eq_some_iff.mp found)
  refine ⟨fun α f call apart => mutate_commutes_call apart sound found f, fun c call apart => ?_,
    fun α β f g other apart => mutate_commutes_mutate apart sound found f g⟩
  obtain ⟨first, second, desk⟩ := mutate_commutes_call apart sound found (attempt c)
  constructor
  case answer_first =>
    rw [(run_edit_eq_mutate issued c _).1, (run_edit_eq_mutate issued c _).1, first]
  case answer_second => rw [(run_edit_eq_mutate issued c d).2, second]
  case desk => rw [(run_edit_eq_mutate issued c d).2, (run_edit_eq_mutate issued c _).2, desk]

/-- An edit of one buffer, and the creation of another in the slot that is free. -/
theorem edit_commutes_reused :
    let d := runAll Desk.empty [.create "a", .create "b", .erase 1]
    Commutes d (Call.edit 4294967297 (.append "c")).op (Call.create "d").op ∧
      answerOf (Call.create "d").op d = .ok (.handle ⟨0, 2⟩) := by
  intro d
  have reached : Reachable d := Reachable.empty.runAll _
  have live : d.registry.contains ⟨1, 1⟩ = true := by decide
  refine ⟨(edit_commutes reached live).2.1 (.append "c") (.create "d") ⟨nofun, nofun⟩, by decide⟩

end Registry
end HostParsing
