import HostParsing.Proofs.Registry.Run
/-!
# The registry as a map

`Contents.Step` is all that a client needs to know of a registry: how calls end,
told by the map of its contents alone. Handles are issued for buffers that are
given, and resolve to nothing before; a release takes out its own handle; an edit
changes the content behind its own handle; everything else, and every call that
is refused, leaves the map as it is. `run_refines` is that the registry does
nothing else, with a counter that is always the size of the map.
-/

namespace HostParsing.Registry

/-- How a call may end on contents, and the contents after it. -/
inductive Contents.Step (m : Contents) : Call → Except Fault Answer → Contents → Prop
  /-- A handle is new, and resolves to the buffer given from then on. -/
  | issued {call : Call} {b : Buffer} (given : call.given m = some (.ok b))
      (room : m.size < slotLimit) {h : Handle} (fresh : m h = none) :
    Step m call (.ok (.handle h)) (m.put h b)
  | full {call : Call} {b : Buffer} (given : call.given m = some (.ok b))
      (none_left : m.size = slotLimit) :
    Step m call (.error (.registryFull slotLimit)) m
  /-- There is no buffer to register: the bytes or the range are refused, or the
  handle they come from. -/
  | notGiven {call : Call} {fault : Fault} (given : call.given m = some (.error fault)) :
    Step m call (.error fault) m
  /-- A handle that a call needs to resolve does not. -/
  | missing {call : Call} {raw : UInt64} {fault : Fault} (named : call.named = some raw)
      (missing : m.find raw = .error fault) : Step m call (.error fault) m
  | erased {raw : UInt64} {h : Handle} {b : Buffer} (found : m.find raw = .ok (h, b)) :
    Step m (.erase raw) (.ok .done) (m.drop h)
  | read {raw : UInt64} {h : Handle} {b : Buffer} (found : m.find raw = .ok (h, b)) :
    Step m (.read raw) (.ok (.content b)) m
  | kept {raw : UInt64} {h : Handle} {b : Buffer} (found : m.find raw = .ok (h, b))
      (number : Nat) : Step m (.keep raw) (.ok (.kept number)) m
  | edited {raw : UInt64} {h : Handle} {b after : Buffer} (found : m.find raw = .ok (h, b))
      {c : Buffer.Call} {answer : Buffer.Answer} (done : c.run b = .ok (answer, after)) :
    Step m (.edit raw c) (.ok (.edited answer after)) (m.put h after)
  | editRefused {raw : UInt64} {h : Handle} {b : Buffer} (found : m.find raw = .ok (h, b))
      {c : Buffer.Call} {fault : Fault} (refused : c.run b = .error fault) :
    Step m (.edit raw c) (.error fault) m
  /-- A buffer that was kept is edited, and a handle still resolves to it. -/
  | editedKept {h : Handle} {b after : Buffer} (held : m h = some b) {c : Buffer.Call}
      {answer : Buffer.Answer} (done : c.run b = .ok (answer, after)) (number : Nat) :
    Step m (.editKept number c) (.ok (.edited answer after)) (m.put h after)
  /-- A buffer that was kept is edited, after its handle was released. -/
  | editedReleased (number : Nat) (c : Buffer.Call) (answer : Buffer.Answer) (after : Buffer) :
    Step m (.editKept number c) (.ok (.edited answer after)) m
  | editKeptRefused (number : Nat) (c : Buffer.Call) (fault : Fault) :
    Step m (.editKept number c) (.error fault) m
  | unpacked (raw : UInt64) : Step m (.unpack raw) ((handleOfRaw raw).map .handle) m
  | contains (raw : UInt64) :
    Step m (.contains raw) ((handleOfRaw raw).map fun h => .flag (m h).isSome) m
  | isEmpty : Step m .isEmpty (.ok (.flag (m.size = 0))) m
  | noRounds : Step m (.churn 0) (.ok (.last none)) m
  /-- Every buffer that was registered is released again. -/
  | churned (n : Nat) (room : m.size < slotLimit) {h : Handle} (fresh : m h = none) :
    Step m (.churn (n + 1)) (.ok (.last (some h))) m
  | churnRefused (n : Nat) (full : m.size = slotLimit) :
    Step m (.churn (n + 1)) (.error (.registryFull slotLimit)) m

variable {d : Desk} {raw : UInt64} {h : Handle} {b : Buffer} {fault : Fault}

/-- How a call on a desk ends, and the contents of the desk's registry after it. -/
def Call.Refines (d : Desk) (call : Call) : Prop :=
  d.registry.contents.Step call ((call.run d).map Prod.fst) (call.after d).registry.contents

theorem refines_given (sound : d.registry.Sound) (counted : d.registry.Counted) {call : Call}
    {given : Except Fault Buffer} (e : call.given d.registry.contents = some given) :
    call.Refines d := by
  unfold Call.Refines Call.after
  rw [run_of_given e]
  cases given with
  | error fault => exact .notGiven e
  | ok b =>
    simp only [bind, Except.bind]
    rcases register_spec sound b with ⟨room, h, r', made, done⟩ | ⟨full, refused⟩
    · rw [made]
      have fresh : d.registry.contents h = none := by rw [contents, done.fresh]; rfl
      simp only [Call.run.issue, Except.map, settle]
      rw [done.contents sound]
      exact .issued e (counted.live ▸ room) fresh
    · rw [refused]
      exact .full e (counted.live ▸ full)

theorem refines_missing {call : Call} (named : call.named = some raw)
    (missing : d.registry.contents.find raw = .error fault) : call.Refines d := by
  unfold Call.Refines Call.after
  rw [run_of_missing named missing]
  exact .missing named missing

theorem refines_erase (found : d.registry.contents.find raw = .ok (h, b)) :
    (Call.erase raw).Refines d := by
  unfold Call.Refines Call.after
  obtain ⟨r', gone, done⟩ := run_erase found
  rw [done]
  simp only [Except.map, settle]
  rw [(Erased.of_erase gone).contents]
  exact .erased found

theorem refines_read (found : d.registry.contents.find raw = .ok (h, b)) :
    (Call.read raw).Refines d := by
  unfold Call.Refines Call.after
  obtain ⟨e, id, e', content⟩ := of_find found
  simp only [Call.run, Registry.read, e, e', content, bind, Except.bind, Except.map]
  exact .read found

theorem refines_keep (found : d.registry.contents.find raw = .ok (h, b)) :
    (Call.keep raw).Refines d := by
  unfold Call.Refines Call.after
  obtain ⟨e, id, e', -⟩ := of_find found
  simp only [Call.run, resolveRaw, e, e', bind, Except.bind, Except.map]
  exact .kept found _

theorem refines_edit (sound : d.registry.Sound)
    (found : d.registry.contents.find raw = .ok (h, b)) (c : Buffer.Call) :
    (Call.edit raw c).Refines d := by
  unfold Call.Refines Call.after
  obtain ⟨id, place, content, done⟩ := run_edit found c
  rw [done, Call.run.edited, call, content]
  cases ended : c.run b with
  | error fault => exact .editRefused found ended
  | ok edited =>
    simp only [Except.map, settle]
    rw [contents_update sound place]
    exact .edited found ended

/-- A buffer that was kept is seen through the handle that resolves to it, if
there is one. -/
theorem refines_editKept (sound : d.registry.Sound) (number : Nat) (c : Buffer.Call) :
    (Call.editKept number c).Refines d := by
  unfold Call.Refines Call.after
  simp only [Call.run, Call.run.edited, call]
  generalize d.kept[number]?.getD d.registry.store.size = id
  cases ended : c.run (d.registry.buffer id) with
  | error fault => exact .editKeptRefused number c fault
  | ok edited =>
    simp only [Except.map, settle]
    by_cases seen : ∃ h, d.registry.lookup? h = some id
    · obtain ⟨h, place⟩ := seen
      have held : d.registry.contents h = some (d.registry.buffer id) := by rw [contents, place]; rfl
      rw [contents_update sound place]
      exact .editedKept held ended number
    · rw [contents_update_of_unseen fun h place => seen ⟨h, place⟩]
      exact .editedReleased number c edited.1 edited.2

theorem refines_churn (sound : d.registry.Sound) (counted : d.registry.Counted) (n : Nat) :
    (Call.churn n).Refines d := by
  unfold Call.Refines Call.after
  cases n with
  | zero => exact .noRounds
  | succ n =>
    simp only [Call.run]
    rcases churn_spec sound n with ⟨room, h, r', done, -, fresh, same⟩ | ⟨full, refused⟩
    · simp only [done, bind, Except.bind, Except.map, settle]
      rw [same]
      exact .churned n (counted.live ▸ room) fresh
    · rw [refused]
      exact .churnRefused n (counted.live ▸ full)

theorem refines_unpack (d : Desk) (raw : UInt64) : (Call.unpack raw).Refines d := by
  have step := Contents.Step.unpacked (m := d.registry.contents) raw
  simp only [Call.Refines, Call.after, Call.run]
  cases e : handleOfRaw raw <;> (rw [e] at step; exact step)

theorem refines_contains (d : Desk) (raw : UInt64) : (Call.contains raw).Refines d := by
  have step := Contents.Step.contains (m := d.registry.contents) raw
  simp only [Call.Refines, Call.after, Call.run, contains_eq_isSome]
  cases e : handleOfRaw raw <;> (rw [e] at step; exact step)

theorem refines_isEmpty (counted : d.registry.Counted) : Call.isEmpty.Refines d := by
  have step := Contents.Step.isEmpty (m := d.registry.contents)
  have zero : d.registry.isEmpty = decide (d.registry.contents.size = 0) := by
    rw [isEmpty, size, counted.live]
    exact beq_eq_decide _ _
  simp only [Call.Refines, Call.after, Call.run, zero, Except.map, settle]
  exact step

/-- A registry that is reached by calls is the map of its contents: every call
ends as it may on the map, and leads to the map it should. The map is finite, and
the registry counts its entries. -/
theorem run_refines (reached : Reachable d) (call : Call) :
    d.registry.contents.Step call ((call.run d).map Prod.fst) (call.after d).registry.contents ∧
      d.registry.contents.domain.Finite ∧ d.registry.size = d.registry.contents.size := by
  have sound := reached.sound
  have counted := reached.counted
  refine ⟨?_, counted.finite, counted.live⟩
  show call.Refines d
  cases given : call.given d.registry.contents with
  | some b => exact refines_given sound counted given
  | none =>
    cases named : call.named with
    | some raw =>
      cases found : d.registry.contents.find raw with
      | error fault => exact refines_missing named found
      | ok held =>
        cases call with
        | erase => cases named; exact refines_erase found
        | read => cases named; exact refines_read found
        | keep => cases named; exact refines_keep found
        | edit _ c => cases named; exact refines_edit sound found c
        | substringChars | substringBytes => cases given
        | _ => cases named
    | none =>
      cases call with
      | editKept number c => exact refines_editKept sound number c
      | churn n => exact refines_churn sound counted n
      | unpack raw => exact refines_unpack d raw
      | contains raw => exact refines_contains d raw
      | isEmpty => exact refines_isEmpty counted
      | create | createOfBytes | createOfByteRange | register => cases given
      | _ => cases named

/-- The release of a text that was registered. -/
theorem run_refines_erase :
    let d := (Call.create "a").after Desk.empty
    d.registry.contents.Step (.erase 1) (.ok .done) ((Call.erase 1).after d).registry.contents ∧
      d.registry.contents.domain.Finite ∧ d.registry.size = d.registry.contents.size :=
  run_refines (Reachable.empty.call (.create "a")) (.erase 1)

end HostParsing.Registry
