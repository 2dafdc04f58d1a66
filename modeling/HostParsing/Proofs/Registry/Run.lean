import HostParsing.Proofs.Registry.Trace
/-!
# Runs of calls

What a call does to a registry, whichever it is: calls that issue a handle
register the buffer they are given (`run_of_given`), calls on a handle find it in
the contents or are refused (`of_find`, `run_of_missing`), and every call is a
number of registrations, releases and writes (`Call.trace`). A desk that is
reached by calls from an empty one therefore has a sound table, whose counter is
right (`Reachable.sound`, `Reachable.counted`).
-/

namespace HostParsing.Registry

/-- The desk after a call that ended in a certain way. -/
def settle (d : Desk) : Except Fault (Answer × Desk) → Desk
  | .ok (_, after) => after
  | .error _ => d

/-- The desk after a call; one that is refused leaves it as it is. -/
def Call.after (d : Desk) (call : Call) : Desk :=
  settle d (call.run d)

@[simp] theorem runAll_cons (d : Desk) (call : Call) (calls : List Call) :
    runAll d (call :: calls) = runAll (call.after d) calls := by
  rw [runAll, Call.after]
  cases call.run d <;> rfl

/-- The desks that calls lead to from an empty registry. -/
inductive Reachable : Desk → Prop
  | empty : Reachable Desk.empty
  | call {d : Desk} (before : Reachable d) (call : Call) : Reachable (call.after d)

/-- The buffer that a call has registered, of the calls that issue a handle. -/
def Call.given (m : Contents) : Call → Option (Except Fault Buffer)
  | create text => some (.ok (Buffer.ofText text))
  | createOfBytes bytes => some (Buffer.ofBytes bytes)
  | createOfByteRange array offset count => some (Buffer.ofByteRange array offset count)
  | register units => some (.ok (Buffer.ofUnits units))
  | substringChars raw first last => some do (← m.find raw).2.substringChars first last
  | substringBytes raw first last => some do (← m.find raw).2.substringBytes first last
  | _ => none

/-- The word that a call passes for a handle it needs to resolve. -/
def Call.named : Call → Option UInt64
  | substringChars raw _ _ | substringBytes raw _ _ | erase raw | read raw | edit raw _
  | keep raw => some raw
  | _ => none

/-- How often a call releases the slot at an index. -/
def Call.releases (d : Desk) (index : UInt32) : Call → Nat
  | .erase raw =>
    match handleOfRaw raw with
    | .ok h => if d.registry.contains h ∧ h.index = index then 1 else 0
    | .error _ => 0
  | .churn n =>
    match d.registry.churn n with
    | .ok (some h, _) => if h.index = index then n else 0
    | _ => 0
  | _ => 0

/-- How often a list of calls releases the slot at an index. -/
def releasesIn (d : Desk) (index : UInt32) : List Call → Nat
  | [] => 0
  | call :: calls => call.releases d index + releasesIn (call.after d) index calls

/-- What a call does to the registry, the latest in front. A call that is refused
does nothing. -/
def Call.events (d : Desk) (call : Call) : List Event :=
  match call, call.run d with
  | .unpack _, _ => []
  | _, .ok (.handle h, _) => [.registered h.index]
  | .erase raw, .ok _ => (handleOfRaw raw).toOption.toList.map (.released ·.index)
  | .edit raw _, .ok _ => (d.registry.resolveRaw raw).toOption.toList.map .wrote
  | .editKept number _, .ok _ => [.wrote (d.kept[number]?.getD d.registry.store.size)]
  | .churn n, .ok (.last (some h), _) => rounds h.index n
  | _, _ => []

/-- What a list of calls does to the registry, the latest in front. -/
def eventsIn (d : Desk) : List Call → List Event
  | [] => []
  | call :: calls => eventsIn (call.after d) calls ++ call.events d

/-! ## One call -/

variable {d : Desk} {raw : UInt64} {h : Handle} {b : Buffer} {fault : Fault}

/-- What is found lies at a place that the handle resolves to. -/
theorem of_find {r : Registry} (found : r.contents.find raw = .ok (h, b)) :
    handleOfRaw raw = .ok h ∧ ∃ id, r.resolve h = .ok id ∧ r.buffer id = b := by
  obtain ⟨names, holds⟩ := Contents.find_eq_ok_iff.mp found
  obtain ⟨id, place, content⟩ := Option.map_eq_some_iff.mp holds
  exact ⟨names, id, resolve_eq_ok_iff.mpr place, content⟩

/-- A word is not found if it packs no handle, or one that does not resolve. -/
theorem of_not_find {r : Registry} (missing : r.contents.find raw = .error fault) :
    handleOfRaw raw = .error fault ∨
      ∃ h, handleOfRaw raw = .ok h ∧ r.resolve h = .error fault := by
  unfold Contents.find at missing
  cases e : handleOfRaw raw with
  | error => rw [e] at missing; cases missing; exact .inl rfl
  | ok h =>
    simp only [e, bind, Except.bind, contents] at missing
    cases place : r.lookup? h with
    | none =>
      simp only [place, Option.map_none, Except.error.injEq] at missing
      exact .inr ⟨h, rfl, by rw [resolve, place, ← missing]⟩
    | some id => simp [place] at missing

/-- A call on a word that is not found is refused. -/
theorem run_of_missing {call : Call} (named : call.named = some raw)
    (missing : d.registry.contents.find raw = .error fault) : call.run d = .error fault := by
  cases call with
  | substringChars | substringBytes | erase | read | edit | keep =>
    cases named
    rcases of_not_find missing with e | ⟨h, e, e'⟩
    · simp only [Call.run, resolveRaw, e, bind, Except.bind]
    · simp only [Call.run, resolveRaw, Registry.substringChars, Registry.substringBytes, read,
        Registry.erase, e, e', bind, Except.bind, Except.map, Call.run.issue]
  | _ => cases named

/-- A call that issues a handle registers the buffer it is given. -/
theorem run_of_given {call : Call} {given : Except Fault Buffer}
    (e : call.given d.registry.contents = some given) :
    call.run d = Call.run.issue d (given >>= d.registry.register) := by
  cases call with
  | create | createOfBytes | createOfByteRange | register => cases e; rfl
  | substringChars | substringBytes =>
    cases e
    cases found : d.registry.contents.find _ with
    | error fault => rw [run_of_missing rfl found]; rfl
    | ok at_ =>
      obtain ⟨e, id, e', content⟩ := of_find found
      simp only [Call.run, Registry.substringChars, Registry.substringBytes, read, e, e', content,
        bind, Except.bind, Except.map]
  | _ => cases e

/-- A call that issues a handle and is given a buffer registers it, if there is room. -/
theorem run_issues (sound : d.registry.Sound) (room : d.registry.live < slotLimit) {call : Call}
    (given : call.given d.registry.contents = some (.ok b)) :
    ∃ h d', call.run d = .ok (.handle h, d') ∧ d.registry.Registered b h d'.registry := by
  rw [run_of_given given]
  rcases register_spec sound b with ⟨-, h, r', made, done⟩ | ⟨full, -⟩
  · refine ⟨h, { d with registry := r' }, ?_, done⟩
    simp only [Call.run.issue, bind, Except.bind, made, Except.map]
  · omega

/-- A handle that is found can be released. -/
theorem run_erase (found : d.registry.contents.find raw = .ok (h, b)) :
    ∃ r', d.registry.erase h = .ok r' ∧
      (Call.erase raw).run d = .ok (.done, { d with registry := r' }) := by
  obtain ⟨e, id, e', -⟩ := of_find found
  have gone := erase_eq_ok_iff.mpr ⟨⟨id, resolve_eq_ok_iff.mp e'⟩, rfl⟩
  exact ⟨_, gone, by simp only [Call.run, e, bind, Except.bind, gone]⟩

/-- A call on a buffer that is found works at its place. -/
theorem run_edit (found : d.registry.contents.find raw = .ok (h, b)) (c : Buffer.Call) :
    ∃ id, d.registry.lookup? h = some id ∧ d.registry.buffer id = b ∧
      (Call.edit raw c).run d = Call.run.edited d id c := by
  obtain ⟨e, id, e', content⟩ := of_find found
  exact ⟨id, resolve_eq_ok_iff.mp e', content,
    by simp only [Call.run, resolveRaw, e, e', bind, Except.bind]⟩

/-- A call that issues a handle registers a buffer, or is refused. -/
theorem trace_issue (d : Desk) (given : Except Fault Buffer) :
    let ended := Call.run.issue d (given >>= d.registry.register)
    (∃ h after, ended = .ok (.handle h, after) ∧
        Trace d.registry [.registered h.index] after.registry) ∨
      ∃ fault, ended = .error fault := by
  cases given with
  | error fault => exact .inr ⟨fault, rfl⟩
  | ok b =>
    simp only [bind, Except.bind]
    cases made : d.registry.register b with
    | error fault => exact .inr ⟨fault, rfl⟩
    | ok issued => exact .inl ⟨_, _, rfl, .registers .stays made⟩

/-- A call on a buffer writes to its place, or is refused. -/
theorem trace_edited (d : Desk) (id : BufferId) (c : Buffer.Call) :
    let ended := Call.run.edited d id c
    (∃ answer b after, ended = .ok (.edited answer b, after) ∧
        Trace d.registry [.wrote id] after.registry) ∨
      ∃ fault, ended = .error fault := by
  simp only [Call.run.edited, call]
  cases c.run (d.registry.buffer id) with
  | error fault => exact .inr ⟨fault, rfl⟩
  | ok done => exact .inl ⟨_, _, _, rfl, .writes .stays id done.2⟩

/-- A call that is refused does nothing. -/
theorem trace_of_refused {call : Call} (refused : call.run d = .error fault) :
    Trace d.registry (call.events d) (call.after d).registry := by
  have none : call.events d = [] := by
    unfold Call.events
    rw [refused]
    cases call <;> rfl
  rw [none, Call.after, refused]
  exact .stays

/-- Every call is a number of registrations, releases and writes. -/
theorem Call.trace (sound : d.registry.Sound) (call : Call) :
    Trace d.registry (call.events d) (call.after d).registry := by
  -- Calls that issue a handle all register what they are given.
  cases given : call.given d.registry.contents with
  | some b =>
    have run := run_of_given given
    rcases trace_issue d b with ⟨h, after, e, trace⟩ | ⟨fault, e⟩
    · have events : call.events d = [.registered h.index] := by
        unfold Call.events
        rw [run, e]
        cases call <;> first | rfl | cases given
      rw [events, Call.after, run, e]
      exact trace
    · exact trace_of_refused (run.trans e)
  | none =>
    cases call with
    | create | createOfBytes | createOfByteRange | register | substringChars | substringBytes =>
      cases given
    | isEmpty => exact .stays
    | unpack raw | contains raw =>
      simp only [events, after, run]
      cases handleOfRaw raw with
      | error fault => exact .stays
      | ok h => exact .stays
    | read raw | keep raw =>
      cases found : d.registry.contents.find raw with
      | error fault => exact trace_of_refused (run_of_missing rfl found)
      | ok held =>
        obtain ⟨e, id, e', -⟩ := of_find found
        simp only [events, after, run, Registry.read, resolveRaw, e, e', bind, Except.bind, Except.map]
        exact .stays
    | edit raw c =>
      cases found : d.registry.contents.find raw with
      | error fault => exact trace_of_refused (run_of_missing rfl found)
      | ok held =>
        obtain ⟨id, place, -, run⟩ := run_edit found c
        have resolved : d.registry.resolveRaw raw = .ok id := by
          rw [resolveRaw, (of_find found).1]
          exact resolve_eq_ok_iff.mpr place
        rcases trace_edited d id c with ⟨answer, b, after, e, trace⟩ | ⟨fault, e⟩
        · simp only [events, Call.after, run, e, resolved]
          exact trace
        · exact trace_of_refused (run.trans e)
    | editKept number c =>
      rcases trace_edited d (d.kept[number]?.getD d.registry.store.size) c with
        ⟨answer, b, after, e, trace⟩ | ⟨fault, e⟩
      · simp only [events, Call.after, run, e]
        exact trace
      · exact trace_of_refused e
    | erase raw =>
      cases found : d.registry.contents.find raw with
      | error fault => exact trace_of_refused (run_of_missing rfl found)
      | ok held =>
        obtain ⟨r', gone, run⟩ := run_erase found
        simp only [events, after, run, (of_find found).1]
        exact .releases .stays gone
    | churn n =>
      cases n with
      | zero => exact .stays
      | succ n =>
        rcases churn_spec sound n with ⟨-, h, r', done, trace, -⟩ | ⟨-, refused⟩
        · simp only [events, after, run, done, bind, Except.bind]
          exact trace
        · exact trace_of_refused (by rw [run, refused]; rfl)

/-- A call releases a slot as often as its events say. -/
theorem Call.releases_eq_count (d : Desk) (call : Call) (index : UInt32) :
    call.releases d index = (call.events d).count (.released index) := by
  cases call with
  | erase raw =>
    simp only [releases, events, run]
    cases e : handleOfRaw raw with
    | error fault => rfl
    | ok h =>
      cases place : d.registry.lookup? h with
      | none =>
        simp [Registry.contains, Registry.erase, resolve, place, bind, Except.bind, Except.map]
      | some id =>
        by_cases same : h.index = index <;>
          simp [Registry.contains, Registry.erase, resolve, place, same, e, bind, Except.bind,
            Except.map, Except.toOption]
  | churn n =>
    simp only [releases, events, run]
    cases d.registry.churn n with
    | error fault => rfl
    | ok done =>
      obtain ⟨_ | h, r'⟩ := done
      · rfl
      · exact (count_released_rounds index h.index n).symm
  | unpack => rfl
  | edit raw c =>
    have none : ∀ ids : List BufferId, (ids.map Event.wrote).count (.released index) = 0 :=
      fun ids => List.count_eq_zero.mpr (by simp)
    simp only [releases, events]
    split <;> simp_all
  | _ =>
    simp only [releases, events]
    split <;> simp_all

/-! ## Runs -/

theorem Reachable.kept_together (reached : Reachable d) :
    d.registry.Sound ∧ d.registry.Counted := by
  induction reached with
  | empty => exact ⟨sound_empty, counted_empty⟩
  | call before call ih =>
    have moved := (call.trace ih.1).moved 0
    exact ⟨moved.sound ih.1, moved.counted ih.1 ih.2⟩

theorem Reachable.sound (reached : Reachable d) : d.registry.Sound := reached.kept_together.1

theorem Reachable.counted (reached : Reachable d) : d.registry.Counted := reached.kept_together.2

theorem trace_runAll (sound : d.registry.Sound) (calls : List Call) :
    Trace d.registry (eventsIn d calls) (runAll d calls).registry := by
  induction calls generalizing d with
  | nil => exact .stays
  | cons call calls ih =>
    have first := call.trace sound
    rw [runAll_cons]
    exact first.trans (ih (first.sound sound))

theorem releasesIn_eq_count (d : Desk) (index : UInt32) (calls : List Call) :
    releasesIn d index calls = (eventsIn d calls).count (.released index) := by
  induction calls generalizing d with
  | nil => rfl
  | cons call calls ih =>
    rw [releasesIn, eventsIn, List.count_append, ih, call.releases_eq_count, Nat.add_comm]

/-- A run releases each slot as often as its calls do. -/
theorem moved_runAll (sound : d.registry.Sound) (calls : List Call) (index : UInt32) :
    Moved index d.registry (releasesIn d index calls) (runAll d calls).registry := by
  rw [releasesIn_eq_count]
  exact (trace_runAll sound calls).moved index

end HostParsing.Registry
