import HostParsing.Proofs.Registry.Edits
/-!
# Kept buffers

A client that keeps a buffer keeps its place in the store, and a handle that it
was reached by tells nothing about it any more once that is released: the slot,
and after a whole cycle even the handle, may belong to another buffer. The place
never does (`Severed`). What lies there is from then on the client's own, and
changes by the calls put to the kept buffer alone (`Severed.runAll`).

As long as a handle resolves to a kept buffer there is only the one, and an edit
of the kept buffer is seen through that handle and no other (`read_update`).
-/

namespace HostParsing.Registry

/-- The calls put to a place of the store through the buffers kept at a desk. -/
def keptCalls (d : Desk) (id : BufferId) (calls : List Call) : List Buffer.Call :=
  calls.filterMap fun
    | .editKept number c => if d.kept[number]? = some id then some c else none
    | _ => none

/-- The buffer at a place of the store is out of reach of all handles. -/
structure Severed (d : Desk) (id : BufferId) : Prop where
  sound : d.registry.Sound
  taken : id < d.registry.store.size
  unseen : ∀ h, d.registry.lookup? h ≠ some id

variable {d : Desk} {h : Handle} {id : BufferId} {number : Nat}

theorem keptCalls_append (d : Desk) (id : BufferId) (calls more : List Call) :
    keptCalls d id (calls ++ more) = keptCalls d id calls ++ keptCalls d id more :=
  List.filterMap_append

/-- Only who has the buffer matters. -/
theorem keptCalls_congr {other : Desk}
    (same : ∀ number : Nat, other.kept[number]? = some id ↔ d.kept[number]? = some id)
    (calls : List Call) : keptCalls other id calls = keptCalls d id calls := by
  simp only [keptCalls, same]

/-! ## What a call does with kept buffers -/

theorem kept_of_edited (c : Buffer.Call) : (settle d (Call.run.edited d id c)).kept = d.kept := by
  simp only [Call.run.edited, call]
  cases c.run (d.registry.buffer id) <;> rfl

theorem kept_of_issue (issued : Except Fault (Handle × Registry)) :
    (settle d (Call.run.issue d issued)).kept = d.kept := by
  cases issued <;> rfl

/-- A call keeps a buffer that a handle resolves to, or none. -/
theorem Call.kept_after (d : Desk) (call : Call) :
    (call.after d).kept = d.kept ∨
      ∃ h id, d.registry.lookup? h = some id ∧ (call.after d).kept = d.kept.push id := by
  cases given : call.given d.registry.contents with
  | some b =>
    rw [after, run_of_given given]
    exact .inl (kept_of_issue _)
  | none =>
    cases call with
    | create | createOfBytes | createOfByteRange | register | substringChars | substringBytes =>
      cases given
    | isEmpty => exact .inl rfl
    | unpack raw | contains raw =>
      simp only [after, run]
      cases handleOfRaw raw <;> exact .inl rfl
    | editKept number c => exact .inl (kept_of_edited c)
    | churn n =>
      simp only [after, run]
      cases d.registry.churn n <;> exact .inl rfl
    | read raw | erase raw | edit raw c | keep raw =>
      cases found : d.registry.contents.find raw with
      | error fault =>
        rw [after, run_of_missing rfl found]
        exact .inl rfl
      | ok held =>
        obtain ⟨e, id, e', -⟩ := of_find found
        simp only [after, run, Registry.read, Registry.erase, resolveRaw, e, e', bind, Except.bind,
          Except.map]
        first
        | exact .inl rfl
        | exact .inl (kept_of_edited c)
        | exact .inr ⟨held.1, id, resolve_eq_ok_iff.mp e', rfl⟩

theorem Reachable.runAll (reached : Reachable d) (calls : List Call) :
    Reachable (Registry.runAll d calls) := by
  induction calls generalizing d with
  | nil => exact reached
  | cons call calls ih =>
    rw [runAll_cons]
    exact ih (reached.call call)

/-- A kept buffer lies at a place that is taken. -/
theorem Reachable.kept_lt (reached : Reachable d) (kept : d.kept[number]? = some id) :
    id < d.registry.store.size := by
  induction reached generalizing number id with
  | empty => simp [Desk.empty] at kept
  | call before call ih =>
    have older := (call.trace before.sound).size_store_le before.sound
    refine Nat.lt_of_lt_of_le ?_ older
    rcases call.kept_after _ with same | ⟨h, place, found, pushed⟩
    · exact ih (same ▸ kept)
    · rw [pushed, Array.getElem?_push] at kept
      split at kept
      · cases kept
        exact before.sound.lookup?_lt found
      · exact ih kept

theorem exists_of_resolveRaw {r : Registry} {raw : UInt64} (resolved : r.resolveRaw raw = .ok id) :
    ∃ h, handleOfRaw raw = .ok h ∧ r.lookup? h = some id := by
  unfold resolveRaw at resolved
  cases e : handleOfRaw raw with
  | error fault => simp [e, bind, Except.bind] at resolved
  | ok h =>
    rw [e] at resolved
    exact ⟨h, rfl, resolve_eq_ok_iff.mp resolved⟩

/-! ## Kept buffers whose handle was released -/

namespace Severed

theorem kept_after (severed : Severed d id) (call : Call) (number : Nat) :
    (call.after d).kept[number]? = some id ↔ d.kept[number]? = some id := by
  rcases call.kept_after d with same | ⟨h, place, found, pushed⟩
  · rw [same]
  -- The buffer kept is another one, since no handle resolves to this one.
  · have other : place ≠ id := fun e => severed.unseen h (e ▸ found)
    rw [pushed, Array.getElem?_push]
    split
    · rename_i beyond
      simp [beyond, other]
    · rfl

/-- Nothing but a call put to the kept buffer is put to what lies there. -/
theorem editsOf_eq (severed : Severed d id) (call : Call) :
    call.editsOf d id = keptCalls d id [call] := by
  cases call with
  | edit raw c =>
    have unresolved : d.registry.resolveRaw raw ≠ .ok id := fun resolved =>
      let ⟨h, _, found⟩ := exists_of_resolveRaw resolved
      severed.unseen h found
    rw [Call.editsOf, if_neg unresolved]
    rfl
  | editKept number c =>
    by_cases kept : d.kept[number]? = some id <;> simp [Call.editsOf, keptCalls, kept]
  | _ => rfl

theorem after (severed : Severed d id) (call : Call) : Severed (call.after d) id := by
  have trace := call.trace severed.sound
  exact ⟨trace.sound severed.sound,
    Nat.lt_of_lt_of_le severed.taken (trace.size_store_le severed.sound),
    trace.unseen severed.sound severed.taken severed.unseen⟩

/-- Whatever is called, the place stays out of reach of handles. -/
theorem stays (severed : Severed d id) (calls : List Call) :
    Severed (Registry.runAll d calls) id := by
  induction calls generalizing d with
  | nil => exact severed
  | cons call calls ih =>
    rw [runAll_cons]
    exact ih (severed.after call)

theorem kept_runAll (severed : Severed d id) (calls : List Call) (number : Nat) :
    (Registry.runAll d calls).kept[number]? = some id ↔ d.kept[number]? = some id := by
  induction calls generalizing d with
  | nil => exact Iff.rfl
  | cons call calls ih =>
    rw [runAll_cons]
    exact (ih (severed.after call)).trans (severed.kept_after call number)

/-- As long as only those who kept the buffer reach it, its edits are theirs. -/
theorem editsIn_eq (severed : Severed d id) (calls : List Call) :
    editsIn d id calls = keptCalls d id calls := by
  induction calls generalizing d with
  | nil => rfl
  | cons call calls ih =>
    rw [editsIn, ih (severed.after call), keptCalls_congr (severed.kept_after call),
      severed.editsOf_eq call, ← keptCalls_append, List.singleton_append]

/-- Whatever is called, the place stays out of reach of handles, whoever kept the
buffer has it still, and it is as the calls put to it there make it. -/
theorem runAll (severed : Severed d id) (calls : List Call) :
    let later := Registry.runAll d calls
    Severed later id ∧
      (∀ number : Nat, later.kept[number]? = some id ↔ d.kept[number]? = some id) ∧
      later.registry.buffer id =
        Buffer.runAll (d.registry.buffer id) (keptCalls d id calls) := by
  refine ⟨severed.stays calls, severed.kept_runAll calls, ?_⟩
  rw [← severed.editsIn_eq calls]
  exact buffer_of_runAll severed.sound severed.taken calls

end Severed

/-- The release of the handle of a buffer cuts it off. -/
theorem Erased.severed {r : Registry} (done : d.registry.Erased h r) (sound : d.registry.Sound)
    (found : d.registry.lookup? h = some id) : Severed { d with registry := r } id := by
  refine ⟨done.sound sound, done.store ▸ sound.lookup?_lt found, fun other => ?_⟩
  rw [done.lookup?]
  split
  · nofun
  · rename_i ne
    exact fun seen => ne (sound.lookup?_inj found seen)

theorem severed_of_erase (sound : d.registry.Sound) {raw : UInt64}
    (resolved : d.registry.resolveRaw raw = .ok id) : Severed ((Call.erase raw).after d) id := by
  obtain ⟨h, unpacked, found⟩ := exists_of_resolveRaw resolved
  have gone := erase_eq_ok_iff.mpr ⟨⟨id, found⟩, rfl⟩
  simp only [Call.after, Call.run, unpacked, bind, Except.bind, gone]
  exact (Erased.of_erase gone).severed sound found

/-- Once a buffer is released, no handle resolves to it, and its edits are those of the
clients who have kept it. -/
theorem editsIn_of_erase (sound : d.registry.Sound) {first : List Call} {raw : UInt64}
    (resolved : (runAll d first).registry.resolveRaw raw = .ok id) (rest : List Call) :
    let released := runAll d (first ++ [.erase raw])
    (∀ h, (runAll released rest).registry.lookup? h ≠ some id) ∧
      editsIn d id (first ++ .erase raw :: rest) =
        editsIn d id first ++ keptCalls released id rest := by
  intro released
  have severed : Severed released id := by
    simp only [released, runAll_append, runAll_cons]
    exact severed_of_erase ((trace_runAll sound first).sound sound) resolved
  refine ⟨(severed.stays rest).unseen, ?_⟩
  rw [editsIn_append, editsIn, ← severed.editsIn_eq rest]
  simp only [released, runAll_append, runAll_cons]
  rfl

/-! ## Kept buffers that a handle may resolve to -/

/-- A write to a place of the store is read through the handle that resolves to it
and no other. -/
theorem read_update {r : Registry} (taken : id < r.store.size) (b : Buffer) (h : Handle) :
    (r.update id b).read h = if r.lookup? h = some id then .ok b else r.read h := by
  simp only [read, resolve, lookup?_update]
  cases found : r.lookup? h with
  | none => simp [Except.map]
  | some place =>
    by_cases same : place = id
    · subst same
      simp [Except.map, buffer, update, Store.get_put_self taken]
    · simp [Except.map, buffer, update, Store.get_put_of_ne same, same]

theorem run_editKept (kept : d.kept[number]? = some id) {c : Buffer.Call}
    {answer : Buffer.Answer} {after : Buffer}
    (done : c.run (d.registry.buffer id) = .ok (answer, after)) :
    (Call.editKept number c).run d =
      .ok (.edited answer after, { d with registry := d.registry.update id after }) := by
  rw [Call.run, kept, Option.getD_some, Call.run.edited, Registry.call, done]
  rfl

/-- Handles that resolve to the same buffer are the same. An edit of a kept buffer
is read back through it and through the handle that resolves to it, if there is
one, and changes what no other handle reads. Once that handle is released, no
handle resolves to the buffer, whatever is called; whoever kept it has it still,
and it is as the calls put to it there make it. -/
theorem kept_buffer_apart (reached : Reachable d) :
    (∀ h other id, d.registry.lookup? h = some id → d.registry.lookup? other = some id →
      other = h) ∧
    ∀ (number : Nat) (id : BufferId), d.kept[number]? = some id →
      (∀ c answer after, c.run (d.registry.buffer id) = .ok (answer, after) →
        ∃ later, (Call.editKept number c).run d = .ok (.edited answer after, later) ∧
          later.kept = d.kept ∧ later.registry.buffer id = after ∧
          ∀ h, (d.registry.lookup? h = some id → later.registry.read h = .ok after) ∧
            (later.registry.read h ≠ d.registry.read h ↔
              after ≠ d.registry.buffer id ∧ d.registry.lookup? h = some id)) ∧
      (∀ h r, d.registry.lookup? h = some id → d.registry.erase h = .ok r → ∀ calls,
        let later := runAll { d with registry := r } calls
        later.kept[number]? = some id ∧ (∀ other, later.registry.lookup? other ≠ some id) ∧
          later.registry.buffer id =
            Buffer.runAll (d.registry.buffer id) (keptCalls d id calls)) := by
  refine ⟨fun h other id found found' => reached.sound.lookup?_inj found found',
    fun number id kept => ⟨fun c answer after done => ?_, fun h r found gone calls => ?_⟩⟩
  · have taken := reached.kept_lt kept
    refine ⟨_, run_editKept kept done, rfl, Store.get_put_self taken after, fun h => ?_⟩
    simp only [read_update taken]
    by_cases found : d.registry.lookup? h = some id
    · have before : d.registry.read h = .ok (d.registry.buffer id) := by
        rw [read, resolve_eq_ok_iff.mpr found]
        rfl
      simp [found, before]
    · simp [found]
  · have erased := Erased.of_erase gone
    have severed := erased.severed (d := d) reached.sound found
    have same : Buffer.runAll (d.registry.buffer id) = Buffer.runAll (r.buffer id) := by
      rw [buffer, buffer, erased.store]
    obtain ⟨still, keeps, content⟩ := severed.runAll calls
    exact ⟨(keeps number).mpr kept, still.unseen, same ▸ content⟩

/-- A buffer is kept and its handle released. After a whole cycle the handle is
issued again, and resolves to another buffer than the kept one. -/
theorem kept_buffer_apart_cycle :
    let d := runAll Desk.empty [.create "a", .keep 1]
    let released := (Call.erase 1).after d
    let calls : List Call :=
      [.churn 4294967294, .create "b", .editKept 0 (.append "c"), .edit 1 (.append "d")]
    let later := runAll released calls
    later.kept[0]? = some 0 ∧ (∀ h, later.registry.lookup? h ≠ some 0) ∧
      later.registry.buffer 0 = Buffer.ofText "ac" ∧
      (later.registry.read ⟨0, 1⟩).map Buffer.toText = .ok "bd" := by
  intro d released calls later
  have reached : Reachable d := Reachable.empty.runAll _
  obtain ⟨kept, unseen, content⟩ :=
    ((kept_buffer_apart reached).2 0 0 rfl).2 ⟨0, 1⟩ _ rfl rfl calls
  exact ⟨kept, unseen, content, by decide⟩

end HostParsing.Registry
