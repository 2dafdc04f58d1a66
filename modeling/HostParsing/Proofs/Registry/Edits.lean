import HostParsing.Proofs.Registry.Run
/-!
# The edits of one buffer

A buffer is edited through a handle that resolves to it, or by a client who has kept it.
Which calls these are is settled call by call, since a handle may be released meanwhile
and its slot, or the handle itself, may come to another buffer (`editsIn`). What a run of
calls leaves at a place of the store is what these edits make of the buffer that lay
there, and nothing else (`buffer_of_runAll`).
-/

namespace HostParsing.Registry

/-- What a call puts to the buffer at a place of the store. -/
def Call.editsOf (d : Desk) (id : BufferId) : Call → List Buffer.Call
  | .edit raw c => if d.registry.resolveRaw raw = .ok id then [c] else []
  | .editKept number c => if d.kept[number]? = some id then [c] else []
  | _ => []

/-- What a list of calls puts to the buffer at a place of the store. -/
def editsIn (d : Desk) (id : BufferId) : List Call → List Buffer.Call
  | [] => []
  | call :: calls => call.editsOf d id ++ editsIn (call.after d) id calls

variable {d : Desk} {id : BufferId} {call : Call}

theorem runAll_append (d : Desk) (calls more : List Call) :
    runAll d (calls ++ more) = runAll (runAll d calls) more := by
  induction calls generalizing d with
  | nil => rfl
  | cons call calls ih => rw [List.cons_append, runAll_cons, runAll_cons, ih]

theorem editsIn_append (d : Desk) (id : BufferId) (calls more : List Call) :
    editsIn d id (calls ++ more) = editsIn d id calls ++ editsIn (runAll d calls) id more := by
  induction calls generalizing d with
  | nil => rfl
  | cons call calls ih =>
    rw [List.cons_append, editsIn, editsIn, runAll_cons, ih, List.append_assoc]

/-! ## One call -/

theorem wrote_not_mem_rounds (index : UInt32) (n : Nat) : .wrote id ∉ rounds index n := by
  induction n with
  | zero => exact List.not_mem_nil
  | succ n ih => simpa [rounds] using ih

/-- Only an edit writes to a place: to that which its handle resolves to, or to that of
the kept buffer it names. -/
theorem Call.wrote_mem_events (wrote : .wrote id ∈ call.events d) :
    (∃ raw c, call = .edit raw c) ∨ ∃ number c, call = .editKept number c := by
  unfold events at wrote
  split at wrote
  case h_4 raw c _ _ _ => exact .inl ⟨raw, c, rfl⟩
  case h_5 number c _ _ _ => exact .inr ⟨number, c, rfl⟩
  case h_6 n h _ _ => exact absurd wrote (wrote_not_mem_rounds h.index n)
  all_goals simp at wrote

/-- A call put to the buffer at a place changes what lies there, and nothing elsewhere. -/
theorem buffer_of_edited (taken : id < d.registry.store.size) (place : BufferId)
    (c : Buffer.Call) : (settle d (Call.run.edited d place c)).registry.buffer id =
      Buffer.runAll (d.registry.buffer id) (if place = id then [c] else []) := by
  simp only [Call.run.edited, call]
  split
  · rename_i same
    subst same
    simp only [Buffer.runAll]
    cases c.run (d.registry.buffer place) with
    | error fault => rfl
    | ok done => exact Store.get_put_self taken done.2
  · rename_i other
    cases c.run (d.registry.buffer place) with
    | error fault => rfl
    | ok done => exact Store.get_put_of_ne (Ne.symm other) done.2

theorem buffer_of_edit (taken : id < d.registry.store.size) (raw : UInt64) (c : Buffer.Call) :
    ((Call.edit raw c).after d).registry.buffer id =
      Buffer.runAll (d.registry.buffer id) ((Call.edit raw c).editsOf d id) := by
  simp only [Call.after, Call.run, Call.editsOf]
  cases resolved : d.registry.resolveRaw raw with
  | error fault => rfl
  | ok place =>
    simp only [bind, Except.bind, Except.ok.injEq]
    exact buffer_of_edited taken place c

theorem buffer_of_editKept (taken : id < d.registry.store.size) (number : Nat)
    (c : Buffer.Call) : ((Call.editKept number c).after d).registry.buffer id =
      Buffer.runAll (d.registry.buffer id) ((Call.editKept number c).editsOf d id) := by
  simp only [Call.after, Call.run, Call.editsOf]
  rw [buffer_of_edited taken]
  cases d.kept[number]? with
  | some place => simp
  | none => simp [Nat.ne_of_gt taken]

/-- A call leaves of a buffer what it puts to it makes of that. -/
theorem Call.buffer_after (sound : d.registry.Sound) (taken : id < d.registry.store.size)
    (call : Call) : (call.after d).registry.buffer id =
      Buffer.runAll (d.registry.buffer id) (call.editsOf d id) := by
  cases call with
  | edit raw c => exact buffer_of_edit taken raw c
  | editKept number c => exact buffer_of_editKept taken number c
  | _ =>
    refine (Call.trace sound _).buffer_of_not_wrote sound taken fun wrote => ?_
    rcases wrote_mem_events wrote with ⟨raw, c, e⟩ | ⟨number, c, e⟩
    · cases e
    · cases e

/-! ## Runs -/

/-- A run of calls leaves of a buffer what its edits make of that. -/
theorem buffer_of_runAll (sound : d.registry.Sound) (taken : id < d.registry.store.size)
    (calls : List Call) : (runAll d calls).registry.buffer id =
      Buffer.runAll (d.registry.buffer id) (editsIn d id calls) := by
  induction calls generalizing d with
  | nil => rfl
  | cons call calls ih =>
    have trace := call.trace sound
    have older := trace.size_store_le sound
    rw [runAll_cons, ih (trace.sound sound) (Nat.lt_of_lt_of_le taken older), editsIn,
      Buffer.runAll_append, call.buffer_after sound taken]

end HostParsing.Registry
