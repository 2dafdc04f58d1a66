import HostParsing.Proofs.Registry.Run
/-!
# Occupancies of a slot

A slot is used again and again. `issuedIn` is the handles that a run issues, in order, and
`occupancies` those of one slot, one for each buffer it held. The one at position `i` has the
generation after `i` releases: that is what a call keeps (`Numbered.effect`) and so every run
(`numbered_runAll`). A handle therefore comes back after a whole cycle of occupancies and not
before (`generations_of_runAll`).

Texts that are registered and released one after the other all go through one slot, which
moves on by a generation for each, and nothing else changes (`passThrough_of_free`). Rounds
are the case of empty texts (`churn_eq_passThrough`).
-/

namespace HostParsing.Registry

/-- Register each of some texts and release it before the next. The handles issued are
answered, in order. -/
def passThrough (r : Registry) : List String → Except Fault (List Handle × Registry)
  | [] => .ok ([], r)
  | text :: texts => do
    let (h, met) ← r.create text
    let (others, after) ← (← met.erase h).passThrough texts
    .ok (h :: others, after)

/-- The handles that a call issues, in order. -/
def Call.issued (d : Desk) (call : Call) : List Handle :=
  match call, call.run d with
  | .unpack _, _ => []
  | _, .ok (.handle h, _) => [h]
  | .churn n, .ok _ =>
    match d.registry.passThrough (List.replicate n "") with
    | .ok (handles, _) => handles
    | .error _ => []
  | _, _ => []

/-- The handles that a list of calls issues, in order. -/
def issuedIn (d : Desk) : List Call → List Handle
  | [] => []
  | call :: calls => call.issued d ++ issuedIn (call.after d) calls

/-- The handles that a list of calls issues for the slot at an index, in order. -/
def occupancies (d : Desk) (index : UInt32) (calls : List Call) : List Handle :=
  (issuedIn d calls).filter (·.index = index)

/-- The handles of the first `n` occupancies of the slot at an index. -/
def handlesOf (index : UInt32) (n : Nat) : List Handle :=
  (List.range n).map fun i => ⟨index, Slot.laterGeneration 1 i⟩

/-- What a call does to the slots, and the handles it issues. -/
inductive Call.Effect (d : Desk) : Call → List Handle → Registry → Prop
  | keeps {call : Call} {r' : Registry} (slots : r'.slots = d.registry.slots) :
    Effect d call [] r'
  | registers {call : Call} {b : Buffer} {h : Handle} {r' : Registry}
      (done : d.registry.Registered b h r') : Effect d call [h] r'
  | erases {raw : UInt64} {h : Handle} {r' : Registry} (names : handleOfRaw raw = .ok h)
      (done : d.registry.Erased h r') : Effect d (.erase raw) [] r'
  | passes {n : Nat} {handles : List Handle} {r' : Registry}
      (done : d.registry.passThrough (List.replicate n "") = .ok (handles, r')) :
    Effect d (.churn n) handles r'

/-- Texts went through the slot at an index, `n` of them, and nothing else changed. -/
structure PassedThrough (r : Registry) (index : UInt32) (n : Nat) (r' : Registry) : Prop where
  slots : r'.slots = r.slots.modify index.toNat fun slot =>
    { slot with generation := Slot.laterGeneration slot.generation n }
  free : r'.free = r.free
  live : r'.live = r.live
  size_store : r'.store.size = r.store.size + n
  buffer : ∀ id < r.store.size, r'.buffer id = r.buffer id

/-- What the slot at an index has to do with the handles issued for it. -/
inductive Numbered (r : Registry) (index : UInt32) (handles : List Handle) : Prop
  /-- There is no slot yet. -/
  | missing (none : r.slots[index.toNat]? = none) (unused : handles = [])
  /-- It has held a buffer `n` times and holds none. -/
  | vacant (n : Nat) (found : r.slots[index.toNat]? = some ⟨Slot.laterGeneration 1 n, none⟩)
      (issued : handles = handlesOf index n)
  /-- It holds a buffer, and has held one `n` times before. -/
  | held (n : Nat) (id : BufferId)
      (found : r.slots[index.toNat]? = some ⟨Slot.laterGeneration 1 n, some id⟩)
      (issued : handles = handlesOf index (n + 1))

variable {d : Desk} {r r' met after : Registry} {h : Handle} {index : UInt32} {text : String}
  {texts : List String} {handles : List Handle}

/-- A slot that is added starts at the first generation. -/
theorem Registered.generation_of_missing {b : Buffer} (done : r.Registered b h r')
    (sound : r.Sound) (missing : r.slots[h.index.toNat]? = none) : h.generation = 1 := by
  obtain ⟨top, -⟩ | ⟨-, -, -, first, -⟩ := done.free
  · obtain ⟨g, found⟩ := (sound.mem_free_iff h.index).mp (by simp [top])
    cases missing.symm.trans found
  · exact first

/-! ## One text after the other -/

theorem passThrough_cons (made : r.create text = .ok (h, met)) (gone : met.erase h = .ok after)
    (texts : List String) : r.passThrough (text :: texts) =
      (after.passThrough texts).map fun (others, last) => (h :: others, last) := by
  simp only [passThrough, made, gone, bind, Except.bind]
  cases after.passThrough texts <;> rfl

theorem of_passThrough_cons (done : r.passThrough (text :: texts) = .ok (handles, r')) :
    ∃ h met after others, r.create text = .ok (h, met) ∧ met.erase h = .ok after ∧
      after.passThrough texts = .ok (others, r') ∧ handles = h :: others := by
  cases made : r.create text with
  | error fault => simp [passThrough, made, bind, Except.bind] at done
  | ok issued =>
    obtain ⟨h, met⟩ := issued
    cases gone : met.erase h with
    | error fault => simp [passThrough, made, gone, bind, Except.bind] at done
    | ok after =>
      rw [passThrough_cons made gone] at done
      cases rest : after.passThrough texts with
      | error fault => simp [rest, Except.map] at done
      | ok others =>
        rw [rest] at done
        cases done
        exact ⟨h, met, after, others.1, rfl, gone, rest, rfl⟩

/-- Rounds pass empty texts through. -/
theorem churn_eq_passThrough (r : Registry) (n : Nat) : r.churn n =
    (r.passThrough (List.replicate n "")).map fun (handles, after) =>
      (handles.getLast?, after) := by
  induction n generalizing r with
  | zero => rfl
  | succ n ih =>
    rw [churn_succ, List.replicate_succ, passThrough]
    simp only [bind, Except.bind]
    cases r.create "" with
    | error fault => rfl
    | ok made =>
      simp only
      cases made.2.erase made.1 with
      | error fault => rfl
      | ok after =>
        simp only [ih]
        cases after.passThrough (List.replicate n "") with
        | error fault => rfl
        | ok others => simp [Except.map, List.getLast?_cons]

/-- A text that comes and goes leaves every handle as it was. -/
theorem lookup?_of_round {b : Buffer} (registered : r.Registered b h met)
    (erased : met.Erased h after) (other : Handle) : after.lookup? other = r.lookup? other := by
  rw [erased.lookup?, registered.lookup?]
  split
  · rename_i same
    rw [same, registered.fresh]
  · rfl

theorem Sound.passThrough (sound : r.Sound)
    (done : r.passThrough texts = .ok (handles, r')) :
    r'.Sound ∧ ∀ other, r'.lookup? other = r.lookup? other := by
  induction texts generalizing r handles with
  | nil =>
    cases done
    exact ⟨sound, fun _ => rfl⟩
  | cons text texts ih =>
    obtain ⟨h, met, after, others, made, gone, rest, -⟩ := of_passThrough_cons done
    have registered := Registered.of_register sound made
    have erased := Erased.of_erase gone
    obtain ⟨sound', same⟩ := ih (erased.sound (registered.sound sound)) rest
    exact ⟨sound', fun other => (same other).trans (lookup?_of_round registered erased other)⟩

/-! ## Through a free slot -/

theorem PassedThrough.zero (r : Registry) (index : UInt32) : r.PassedThrough index 0 r where
  slots := (congrArg Registry.slots (passRounds_zero r index)).symm
  free := rfl
  live := rfl
  size_store := rfl
  buffer _ _ := rfl

theorem PassedThrough.trans {m n : Nat} (first : r.PassedThrough index m met)
    (rest : met.PassedThrough index n r') : r.PassedThrough index (m + n) r' where
  slots := by
    rw [rest.slots, first.slots]
    exact congrArg Registry.slots (passRounds_add r index m n)
  free := rest.free.trans first.free
  live := rest.live.trans first.live
  size_store := by rw [rest.size_store, first.size_store, Nat.add_assoc]
  buffer id taken := by
    rw [rest.buffer id (by rw [first.size_store]; omega), first.buffer id taken]

/-- A text that comes and goes takes the slot on top of the free ones. -/
theorem passedThrough_of_round {b : Buffer} {rest : List UInt32} (sound : r.Sound)
    (free : r.free = index :: rest) (registered : r.Registered b h met)
    (erased : met.Erased h after) : h.index = index ∧ r.PassedThrough index 1 after := by
  obtain ⟨top, -⟩ | ⟨none, -⟩ := registered.free
  · obtain ⟨rfl, -⟩ := List.cons.inj (top.symm.trans free)
    obtain ⟨g, vacant⟩ := (sound.mem_free_iff h.index).mp (by simp [top])
    have generation : g = h.generation := congrArg Slot.generation (registered.vacant vacant)
    refine ⟨rfl, ?_, ?_, ?_, ?_, fun id taken => ?_⟩
    · refine Array.ext_getElem? fun i => ?_
      rw [erased.slots, registered.slots, Array.getElem?_modify]
      by_cases same : i = h.index.toNat
      · simp [same, vacant, generation]
      · rw [if_neg same, if_neg same, if_neg (Ne.symm same)]
    · rw [erased.free, top]
    · rw [erased.live, registered.live, Nat.add_sub_cancel]
    · rw [erased.store, registered.store, Store.size_push]
    · rw [Registry.buffer, erased.store, registered.store, Store.get_push_of_lt taken]
      rfl
  · cases none.symm.trans free

/-- Texts that come and go one after the other all take the slot on top of the free ones. -/
theorem passThrough_of_free {rest : List UInt32} (sound : r.Sound) (free : r.free = index :: rest)
    (texts : List String) : ∃ handles r', r.passThrough texts = .ok (handles, r') ∧
      (∀ h ∈ handles, h.index = index) ∧ r.PassedThrough index texts.length r' := by
  induction texts generalizing r with
  | nil => exact ⟨[], r, rfl, nofun, .zero r index⟩
  | cons text texts ih =>
    have counted := sound.live_add_free
    have bound := sound.size_le
    rw [free, List.length_cons] at counted
    rcases register_spec sound (Buffer.ofText text) with ⟨-, h, met, made, registered⟩ | ⟨full, -⟩
    · obtain ⟨after, gone, -⟩ := round_spec sound made
      have erased := Erased.of_erase gone
      obtain ⟨top, round⟩ := passedThrough_of_round sound free registered erased
      obtain ⟨handles, r', done, same, others⟩ :=
        ih (erased.sound (registered.sound sound)) (round.free.trans free)
      refine ⟨h :: handles, r', by rw [passThrough_cons made gone, done]; rfl, ?_, ?_⟩
      · exact List.forall_mem_cons.mpr ⟨top, same⟩
      · rw [List.length_cons, Nat.add_comm]
        exact round.trans others
    · omega

/-- What was there before is read as before. -/
theorem PassedThrough.contents {n : Nat} (passed : r.PassedThrough index n r') (sound : r.Sound)
    (same : ∀ other, r'.lookup? other = r.lookup? other) : r'.contents = r.contents := by
  funext other
  simp only [Registry.contents, same]
  cases found : r.lookup? other with
  | none => rfl
  | some id => exact congrArg some (passed.buffer id (sound.lookup?_lt found))

/-! ## What a call does to the slots -/

theorem effect_of_refused {call : Call} {fault : Fault} (refused : call.run d = .error fault) :
    call.Effect d (call.issued d) (call.after d).registry := by
  have none : call.issued d = [] := by
    unfold Call.issued
    rw [refused]
    cases call <;> rfl
  rw [none, Call.after, refused]
  exact .keeps rfl

theorem effect_of_given {call : Call} {b : Except Fault Buffer}
    (sound : d.registry.Sound) (given : call.given d.registry.contents = some b) :
    call.Effect d (call.issued d) (call.after d).registry := by
  have run := run_of_given given
  cases b with
  | error fault => exact effect_of_refused run
  | ok b =>
    simp only [bind, Except.bind] at run
    cases made : d.registry.register b with
    | error fault =>
      rw [made] at run
      exact effect_of_refused run
    | ok done =>
      have ended : call.run d = .ok (.handle done.1, { d with registry := done.2 }) := by
        rw [run, made]
        rfl
      have handles : call.issued d = [done.1] := by
        unfold Call.issued
        rw [ended]
        cases call <;> first | rfl | cases given
      rw [handles, Call.after, ended]
      exact .registers (Registered.of_register sound made)

/-- A call on a buffer writes to its place. -/
theorem slots_of_edited (d : Desk) (id : BufferId) (c : Buffer.Call) :
    (settle d (Call.run.edited d id c)).registry.slots = d.registry.slots := by
  simp only [Call.run.edited, call]
  cases c.run (d.registry.buffer id) <;> rfl

theorem answer_of_edited {id : BufferId} {c : Buffer.Call} {answer : Answer} {later : Desk}
    (ended : Call.run.edited d id c = .ok (answer, later)) : answer ≠ .handle h := by
  simp only [Call.run.edited, call] at ended
  cases done : c.run (d.registry.buffer id) with
  | error fault => simp [done, Except.map] at ended
  | ok edited =>
    simp only [done, Except.map, Except.ok.injEq, Prod.mk.injEq] at ended
    simp [← ended.1]

theorem effect_of_edited {call : Call} {id : BufferId} {c : Buffer.Call}
    (other : ∀ n, call ≠ .churn n) (run : call.run d = Call.run.edited d id c) :
    call.Effect d (call.issued d) (call.after d).registry := by
  have none : call.issued d = [] := by
    unfold Call.issued
    split
    · rfl
    · rename_i ended
      exact absurd rfl (answer_of_edited (run.symm.trans ended))
    · exact absurd rfl (other _)
    · rfl
  rw [none, Call.after, run]
  exact .keeps (slots_of_edited d id c)

/-- Every call leaves the slots, registers a buffer, releases one or makes rounds. -/
theorem Call.effect (sound : d.registry.Sound) (call : Call) :
    call.Effect d (call.issued d) (call.after d).registry := by
  cases given : call.given d.registry.contents with
  | some b => exact effect_of_given sound given
  | none =>
    cases call with
    | create | createOfBytes | createOfByteRange | register | substringChars | substringBytes =>
      cases given
    | isEmpty => exact .keeps rfl
    | editKept number c => exact effect_of_edited (by simp) rfl
    | unpack raw | contains raw =>
      simp only [issued, after, run]
      cases handleOfRaw raw <;> exact .keeps rfl
    | churn n =>
      have rounds := churn_eq_passThrough d.registry n
      cases done : d.registry.passThrough (List.replicate n "") with
      | error fault =>
        have refused : (Call.churn n).run d = .error fault := by
          rw [Call.run, rounds, done]
          rfl
        exact effect_of_refused refused
      | ok ended =>
        simp only [issued, after, Call.run, rounds, done, bind, Except.bind, Except.map]
        exact .passes done
    | erase raw =>
      cases found : d.registry.contents.find raw with
      | error fault => exact effect_of_refused (run_of_missing rfl found)
      | ok held =>
        obtain ⟨names, -⟩ := of_find found
        obtain ⟨r', gone, run⟩ := run_erase found
        simp only [issued, after, run]
        exact .erases names (Erased.of_erase gone)
    | edit raw c =>
      cases found : d.registry.contents.find raw with
      | error fault => exact effect_of_refused (run_of_missing rfl found)
      | ok held =>
        obtain ⟨id, -, -, run⟩ := run_edit found c
        exact effect_of_edited (by simp) run
    | read raw | keep raw =>
      cases found : d.registry.contents.find raw with
      | error fault => exact effect_of_refused (run_of_missing rfl found)
      | ok held =>
        obtain ⟨names, id, resolves, -⟩ := of_find found
        simp only [issued, after, run, Registry.read, resolveRaw, names, resolves, bind, Except.bind,
          Except.map]
        exact .keeps rfl

/-! ## Numbered occupancies -/

theorem handlesOf_succ (index : UInt32) (n : Nat) :
    handlesOf index (n + 1) = handlesOf index n ++ [⟨index, Slot.laterGeneration 1 n⟩] := by
  rw [handlesOf, handlesOf, List.range_succ, List.map_append]
  rfl

theorem getElem?_handlesOf {n i : Nat} :
    (handlesOf index n)[i]? = some h ↔ i < n ∧ h = ⟨index, Slot.laterGeneration 1 i⟩ := by
  rw [handlesOf, List.getElem?_map]
  by_cases inside : i < n
  · simp [inside, eq_comm]
  · simp [inside]

namespace Numbered

theorem congr (numbered : r.Numbered index handles)
    (same : r'.slots[index.toNat]? = r.slots[index.toNat]?) : r'.Numbered index handles := by
  cases numbered with
  | missing none unused => exact .missing (same.trans none) unused
  | vacant n found issued => exact .vacant n (same.trans found) issued
  | held n id found issued => exact .held n id (same.trans found) issued

theorem exists_eq (numbered : r.Numbered index handles) : ∃ n, handles = handlesOf index n := by
  cases numbered with
  | missing _ unused => exact ⟨0, unused⟩
  | vacant n _ issued => exact ⟨n, issued⟩
  | held n _ _ issued => exact ⟨n + 1, issued⟩

/-- The handle issued is that of the next occupancy of its slot. -/
theorem registered {b : Buffer} (numbered : r.Numbered index handles) (sound : r.Sound)
    (done : r.Registered b h r') :
    r'.Numbered index (handles ++ [h].filter (·.index = index)) := by
  by_cases same : h.index = index
  · subst same
    have self := done.slots h.index.toNat
    rw [if_pos rfl] at self
    rw [List.filter_cons_of_pos (by simp), List.filter_nil]
    cases numbered with
    | missing none unused =>
      have first := done.generation_of_missing sound none
      refine .held 0 r.store.size (by rw [self, first]; rfl) ?_
      rw [unused, handlesOf_succ, Slot.laterGeneration_zero, ← first]
      rfl
    | vacant n found issued =>
      have generation : Slot.laterGeneration 1 n = h.generation :=
        congrArg Slot.generation (done.vacant found)
      refine .held n r.store.size (by rw [self, generation]) ?_
      rw [issued, handlesOf_succ, generation]
    | held n id found issued => cases congrArg Slot.buffer (done.vacant found)
  · rw [List.filter_cons_of_neg (by simp [same]), List.filter_nil, List.append_nil]
    refine numbered.congr ?_
    rw [done.slots, if_neg fun e => same (UInt32.toNat_inj.mp e.symm)]

theorem erased (numbered : r.Numbered index handles) (done : r.Erased h r') :
    r'.Numbered index handles := by
  by_cases same : h.index = index
  · subst same
    obtain ⟨place, held⟩ := done.held
    have self := done.slots h.index.toNat
    rw [if_pos rfl] at self
    cases numbered with
    | missing none _ => cases none.symm.trans held
    | vacant n found _ => cases congrArg (Option.bind · Slot.buffer) (found.symm.trans held)
    | held n id found issued =>
      have generation : Slot.laterGeneration 1 n = h.generation :=
        congrArg Slot.generation (Option.some.inj (found.symm.trans held))
      refine .vacant (n + 1) ?_ issued
      rw [self, ← generation, ← Slot.laterGeneration_one, Slot.laterGeneration_add]
  · refine numbered.congr ?_
    rw [done.slots, if_neg fun e => same (UInt32.toNat_inj.mp e.symm)]

theorem passed (numbered : r.Numbered index handles) (sound : r.Sound) {others : List Handle}
    (done : r.passThrough texts = .ok (others, r')) :
    r'.Numbered index (handles ++ others.filter (·.index = index)) := by
  induction texts generalizing r handles others with
  | nil =>
    cases done
    simpa using numbered
  | cons text texts ih =>
    obtain ⟨h, met, after, rest, made, gone, passed, rfl⟩ := of_passThrough_cons done
    have registered := Registered.of_register sound made
    have erased := Erased.of_erase gone
    have next := (numbered.registered sound registered).erased erased
    have rest := ih next (erased.sound (registered.sound sound)) passed
    rwa [List.append_assoc, ← List.filter_append, List.singleton_append] at rest

/-- A call keeps the count. -/
theorem effect {call : Call} {issued : List Handle} (numbered : d.registry.Numbered index handles)
    (sound : d.registry.Sound) (effect : call.Effect d issued r') :
    r'.Numbered index (handles ++ issued.filter (·.index = index)) := by
  cases effect with
  | keeps slots =>
    rw [List.filter_nil, List.append_nil]
    exact numbered.congr (by rw [slots])
  | registers done => exact numbered.registered sound done
  | erases _ done =>
    rw [List.filter_nil, List.append_nil]
    exact numbered.erased done
  | passes done => exact numbered.passed sound done

end Numbered

/-- A run keeps the count. -/
theorem numbered_runAll (sound : d.registry.Sound) (numbered : d.registry.Numbered index handles)
    (calls : List Call) : (runAll d calls).registry.Numbered index
      (handles ++ occupancies d index calls) := by
  induction calls generalizing d handles with
  | nil =>
    rw [occupancies, issuedIn, List.filter_nil, List.append_nil]
    exact numbered
  | cons call calls ih =>
    have next := numbered.effect sound (call.effect sound)
    have rest := ih ((call.trace sound).sound sound) next
    rw [runAll_cons, occupancies, issuedIn, List.filter_append, ← List.append_assoc]
    exact rest

/-- There is a slot once it has been released, and it has the generation after so many
releases. -/
theorem Moved.generation_of_empty {n : Nat} (moved : Moved index empty n r) :
    (r.generation? index = none ∧ n = 0) ∨
      r.generation? index = some (Slot.laterGeneration 1 n) := by
  induction moved with
  | stays => exact .inl ⟨rfl, rfl⟩
  | writes _ id b ih => exact ih
  | registers before made ih =>
    have sound := before.sound sound_empty
    rcases ih with ⟨none, rfl⟩ | known
    · have done := Registered.of_register sound made
      simp only [generation?, Option.map_eq_none_iff] at none
      rw [generation?, done.slots]
      split
      · rename_i same
        exact .inr (congrArg some (done.generation_of_missing sound (same ▸ none)))
      · exact .inl ⟨by rw [none]; rfl, rfl⟩
    · exact .inr ((Moved.stays.registers made).generation sound known)
  | releases before gone ih =>
    have sound := before.sound sound_empty
    rcases ih with ⟨none, rfl⟩ | known
    · have done := Erased.of_erase gone
      obtain ⟨id, held⟩ := done.held
      simp only [generation?, Option.map_eq_none_iff] at none
      have other : ¬ index.toNat = _ := fun same => by
        rw [same, held] at none
        cases none
      refine .inl ⟨?_, ?_⟩
      · rw [generation?, done.slots, if_neg other, none]
        rfl
      · rw [if_neg fun same => other (congrArg _ same.symm)]
    · have one := (Moved.stays.releases gone).generation sound known
      rw [Slot.laterGeneration_add, Nat.zero_add] at one
      exact .inr one

/-- Handles of one slot are the same exactly if whole cycles lie between them. -/
theorem handle_eq_iff (index : UInt32) (i j : Nat) :
    (⟨index, Slot.laterGeneration 1 i⟩ : Handle) = ⟨index, Slot.laterGeneration 1 j⟩ ↔
      i % Slot.cycle = j % Slot.cycle := by
  simp only [Handle.mk.injEq, true_and, ← UInt32.toNat_inj, Slot.toNat_laterGeneration_one,
    Nat.add_left_cancel_iff]

/-- The handles of less than a whole cycle of occupancies are all different. -/
theorem nodup_handlesOf (index : UInt32) (n first : Nat) :
    (((handlesOf index n).drop first).take Slot.cycle).Nodup := by
  rw [List.Nodup, List.pairwise_iff_getElem]
  intro i j hi hj before same
  rw [List.length_take] at hj
  simp only [List.getElem_take, List.getElem_drop, handlesOf, List.getElem_map,
    List.getElem_range, handle_eq_iff, Slot.cycle_eq] at same hj
  omega

/-- The generation of a slot counts its releases, from 1 on and around a cycle of 2³² − 1.
So the handle for its occupancy number `i`, from 0 on, is that for number `j` exactly if
whole cycles lie between them, and the handles of so many occupancies in a row are all
different. Texts that are registered and released one after the other while a slot is free
use the slot on top alone, and move it on by a generation for each: all other slots, what
every handle resolves to, the buffers and their number are as before. Rounds are the case
of empty texts. -/
theorem generations_of_runAll (calls : List Call) :
    let r := (runAll Desk.empty calls).registry
    (∀ (index : UInt32) (slot : Slot), r.slots[index.toNat]? = some slot →
      slot.generation ≠ 0 ∧
        slot.generation.toNat = 1 + releasesIn Desk.empty index calls % Slot.cycle) ∧
    (∀ index : UInt32,
      let handles := occupancies Desk.empty index calls
      (∀ (i : Nat) h, handles[i]? = some h → h.generation.toNat = 1 + i % Slot.cycle) ∧
      (∀ (i j : Nat) h h', handles[i]? = some h → handles[j]? = some h' →
        (h = h' ↔ i % Slot.cycle = j % Slot.cycle)) ∧
      ∀ first, ((handles.drop first).take Slot.cycle).Nodup) ∧
    (∀ index rest, r.free = index :: rest → ∀ texts, ∃ handles r' g g',
      r.passThrough texts = .ok (handles, r') ∧ (∀ h ∈ handles, h.index = index) ∧
      (r.slots[index.toNat]? = some ⟨g, none⟩ ∧ r'.slots[index.toNat]? = some ⟨g', none⟩ ∧
        g'.toNat = 1 + (g.toNat - 1 + texts.length) % Slot.cycle) ∧
      (∀ i ≠ index.toNat, r'.slots[i]? = r.slots[i]?) ∧ r'.free = r.free ∧ r'.size = r.size ∧
      (∀ h, r'.lookup? h = r.lookup? h) ∧ r'.contents = r.contents ∧
      ∀ id < r.store.size, r'.buffer id = r.buffer id) ∧
    ∀ n, r.churn n = (r.passThrough (List.replicate n "")).map fun (handles, after) =>
      (handles.getLast?, after) := by
  intro r
  have reached : r.Sound := (trace_runAll (d := Desk.empty) sound_empty calls).sound sound_empty
  refine ⟨fun index slot found => ?_, fun index => ?_, fun index rest free texts => ?_,
    churn_eq_passThrough r⟩
  · have known : r.generation? index = some slot.generation := congrArg (Option.map Slot.generation) found
    refine ⟨reached.generation_ne_zero found, ?_⟩
    rcases (moved_runAll (d := Desk.empty) sound_empty calls index).generation_of_empty with
      ⟨none, -⟩ | released
    · cases none.symm.trans known
    · rw [Option.some.inj (known.symm.trans released), Slot.toNat_laterGeneration_one]
  · obtain ⟨n, numbered⟩ :=
      (numbered_runAll (d := Desk.empty) sound_empty (.missing rfl rfl) calls).exists_eq
    rw [List.nil_append] at numbered
    rw [numbered]
    refine ⟨fun i h issued => ?_, fun i j h h' issued issued' => ?_, nodup_handlesOf index n⟩
    · rw [(getElem?_handlesOf.mp issued).2, Slot.toNat_laterGeneration_one]
    · rw [(getElem?_handlesOf.mp issued).2, (getElem?_handlesOf.mp issued').2, handle_eq_iff]
  · obtain ⟨handles, r', done, top, passed⟩ := passThrough_of_free reached free texts
    obtain ⟨g, vacant⟩ := (reached.mem_free_iff index).mp (by simp [free])
    have issued : g ≠ 0 := reached.generation_ne_zero vacant
    obtain ⟨-, same⟩ := reached.passThrough done
    refine ⟨handles, r', g, _, done, top, ⟨vacant, ?_, Slot.toNat_laterGeneration issued texts.length⟩,
      fun i other => ?_, passed.free, passed.live, same, passed.contents reached same,
      passed.buffer⟩
    · rw [passed.slots, Array.getElem?_modify, if_pos rfl, vacant]
      rfl
    · rw [passed.slots, Array.getElem?_modify, if_neg (Ne.symm other)]

/-- A slot that was released as often as a cycle is long has the first generation again,
and moves on by two when two texts go through it. The handle of its first occupancy is not
that of its second. -/
theorem generations_of_runAll_wrapped :
    let wrapped := (runAll Desk.empty [.create "a", .erase 1, .churn 4294967294]).registry
    let handles := occupancies Desk.empty 0 [.create "a", .erase 1, .create "b"]
    (∃ slot, wrapped.slots[0]? = some slot ∧ slot.generation.toNat = 1) ∧
      (∃ handles after g, wrapped.passThrough ["b", "c"] = .ok (handles, after) ∧
        after.slots[0]? = some ⟨g, none⟩ ∧ g.toNat = 3) ∧
      ∃ h h', handles[0]? = some h ∧ handles[1]? = some h' ∧ h ≠ h' := by
  intro wrapped handles
  obtain ⟨released, -, through, -⟩ :=
    generations_of_runAll [.create "a", .erase 1, .churn 4294967294]
  obtain ⟨-, issued, -⟩ := generations_of_runAll [.create "a", .erase 1, .create "b"]
  have first : handles[0]? = some ⟨0, 1⟩ := by decide
  have second : handles[1]? = some ⟨0, 2⟩ := by decide
  have vacant : wrapped.slots[0]? = some ⟨1, none⟩ := by decide
  refine ⟨⟨_, vacant, (released 0 _ vacant).2.trans (by decide)⟩, ?_, _, _, first, second, ?_⟩
  · obtain ⟨_, after, g, g', done, -, ⟨found, moved, generation⟩, -⟩ :=
      through 0 [] (by decide) ["b", "c"]
    cases found.symm.trans vacant
    exact ⟨_, after, g', done, moved, generation.trans (by decide)⟩
  · rw [ne_eq, (issued 0).2.1 0 1 _ _ first second]
    decide

end HostParsing.Registry
