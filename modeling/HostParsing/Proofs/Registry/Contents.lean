import HostParsing.Proofs.Registry.Table
import HostParsing.Registry.Call
import Mathlib.Data.Set.Card
/-!
# What a registry holds

A registry is a finite map from the handles that resolve to the buffers behind
them (`contents`). A registration puts one new handle into the map
(`Registered.contents`), a release takes one out (`Erased.contents`), and a write
to a place of the store is seen through at most one handle (`contents_update`,
`contents_update_of_unseen`). The counter of live buffers is the size of the map
(`Counted`).
-/

namespace HostParsing.Registry

/-- Buffers by their handles. -/
abbrev Contents := Handle → Option Buffer

namespace Contents

/-- The handles of the buffers. -/
def domain (m : Contents) : Set Handle := {h | (m h).isSome}

/-- The number of buffers. -/
noncomputable def size (m : Contents) : Nat := m.domain.ncard

/-- The contents with a buffer behind a handle. -/
def put (m : Contents) (h : Handle) (b : Buffer) : Contents :=
  Function.update m h (some b)

/-- The contents without the buffer behind a handle. -/
def drop (m : Contents) (h : Handle) : Contents :=
  Function.update m h none

/-- The handle in a word that a client passes, with the buffer behind it. -/
def find (m : Contents) (raw : UInt64) : Except Fault (Handle × Buffer) := do
  let h ← handleOfRaw raw
  match m h with
  | some b => .ok (h, b)
  | none => .error (.staleHandle h)

theorem find_eq_ok_iff {m : Contents} {raw : UInt64} {h : Handle} {b : Buffer} :
    m.find raw = .ok (h, b) ↔ handleOfRaw raw = .ok h ∧ m h = some b := by
  unfold find
  cases handleOfRaw raw with
  | error fault => simp [bind, Except.bind]
  | ok other =>
    simp only [bind, Except.bind, Except.ok.injEq]
    constructor
    · intro found
      cases held : m other with
      | none => simp [held] at found
      | some c =>
        simp only [held, Except.ok.injEq, Prod.mk.injEq] at found
        obtain ⟨rfl, rfl⟩ := found
        exact ⟨rfl, held⟩
    · rintro ⟨rfl, held⟩
      rw [held]

theorem domain_put (m : Contents) (h : Handle) (b : Buffer) :
    (m.put h b).domain = insert h m.domain := by
  ext other
  by_cases same : other = h <;> simp [domain, put, Function.update_apply, same]

theorem domain_drop (m : Contents) (h : Handle) : (m.drop h).domain = m.domain \ {h} := by
  ext other
  by_cases same : other = h <;> simp [domain, drop, Function.update_apply, same]

end Contents

/-- The buffers of a registry by the handles that resolve to them. -/
def contents (r : Registry) : Contents := fun h => (r.lookup? h).map r.buffer

/-- The counter of live buffers counts them. -/
structure Counted (r : Registry) : Prop where
  finite : r.contents.domain.Finite
  live : r.live = r.contents.size

variable {r r' : Registry} {b : Buffer} {h : Handle}

theorem contains_eq_isSome (r : Registry) (h : Handle) :
    r.contains h = (r.contents h).isSome := by
  simp only [contains, contents, Option.isSome_map]

theorem Sound.lookup?_lt (sound : r.Sound) {id : BufferId} (found : r.lookup? h = some id) :
    id < r.store.size :=
  sound.lt_size (lookup?_eq_some_iff.mp found)

theorem Sound.lookup?_inj (sound : r.Sound) {other : Handle} {id : BufferId}
    (found : r.lookup? h = some id) (found' : r.lookup? other = some id) : other = h := by
  have slot := lookup?_eq_some_iff.mp found
  have slot' := lookup?_eq_some_iff.mp found'
  have index := sound.apart slot' slot
  rw [index, slot] at slot'
  obtain ⟨i, g⟩ := h
  obtain ⟨j, g'⟩ := other
  simp_all [UInt32.toNat_inj]

/-! ## The map after each operation -/

theorem Registered.contents (done : r.Registered b h r') (sound : r.Sound) :
    r'.contents = r.contents.put h b := by
  funext other
  have get (id : BufferId) : r'.buffer id = (r.store.push b).get id :=
    congrArg (·.get id) done.store
  simp only [Registry.contents, Contents.put, Function.update_apply, done.lookup?]
  split
  · rw [Option.map_some, get, Store.get_push_self]
  · cases found : r.lookup? other with
    | none => rfl
    | some id =>
      rw [Option.map_some, get, Store.get_push_of_lt (sound.lookup?_lt found)]
      rfl

theorem Registered.content (done : r.Registered b h r') (sound : r.Sound) :
    r'.contents h = some b := by
  rw [done.contents sound, Contents.put, Function.update_self]

/-- What a registry holds it still holds after a registration. -/
theorem Registered.keeps (done : r.Registered b h r') (sound : r.Sound) {other : Handle}
    {held : Buffer} (holds : r.contents other = some held) : r'.contents other = some held := by
  have apart : other ≠ h := by
    rintro rfl
    rw [Registry.contents, done.fresh] at holds
    cases holds
  rw [done.contents sound, Contents.put, Function.update_of_ne apart]
  exact holds

theorem Erased.contents (done : r.Erased h r') : r'.contents = r.contents.drop h := by
  funext other
  simp only [Registry.contents, Contents.drop, Function.update_apply, done.lookup?]
  split
  · rfl
  · have same : r'.buffer = r.buffer := funext fun id => congrArg (·.get id) done.store
    rw [same]

/-- A write to the buffer behind a handle is seen through that handle alone. -/
theorem contents_update (sound : r.Sound) {id : BufferId} (found : r.lookup? h = some id) :
    (r.update id b).contents = r.contents.put h b := by
  funext other
  simp only [contents, Contents.put, Function.update_apply, lookup?_update]
  split
  · rename_i same
    subst same
    simp only [found, Option.map_some, buffer, update, Store.get_put_self (sound.lookup?_lt found)]
  · rename_i other_ne
    cases found' : r.lookup? other with
    | none => rfl
    | some place =>
      have ne : place ≠ id := fun e => other_ne (sound.lookup?_inj found (e ▸ found'))
      simp only [Option.map_some, buffer, update, Store.get_put_of_ne ne]

/-- A write to a buffer that no handle resolves to is not seen. -/
theorem contents_update_of_unseen {id : BufferId} (unseen : ∀ h, r.lookup? h ≠ some id) :
    (r.update id b).contents = r.contents := by
  funext other
  simp only [contents, lookup?_update]
  cases found : r.lookup? other with
  | none => rfl
  | some place =>
    have ne : place ≠ id := fun e => unseen other (e ▸ found)
    simp only [Option.map_some, buffer, update, Store.get_put_of_ne ne]

theorem Contents.drop_put {m : Contents} (fresh : m h = none) (b : Buffer) :
    (m.put h b).drop h = m := by
  rw [drop, put, Function.update_idem, Function.update_eq_self_iff, fresh]

/-! ## Counting -/

theorem counted_empty : empty.Counted := by
  have none : empty.contents.domain = ∅ := by
    ext h
    simp [Contents.domain, contents, lookup?, empty]
  exact ⟨none ▸ Set.finite_empty, by rw [Contents.size, none, Set.ncard_empty]; rfl⟩

theorem Registered.counted (done : r.Registered b h r') (sound : r.Sound) (counted : r.Counted) :
    r'.Counted := by
  have domain : r'.contents.domain = insert h r.contents.domain := by
    rw [done.contents sound, Contents.domain_put]
  have fresh : h ∉ r.contents.domain := by
    simp [Contents.domain, Registry.contents, done.fresh]
  refine ⟨domain ▸ counted.finite.insert h, ?_⟩
  rw [done.live, Contents.size, domain, Set.ncard_insert_of_notMem fresh counted.finite,
    counted.live, Contents.size]

theorem Erased.counted (done : r.Erased h r') (counted : r.Counted) : r'.Counted := by
  have domain : r'.contents.domain = r.contents.domain \ {h} := by
    rw [done.contents, Contents.domain_drop]
  have held : h ∈ r.contents.domain := by
    obtain ⟨id, e⟩ := done.held
    simp [Contents.domain, Registry.contents, lookup?_eq_some_iff.mpr e]
  refine ⟨domain ▸ counted.finite.sdiff, ?_⟩
  rw [done.live, Contents.size, domain, Set.ncard_sdiff_singleton_of_mem held, counted.live,
    Contents.size]

theorem Counted.update (counted : r.Counted) (id : BufferId) (b : Buffer) :
    (r.update id b).Counted := by
  have domain : (r.update id b).contents.domain = r.contents.domain := by
    ext h
    simp only [Contents.domain, contents, lookup?_update, Option.isSome_map, Set.mem_ofPred_eq]
  exact ⟨domain ▸ counted.finite, by rw [Contents.size, domain]; exact counted.live⟩

end HostParsing.Registry
