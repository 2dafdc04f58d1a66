import HostParsing.Host.Cache
import HostParsing.Proofs.Registry.Run
/-!
# What the host's cache asks of the registry

The cache looks at the indices of a call alone, from the left (`firstNegative`). If
none is below 0 it has the registry make the call of the same name, on the same word
and with the indices as natural numbers (`Call.relayed`), and tells the host how that
ended (`Call.reply`). It does nothing else (`Call.run_eq`), so what calls of a host do
to a cache is what the calls they stand for do to a registry (`runAll_eq`).
-/

namespace HostParsing.Host

/-- The refusal of the first index that is below 0. -/
def firstNegative (indices : List (Parameter × Int)) : Option Refusal :=
  (indices.find? (·.2 < 0)).map fun (parameter, value) => .negative parameter value

/-- The indices of a request, in the order of its parameters. -/
def Request.indices : Request → List (Parameter × Int)
  | byteAt index | charAt index | setByteAt index _ | setCharAt index _ | insertChar index _
  | insert index _ => [(.index, index)]
  | appendPart _ source count => [(.source, source), (.count, count)]
  | deleteChars first last | deleteBytes first last | replaceChars first last _
  | replaceBytes first last _ | sliceChars first last | sliceBytes first last =>
    [(.first, first), (.last, last)]
  | append _ | appendChar _ | content | bytes => []

/-- The call on a buffer of the same name, with indices as natural numbers. -/
def Request.relayed : Request → Buffer.Call
  | byteAt index => .byteAt index.toNat
  | charAt index => .charAt index.toNat
  | setByteAt index byte => .setByteAt index.toNat byte
  | setCharAt index unit => .setCharAt index.toNat unit
  | insertChar index unit => .insertChar index.toNat unit
  | append text => .append text
  | appendPart text source count => .appendPart text source.toNat count.toNat
  | appendChar unit => .appendChar unit
  | insert index text => .insert index.toNat text
  | deleteChars first last => .deleteChars first.toNat last.toNat
  | deleteBytes first last => .deleteBytes first.toNat last.toNat
  | replaceChars first last text => .replaceChars first.toNat last.toNat text
  | replaceBytes first last text => .replaceBytes first.toNat last.toNat text
  | sliceChars first last => .sliceChars first.toNat last.toNat
  | sliceBytes first last => .sliceBytes first.toNat last.toNat
  | content => .toText
  | bytes => .bytes

/-! ## Indices -/

theorem firstNegative_cons (parameter : Parameter) (value : Int) (rest : List (Parameter × Int)) :
    firstNegative ((parameter, value) :: rest) =
      if value < 0 then some (.negative parameter value) else firstNegative rest := by
  simp only [firstNegative, List.find?_cons]
  by_cases below : value < 0
  · simp [below]
  · simp [below]

theorem indexOf_eq (parameter : Parameter) (value : Int) :
    indexOf parameter value =
      if value < 0 then .error (.negative parameter value) else .ok value.toNat := by
  cases value with
  | ofNat n => rfl
  | negSucc n =>
    rw [if_pos (Int.negSucc_lt_zero n)]
    rfl

/-- What is done with one index. -/
theorem indexOf_bind {α : Type} (parameter : Parameter) (value : Int)
    (rest : Nat → Except Refusal α) :
    (do rest (← indexOf parameter value)) =
      (firstNegative [(parameter, value)]).elim (rest value.toNat) .error := by
  rw [indexOf_eq, firstNegative_cons]
  split <;> rfl

/-- What is done with two indices. -/
theorem indexOf_bind_bind {α : Type} (left right : Parameter) (i j : Int)
    (rest : Nat → Nat → Except Refusal α) :
    (do let first ← indexOf left i; rest first (← indexOf right j)) =
      (firstNegative [(left, i), (right, j)]).elim (rest i.toNat j.toNat) .error := by
  rw [indexOf_eq, indexOf_eq, firstNegative_cons, firstNegative_cons]
  split
  · rfl
  · split <;> rfl

/-- A request stands for its call unless an index is below 0. -/
theorem Request.toCall_eq (wanted : Request) :
    wanted.toCall = (firstNegative wanted.indices).elim (.ok wanted.relayed) .error := by
  cases wanted with
  | append | appendChar | content | bytes => rfl
  | byteAt | charAt | setByteAt | setCharAt | insertChar | insert => exact indexOf_bind ..
  | appendPart | deleteChars | deleteBytes | replaceChars | replaceBytes | sliceChars
  | sliceBytes => exact indexOf_bind_bind ..

namespace Cache

/-- The indices of a call, in the order of its parameters. -/
def Call.indices : Call → List (Parameter × Int)
  | createOfBytes _ offset count => [(.offset, offset), (.count, count)]
  | request _ wanted => wanted.indices
  | substringChars _ first last | substringBytes _ first last => [(.first, first), (.last, last)]
  | create _ | erase _ | contains _ | length _ | byteLength _ => []

/-- The call on the registry of the same name, with indices as natural numbers. What
is asked of one buffer is a call on the buffer behind the word. -/
def Call.relayed : Call → Registry.Call
  | create text => .create text
  | createOfBytes array offset count => .createOfByteRange array offset.toNat count.toNat
  | erase raw => .erase raw
  | contains raw => .contains raw
  | length raw => .edit raw .length
  | byteLength raw => .edit raw .byteLength
  | request raw wanted => .edit raw wanted.relayed
  | substringChars raw first last => .substringChars raw first.toNat last.toNat
  | substringBytes raw first last => .substringBytes raw first.toNat last.toNat

/-- What the host is told of how the registry answered: handles are packed, counts
must fit its index, and a word that packs no handle is not contained. -/
def Call.reply : Call → Except Fault Registry.Answer → Except Refusal Answer
  | contains _, .error _ => .ok (.flag false)
  | _, .error fault => .error (.fault fault)
  | length _, .ok (.edited (.number n) _) => (hostIndex n).map .index
  | byteLength _, .ok (.edited (.number n) _) => (hostIndex n).map .index
  | _, .ok (.edited answer _) => .ok (.buffer answer)
  | _, .ok (.handle h) => .ok (.handle h.toRaw)
  | _, .ok (.flag value) => .ok (.flag value)
  | _, .ok _ => .ok .done

/-- The call that is made on the registry, if no index is below 0. -/
def Call.relayed? (call : Call) : Option Registry.Call :=
  (firstNegative call.indices).elim (some call.relayed) fun _ => none

/-- The registry after a call; one that is refused leaves it as it is. -/
def Call.after (r : Registry) (call : Call) : Registry :=
  match call.run r with
  | .ok (_, after) => after
  | .error _ => r

/-! ## What the registry does -/

/-- The registry's part in a call, and what the host is told of it. -/
def Call.ending (d : Desk) (call : Call) : Except Refusal (Answer × Registry) :=
  (call.reply ((call.relayed.run d).map Prod.fst)).map
    fun answer => (answer, (call.relayed.after d).registry)

theorem issue_eq (d : Desk) (call : Call) (issued : Except Fault (Handle × Registry))
    (relayed : call.relayed.run d = Registry.Call.run.issue d issued)
    (issues : ∀ raw, call ≠ .contains raw) : Call.run.issue issued = call.ending d := by
  rw [Call.ending, Registry.Call.after, relayed]
  cases issued with
  | ok done => cases call <;> rfl
  | error fault =>
    cases call with
    | contains raw => exact absurd rfl (issues raw)
    | _ => rfl

/-- It does not matter where the word is looked at. -/
theorem issue_bind (d : Desk) (raw : UInt64) (issued : Handle → Except Fault (Handle × Registry)) :
    (do Registry.Call.run.issue d (issued (← Registry.handleOfRaw raw))) =
      Registry.Call.run.issue d (do issued (← Registry.handleOfRaw raw)) := by
  cases Registry.handleOfRaw raw with
  | ok h => rfl
  | error fault => rfl

/-- A question leaves the registry as it is. -/
theorem ask_eq (d : Desk) (raw : UInt64) (c : Buffer.Call) (answer : Buffer → Buffer.Answer)
    (asks : ∀ b, c.run b = .ok (answer b, b)) :
    (Registry.Call.edit raw c).run d = (d.registry.resolveRaw raw).map fun id =>
      (.edited (answer (d.registry.buffer id)) (d.registry.buffer id), d) := by
  simp only [Registry.Call.run]
  cases d.registry.resolveRaw raw with
  | error fault => rfl
  | ok id =>
    show Registry.Call.run.edited d id c = _
    simp only [Registry.Call.run.edited, Registry.call, asks, Except.map, Registry.update_buffer]

theorem count_eq (d : Desk) (call : Call) (c : Buffer.Call) (count : Buffer → Nat)
    (relayed : call.relayed = .edit raw c) (asks : ∀ b, c.run b = .ok (.number (count b), b))
    (refuses : ∀ fault, call.reply (.error fault) = .error (.fault fault))
    (replies : ∀ n b, call.reply (.ok (.edited (.number n) b)) = (hostIndex n).map .index) :
    (do return (Answer.index (← hostIndex (count (← read d.registry raw))), d.registry)) =
      call.ending d := by
  rw [Call.ending, Registry.Call.after, relayed, ask_eq d raw c _ asks, read]
  cases d.registry.resolveRaw raw with
  | error fault =>
    simp only [Except.map, refuses]
    rfl
  | ok id =>
    simp only [Except.map, replies, told_ok]
    show (do return (Answer.index (← hostIndex (count (d.registry.buffer id))), d.registry)) = _
    cases hostIndex (count (d.registry.buffer id)) with
    | ok n => rfl
    | error refusal => rfl

theorem request_eq (d : Desk) (raw : UInt64) (wanted : Request) :
    (do
      let (answer, _, r) ← told (do d.registry.call (← d.registry.resolveRaw raw) wanted.relayed)
      return (Answer.buffer answer, r)) = (Call.request raw wanted).ending d := by
  rw [Call.ending, Registry.Call.after]
  simp only [Call.relayed, Registry.Call.run]
  cases d.registry.resolveRaw raw with
  | error fault => rfl
  | ok id =>
    show (do
      let (answer, _, r) ← told (d.registry.call id wanted.relayed)
      return (Answer.buffer answer, r)) = _
    simp only [Registry.Call.run.edited, bind, Except.bind]
    cases d.registry.call id wanted.relayed with
    | error fault => rfl
    | ok done => rfl

/-- The cache looks at the indices of a call, and leaves the rest to the registry. -/
theorem Call.run_eq (d : Desk) (call : Call) :
    call.run d.registry = (firstNegative call.indices).elim (call.ending d) .error := by
  cases call with
  | create text =>
    show _ = (Call.create text).ending d
    exact issue_eq d (.create text) _ rfl fun _ same => by cases same
  | createOfBytes array offset count =>
    rw [run, indexOf_bind_bind]
    congr 1
    exact issue_eq d (.createOfBytes array offset count) _ rfl fun _ same => by cases same
  | erase raw =>
    show _ = (Call.erase raw).ending d
    simp only [run, ending, Registry.Call.after, relayed, Registry.Call.run]
    cases Registry.handleOfRaw raw with
    | error fault => rfl
    | ok h =>
      simp only [bind, Except.bind]
      cases d.registry.erase h with
      | error fault => rfl
      | ok r => rfl
  | contains raw =>
    show _ = (Call.contains raw).ending d
    simp only [run, ending, Registry.Call.after, relayed, Registry.Call.run, Cache.contains,
      Registry.handleOfRaw]
    cases Handle.ofRaw? raw with
    | none => rfl
    | some h => rfl
  | length raw =>
    show _ = (Call.length raw).ending d
    exact count_eq d (.length raw) .length Buffer.length rfl (fun _ => rfl) (fun _ => rfl)
      fun _ _ => rfl
  | byteLength raw =>
    show _ = (Call.byteLength raw).ending d
    exact count_eq d (.byteLength raw) .byteLength Buffer.byteLength rfl (fun _ => rfl)
      (fun _ => rfl) fun _ _ => rfl
  | request raw wanted =>
    rw [run, Request.toCall_eq, indices]
    cases firstNegative wanted.indices with
    | some refusal => rfl
    | none => exact request_eq d raw wanted
  | substringChars raw first last =>
    rw [run, indexOf_bind_bind]
    congr 1
    exact issue_eq d (.substringChars raw first last) _ (issue_bind ..) fun _ same => by cases same
  | substringBytes raw first last =>
    rw [run, indexOf_bind_bind]
    congr 1
    exact issue_eq d (.substringBytes raw first last) _ (issue_bind ..) fun _ same => by cases same

/-! ## Runs -/

@[simp] theorem runAll_cons (r : Registry) (call : Call) (calls : List Call) :
    runAll r (call :: calls) = runAll (call.after r) calls := by
  rw [runAll, Call.after]
  cases call.run r <;> rfl

/-- Only a count can be refused after the registry has answered. -/
theorem Call.count_of_refused {call : Call} {answer : Registry.Answer} {refusal : Refusal}
    (refused : call.reply (.ok answer) = .error refusal) :
    ∃ (raw : UInt64) (c : Buffer.Call) (count : Buffer → Nat), call.relayed = .edit raw c ∧
      ∀ b, c.run b = .ok (.number (count b), b) := by
  cases call with
  | length raw => exact ⟨raw, .length, Buffer.length, rfl, fun _ => rfl⟩
  | byteLength raw => exact ⟨raw, .byteLength, Buffer.byteLength, rfl, fun _ => rfl⟩
  | _ => cases answer <;> cases refused

/-- A call that is refused leaves the registry as it was, whichever of the two
refuses it. -/
theorem Call.after_relayed_of_refused {d : Desk} {call : Call} {refusal : Refusal}
    (refused : call.reply ((call.relayed.run d).map Prod.fst) = .error refusal) :
    (call.relayed.after d).registry = d.registry := by
  cases ran : call.relayed.run d with
  | error fault =>
    rw [Registry.Call.after, ran]
    rfl
  | ok done =>
    rw [ran] at refused
    obtain ⟨raw, c, count, relayed, asks⟩ := count_of_refused refused
    rw [relayed, Registry.Call.after, ask_eq d raw c _ asks]
    cases d.registry.resolveRaw raw with
    | error fault => rfl
    | ok id => rfl

/-- The registry after a call is the one after the call that it stands for. -/
theorem Call.after_eq (d : Desk) (call : Call) :
    call.after d.registry = (call.relayed?.elim d (·.after d)).registry := by
  rw [after, call.run_eq, relayed?]
  cases firstNegative call.indices with
  | some refusal => rfl
  | none =>
    show (match call.ending d with | .ok (_, r) => r | .error _ => d.registry) = _
    cases told : call.reply ((call.relayed.run d).map Prod.fst) with
    | ok answer =>
      rw [ending, told]
      rfl
    | error refusal =>
      rw [ending, told]
      exact (after_relayed_of_refused told).symm

/-- What calls of a host make of a cache is what the calls they stand for make of a
registry. -/
theorem runAll_eq (d : Desk) (calls : List Call) :
    runAll d.registry calls = (Registry.runAll d (calls.filterMap Call.relayed?)).registry := by
  induction calls generalizing d with
  | nil => rfl
  | cons call calls ih =>
    rw [runAll_cons, call.after_eq]
    cases relayed : call.relayed? with
    | none =>
      rw [List.filterMap_cons_none relayed]
      exact ih d
    | some asked =>
      rw [List.filterMap_cons_some relayed, Registry.runAll_cons]
      exact ih (asked.after d)

end Cache
end HostParsing.Host
