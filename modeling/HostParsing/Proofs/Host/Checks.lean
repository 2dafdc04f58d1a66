import HostParsing.Proofs.Host.Relay
import HostParsing.Proofs.Registry.Kept
/-!
# How the host's calls are checked

Every call of the host's cache is checked in one order: its indices, the word for a
handle, the handle, the range, and last whether there is room (`Call.checks`). It is
refused for the first check that it fails, and is answered if it fails none
(`refusalOf_run`). Otherwise the cache is the registry (`relays_of_runAll`).
-/

namespace HostParsing.Host

variable {α β : Type}

/-- Why a call was refused, if it was. -/
def refusalOf : Except Refusal α → Option Refusal
  | .ok _ => none
  | .error refusal => some refusal

/-- The refusal by which a fault is told. -/
def faultOf (result : Except Fault α) : Option Refusal := refusalOf (told result)

@[simp] theorem refusalOf_map (f : α → β) (result : Except Refusal α) :
    refusalOf (result.map f) = refusalOf result := by
  cases result <;> rfl

@[simp] theorem faultOf_map (f : α → β) (result : Except Fault α) :
    faultOf (result.map f) = faultOf result := by
  cases result <;> rfl

theorem refusalOf_eq_some_iff {result : Except Refusal α} {refusal : Refusal} :
    refusalOf result = some refusal ↔ result = .error refusal := by
  cases result <;> simp [refusalOf]

theorem refusalOf_eq_none_iff {result : Except Refusal α} :
    refusalOf result = none ↔ ∃ answered, result = .ok answered := by
  cases result <;> simp [refusalOf]

namespace Cache

/-- What is refused on the buffer behind a word, if there is one. -/
def behind (r : Registry) (raw : UInt64) (refused : Buffer → Option Refusal) : Option Refusal :=
  match r.contents.find raw with
  | .ok (_, b) => refused b
  | .error _ => none

/-- What a call says of a range, or of a count, that does not fit. -/
def Call.misfit (r : Registry) : Call → Option Refusal
  | createOfBytes array offset count =>
    faultOf (Buffer.ofByteRange array offset.toNat count.toNat)
  | length raw => behind r raw fun b => refusalOf (hostIndex b.length)
  | byteLength raw => behind r raw fun b => refusalOf (hostIndex b.byteLength)
  | request raw wanted => behind r raw fun b => faultOf (wanted.relayed.run b)
  | substringChars raw first last =>
    behind r raw fun b => faultOf (b.substringChars first.toNat last.toNat)
  | substringBytes raw first last =>
    behind r raw fun b => faultOf (b.substringBytes first.toNat last.toNat)
  | create _ | erase _ | contains _ => none

/-- Whether a call issues a handle. -/
def Call.issues : Call → Bool
  | create _ | createOfBytes _ _ _ | substringChars _ _ _ | substringBytes _ _ _ => true
  | _ => false

/-- Whether there is room for what a call registers. -/
def Call.crowded (r : Registry) (call : Call) : Option Refusal :=
  if call.issues = true ∧ r.size = slotLimit then some (.fault (.registryFull slotLimit)) else none

/-- The checks of a call in their order, and what each refuses: an index below 0, a
word that packs no handle, a handle that does not resolve, a range or a count that does
not fit, a registry without room. -/
def Call.checks (r : Registry) (call : Call) : List (Option Refusal) :=
  [firstNegative call.indices,
    call.relayed.named.bind fun raw => faultOf (Registry.handleOfRaw raw),
    (call.relayed.named.bind Handle.ofRaw?).bind fun h => faultOf (r.resolve h),
    call.misfit r,
    call.crowded r]

variable {d : Desk} {r : Registry} {raw : UInt64} {h : Handle} {b : Buffer} {fault : Fault}

/-! ## The stages of a call -/

theorem findSome?_cons_id (check : Option α) (checks : List (Option α)) :
    (check :: checks).findSome? id = check.or (checks.findSome? id) := by
  cases check <;> rfl

/-- A word is found if it packs a handle that resolves. -/
theorem faultOf_find (r : Registry) (raw : UInt64) :
    faultOf (r.contents.find raw) = (faultOf (Registry.handleOfRaw raw)).or
      ((Handle.ofRaw? raw).bind fun h => faultOf (r.resolve h)) := by
  simp only [Registry.Contents.find, Registry.handleOfRaw]
  cases Handle.ofRaw? raw with
  | none => rfl
  | some h =>
    simp only [bind, Except.bind, Registry.contents, Registry.resolve, Option.bind_some]
    cases r.lookup? h with
    | none => rfl
    | some id => rfl

/-- What is refused of the word that a call passes for a handle. -/
def Call.unfound (r : Registry) (call : Call) : Option Refusal :=
  call.relayed.named.bind fun raw => faultOf (r.contents.find raw)

theorem unfound_eq {call : Call} (named : call.relayed.named = some raw) :
    call.unfound r = faultOf (r.contents.find raw) := by
  rw [Call.unfound, named]
  rfl

theorem behind_of_found (found : r.contents.find raw = .ok (h, b))
    (refused : Buffer → Option Refusal) : behind r raw refused = refused b := by
  rw [behind, found]

/-- Nothing is refused on any buffer by a call that is always answered. -/
theorem behind_of_ok (r : Registry) (raw : UInt64) (answer : Buffer → α) :
    behind r raw (fun b => faultOf (.ok (answer b))) = none := by
  rw [behind]
  split <;> rfl

/-- A call without an index below 0 is checked for its handle, its range and room. -/
theorem findSome?_checks {call : Call} (natural : firstNegative call.indices = none) :
    (call.checks r).findSome? id = (call.unfound r).or ((call.misfit r).or (call.crowded r)) := by
  simp only [Call.checks, natural, findSome?_cons_id, List.findSome?_nil, Option.none_or,
    Option.or_none, Call.unfound]
  cases call.relayed.named with
  | none => rfl
  | some raw =>
    simp only [Option.bind_some]
    rw [faultOf_find, Option.or_assoc]

/-- A call that issues a handle is given a buffer unless its handle or its range is
refused. -/
theorem exists_given {call : Call} (issues : call.issues = true) :
    ∃ given, call.relayed.given r.contents = some given ∧
      faultOf given = (call.unfound r).or (call.misfit r) := by
  cases call with
  | create text => exact ⟨.ok (Buffer.ofText text), rfl, rfl⟩
  | createOfBytes array offset count => exact ⟨_, rfl, rfl⟩
  | substringChars raw first last | substringBytes raw first last =>
    refine ⟨_, rfl, ?_⟩
    simp only [Call.unfound, Call.relayed, Registry.Call.named, Call.misfit, behind,
      Option.bind_some]
    cases r.contents.find raw with
    | error fault => rfl
    | ok held => rfl
  | _ => cases issues

/-- A call that issues a handle fails for what it is given, or for want of room. -/
theorem faultOf_run_of_issues (sound : d.registry.Sound) {call : Call}
    (issues : call.issues = true) : faultOf (call.relayed.run d) =
      (call.unfound d.registry).or ((call.misfit d.registry).or (call.crowded d.registry)) := by
  obtain ⟨given, e, fails⟩ := exists_given (r := d.registry) issues
  rw [Registry.run_of_given e, ← Option.or_assoc, ← fails]
  cases given with
  | error fault => rfl
  | ok b =>
    show faultOf (Registry.Call.run.issue d (d.registry.register b)) = call.crowded d.registry
    rw [Registry.Call.run.issue, faultOf_map, Call.crowded, Registry.size]
    rcases Registry.register_spec sound b with ⟨room, h, r', done, -⟩ | ⟨full, refused⟩
    · rw [done, if_neg fun crowded => Nat.ne_of_lt room crowded.2]
      rfl
    · rw [refused, if_pos ⟨issues, full⟩]
      rfl

/-- A call on a buffer that is found fails for what is asked of the buffer. -/
theorem faultOf_run_edit (found : d.registry.contents.find raw = .ok (h, b)) (c : Buffer.Call) :
    faultOf ((Registry.Call.edit raw c).run d) = faultOf (c.run b) := by
  obtain ⟨id, -, content, run⟩ := Registry.run_edit found c
  rw [run, Registry.Call.run.edited, faultOf_map, Registry.call, faultOf_map, content]

/-- Calls other than questions for a flag or a count are refused for what the registry
refuses. -/
theorem refusalOf_ending {call : Call}
    (tells : ∀ result, refusalOf (call.reply result) = faultOf result) :
    refusalOf (call.ending d) = faultOf (call.relayed.run d) := by
  rw [Call.ending, refusalOf_map, tells, faultOf_map]

theorem refusalOf_reply_of_issues {call : Call} (issues : call.issues = true)
    (result : Except Fault Registry.Answer) : refusalOf (call.reply result) = faultOf result := by
  cases result with
  | error fault => cases call with
    | contains => cases issues
    | _ => rfl
  | ok answer => cases call with
    | length | byteLength => cases issues
    | _ => cases answer <;> rfl

/-- A count of a buffer that is found is refused if it is too large for the host. -/
theorem ending_of_count {call : Call} {c : Buffer.Call} {count : Buffer → Nat}
    (found : d.registry.contents.find raw = .ok (h, b)) (relayed : call.relayed = .edit raw c)
    (asks : ∀ b, c.run b = .ok (.number (count b), b))
    (replies : ∀ n b, call.reply (.ok (.edited (.number n) b)) = (hostIndex n).map .index) :
    call.ending d = (hostIndex (count b)).map fun n => (.index n, d.registry) := by
  obtain ⟨word, id, resolved, content⟩ := Registry.of_find found
  have place : d.registry.resolveRaw raw = .ok id := by
    rw [Registry.resolveRaw, word]
    exact resolved
  rw [Call.ending, Registry.Call.after, relayed, ask_eq d raw c _ asks, place]
  show (call.reply (.ok (.edited (.number (count (d.registry.buffer id))) _))).map _ = _
  rw [replies, content]
  cases hostIndex (count b) with
  | ok n => rfl
  | error refusal => rfl

/-- A call on a word that is not found is refused for that. -/
theorem ending_of_missing {call : Call} (named : call.relayed.named = some raw)
    (missing : d.registry.contents.find raw = .error fault) :
    call.ending d = .error (.fault fault) := by
  have tells : call.reply (.error fault) = .error (.fault fault) := by
    cases call with
    | contains => cases named
    | _ => rfl
  rw [Call.ending, Registry.run_of_missing named missing]
  show (call.reply (.error fault)).map _ = _
  rw [tells]
  rfl

/-- A call on a buffer that is found is refused for a range or a count. -/
theorem refusalOf_ending_of_found {call : Call} (keeps : ¬ call.issues = true)
    (named : call.relayed.named = some raw)
    (found : d.registry.contents.find raw = .ok (h, b)) :
    refusalOf (call.ending d) = call.misfit d.registry := by
  cases call with
  | create | createOfBytes | substringChars | substringBytes => exact absurd rfl keeps
  | contains => cases named
  | erase =>
    cases named
    obtain ⟨r', -, gone⟩ := Registry.run_erase found
    rw [Call.ending, Call.relayed, gone]
    rfl
  | length | byteLength =>
    cases named
    rw [ending_of_count found rfl (fun b => rfl) (fun n b => rfl), refusalOf_map, Call.misfit,
      behind_of_found found]
  | request raw wanted =>
    cases named
    have tells (result : Except Fault Registry.Answer) :
        refusalOf ((Call.request raw wanted).reply result) = faultOf result := by
      cases result with
      | error fault => rfl
      | ok answer => cases answer <;> rfl
    rw [refusalOf_ending tells, Call.relayed, faultOf_run_edit found, Call.misfit,
      behind_of_found found]

/-- A call is refused for the first check that it fails, and answered if it fails none. -/
theorem refusalOf_run (sound : d.registry.Sound) (call : Call) :
    refusalOf (call.run d.registry) = (call.checks d.registry).findSome? id := by
  rw [call.run_eq]
  cases natural : firstNegative call.indices with
  | some refusal =>
    rw [Call.checks, natural]
    rfl
  | none =>
    show refusalOf (call.ending d) = _
    rw [findSome?_checks natural]
    by_cases issues : call.issues = true
    · rw [refusalOf_ending (refusalOf_reply_of_issues issues), faultOf_run_of_issues sound issues]
    · have roomy : call.crowded d.registry = none := if_neg fun crowded => issues crowded.1
      rw [roomy, Option.or_none]
      cases named : call.relayed.named with
      | none =>
        -- Of the calls that issue no handle, only one asks for no buffer.
        cases call with
        | contains raw =>
          rw [Call.ending, refusalOf_map]
          simp only [Call.relayed, Registry.Call.run]
          cases Registry.handleOfRaw raw with
          | error fault => rfl
          | ok h => rfl
        | create | createOfBytes => exact absurd rfl issues
        | _ => cases named
      | some raw =>
        rw [unfound_eq named]
        cases found : d.registry.contents.find raw with
        | error fault =>
          rw [ending_of_missing named found]
          rfl
        | ok held => exact refusalOf_ending_of_found issues named found

/-! ## Answers -/

/-- A request is answered as the buffer behind the word answers it, and the content
behind its handle becomes what that leaves. -/
theorem run_request (sound : d.registry.Sound) {wanted : Request}
    (natural : firstNegative wanted.indices = none)
    (found : d.registry.contents.find raw = .ok (h, b)) {answer : Buffer.Answer} {after : Buffer}
    (done : wanted.relayed.run b = .ok (answer, after)) :
    ∃ r, (Call.request raw wanted).run d.registry = .ok (.buffer answer, r) ∧
      r.contents = d.registry.contents.put h after ∧ r.size = d.registry.size := by
  obtain ⟨id, place, content, run⟩ := Registry.run_edit found wanted.relayed
  have ended : (Registry.Call.edit raw wanted.relayed).run d =
      .ok (.edited answer after, { d with registry := d.registry.update id after }) := by
    rw [run, Registry.Call.run.edited, Registry.call, content, done]
    rfl
  refine ⟨d.registry.update id after, ?_, Registry.contents_update sound place, rfl⟩
  rw [Call.run_eq]
  show (firstNegative wanted.indices).elim ((Call.request raw wanted).ending d) Except.error = _
  rw [natural]
  show (Call.request raw wanted).ending d = _
  rw [Call.ending, Registry.Call.after, Call.relayed, ended]
  rfl

/-- A word is contained if it is found. -/
theorem contains_eq (r : Registry) (raw : UInt64) :
    Cache.contains r raw = (faultOf (r.contents.find raw)).isNone := by
  rw [faultOf_find, Cache.contains, Registry.handleOfRaw]
  cases Handle.ofRaw? raw with
  | none => rfl
  | some h =>
    simp only [Registry.contains, Registry.resolve, Option.bind_some]
    cases r.lookup? h with
    | none => rfl
    | some id => rfl

/-- A call that is refused for nothing but its word is answered if that is contained. -/
theorem answered_iff_contains (sound : d.registry.Sound) {call : Call}
    (natural : firstNegative call.indices = none) (named : call.relayed.named = some raw)
    (fits : call.misfit d.registry = none) (keeps : call.issues = false) :
    (∃ answered, call.run d.registry = .ok answered) ↔ Cache.contains d.registry raw = true := by
  have roomy : call.crowded d.registry = none :=
    if_neg fun crowded => Bool.false_ne_true (keeps.symm.trans crowded.1)
  rw [← refusalOf_eq_none_iff, refusalOf_run sound, findSome?_checks natural, fits, roomy,
    Option.or_none, Option.or_none, unfound_eq named, contains_eq, Option.isNone_iff_eq_none]

/-- A count of the buffer behind a word is told if the host has an index for it. -/
theorem run_of_count {call : Call} {c : Buffer.Call} {count : Buffer → Nat}
    (natural : firstNegative call.indices = none)
    (found : d.registry.contents.find raw = .ok (h, b)) (relayed : call.relayed = .edit raw c)
    (asks : ∀ b, c.run b = .ok (.number (count b), b))
    (replies : ∀ n b, call.reply (.ok (.edited (.number n) b)) = (hostIndex n).map .index) :
    call.run d.registry = if count b ≤ indexLimit then .ok (.index (count b), d.registry)
      else .error (.tooLarge (count b)) := by
  rw [Call.run_eq, natural]
  show call.ending d = _
  rw [ending_of_count found relayed asks replies, hostIndex]
  split <;> rfl

/-! ## Runs -/

/-- A cache that does for a host what a registry does. -/
structure Relays (r : Registry) (d : Desk) : Prop where
  same : r = d.registry
  /-- A call without an index below 0 is answered as the registry answers the call of
  the same name, which also makes the cache what it is afterwards. -/
  answers : ∀ call : Call, firstNegative call.indices = none →
    call.run r = (call.reply ((call.relayed.run d).map Prod.fst)).map
      fun answer => (answer, (call.relayed.after d).registry)
  /-- What is asked of one buffer is answered as the buffer behind the word answers it,
  and changes that buffer alone. -/
  requests : ∀ raw wanted h b answer after, firstNegative wanted.indices = none →
    r.contents.find raw = .ok (h, b) → wanted.relayed.run b = .ok (answer, after) →
    ∃ r', (Call.request raw wanted).run r = .ok (.buffer answer, r') ∧
      r'.contents = r.contents.put h after ∧ r'.size = r.size
  /-- A call is refused for the first check that it fails, and for nothing else. -/
  refuses : ∀ (call : Call) (refusal : Refusal),
    call.run r = .error refusal ↔ (call.checks r).findSome? id = some refusal
  /-- What the registry refuses is told under the same kind, and with the whole text. -/
  tells : ∀ (call : Call) (fault : Fault), firstNegative call.indices = none →
    (∀ raw, call ≠ .contains raw) → call.relayed.run d = .error fault →
    ∃ refusal, call.run r = .error refusal ∧ refusal.kind = fault.kind ∧
      refusal.reason = fault.message
  counts : ∀ raw h b, r.contents.find raw = .ok (h, b) →
    (Call.length raw).run r =
        (if b.length < 2 ^ 31 then .ok (.index b.length, r) else .error (.tooLarge b.length)) ∧
      (Call.byteLength raw).run r =
        if b.byteLength < 2 ^ 31 then .ok (.index b.byteLength, r)
        else .error (.tooLarge b.byteLength)
  /-- A call that is refused leaves the cache as it was, and so does the registry's part
  in it. -/
  keeps : ∀ (call : Call) (refusal : Refusal), call.run r = .error refusal →
    call.after r = r ∧ ∀ asked ∈ call.relayed?, (asked.after d).registry = r
  /-- A word is contained exactly if its text can be read, and exactly if it can be
  erased. -/
  contains : ∀ raw, ∃ held, (Call.contains raw).run r = .ok (.flag held, r) ∧
    (held = true ↔ ∃ answered, (Call.request raw .content).run r = .ok answered) ∧
    (held = true ↔ ∃ answered, (Call.erase raw).run r = .ok answered)

theorem relays_of_sound (sound : d.registry.Sound) : Relays d.registry d where
  same := rfl
  answers call natural := by
    rw [call.run_eq, natural]
    rfl
  requests raw wanted h b answer after natural found done := run_request sound natural found done
  refuses call refusal := by rw [← refusalOf_eq_some_iff, refusalOf_run sound]
  tells call fault natural asks refused := by
    refine ⟨.fault fault, ?_, rfl, rfl⟩
    rw [call.run_eq, natural]
    show (call.reply ((call.relayed.run d).map Prod.fst)).map _ = _
    rw [refused]
    cases call with
    | contains raw => exact absurd rfl (asks raw)
    | _ => rfl
  counts raw h b found := by
    have small (n : Nat) : n < 2 ^ 31 ↔ n ≤ indexLimit := by
      rw [indexLimit, UInt32.size]
      omega
    simp only [small]
    exact ⟨run_of_count rfl found rfl (fun b => rfl) (fun n b => rfl),
      run_of_count rfl found rfl (fun b => rfl) (fun n b => rfl)⟩
  keeps call refusal refused := by
    have kept : call.after d.registry = d.registry := by rw [Call.after, refused]
    refine ⟨kept, fun asked relayed => ?_⟩
    have after := call.after_eq d
    rw [Option.mem_def.mp relayed] at after
    exact after.symm.trans kept
  contains raw := by
    have readable : (Call.request raw .content).misfit d.registry = none :=
      behind_of_ok d.registry raw fun b => (Buffer.Answer.text b.toText, b)
    have erasable : (Call.erase raw).misfit d.registry = none := rfl
    exact ⟨_, rfl, (answered_iff_contains sound rfl rfl readable rfl).symm,
      (answered_iff_contains sound rfl rfl erasable rfl).symm⟩

/-- Whatever a host has asked of a fresh cache, the cache is the registry of which the
same was asked, and goes on relaying to it. -/
theorem relays_of_runAll (calls : List Call) :
    Relays (runAll Registry.empty calls)
      (Registry.runAll Desk.empty (calls.filterMap Call.relayed?)) := by
  have same := runAll_eq Desk.empty calls
  have reached := Registry.Reachable.empty.runAll (calls.filterMap Call.relayed?)
  rw [show Registry.empty = Desk.empty.registry from rfl, same]
  exact relays_of_sound reached.sound

/-- A text is registered and erased. A negative index is noticed before the handle is
looked up, and the first one in the call before the second; a stale handle before a range
that ends before it starts. -/
theorem relays_of_runAll_stale :
    let r := runAll Registry.empty [.create "ab", .length 1, .erase 1]
    (Call.substringChars 1 (-1) (-2)).run r = .error (.negative .first (-1)) ∧
      (Call.substringChars 0 2 1).run r = .error (.fault (.notAHandle 0)) ∧
      (Call.substringChars 1 2 1).run r = .error (.fault (.staleHandle ⟨0, 1⟩)) := by
  intro r
  have relays := relays_of_runAll [.create "ab", .length 1, .erase 1]
  exact ⟨(relays.refuses _ _).mpr rfl, (relays.refuses _ _).mpr rfl,
    (relays.refuses _ _).mpr rfl⟩

end Cache
end HostParsing.Host
