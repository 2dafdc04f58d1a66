import HostParsing.Proofs.Session.Alike
/-!
# What a locked buffer changes

A parse that holds a buffer keeps only those waiting who need that buffer. So calls do
beside it what they do without it, up to the lock, unless one of them waits
(`Call.run_beside`, `runScript_beside`, `runAll_beside`). Calls that touch no buffer never
do that (`Call.touches`).
-/

namespace HostParsing.Bench

/-- A bench that is another, but for some buffers that are held besides. -/
structure Beside (held : List BufferId) (b' b : Bench) : Prop where
  session : b'.session = b.session
  desk : b'.desk = b.desk
  trees : b'.trees = b.trees
  locked : b'.locked.Perm (held ++ b.locked)

/-- What something comes to beside those who hold some buffers, and what it comes to
without them: the same, unless it asks for one of these and stops there. -/
inductive Mirrors {γ : Type} (held : List BufferId) (asks : Prop) (stops : γ → Prop) :
    Bench × γ → Bench × γ → Prop
  | same {after' after : Bench} (beside : Beside held after' after) (told : γ) :
    Mirrors held asks stops (after', told) (after, told)
  | waits {ran' ran : Bench × γ} (asked : asks) (stop : stops ran'.2) :
    Mirrors held asks stops ran' ran

variable {ρ α β γ δ : Type} {held : List BufferId} {asks : Prop} {b' b : Bench} {input : Input}
  {mode : Mode} {source : Source} {old : Option Nat} {act : Behaviour ρ} {company : Company α}

theorem Mirrors.map {stops : γ → Prop} {stops' : δ → Prop} {ran' ran : Bench × γ} (f : γ → δ)
    (mirrors : Mirrors held asks stops ran' ran) (still : ∀ told, stops told → stops' (f told)) :
    Mirrors held asks stops' (ran'.1, f ran'.2) (ran.1, f ran.2) := by
  cases mirrors with
  | same beside told => exact .same beside (f told)
  | waits asked stop => exact .waits asked (still _ stop)

namespace Beside

theorem with_session (beside : Beside held b' b) (session : Session) :
    Beside held { b' with session } { b with session } :=
  ⟨rfl, beside.desk, beside.trees, beside.locked⟩

theorem with_desk (beside : Beside held b' b) (desk : Desk) :
    Beside held { b' with desk } { b with desk } :=
  ⟨beside.session, rfl, beside.trees, beside.locked⟩

theorem session_map (beside : Beside held b' b) (f : Session → Session) :
    Beside held { b' with session := f b'.session } { b with session := f b.session } :=
  ⟨congrArg f beside.session, beside.desk, beside.trees, beside.locked⟩

theorem push_tree (beside : Beside held b' b) (tree : Tree) :
    Beside held { b' with trees := b'.trees.push tree } { b with trees := b.trees.push tree } :=
  ⟨beside.session, beside.desk, congrArg (·.push tree) beside.trees, beside.locked⟩

theorem settle (beside : Beside held b' b) (source : Source) : b'.settle source = b.settle source := by
  cases source with
  | bytes input => rfl
  | handle raw => rw [Bench.settle, Bench.settle, beside.desk]

theorem readInput (beside : Beside held b' b) (input : Input) :
    b'.readInput input = b.readInput input := by
  cases input with
  | bytes input => rfl
  | buffer id => rw [Bench.readInput, Bench.readInput, content, content, beside.desk]

theorem contains_locked (beside : Beside held b' b) (id : BufferId) :
    b'.locked.contains id = (held.contains id || b.locked.contains id) := by
  rw [Bool.eq_iff_iff, Bool.or_eq_true, List.contains_iff_mem, List.contains_iff_mem,
    List.contains_iff_mem, beside.locked.mem_iff, List.mem_append]

theorem isLocked (beside : Beside held b' b) (input : Input) :
    b'.isLocked input = (input.buffer?.any held.contains || b.isLocked input) := by
  cases input with
  | bytes input => rfl
  | buffer id => exact beside.contains_locked id

theorem lock (beside : Beside held b' b) (input : Input) :
    Beside held (b'.lock input) (b.lock input) := by
  refine ⟨beside.session, beside.desk, beside.trees, ?_⟩
  cases input with
  | bytes input => exact beside.locked
  | buffer id => exact (beside.locked.cons id).trans List.perm_middle.symm

theorem unlock (beside : Beside held b' b) (apart : input.buffer?.any held.contains = false) :
    Beside held (b'.unlock input) (b.unlock input) := by
  refine ⟨beside.session, beside.desk, beside.trees, ?_⟩
  cases input with
  | bytes input => exact beside.locked
  | buffer id =>
    have other : id ∉ held := by simpa [Input.buffer?] using apart
    exact (beside.locked.erase id).trans (.of_eq (List.erase_append_right _ other))

/-- Who needs none of the buffers that are held besides can lock a buffer as well as without
these. -/
theorem holding (beside : Beside held b' b) (needs : ∀ id, input = .buffer id → asks)
    {doing' doing : Bench → Bench × Outcome Fault β}
    (mirrors : Mirrors held asks (· = .stuck) (doing' (b'.lock input)) (doing (b.lock input))) :
    Mirrors held asks (· = .stuck) (b'.holding input doing') (b.holding input doing) := by
  have locks := beside.isLocked input
  cases locked : b.isLocked input with
  | true =>
    rw [locked, Bool.or_true] at locks
    rw [holding_of_locked locks, holding_of_locked locked]
    exact .same beside _
  | false =>
    rw [locked, Bool.or_false] at locks
    cases wanted : input.buffer?.any held.contains with
    | true =>
      rw [wanted] at locks
      rw [holding_of_locked locks]
      cases input with
      | bytes input => cases wanted
      | buffer id => exact .waits (needs id rfl) rfl
    | false =>
      rw [wanted] at locks
      simp only [Bench.holding, locks, locked]
      generalize doing' (b'.lock input) = ran' at mirrors
      generalize doing (b.lock input) = ran at mirrors
      cases mirrors with
      | same after outcome =>
        cases outcome with
        | stuck => exact .same after _
        | done answer | refused fault => exact .same (after.unlock wanted) _
      | waits asked stop =>
        obtain ⟨after', outcome'⟩ := ran'
        cases stop
        exact .waits asked rfl

end Beside

/-- An engine that others who hold a buffer keep from nothing, unless it asks for that
buffer and waits for it. -/
def Behaviour.Heeds (act : Behaviour ρ) (held : List BufferId) (asks : Prop) : Prop :=
  ∀ {b' b : Bench}, Beside held b' b → ∀ number limit,
    Mirrors held asks (·.1 = .never) (act number limit b') (act number limit b)

namespace Beside

theorem conclude {ran' ran : Bench × Verdict × ρ}
    (mirrors : Mirrors held asks (·.1 = .never) ran' ran) (tree : Tree) :
    Mirrors held asks (· = .stuck) (conclude tree ran') (conclude tree ran) := by
  cases mirrors with
  | waits asked stop => exact .waits asked (outcome_conclude.trans (if_pos stop))
  | same beside told =>
    obtain ⟨verdict, report⟩ := told
    cases verdict with
    | never => exact .same beside _
    | noTree => exact .same (beside.session_map Session.takeBack) _
    | tree => exact .same ((beside.session_map Session.takeBack).push_tree tree) _

theorem runEngine (beside : Beside held b' b) (heeds : act.Heeds held asks) (number : Nat)
    (input : Bytes) (old : Option Nat) :
    Mirrors held asks (· = .stuck) (b'.runEngine number input old act)
      (b.runEngine number input old act) := by
  have session := beside.session
  rcases handOver_cases b.session input with ⟨fault, refused⟩ | stuck | ⟨handed, given⟩
  · rw [runEngine_of_refused refused, runEngine_of_refused (session ▸ refused)]
    exact .same beside _
  · obtain ⟨asked, asks, waits⟩ := runEngine_of_stuck stuck number old act
    obtain ⟨asked', asks', waits'⟩ :=
      runEngine_of_stuck (b := b') (session ▸ stuck) number old act
    rw [session] at asks'
    obtain rfl := Except.ok.inj (asks.symm.trans asks')
    rw [waits, waits']
    exact .same (beside.with_session asked) _
  · have tree : Tree.parse (old.bind (b'.trees[·]?)) input = Tree.parse (old.bind (b.trees[·]?)) input := by
      rw [beside.trees]
    rw [runEngine_of_handOver given, runEngine_of_handOver (b := b') (session ▸ given), tree]
    exact conclude (heeds (beside.with_session handed) number handed.limit) _

theorem runRound (beside : Beside held b' b) (needs : ∀ id, input = .buffer id → asks)
    (heeds : act.Heeds held asks) (old : Option Nat) :
    Mirrors held asks (· = .stuck) (b'.runRound input old act) (b.runRound input old act) := by
  have mirrors : Mirrors held asks (· = .stuck)
      (b'.holding input fun held =>
        held.runEngine b'.session.begun (held.readInput input) old act)
      (b.holding input fun held =>
        held.runEngine b.session.begun (held.readInput input) old act) := by
    refine beside.holding needs ?_
    rw [(beside.lock input).readInput, beside.session]
    exact (beside.lock input).runEngine heeds _ _ old
  rw [Bench.runRound, Bench.runRound]
  generalize b'.holding input _ = ran' at mirrors
  generalize b.holding input _ = ran at mirrors
  cases mirrors with
  | same beside outcome =>
    cases outcome with
    | stuck => exact .same beside _
    | done answer | refused fault => exact .same (beside.session_map Session.leaveRound) _
  | waits asked stop =>
    obtain ⟨after', outcome'⟩ := ran'
    cases stop
    exact .waits asked rfl

theorem runActive (beside : Beside held b' b) (heeds : act.Heeds held asks) (input : Input)
    (old : Option Nat) :
    Mirrors held asks (· = .stuck) (b'.runActive input old act) (b.runActive input old act) := by
  rw [Bench.runActive, Bench.runActive, beside.session, beside.readInput]
  cases b.session.activeRound with
  | error fault => exact .same beside _
  | ok number => exact beside.runEngine heeds number _ old

/-- A parse goes as without those who hold some buffers, unless it needs one of these
itself, or its engine or the others do. -/
theorem parse {stops : α → Prop} (beside : Beside held b' b)
    (needs : ∀ raw, source = .handle raw → asks) (heeds : act.Heeds held asks)
    (friendly : ∀ {b' b : Bench}, Beside held b' b →
      Mirrors held asks stops (company b') (company b)) :
    Mirrors held asks (fun told => told.1 = .stuck ∨ ∃ report ∈ told.2, stops report)
      (b'.parse mode source old act company) (b.parse mode source old act company) := by
  have needs {input : Input} (settled : b.settle source = .ok input) (id : BufferId)
      (buffer : input = .buffer id) : asks := by
    cases source with
    | bytes bytes =>
      cases settled
      cases buffer
    | handle raw => exact needs raw rfl
  cases mode with
  | withinRound =>
    simp only [Bench.parse, parseWithin, beside.settle]
    cases settled : b.settle source with
    | error fault => exact .same beside _
    | ok input =>
      exact (beside.holding (needs settled) ((beside.lock input).runActive heeds input old)).map
        (·, none) fun _ => .inl
  | wholeRound =>
    simp only [Bench.parse, parseRound, beside.settle, beside.session]
    cases settled : b.settle source with
    | error fault => exact .same beside _
    | ok input =>
      cases b.session.enter with
      | refused fault => exact .same beside _
      | entered session =>
        exact ((beside.with_session session).runRound (needs settled) heeds old).map
          (·, none) fun _ => .inl
      | waits =>
        have others := friendly beside
        simp only
        generalize company b' = ran' at others
        generalize company b = ran at others
        cases others with
        | waits asked stop =>
          obtain ⟨met', report'⟩ := ran'
          refine .waits asked (.inr ⟨report', ?_, stop⟩)
          simp only
          cases met'.session.enter <;> rfl
        | @same met' met beside report =>
          simp only [beside.session]
          cases met.session.enter with
          | refused fault | waits => exact .same beside _
          | entered session =>
            exact ((beside.with_session session).runRound (needs settled) heeds old).map
              (·, some report) fun _ => .inl

end Beside

end HostParsing.Bench

namespace HostParsing.Session

open Bench (Beside Mirrors)

mutual

/-- Whether a call may need a buffer, itself or through a call that is part of it. -/
def Call.touches : Call → Bool
  | .registry _ | .parse _ (.handle _) _ _ => true
  | .parse _ (.bytes _) _ script => scriptTouches script
  | .alongside waiter beside => waiter.touches || anyTouches beside
  | .isParsing | .beginRound | .endRound | .reset | .destroy | .setLimit _ | .limit | .engine
  | .requestCancellation | .cancelAndWait | .token _ _ => false

/-- Whether a call of a script may need a buffer. -/
def scriptTouches : List Step → Bool
  | [] => false
  | .call call :: rest => call.touches || scriptTouches rest
  | .poll :: rest | .spend _ :: rest | .giveUp :: rest => scriptTouches rest

/-- Whether one of some calls may need a buffer. -/
def anyTouches : List Call → Bool
  | [] => false
  | call :: rest => call.touches || anyTouches rest

end

/-- Whether a call has stopped at what others hold, or those have who act while it waits. -/
def Stops (told : Outcome Fault Answer × Option (List Turn)) : Prop :=
  (∀ phase, (Turn.mk told.1 phase).waits = true) ∨ ∃ turns ∈ told.2, waitsAny turns = true

variable {held : List BufferId} {asks : Prop}

theorem changing_beside {b' b : Bench} (beside : Beside held b' b) (change : Session → Outcome Fault Session)
    (answer : Session → Answer) :
    Mirrors held asks Stops (changing b' (change b'.session) answer)
      (changing b (change b.session) answer) := by
  rw [beside.session]
  cases change b.session with
  | done s => exact .same (beside.with_session s) _
  | refused fault | stuck => exact .same beside _

/-- A call on the registry waits for the buffer that it needs, if that is held. -/
theorem registry_beside {b' b : Bench} (beside : Beside held b' b) (asked : asks) (call : Registry.Call)
    (others : Others) :
    Mirrors held asks Stops ((Call.registry call).run others b')
      ((Call.registry call).run others b) := by
  have blocks : b'.blocks call =
      ((call.buffer? b.desk).any held.contains || b.blocks call) := by
    simp only [Bench.blocks, beside.desk]
    cases call.buffer? b.desk with
    | none => rfl
    | some id => exact beside.contains_locked id
  rw [Call.run, Call.run, blocks, beside.desk]
  cases b.blocks call with
  | true =>
    rw [Bool.or_true]
    exact .same beside _
  | false =>
    cases (call.buffer? b.desk).any held.contains with
    | true => exact .waits asked (.inl fun _ => rfl)
    | false =>
      simp only [Bool.or_false, if_neg Bool.false_ne_true]
      cases call.run b.desk with
      | error fault => exact .same beside _
      | ok done => exact .same (beside.with_desk done.2) _

theorem cancelAndWait_beside {α : Type} {company : Bench.Company α} {stops : α → Prop}
    {b' b : Bench} (beside : Beside held b' b)
    (friendly : ∀ {b' b : Bench}, Beside held b' b →
      Mirrors held asks stops (company b') (company b)) :
    Mirrors held asks (fun told => ∃ report ∈ told.2, stops report)
      (b'.cancelAndWait company) (b.cancelAndWait company) := by
  simp only [Bench.cancelAndWait, beside.session]
  cases b.session.round with
  | none => exact .same beside _
  | some number =>
    have others := friendly (beside.with_session (b.session.cancel number).2)
    simp only
    generalize company { b' with session := _ } = ran' at others
    generalize company { b with session := _ } = ran at others
    cases others with
    | waits asked stop =>
      obtain ⟨met', report'⟩ := ran'
      refine .waits asked ⟨report', ?_, stop⟩
      simp only
      split <;> rfl
    | same beside report =>
      simp only [beside.session]
      split <;> exact .same beside _

/-- A call that is made alone stops by itself, if at all. -/
theorem turn_beside {call : Call} {b' b : Bench}
    (mirrors : Mirrors held asks Stops (call.run alone b') (call.run alone b)) :
    (asks ∧ (call.turn b').waits = true) ∨
      (Beside held (call.run alone b').1 (call.run alone b).1 ∧ call.turn b' = call.turn b) := by
  have company := call.run_company alone b'
  unfold Call.turn
  generalize call.run alone b' = ran' at mirrors company ⊢
  generalize call.run alone b = ran at mirrors ⊢
  cases mirrors with
  | same beside told =>
    refine .inr ⟨beside, ?_⟩
    simp only [beside.session]
  | waits asked stop =>
    refine .inl ⟨asked, ?_⟩
    rcases stop with stop | ⟨turns, told, stop⟩
    · exact stop _
    -- Nobody else makes a call.
    · rw [company] at told
      obtain ⟨met, -, rfl⟩ := Option.map_eq_some_iff.mp told
      cases stop

/-- Who makes calls beside a call that may wait does what it does without those who hold
buffers, if the call does and the calls do. -/
theorem alongside_beside {waiter : Call} {calls : List Call} {others : Others} {b' b : Bench}
    (waiting : Mirrors held asks Stops (waiter.run (fun b => runAll calls b) b')
      (waiter.run (fun b => runAll calls b) b))
    (meanwhile : ∀ {b' b : Bench}, Beside held b' b →
      Mirrors held asks (waitsAny · = true) (runAll calls b') (runAll calls b)) :
    Mirrors held asks Stops ((Call.alongside waiter calls).run others b')
      ((Call.alongside waiter calls).run others b) := by
  rw [Call.run, Call.run]
  generalize waiter.run (fun b => runAll calls b) b' = ran' at waiting ⊢
  generalize waiter.run (fun b => runAll calls b) b = ran at waiting ⊢
  cases waiting with
  | waits asked stop =>
    obtain ⟨met', outcome', turns'⟩ := ran'
    refine .waits asked (.inl fun phase => ?_)
    rcases stop with stop | ⟨turns, told, stop⟩
    · cases turns' <;> simp only [atOnce, Turn.waits, stop, Bool.true_or]
    · cases told
      simp only [atOnce, Turn.waits, stop, Bool.or_true]
  | @same met' met beside told =>
    obtain ⟨outcome, turns⟩ := told
    cases turns with
    | some turns =>
      simp only [beside.session]
      exact .same beside _
    | none =>
      have later := meanwhile beside
      simp only [beside.session]
      generalize runAll calls met' = acted' at later
      generalize runAll calls met = acted at later
      cases later with
      | same beside turns => exact .same beside _
      | waits asked stop =>
        refine .waits asked (.inl fun phase => ?_)
        simp only [atOnce, Turn.waits, stop, Bool.or_true]

mutual

/-- A call does beside those who hold some buffers what it does without them, unless it
waits for one of these, or the others do while it waits. -/
theorem Call.run_beside (call : Call) (touched : call.touches = true → asks) {others : Others}
    (friendly : ∀ {b' b : Bench}, Beside held b' b →
      Mirrors held asks (waitsAny · = true) (others b') (others b))
    {b' b : Bench} (beside : Beside held b' b) :
    Mirrors held asks Stops (call.run others b') (call.run others b) := by
  cases call with
  | isParsing | limit | engine =>
    rw [Call.run, Call.run, beside.session]
    exact .same beside _
  | beginRound =>
    rw [Call.run, Call.run]
    exact changing_beside beside (fun s => .ofExcept s.beginRound) _
  | endRound =>
    rw [Call.run, Call.run]
    exact changing_beside beside (fun s => .ofExcept s.endRound) _
  | setLimit limit =>
    rw [Call.run, Call.run]
    exact changing_beside beside (fun s => .ofExcept (s.setLimit limit)) _
  | reset =>
    rw [Call.run, Call.run]
    exact changing_beside beside Session.reset _
  | destroy =>
    rw [Call.run, Call.run, destroying, destroying, beside.session]
    exact .same (beside.with_session _) _
  | parse mode source old script =>
    have needs (raw : UInt64) (handle : source = .handle raw) : asks := by
      subst handle
      exact touched rfl
    have scripted : scriptTouches script = true → asks := fun touches => by
      cases source with
      | bytes input => exact touched touches
      | handle raw => exact touched rfl
    have stops : ∀ told : Outcome Fault (Option Tree × Report) × Option (List Turn),
        (told.1 = .stuck ∨ ∃ turns ∈ told.2, waitsAny turns = true) →
        Stops (told.1.map fun ran => .parsed ran.1 ran.2, told.2) := by
      rintro told (stuck | stop)
      · exact .inl fun phase => by rw [stuck]; rfl
      · exact .inr stop
    rw [Call.run, Call.run]
    exact (beside.parse needs (fun beside number limit =>
      runScript_beside script scripted number limit 0 [] beside) friendly).map _ stops
  | requestCancellation =>
    rw [Call.run, Call.run, beside.session]
    exact .same (beside.with_session _) _
  | cancelAndWait =>
    rw [Call.run, Call.run]
    have stops : ∀ told : Outcome Fault Bool × Option (List Turn),
        (∃ turns ∈ told.2, waitsAny turns = true) → Stops (told.1.map .cancelled, told.2) :=
      fun _ => .inr
    exact (cancelAndWait_beside beside friendly).map _ stops
  | alongside waiter calls =>
    have meanwhile {b' b : Bench} (beside : Beside held b' b) := runAll_beside calls
      (fun touches => touched (by rw [Call.touches, touches, Bool.or_true])) beside
    have waiting : Mirrors held asks Stops (waiter.run (fun b => runAll calls b) b')
        (waiter.run (fun b => runAll calls b) b) :=
      waiter.run_beside (fun touches => touched (by rw [Call.touches, touches, Bool.true_or]))
        meanwhile beside
    exact alongside_beside waiting meanwhile
  | token number cancel =>
    rw [Call.run, Call.run, beside.session]
    exact .same (beside.with_session _) _
  | registry call => exact registry_beside beside (touched rfl) call others

theorem runScript_beside (script : List Step) (touched : scriptTouches script = true → asks)
    (number : Nat) (limit : Option Nat) (spent : Nat) (during : List Turn)
    {b' b : Bench} (beside : Beside held b' b) :
    Mirrors held asks (·.1 = .never) (runScript script number limit spent during b')
      (runScript script number limit spent during b) := by
  match script with
  | [] =>
    rw [runScript, runScript, Bench.verdict, Bench.verdict, Bench.isWanted, Bench.isWanted,
      beside.session]
    exact .same beside _
  | .poll :: rest =>
    rw [runScript, runScript, Bench.isWanted, Bench.isWanted, beside.session]
    split
    · exact runScript_beside rest touched number limit spent during beside
    · exact .same beside _
  | .spend nanos :: rest =>
    rw [runScript, runScript]
    split
    · exact .same beside _
    · exact runScript_beside rest touched number limit (spent + nanos) during beside
  | .giveUp :: _ =>
    rw [runScript, runScript]
    exact .same beside _
  | .call call :: rest =>
    have made := turn_beside (call.run_beside
      (fun touches => touched (by rw [scriptTouches, touches, Bool.true_or]))
      (fun beside => .same beside []) beside)
    rw [runScript_call, runScript_call]
    rcases made with ⟨asked, stop⟩ | ⟨beside, same⟩
    · rw [if_pos stop]
      exact .waits asked rfl
    · rw [same]
      split
      · exact .same beside _
      · exact runScript_beside rest
          (fun touches => touched (by rw [scriptTouches, touches, Bool.or_true])) number limit spent
          _ beside

theorem runAll_beside (calls : List Call) (touched : anyTouches calls = true → asks)
    {b' b : Bench} (beside : Beside held b' b) :
    Mirrors held asks (waitsAny · = true) (runAll calls b') (runAll calls b) := by
  match calls with
  | [] =>
    rw [runAll, runAll]
    exact .same beside _
  | call :: rest =>
    have made := turn_beside (call.run_beside
      (fun touches => touched (by rw [anyTouches, touches, Bool.true_or]))
      (fun beside => .same beside []) beside)
    have all (b : Bench) : runAll (call :: rest) b =
        ((runAll rest (call.run alone b).1).1,
          call.turn b :: (runAll rest (call.run alone b).1).2) := by rw [runAll]; rfl
    rw [all, all]
    rcases made with ⟨asked, stop⟩ | ⟨beside, same⟩
    · refine .waits asked ?_
      rw [waitsAny, stop, Bool.true_or]
    · rw [same]
      refine (runAll_beside rest
        (fun touches => touched (by rw [anyTouches, touches, Bool.or_true])) beside).map
        (call.turn b :: ·) fun turns stop => ?_
      rw [waitsAny, stop, Bool.or_true]

end

end HostParsing.Session
