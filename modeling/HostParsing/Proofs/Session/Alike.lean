import HostParsing.Proofs.Session.Refused
/-!
# Parses that run alike

A parse depends on its engine only where it comes to it, and on the others only if it
waits. So two parses that meet engines which do the same there, and others who leave
the same, do the same and end alike, up to what is reported (`parse_alike`).
-/

namespace HostParsing.Bench

variable {ρ α : Type} {b : Bench} {mode : Mode} {source : Source} {act' act : Behaviour ρ}
  {company' company : Company α} {report : ρ → ρ → Prop}

/-- Engines that do the same, up to their reports. -/
inductive ActAlike (report : ρ → ρ → Prop) : Bench × Verdict × ρ → Bench × Verdict × ρ → Prop
  | mk (after : Bench) (verdict : Verdict) {told' told : ρ} (reports : report told' told) :
    ActAlike report (after, verdict, told') (after, verdict, told)

/-- Parses that end alike, up to their reports. -/
inductive EndAlike (report : ρ → ρ → Prop) :
    Bench × Outcome Fault (Option Tree × ρ) → Bench × Outcome Fault (Option Tree × ρ) → Prop
  | done (after : Bench) (tree : Option Tree) {told' told : ρ} (reports : report told' told) :
    EndAlike report (after, .done (tree, told')) (after, .done (tree, told))
  | refused (after : Bench) (fault : Fault) :
    EndAlike report (after, .refused fault) (after, .refused fault)
  | stuck (after : Bench) : EndAlike report (after, .stuck) (after, .stuck)

theorem ActAlike.imp {more : ρ → ρ → Prop} {ran' ran : Bench × Verdict × ρ}
    (acts : ActAlike report ran' ran)
    (implies : ∀ {told' told}, report told' told → more told' told) :
    ActAlike more ran' ran := by
  cases acts with
  | mk after verdict reports => exact .mk after verdict (implies reports)

theorem ActAlike.refl (ran : Bench × Verdict × ρ) : ActAlike Eq ran ran := .mk _ _ rfl

theorem EndAlike.eq {ran' ran : Bench × Outcome Fault (Option Tree × ρ)}
    (ends : EndAlike Eq ran' ran) : ran' = ran := by
  cases ends with
  | done after tree same => rw [same]
  | refused | stuck => rfl

/-- Engines that do the same where a parse comes to them. -/
def AgreeAt (report : ρ → ρ → Prop) (act' act : Behaviour ρ) (a : Admission) : Prop :=
  ∀ handed, a.bench.session.handOver a.input = .done handed →
    ActAlike report (act' a.number handed.limit { a.bench with session := handed })
      (act a.number handed.limit { a.bench with session := handed })

theorem ActAlike.conclude {ran' ran : Bench × Verdict × ρ} (acts : ActAlike report ran' ran)
    (tree : Tree) : EndAlike report (conclude tree ran') (conclude tree ran) := by
  cases acts with
  | mk after verdict reports =>
    cases verdict with
    | never => exact .stuck after
    | noTree => exact .done _ none reports
    | tree => exact .done _ (some tree) reports

theorem runEngine_alike {number : Nat} {input : Bytes} (old : Option Nat)
    (agree : AgreeAt report act' act ⟨number, input, b⟩) :
    EndAlike report (b.runEngine number input old act') (b.runEngine number input old act) := by
  rcases handOver_cases b.session input with ⟨fault, refused⟩ | stuck | ⟨handed, given⟩
  · rw [runEngine_of_refused refused, runEngine_of_refused refused]
    exact .refused b fault
  · obtain ⟨asked, asks, waits⟩ := runEngine_of_stuck stuck number old act
    obtain ⟨asked', asks', waits'⟩ := runEngine_of_stuck stuck number old act'
    obtain rfl := Except.ok.inj (asks.symm.trans asks')
    rw [waits, waits']
    exact .stuck _
  · rw [runEngine_of_handOver given, runEngine_of_handOver given]
    exact (agree handed given).conclude _

/-- Parses that end alike while a buffer is locked end alike when it is unlocked. -/
theorem holding_alike {input : Input} {doing' doing : Bench → Bench × Outcome Fault (Option Tree × ρ)}
    (alike : b.isLocked input = false →
      EndAlike report (doing' (b.lock input)) (doing (b.lock input))) :
    EndAlike report (b.holding input doing') (b.holding input doing) := by
  cases locked : b.isLocked input with
  | true =>
    rw [holding_of_locked locked, holding_of_locked locked]
    exact .stuck b
  | false =>
    have ends := alike locked
    simp only [holding, locked]
    generalize doing' (b.lock input) = ran' at ends
    generalize doing (b.lock input) = ran at ends
    cases ends with
    | done after tree reports => exact .done _ tree reports
    | refused after fault => exact .refused _ fault
    | stuck after => exact .stuck after

/-- Parses end alike in a round if their engines do the same where the parse comes to them
with its buffer locked. -/
theorem held_alike {number : Nat} {input : Input} (old : Option Nat)
    (agree : ∀ a, b.reserve number input = some a → AgreeAt report act' act a) :
    EndAlike report
      (b.holding input fun held => held.runEngine number (held.readInput input) old act')
      (b.holding input fun held => held.runEngine number (held.readInput input) old act) := by
  refine holding_alike fun free => runEngine_alike old ?_
  rw [readInput_lock]
  exact agree _ (reserve_eq_some_iff.mpr ⟨free, rfl⟩)

theorem runRound_alike {input : Input} (old : Option Nat)
    (agree : ∀ a, b.reserve b.session.begun input = some a → AgreeAt report act' act a) :
    EndAlike report (b.runRound input old act') (b.runRound input old act) := by
  have ends := held_alike old agree
  rw [runRound, runRound]
  generalize b.holding input _ = ran' at ends
  generalize b.holding input _ = ran at ends
  cases ends with
  | done after tree reports => exact .done _ tree reports
  | refused after fault => exact .refused _ fault
  | stuck after => exact .stuck after

/-- Whether a parse waits for the end of a round before it begins its own. -/
def awaits (b : Bench) (mode : Mode) (source : Source) : Bool :=
  match mode, b.settle source, b.session.enter with
  | .wholeRound, .ok _, .waits => true
  | _, _, _ => false

/-- Parses end alike whose engines do the same where the parse comes to them, if the
others leave the same when the parse waits. -/
theorem parse_alike (old : Option Nat) (act' act : Behaviour ρ)
    (agree : ∀ a, b.admission mode source company = some a → AgreeAt report act' act a)
    (leave : b.awaits mode source = true → (company' b).1 = (company b).1) :
    let ran' := b.parse mode source old act' company'
    let ran := b.parse mode source old act company
    EndAlike report (ran'.1, ran'.2.1) (ran.1, ran.2.1) := by
  cases mode with
  | withinRound =>
    simp only [parse, parseWithin, admission] at agree ⊢
    cases settled : b.settle source with
    | error fault => exact .refused b fault
    | ok input =>
      cases active : b.session.activeRound with
      | error fault =>
        simp only [holding_runActive_of_error active]
        split
        · exact .stuck b
        · exact .refused b fault
      | ok number =>
        simp only [settled, active] at agree
        simp only [holding_runActive active]
        exact held_alike old agree
  | wholeRound =>
    simp only [parse, parseRound, admission] at agree ⊢
    cases settled : b.settle source with
    | error fault => exact .refused b fault
    | ok input =>
      simp only [settled] at agree ⊢
      cases entry : b.session.enter with
      | refused fault => exact .refused b fault
      | entered session =>
        simp only [entry, Bench.entry] at agree
        exact runRound_alike old agree
      | waits =>
        have same := leave (by simp only [awaits, settled, entry])
        simp only [entry, same] at agree ⊢
        cases entry' : (company b).1.session.enter with
        | refused fault => exact .refused _ fault
        | waits => exact .stuck _
        | entered session =>
          simp only [entry', Bench.entry] at agree
          exact runRound_alike old agree

/-- A parse meets what the others leave exactly when it waits. -/
theorem met_eq (b : Bench) (mode : Mode) (source : Source) (company : Company α) :
    b.met mode source company = bif b.awaits mode source then (company b).1 else b := by
  simp only [met, awaits]
  cases mode with
  | withinRound => rfl
  | wholeRound =>
    cases b.settle source with
    | error fault => rfl
    | ok input => cases b.session.enter <;> rfl

/-- The company is asked exactly when the parse waits, and finds the bench as the
parse does. -/
theorem parse_company {old : Option Nat} :
    (b.parse mode source old act company).2.2 =
      bif b.awaits mode source then some (company b).2 else none := by
  cases mode with
  | withinRound => rfl
  | wholeRound =>
    simp only [parse, parseRound, awaits]
    cases b.settle source with
    | error fault => rfl
    | ok input =>
      cases b.session.enter with
      | refused fault | entered session => rfl
      | waits =>
        simp only
        cases (company b).1.session.enter <;> rfl

end HostParsing.Bench

namespace HostParsing.Session

/-- The bench that the others find when a call waits, if it does. -/
def Call.awaits (call : Call) (b : Bench) : Option Bench :=
  match call with
  | .parse mode source _ _ => bif b.awaits mode source then some b else none
  | .cancelAndWait =>
    b.session.round.map fun number => { b with session := (b.session.cancel number).2 }
  | _ => none

/-- The others are asked exactly when a call waits. -/
theorem Call.run_company (call : Call) (others : Others) (b : Bench) :
    (call.run others b).2.2 = (call.awaits b).map fun met => (others met).2 := by
  cases call with
  | isParsing | limit | engine | requestCancellation | token => rfl
  | beginRound | endRound | reset | setLimit =>
    rw [Call.run]
    unfold changing
    split <;> rfl
  | destroy =>
    rw [Call.run]
    rfl
  | parse mode source old script =>
    rw [Call.run, Call.awaits]
    refine Bench.parse_company.trans ?_
    cases b.awaits mode source <;> rfl
  | cancelAndWait =>
    rw [Call.run, Call.awaits]
    simp only [Bench.cancelAndWait]
    cases b.session.round with
    | none => rfl
    | some number =>
      simp only
      split <;> rfl
  | alongside waiter beside =>
    rw [Call.run]
    split <;> rfl
  | registry call =>
    rw [Call.run]
    split
    · rfl
    · cases call.run b.desk <;> rfl

end HostParsing.Session
