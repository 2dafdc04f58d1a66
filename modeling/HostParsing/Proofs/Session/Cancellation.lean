import HostParsing.Proofs.Session.Refused
/-!
# Cancelled parses

An engine looks at its token once more when it is about to answer (`checked`), as
the scripted engine does (`checked_runScript`). A parse whose round was cancelled
then comes to no tree, unless its round is ended while it runs: the token expires
and forgets the cancellation (`tree_of_cancelled`). If the engine waits for what the
parse itself holds, the parse does not return.
-/

namespace HostParsing.Bench

open Session (History Report Step runScript)

variable {ρ α : Type}

/-- What an engine comes to that looks at a token when it would come to a tree. -/
def Verdict.check (verdict : Verdict) (wanted : Bool) : Verdict :=
  match verdict with
  | .tree => if wanted then .tree else .noTree
  | .noTree => .noTree
  | .never => .never

/-- An engine that looks at its token at the end: what it would have come to is
given up if the token is cancelled then. -/
def checked (act : Behaviour ρ) : Behaviour ρ := fun number limit b =>
  let (after, willing, report) := act number limit b
  (after, willing.check (after.isWanted number), report)

theorem Verdict.check_eq_never_iff {verdict : Verdict} {wanted : Bool} :
    verdict.check wanted = .never ↔ verdict = .never := by
  cases verdict <;> cases wanted <;> simp [check]

theorem Verdict.check_eq_tree_iff {verdict : Verdict} {wanted : Bool} :
    verdict.check wanted = .tree ↔ verdict = .tree ∧ wanted = true := by
  cases verdict <;> cases wanted <;> simp [check]

/-- A script that comes to a tree has looked at its token at the end. -/
theorem isWanted_of_runScript {script : List Step} {number : Nat} {limit : Option Nat} {spent : Nat}
    {during : List Session.Turn} {b : Bench}
    (complete : (runScript script number limit spent during b).2.1 = .tree) :
    (runScript script number limit spent during b).1.isWanted number = true := by
  induction script generalizing spent during b with
  | nil =>
    rw [runScript, verdict] at complete
    rw [runScript]
    split at complete
    · assumption
    · cases complete
  | cons step rest ih =>
    cases step with
    | poll =>
      rw [runScript] at complete ⊢
      split at complete
      · rename_i wanted
        rw [if_pos wanted]
        exact ih complete
      · cases complete
    | spend nanos =>
      rw [runScript] at complete ⊢
      split at complete
      · cases complete
      · rename_i within
        rw [if_neg within]
        exact ih complete
    | giveUp => cases complete
    | call call =>
      rw [Session.runScript_call] at complete ⊢
      split at complete
      · cases complete
      · rename_i returned
        rw [if_neg returned]
        exact ih complete

theorem checked_runScript (script : List Step) :
    checked (fun number limit b => runScript script number limit 0 [] b) =
      fun number limit b => runScript script number limit 0 [] b := by
  funext number limit b
  have looks := @isWanted_of_runScript script number limit 0 [] b
  simp only [checked]
  generalize runScript script number limit 0 [] b = ran at looks
  obtain ⟨after, verdict, report⟩ := ran
  cases verdict with
  | noTree | never => rfl
  | tree => simp only [Verdict.check, looks rfl, if_true]

/-- A parse in a round that is cancelled, before it or while it runs, comes to no
tree as long as the round is not ended while it runs. If it is, the cancellation
is forgotten, and there is a tree unless the engine gives up for another reason. The
parse returns unless its engine waits for what the parse holds. -/
theorem tree_of_cancelled {limit : Option Nat} {b : Bench} {mode : Mode} {source : Source}
    {company : Company α} {a : Admission} {past during : List Session.Event} {handed : Session}
    (admitted : b.admission mode source company = some a)
    (before : History (Session.start limit) past a.bench.session)
    (given : a.bench.session.handOver a.input = .done handed) (old : Option Nat)
    (act : Behaviour ρ)
    (ran : History a.bench.session during
      (a.bench.runEngine a.number a.input old (checked act)).1.session)
    (heeded : .cancelled a.number true ∈ past ++ during) :
    let engine := act a.number handed.limit { a.bench with session := handed }
    let outcome := (b.parse mode source old (checked act) company).2.1
    (engine.2.1 = .never → outcome = .stuck) ∧
      (engine.2.1 ≠ .never → ∃ tree, outcome = .done (tree, engine.2.2) ∧
        (tree = none ↔ engine.2.1 = .noTree ∨ .ended a.number ∉ during)) := by
  intro engine outcome
  have entered := before.sound (Session.sound_start limit)
  have active := admission_round admitted
  have whole := runEngine_of_handOver given a.number old (checked act)
  have came : (checked act a.number handed.limit { a.bench with session := handed }).2.1 =
      engine.2.1.check (engine.1.isWanted a.number) := rfl
  have answered : outcome =
      if engine.2.1 = .never then .stuck
      else .done (if engine.2.1 = .tree ∧ engine.1.isWanted a.number = true
        then some (Tree.parse (old.bind (a.bench.trees[·]?)) a.input) else none, engine.2.2) := by
    rw [show outcome = _ from outcome_of_admitted admitted old _, whole, outcome_conclude, came]
    simp only [Verdict.check_eq_never_iff, Verdict.check_eq_tree_iff]
    rfl
  refine ⟨fun never => by rw [answered, if_pos never], fun returns => ?_⟩
  have token := (before.trans ran).token_of_cancelled (Session.sound_start limit)
    (entered.round_last active).2 heeded
  have last : (a.bench.runEngine a.number a.input old (checked act)).1.session =
      engine.1.session.takeBack := by
    rw [whole, session_conclude, came]
    simp only [Verdict.check_eq_never_iff, if_neg returns]
    rfl
  -- The token is as the engine has met it last, since taking the engine back
  -- leaves all tokens alone.
  have wanted : engine.1.isWanted a.number = true ↔ .ended a.number ∈ during := by
    rw [ran.round_iff_not_ended entered active, last] at token
    show decide (engine.1.session.token a.number ≠ .cancelled) = true ↔ _
    rw [decide_eq_true_iff, ne_eq, ← Decidable.not_not (p := .ended a.number ∈ during)]
    exact not_congr token
  rw [if_neg returns] at answered
  refine ⟨_, answered, ?_⟩
  rw [← wanted]
  cases verdict : engine.2.1 with
  | never => exact absurd verdict returns
  | noTree => simp
  | tree => cases engine.1.isWanted a.number <;> simp

/-- A request to cancel that is made while the engine runs. -/
theorem tree_of_cancelled_request :
    ((start none).parse .wholeRound (.bytes [0x61, 0]) none
        (checked fun number limit b => runScript [.call .requestCancellation] number limit 0 [] b)
        fun b => (b, ())).2.1 =
      .done (none, .mk 1 none 0 [.mk (.done (.cancelled true)) .parsing]) := by
  have entered : History (Session.start none) [.began 1] (Session.start none).install :=
    .single (.began rfl rfl)
  have admitted : (start none).admission .wholeRound (.bytes [0x61, 0]) (fun b => (b, ())) =
      some ⟨1, [0x61, 0], { start none with session := (Session.start none).install }⟩ := rfl
  have given : (Session.start none).install.handOver [0x61, 0] = .done _ := rfl
  have got := Session.history_of_handOver given
  obtain ⟨tree, outcome, given_up⟩ := (tree_of_cancelled admitted entered given none
    (fun number limit b => runScript [.call .requestCancellation] number limit 0 [] b)
    ((got.next (.cancelled 1)).next .tookBack) (by decide)).2 (by decide)
  obtain rfl : tree = none := given_up.mpr (.inr (by decide))
  exact outcome

/-- A cancellation that was heeded is forgotten when the round is ended. -/
theorem tree_after_cancelled_and_ended :
    let act : Behaviour Report := fun number limit b =>
      runScript [.call .requestCancellation, .call .endRound] number limit 0 [] b
    ((start none).parse .wholeRound (.bytes [0x61, 0]) none act fun b => (b, ())).2.1 =
      .done (some (Tree.parse none [0x61, 0]), .mk 1 none 0
        [.mk (.done (.cancelled true)) .parsing, .mk (.done .done) .idle]) :=
  rfl

end HostParsing.Bench
