import ScopedEval.Evaluation.Machine

namespace ScopedEval

def Finishes (names : Interner) (site : Site) (id : ExprId) (world : World) (outcome : Outcome)
    (after : World) : Prop :=
  ∃ fuel, evaluate names fuel site id world = some (outcome, after)

theorem Continuation.discard_deliver (continuation : Continuation) (outcome : Outcome) (site : Site)
    (stack : List Continuation) (world : World) : ∃ site' world',
      continuation.discard outcome site stack world = .deliver outcome site' stack world' ∧ world'.heap = world.heap := by
  cases continuation with
  | leave => cases outcome <;> exact ⟨_, _, rfl, rfl⟩
  | _ => exact ⟨_, _, rfl, rfl⟩

namespace State

theorem run_final (names : Interner) (fuel : Nat) (outcome : Outcome) (site : Site) (world : World) :
    run names fuel (.deliver outcome site [] world) = some (outcome, world) := by
  cases fuel <;> rfl

theorem run_more {names : Interner} {fuel : Nat} {state : State} {result : Outcome × World}
    (ended : run names fuel state = some result) (more : Nat) :
    run names (fuel + more) state = some result := by
  fun_induction run names fuel state with
  | case1 fuel outcome site world =>
    rw [← ended]
    exact run_final names (fuel + more) outcome site world
  | case2 => cases ended
  | case3 state fuel running ih =>
    have rest := ih ended
    rw [Nat.succ_add, run]
    · exact rest
    · exact running

theorem run_unique {names : Interner} {first second : Nat} {state : State} {result other : Outcome × World}
    (ended : run names first state = some result) (ended' : run names second state = some other) :
    result = other := by
  have left := run_more ended second
  have right := run_more ended' first
  rw [Nat.add_comm, right] at left
  exact (Option.some.inj left).symm

/-- An outcome that is no value ends the whole run, whatever waits for it, and no frame changes on the way. -/
theorem run_abort (names : Interner) {outcome : Outcome} (aborts : outcome.aborts = true) (site : Site)
    (stack : List Continuation) (world : World) : ∃ fuel after,
      run names fuel (.deliver outcome site stack world) = some (outcome, after) ∧ after.heap = world.heap := by
  induction stack generalizing site world with
  | nil => exact ⟨0, world, rfl, rfl⟩
  | cons continuation stack ih =>
    obtain ⟨site', world', next, kept⟩ := continuation.discard_deliver outcome site stack world
    obtain ⟨fuel, after, ended, same⟩ := ih site' world'
    refine ⟨fuel + 1, after, ?_, same.trans kept⟩
    rw [← ended, ← next, ← step_abort names aborts]
    rfl

end State

theorem run_iff_evaluates {names : Interner} {site : Site} {task : Task} {world after : World} {outcome : Outcome} :
    (∃ fuel, State.run names fuel (.perform task site [] world) = some (outcome, after)) ↔
      Evaluates names site task world outcome after := by
  constructor
  · rintro ⟨fuel, ended⟩
    obtain ⟨first, middle, left, _, evaluates, rest⟩ := State.splits names fuel ended
    have same := rest.symm.trans (State.run_final names left first site middle)
    cases same
    exact evaluates
  · intro evaluates
    have reaches := evaluates.reaches []
    exact reaches.run_eq (State.run_final names 0 outcome site after)

theorem Finishes.evaluates {names : Interner} {site : Site} {id : ExprId} {world after : World}
    {outcome : Outcome} (finishes : Finishes names site id world outcome after) :
    Evaluates names site (.expr id) world outcome after :=
  run_iff_evaluates.mp finishes

theorem Evaluates.finishes {names : Interner} {site : Site} {id : ExprId} {world after : World}
    {outcome : Outcome} (evaluates : Evaluates names site (.expr id) world outcome after) :
    Finishes names site id world outcome after :=
  run_iff_evaluates.mpr evaluates

theorem finishes_iff {names : Interner} {site : Site} {id : ExprId} {world after : World}
    {outcome : Outcome} :
    Finishes names site id world outcome after ↔ Evaluates names site (.expr id) world outcome after :=
  ⟨Finishes.evaluates, Evaluates.finishes⟩

theorem Finishes.unique {names : Interner} {site : Site} {id : ExprId} {world after after' : World}
    {outcome outcome' : Outcome} (finishes : Finishes names site id world outcome after)
    (finishes' : Finishes names site id world outcome' after') : outcome = outcome' ∧ after = after' := by
  obtain ⟨fuel, ended⟩ := finishes
  obtain ⟨fuel', ended'⟩ := finishes'
  exact Prod.mk.inj (State.run_unique ended ended')

theorem Finishes.only_iff {names : Interner} {site : Site} {id : ExprId} {world after last : World}
    {outcome other : Outcome} (finishes : Finishes names site id world outcome after) :
    Finishes names site id world other last ↔ other = outcome ∧ last = after := by
  constructor
  · intro finishes'
    exact finishes'.unique finishes
  · rintro ⟨rfl, rfl⟩
    exact finishes

theorem never_finishes_iff {names : Interner} {site : Site} {id : ExprId} {world : World} :
    (∀ fuel, evaluate names fuel site id world = none) ↔
      ∀ outcome after, ¬ Finishes names site id world outcome after := by
  constructor
  · rintro never outcome after ⟨fuel, ended⟩
    rw [never fuel] at ended
    cases ended
  · intro never fuel
    cases ended : evaluate names fuel site id world with
    | none => rfl
    | some result => exact absurd ⟨fuel, ended⟩ (never result.1 result.2)

/-- The evaluator and the rules of the language say the same: it ends with an outcome and a world
    exactly when the rules derive them, runs for ever exactly when they derive nothing, and
    does not change its answer when it is given more time. -/
theorem evaluate_matches_rules (names : Interner) (site : Site) (id : ExprId) (world : World) :
    (∀ outcome after, (∃ fuel, evaluate names fuel site id world = some (outcome, after)) ↔
      Evaluates names site (.expr id) world outcome after) ∧
    ((∀ fuel, evaluate names fuel site id world = none) ↔
      ∀ outcome after, ¬ Evaluates names site (.expr id) world outcome after) ∧
    ∀ fuel more result, evaluate names fuel site id world = some result →
      evaluate names (fuel + more) site id world = some result := by
  refine ⟨fun outcome after => finishes_iff, ?_, fun fuel more result ended => State.run_more ended more⟩
  rw [never_finishes_iff]
  simp only [finishes_iff]

/-- Declares a number and a function of two parameters that assigns the number and prints, and calls the function from
    another one, whose parameter has the name of the number. The last expression divides the result by zero. -/
def rescaling : Arena where
  nodes := #[.literal (.int 1), .declare ⟨1⟩ ⟨0⟩, .ident ⟨3⟩, .ident ⟨4⟩, .binary .sub ⟨2⟩ ⟨3⟩, .assign ⟨1⟩ ⟨4⟩,
    .ident ⟨1⟩, .binary .mul ⟨6⟩ ⟨3⟩, .print ⟨7⟩, .seq ⟨5⟩ ⟨8⟩, .function ⟨0, 2⟩ ⟨9⟩, .declare ⟨2⟩ ⟨10⟩,
    .ident ⟨2⟩, .literal (.int 4), .binary .add ⟨6⟩ ⟨13⟩, .literal (.int 3), .call ⟨12⟩ ⟨0, 2⟩,
    .function ⟨2, 1⟩ ⟨16⟩, .literal (.int 6), .call ⟨17⟩ ⟨2, 1⟩, .seq ⟨1⟩ ⟨11⟩, .seq ⟨20⟩ ⟨19⟩,
    .literal (.int 0), .binary .div ⟨21⟩ ⟨22⟩]
  args := #[⟨14⟩, ⟨15⟩, ⟨18⟩]
  params := #[⟨3⟩, ⟨4⟩, ⟨1⟩]

theorem evaluate_matches_rules_rescaling :
    let site : Site := ⟨⟨0, rescaling⟩, ⟨0⟩⟩
    let world := ((World.new (.buffer "")).newFrame none).2
    ∃ after, Evaluates .new site (.expr ⟨21⟩) world (.value (.int 21)) after ∧
      (∃ fuel, evaluate .new fuel site ⟨23⟩ world = some (.failure .divisionByZero, after)) ∧
      after.sink = .buffer "21\n" ∧ after.heap.get? ⟨0⟩ ⟨1⟩ = some (.int 7) ∧
      after.heap.parent? ⟨1⟩ = some ⟨0⟩ ∧ after.heap.get? ⟨1⟩ ⟨1⟩ = some (.int 6) ∧
      after.heap.parent? ⟨2⟩ = some ⟨0⟩ ∧ after.heap.get? ⟨2⟩ ⟨3⟩ = some (.int 10) ∧
      after.heap.get? ⟨2⟩ ⟨4⟩ = some (.int 3) := by
  intro site world
  have ran : (evaluate .new 80 site ⟨21⟩ world).map (fun result => (result.1, result.2.sink,
      [result.2.heap.get? ⟨0⟩ ⟨1⟩, result.2.heap.get? ⟨1⟩ ⟨1⟩, result.2.heap.get? ⟨2⟩ ⟨3⟩, result.2.heap.get? ⟨2⟩ ⟨4⟩],
      [result.2.heap.parent? ⟨1⟩, result.2.heap.parent? ⟨2⟩])) =
      some (.value (.int 21), .buffer "21\n", [some (.int 7), some (.int 6), some (.int 10), some (.int 3)],
        [some ⟨0⟩, some ⟨0⟩]) := by decide +kernel
  obtain ⟨⟨outcome, after⟩, ended, shown⟩ := Option.map_eq_some_iff.mp ran
  simp only [Prod.mk.injEq, List.cons.injEq, and_true] at shown
  obtain ⟨rfl, printed, ⟨number, shadow, first, second⟩, up, up'⟩ := shown
  have evaluates := ((evaluate_matches_rules .new site ⟨21⟩ world).1 _ _).mp ⟨80, ended⟩
  have divides : Evaluates .new site (.expr ⟨23⟩) world (.failure .divisionByZero) after :=
    .binaryFails rfl evaluates (.literal rfl rfl) rfl
  exact ⟨after, evaluates, ((evaluate_matches_rules .new site ⟨23⟩ world).1 _ _).mpr divides, printed, number, up,
    shadow, up', first, second⟩

end ScopedEval
