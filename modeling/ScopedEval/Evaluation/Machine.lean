import ScopedEval.Evaluation

namespace ScopedEval

inductive State.Reaches (names : Interner) : State → State → Prop where
  | refl (state : State) : Reaches names state state
  | step {state final : State} : Reaches names (state.step names) final → Reaches names state final

namespace State.Reaches

theorem trans {names : Interner} {start middle final : State} (first : Reaches names start middle)
    (second : Reaches names middle final) : Reaches names start final := by
  induction first with
  | refl => exact second
  | step _ ih => exact .step (ih second)

theorem run_eq {names : Interner} {start final : State} (reaches : Reaches names start final) {fuel : Nat}
    {result : Outcome × World} (finished : run names fuel final = some result) :
    ∃ more, run names more start = some result := by
  induction reaches with
  | refl => exact ⟨fuel, finished⟩
  | @step state _ _ ih =>
    obtain ⟨more, run⟩ := ih finished
    by_cases final : ∃ outcome site world, state = ⟨.deliver outcome, site, [], world⟩
    · obtain ⟨outcome, site, world, rfl⟩ := final
      exact ⟨more, run⟩
    · refine ⟨more + 1, ?_⟩
      rw [State.run]
      · exact run
      · exact fun outcome site world same => final ⟨outcome, site, world, same⟩

end State.Reaches

theorem World.Declares.declareAll {frame : FrameId} {world after : World} {params : List Name} {args : List Value}
    {stop : Option Name} (declares : world.Declares frame params args stop after) :
    world.declareAll frame (params.zip args) = (stop, after) := by
  induction declares with
  | done => rfl
  | taken bound =>
    rw [List.zip_cons_cons, World.declareAll, bound]
    rfl
  | next free _ ih =>
    rw [List.zip_cons_cons, World.declareAll, free]
    exact ih

theorem World.declares_of_declareAll {frame : FrameId} {world after : World} {params : List Name} {args : List Value}
    {stop : Option Name} (paired : params.length = args.length)
    (declared : world.declareAll frame (params.zip args) = (stop, after)) :
    world.Declares frame params args stop after := by
  induction params generalizing args world with
  | nil =>
    cases args with
    | nil =>
      cases declared
      exact .done
    | cons => cases paired
  | cons name rest ih =>
    cases args with
    | nil => cases paired
    | cons value values =>
      rw [List.zip_cons_cons, World.declareAll] at declared
      cases bound : world.heap.binds frame name with
      | true =>
        rw [bound] at declared
        cases declared
        exact .taken bound
      | false =>
        rw [bound] at declared
        exact .next bound (ih (Nat.succ.inj paired) declared)

theorem Closure.params_paired {closure : Closure} {params : List Name} {args : List Value}
    (arity : args.length = closure.arity) (read : closure.paramNames? = some params) : params.length = args.length :=
  (Arena.slice?_length read).trans arity.symm

def Continuation.leaves : Continuation → Bool
  | .leave _ => true
  | _ => false

theorem Continuation.discard_of_not_leaves {continuation : Continuation} (inner : continuation.leaves = false)
    (outcome : Outcome) (site : Site) (stack : List Continuation) (world : World) :
    continuation.discard outcome site stack world = .deliver outcome site stack world := by
  cases continuation <;> first | rfl | cases inner

theorem State.step_abort (names : Interner) {outcome : Outcome} (aborts : outcome.aborts = true) (site : Site)
    (continuation : Continuation) (stack : List Continuation) (world : World) :
    (State.deliver outcome site (continuation :: stack) world).step names =
      continuation.discard outcome site stack world := by
  cases outcome <;> first | rfl | cases aborts

theorem State.step_leave (names : Interner) (outcome : Outcome) (site caller : Site)
    (stack : List Continuation) (world : World) :
    (State.deliver outcome site (.leave caller :: stack) world).step names =
      .deliver outcome caller stack (world.leaveCall outcome) := by
  cases outcome <;> rfl

theorem State.step_expr (names : Interner) {site : Site} {id : ExprId} {node : Node}
    (read : site.code.arena.node? id = some node) (stack : List Continuation) (world : World) :
    (State.eval id site stack world).step names = node.start site stack world := by
  simp only [State.eval, State.perform, State.step, Task.start, read]

theorem State.Reaches.abort {names : Interner} {outcome : Outcome} (aborts : outcome.aborts = true)
    {continuation : Continuation} (inner : continuation.leaves = false) (site : Site)
    (stack : List Continuation) (world : World) :
    State.Reaches names (.deliver outcome site (continuation :: stack) world)
      (.deliver outcome site stack world) := by
  refine .step ?_
  rw [State.step_abort names aborts, Continuation.discard_of_not_leaves inner]
  exact .refl _

/-- What the rules derive, the machine computes, whatever waits for the outcome. -/
theorem Evaluates.reaches {names : Interner} {site : Site} {task : Task} {world after : World}
    {outcome : Outcome} (evaluates : Evaluates names site task world outcome after)
    (stack : List Continuation) :
    State.Reaches names (.perform task site stack world) (.deliver outcome site stack after) := by
  induction evaluates generalizing stack with
  | missing read =>
    refine .step ?_
    simp only [State.perform, State.step, Task.start, read]
    exact .refl _
  | literal read same =>
    subst same
    refine .step (State.step_expr names read _ _ ▸ ?_)
    exact .refl _
  | ident read same =>
    subst same
    refine .step (State.step_expr names read _ _ ▸ ?_)
    exact .refl _
  | function read =>
    refine .step (State.step_expr names read _ _ ▸ ?_)
    exact .refl _
  | @firstAborts _ _ _ _ _ node _ read first _ aborts ih =>
    refine .step (State.step_expr names read _ _ ▸ ?_)
    cases node <;> simp only [Node.first?, Option.some.injEq, reduceCtorEq] at first <;> subst first <;>
      exact (ih _).trans (.abort aborts rfl _ _ _)
  | print read _ ih =>
    refine .step (State.step_expr names read _ _ ▸ ?_)
    exact (ih _).trans (.step (.refl _))
  | binary read _ _ applied left right | binaryFails read _ _ applied left right =>
    refine .step (State.step_expr names read _ _ ▸ ?_)
    refine (left _).trans (.step ((right _).trans (.step ?_)))
    simp only [State.step, State.deliver, Continuation.resume, applied]
    exact .refl _
  | rightAborts read _ _ aborts left right =>
    refine .step (State.step_expr names read _ _ ▸ ?_)
    exact (left _).trans (.step ((right _).trans (.abort aborts rfl _ _ _)))
  | branchTrue read _ _ condition branch | branchFalse read _ _ condition branch =>
    refine .step (State.step_expr names read _ _ ▸ ?_)
    exact (condition _).trans (.step (branch _))
  | branchNone read _ condition | loopDone read _ condition =>
    refine .step (State.step_expr names read _ _ ▸ ?_)
    exact (condition _).trans (.step (.refl _))
  | @branchOther _ _ _ _ _ _ _ value read _ other condition =>
    refine .step (State.step_expr names read _ _ ▸ (condition _).trans (.step ?_))
    cases value with
    | bool => cases other
    | _ => exact .refl _
  | @loopOther _ _ _ _ _ _ value read _ other condition =>
    refine .step (State.step_expr names read _ _ ▸ (condition _).trans (.step ?_))
    cases value with
    | bool => cases other
    | _ => exact .refl _
  | loopAgain read _ _ _ condition body again =>
    refine .step (State.step_expr names read _ _ ▸ ?_)
    refine (condition _).trans (.step ((body _).trans (.step ?_)))
    have next := again stack
    generalize begun : State.perform _ _ stack _ = state at next
    cases next with
    | refl => cases begun
    | step next =>
      subst begun
      change State.Reaches names ((State.eval _ _ stack _).step names) _ at next
      rw [State.step_expr names read] at next
      exact next
  | loopAborts read _ _ aborts condition body =>
    refine .step (State.step_expr names read _ _ ▸ ?_)
    exact (condition _).trans (.step ((body _).trans (.abort aborts rfl _ _ _)))
  | seq read _ _ same first second =>
    subst same
    refine .step (State.step_expr names read _ _ ▸ ?_)
    exact (first _).trans (.step ((second _).trans (.step (.refl _))))
  | secondAborts read _ _ aborts first second =>
    refine .step (State.step_expr names read _ _ ▸ ?_)
    exact (first _).trans (.step ((second _).trans (.abort aborts rfl _ _ _)))
  | declare read _ free init | redeclare read _ free init =>
    refine .step (State.step_expr names read _ _ ▸ (init _).trans (.step ?_))
    simp only [State.step, State.deliver, Continuation.resume, free]
    exact .refl _
  | assign read _ source =>
    refine .step (State.step_expr names read _ _ ▸ ?_)
    exact (source _).trans (.step (.refl _))
  | @notCallable _ _ _ _ _ _ value read _ other callee =>
    refine .step (State.step_expr names read _ _ ▸ (callee _).trans (.step ?_))
    cases value with
    | function => cases other
    | _ => exact .refl _
  | argsMissing read _ missing callee =>
    refine .step (State.step_expr names read _ _ ▸ (callee _).trans (.step ?_))
    simp only [State.step, State.deliver, Continuation.resume, missing]
    exact .refl _
  | call read _ found _ callee arguments =>
    refine .step (State.step_expr names read _ _ ▸ (callee _).trans (.step ?_))
    simp only [State.step, State.deliver, Continuation.resume, found]
    exact arguments _
  | argument _ _ first rest => exact .step ((first _).trans (.step (rest _)))
  | argumentAborts _ aborts first => exact .step ((first _).trans (.abort aborts rfl _ _ _))
  | argumentsDone _ call => exact .step (call _)
  | arity different =>
    refine .step ?_
    simp only [State.perform, State.step, Task.start, Closure.start, ne_eq, different, not_false_eq_true, ite_true]
    exact .refl _
  | paramsMissing same entered missing =>
    refine .step ?_
    simp only [State.perform, State.step, Task.start, Closure.start, ne_eq, same, not_true_eq_false, ite_false,
      entered, missing]
    exact .refl _
  | paramRepeated same entered found repeated =>
    refine .step ?_
    simp only [State.perform, State.step, Task.start, Closure.start, ne_eq, same, not_true_eq_false, ite_false,
      entered, found, repeated.declareAll]
    exact .refl _
  | body same entered found declared _ body =>
    refine .step ?_
    simp only [State.perform, State.step, Task.start, Closure.start, ne_eq, same, not_true_eq_false, ite_false,
      entered, found, declared.declareAll]
    refine (body _).trans (.step ?_)
    rw [State.step_leave]
    exact .refl _

/-- A run that ends, ends its first task on the way: the rules derive that task's outcome, and the run
    goes on from there with fewer steps left. -/
def State.Splits (names : Interner) (fuel : Nat) : Prop :=
  ∀ {task : Task} {site : Site} {stack : List Continuation} {world : World} {result : Outcome × World},
    State.run names fuel (.perform task site stack world) = some result →
    ∃ outcome after, ∃ left < fuel, Evaluates names site task world outcome after ∧
      State.run names left (.deliver outcome site stack after) = some result

theorem State.Splits.resume {names : Interner} {fuel : Nat} (splits : State.Splits names fuel) {task : Task}
    {site : Site} {continuation : Continuation} {stack : List Continuation} {world : World}
    {result : Outcome × World} (inner : continuation.leaves = false)
    (ended : State.run names fuel (.perform task site (continuation :: stack) world) = some result) :
    (∃ outcome after, ∃ left < fuel, outcome.aborts = true ∧ Evaluates names site task world outcome after ∧
      State.run names left (.deliver outcome site stack after) = some result) ∨
    ∃ value after, ∃ left < fuel, Evaluates names site task world (.value value) after ∧
      State.run names left (continuation.resume names value site stack after) = some result := by
  obtain ⟨outcome, after, left, fewer, evaluates, rest⟩ := splits ended
  cases left with
  | zero => cases rest
  | succ left =>
    have rest : State.run names left
        ((State.deliver outcome site (continuation :: stack) after).step names) = some result := rest
    by_cases aborts : outcome.aborts = true
    · rw [State.step_abort names aborts, Continuation.discard_of_not_leaves inner] at rest
      exact .inl ⟨outcome, after, left, by omega, aborts, evaluates, rest⟩
    · cases outcome with
      | value value => exact .inr ⟨value, after, left, by omega, evaluates, rest⟩
      | failure | outOfRange => exact absurd rfl aborts

theorem State.splits (names : Interner) (fuel : Nat) : State.Splits names fuel := by
  induction fuel using Nat.strongRecOn with
  | ind fuel ih =>
  intro task site stack world result ended
  cases fuel with
  | zero => cases ended
  | succ fuel =>
  have ended : State.run names fuel (task.start names site stack world) = some result := ended
  have here : State.Splits names fuel := ih fuel (by omega)
  cases task with
  | expr id =>
    cases read : site.code.arena.node? id with
    | none =>
      simp only [Task.start, read] at ended
      exact ⟨_, _, fuel, by omega, .missing read, ended⟩
    | some node =>
      simp only [Task.start, read] at ended
      cases node with
      | literal => exact ⟨_, _, fuel, by omega, .literal read rfl, ended⟩
      | ident => exact ⟨_, _, fuel, by omega, .ident read rfl, ended⟩
      | function => exact ⟨_, _, fuel, by omega, .function read, ended⟩
      | print =>
        rcases here.resume rfl ended with
          ⟨_, _, left, _, aborts, operand, rest⟩ | ⟨_, _, left, _, operand, rest⟩
        · exact ⟨_, _, left, by omega, .firstAborts read rfl operand aborts, rest⟩
        · exact ⟨_, _, left, by omega, .print read operand, rest⟩
      | binary op =>
        rcases here.resume rfl ended with ⟨_, _, left, _, aborts, first, rest⟩ | ⟨a, _, left, fewer, first, rest⟩
        · exact ⟨_, _, left, by omega, .firstAborts read rfl first aborts, rest⟩
        · rcases State.Splits.resume (ih left (by omega)) rfl rest with
            ⟨_, _, left', _, aborts, second, rest⟩ | ⟨b, _, left', _, second, rest⟩
          · exact ⟨_, _, left', by omega, .rightAborts read first second aborts, rest⟩
          · simp only [Continuation.resume] at rest
            cases applied : op.apply a b with
            | ok =>
              rw [applied] at rest
              exact ⟨_, _, left', by omega, .binary read first second applied, rest⟩
            | error =>
              rw [applied] at rest
              exact ⟨_, _, left', by omega, .binaryFails read first second applied, rest⟩
      | branch condition consequent alternative =>
        rcases here.resume rfl ended with
          ⟨_, _, left, _, aborts, tested, rest⟩ | ⟨value, _, left, _, tested, rest⟩
        · exact ⟨_, _, left, by omega, .firstAborts read rfl tested aborts, rest⟩
        · cases value with
          | bool value =>
            cases value with
            | true =>
              obtain ⟨_, _, left', _, taken, rest⟩ := ih left (by omega) rest
              exact ⟨_, _, left', by omega, .branchTrue read tested taken, rest⟩
            | false =>
              cases alternative with
              | none => exact ⟨_, _, left, by omega, .branchNone read tested, rest⟩
              | some =>
                obtain ⟨_, _, left', _, taken, rest⟩ := ih left (by omega) rest
                exact ⟨_, _, left', by omega, .branchFalse read tested taken, rest⟩
          | _ => exact ⟨_, _, left, by omega, .branchOther read tested rfl, rest⟩
      | loop condition body =>
        rcases here.resume rfl ended with
          ⟨_, _, left, _, aborts, tested, rest⟩ | ⟨value, _, left, _, tested, rest⟩
        · exact ⟨_, _, left, by omega, .firstAborts read rfl tested aborts, rest⟩
        · cases value with
          | bool value =>
            cases value with
            | false => exact ⟨_, _, left, by omega, .loopDone read tested, rest⟩
            | true =>
              rcases State.Splits.resume (ih left (by omega)) rfl rest with
                ⟨_, _, left', _, aborts, passed, rest⟩ | ⟨_, middle, left', _, passed, rest⟩
              · exact ⟨_, _, left', by omega, .loopAborts read tested passed aborts, rest⟩
              · have again : State.run names (left' + 1) (.eval id site stack middle) = some result := by
                  change State.run names left' ((State.eval id site stack middle).step names) = some result
                  rw [State.step_expr names read]
                  exact rest
                obtain ⟨_, _, left'', _, next, rest⟩ := ih (left' + 1) (by omega) again
                exact ⟨_, _, left'', by omega, .loopAgain read tested passed next, rest⟩
          | _ => exact ⟨_, _, left, by omega, .loopOther read tested rfl, rest⟩
      | seq =>
        rcases here.resume rfl ended with ⟨_, _, left, _, aborts, first, rest⟩ | ⟨_, _, left, _, first, rest⟩
        · exact ⟨_, _, left, by omega, .firstAborts read rfl first aborts, rest⟩
        · rcases State.Splits.resume (ih left (by omega)) rfl rest with
            ⟨_, _, left', _, aborts, second, rest⟩ | ⟨_, _, left', _, second, rest⟩
          · exact ⟨_, _, left', by omega, .secondAborts read first second aborts, rest⟩
          · exact ⟨_, _, left', by omega, .seq read first second rfl, rest⟩
      | declare name =>
        rcases here.resume rfl ended with ⟨_, _, left, _, aborts, init, rest⟩ | ⟨_, after, left, _, init, rest⟩
        · exact ⟨_, _, left, by omega, .firstAborts read rfl init aborts, rest⟩
        · cases bound : after.heap.binds site.frame name with
          | true =>
            simp only [Continuation.resume, bound] at rest
            exact ⟨_, _, left, by omega, .redeclare read init bound, rest⟩
          | false =>
            simp only [Continuation.resume, bound] at rest
            exact ⟨_, _, left, by omega, .declare read init bound, rest⟩
      | assign =>
        rcases here.resume rfl ended with ⟨_, _, left, _, aborts, source, rest⟩ | ⟨_, _, left, _, source, rest⟩
        · exact ⟨_, _, left, by omega, .firstAborts read rfl source aborts, rest⟩
        · exact ⟨_, _, left, by omega, .assign read source, rest⟩
      | call callee args =>
        rcases here.resume rfl ended with
          ⟨_, _, left, _, aborts, called, rest⟩ | ⟨value, _, left, _, called, rest⟩
        · exact ⟨_, _, left, by omega, .firstAborts read rfl called aborts, rest⟩
        · cases value with
          | function closure =>
            cases found : site.code.arena.args? args with
            | none =>
              simp only [Continuation.resume, found] at rest
              exact ⟨_, _, left, by omega, .argsMissing read called found, rest⟩
            | some =>
              simp only [Continuation.resume, found] at rest
              obtain ⟨_, _, left', _, arguments, rest⟩ := ih left (by omega) rest
              exact ⟨_, _, left', by omega, .call read called found arguments, rest⟩
          | _ => exact ⟨_, _, left, by omega, .notCallable read called rfl, rest⟩
  | arguments closure evaluated rest =>
    cases rest with
    | nil =>
      obtain ⟨_, _, left, _, call, rest⟩ := here ended
      exact ⟨_, _, left, by omega, .argumentsDone call, rest⟩
    | cons =>
      rcases here.resume rfl ended with ⟨_, _, left, _, aborts, first, rest⟩ | ⟨_, _, left, _, first, rest⟩
      · exact ⟨_, _, left, by omega, .argumentAborts first aborts, rest⟩
      · obtain ⟨_, _, left', _, others, rest⟩ := ih left (by omega) rest
        exact ⟨_, _, left', by omega, .argument first others, rest⟩
  | call closure args =>
    by_cases same : args.length = closure.arity
    · simp only [Task.start, Closure.start, ne_eq, same, not_true_eq_false, ite_false] at ended
      split at ended
      · rename_i missing
        exact ⟨_, _, fuel, by omega, .paramsMissing same rfl missing, ended⟩
      · rename_i found
        split at ended
        · rename_i repeated
          have repeated := World.declares_of_declareAll (Closure.params_paired same found) repeated
          exact ⟨_, _, fuel, by omega, .paramRepeated same rfl found repeated, ended⟩
        · rename_i declared
          have declared := World.declares_of_declareAll (Closure.params_paired same found) declared
          obtain ⟨outcome, after, left, _, body, rest⟩ := here ended
          cases left with
          | zero => cases rest
          | succ left =>
            have rest : State.run names left ((State.deliver outcome _ (.leave site :: stack) after).step names) =
              some result := rest
            rw [State.step_leave] at rest
            exact ⟨_, _, left, by omega, .body same rfl found declared body, rest⟩
    · simp only [Task.start, Closure.start, ne_eq, same, not_false_eq_true, ite_true] at ended
      exact ⟨_, _, fuel, by omega, .arity same, ended⟩

end ScopedEval
