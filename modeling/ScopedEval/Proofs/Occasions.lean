import Mathlib.Logic.Function.Iterate
import ScopedEval.Proofs.Adequacy

namespace ScopedEval

def Node.waiting? : Node → Option Continuation
  | .literal _ | .ident _ | .function .. => none
  | .print _ => some .print
  | .binary op _ right => some (.rightOperand op right)
  | .branch _ consequent alternative => some (.branch consequent alternative)
  | .loop condition body => some (.loopTest condition body)
  | .seq _ second => some (.second second)
  | .declare name _ => some (.declare name)
  | .assign name _ => some (.assign name)
  | .call _ args => some (.callee args)

theorem Node.start_of_first {node : Node} {child : ExprId} {continuation : Continuation}
    (first : node.first? = some child) (waits : node.waiting? = some continuation) (site : Site)
    (stack : List Continuation) (world : World) :
    node.start site stack world = .eval child site (continuation :: stack) world := by
  cases node <;> cases first <;> cases waits <;> rfl

theorem Node.start_stack (node : Node) (site : Site) (stack : List Continuation) (world : World) :
    (node.start site stack world).stack = stack ∨ ∃ child continuation, node.first? = some child ∧
      node.waiting? = some continuation ∧ (node.start site stack world).stack = continuation :: stack := by
  cases node with
  | literal | ident | function => exact .inl rfl
  | _ => exact .inr ⟨_, _, rfl, rfl, rfl⟩

/-- Whether a value is waited for to change the world with it, and for nothing else. -/
def Continuation.acts : Continuation → Bool
  | .print | .declare _ | .assign _ => true
  | .rightOperand .. | .apply .. | .branch .. | .loopTest .. | .loopBody .. | .second _ | .join _ | .callee _
  | .argument .. | .leave _ => false

namespace State

def ended : State → Bool
  | ⟨.deliver _, _, [], _⟩ => true
  | _ => false

def onto (state : State) (below : List Continuation) : State := { state with stack := state.stack ++ below }

theorem ended_iff {state : State} : state.ended = true ↔ ∃ outcome site world, state = .deliver outcome site [] world := by
  constructor
  · intro ended
    obtain ⟨control, site, stack, world⟩ := state
    cases control with
    | perform => cases ended
    | deliver outcome =>
      cases stack with
      | nil => exact ⟨outcome, site, world, rfl⟩
      | cons => cases ended
  · rintro ⟨outcome, site, world, rfl⟩
    rfl

theorem eq_deliver_of_onto {state : State} {below : List Continuation} {outcome : Outcome} {site : Site} {world : World}
    (same : state.onto below = .deliver outcome site below world) : state = .deliver outcome site [] world := by
  obtain ⟨control, site', stack, world'⟩ := state
  injection same with control_eq site_eq stack_eq world_eq
  cases List.append_left_eq_self.mp stack_eq
  cases control_eq
  cases site_eq
  cases world_eq
  rfl

theorem step_of_ended {state : State} (ended : state.ended = true) (names : Interner) : state.step names = state := by
  obtain ⟨outcome, site, world, rfl⟩ := ended_iff.mp ended
  cases outcome <;> rfl

theorem iterate_of_ended {state : State} (ended : state.ended = true) (names : Interner) (n : Nat) :
    (step names)^[n] state = state :=
  Function.iterate_fixed (step_of_ended ended names) n

end State

theorem Closure.start_onto (names : Interner) (closure : Closure) (args : List Value) (site : Site)
    (stack below : List Continuation) (world : World) :
    closure.start names args site (stack ++ below) world = (closure.start names args site stack world).onto below := by
  unfold Closure.start
  dsimp only
  split
  · rfl
  · cases closure.paramNames? with
    | none => rfl
    | some params =>
      dsimp only
      split <;> rfl

theorem Task.start_onto (names : Interner) (task : Task) (site : Site) (stack below : List Continuation) (world : World) :
    task.start names site (stack ++ below) world = (task.start names site stack world).onto below := by
  cases task with
  | expr id =>
    simp only [Task.start]
    cases site.code.arena.node? id with
    | none => rfl
    | some node => cases node <;> rfl
  | arguments callee evaluated rest => cases rest <;> rfl
  | call callee args => exact callee.start_onto names args site stack below world

theorem Continuation.resume_onto (names : Interner) (continuation : Continuation) (value : Value) (site : Site)
    (stack below : List Continuation) (world : World) :
    continuation.resume names value site (stack ++ below) world =
      (continuation.resume names value site stack world).onto below := by
  cases continuation with
  | branch consequent alternative =>
    simp only [resume]
    split
    · rfl
    · cases alternative <;> rfl
    · rfl
  | loopTest | declare =>
    simp only [resume]
    split <;> rfl
  | callee args =>
    simp only [resume]
    split
    · cases site.code.arena.args? args <;> rfl
    · rfl
  | _ => rfl

namespace State

theorem step_onto (names : Interner) {state : State} (running : state.ended = false) (below : List Continuation) :
    (state.onto below).step names = (state.step names).onto below := by
  obtain ⟨control, site, stack, world⟩ := state
  cases control with
  | perform task => exact task.start_onto names site stack below world
  | deliver outcome =>
    cases stack with
    | nil => cases running
    | cons continuation stack =>
      cases outcome with
      | value value => exact continuation.resume_onto names value site stack below world
      | failure | outOfRange => cases continuation <;> rfl

theorem iterate_onto {names : Interner} {state : State} {n : Nat}
    (running : ∀ m < n, ((step names)^[m] state).ended = false) (below : List Continuation) :
    (step names)^[n] (state.onto below) = ((step names)^[n] state).onto below := by
  induction n with
  | zero => rfl
  | succ n ih =>
    have before := ih fun m less => running m (Nat.lt_succ_of_lt less)
    rw [Function.iterate_succ_apply', Function.iterate_succ_apply', before,
      step_onto names (running n (Nat.lt_succ_self n))]

theorem reaches_iterate (names : Interner) (start : State) (n : Nat) : Reaches names start ((step names)^[n] start) := by
  induction n generalizing start with
  | zero => exact .refl start
  | succ n ih => exact .step (ih (start.step names))

theorem exists_iterate_of_reaches {names : Interner} {start state : State} (reaches : Reaches names start state) :
    ∃ n, (step names)^[n] start = state := by
  induction reaches with
  | refl => exact ⟨0, rfl⟩
  | step _ ih =>
    obtain ⟨n, there⟩ := ih
    exact ⟨n + 1, there⟩

theorem run_zero {names : Interner} {state : State} (running : state.ended = false) : run names 0 state = none := by
  rw [run]
  rintro outcome site world rfl
  cases running

theorem run_succ {names : Interner} {state : State} (running : state.ended = false) (fuel : Nat) :
    run names (fuel + 1) state = run names fuel (state.step names) := by
  rw [run]
  rintro outcome site world rfl
  cases running

theorem running_of_run {names : Interner} {state : State} {fuel : Nat} (unfinished : run names fuel state = none) :
    state.ended = false := by
  cases ended : state.ended with
  | false => rfl
  | true =>
    obtain ⟨outcome, site, world, rfl⟩ := ended_iff.mp ended
    cases unfinished.symm.trans (run_final names fuel outcome site world)

theorem iterate_running_of_run {names : Interner} {state : State} {fuel : Nat}
    (unfinished : run names fuel state = none) : ((step names)^[fuel] state).ended = false := by
  induction fuel generalizing state with
  | zero => exact running_of_run unfinished
  | succ fuel ih =>
    rw [run_succ (running_of_run unfinished)] at unfinished
    exact ih unfinished

theorem run_of_running {names : Interner} {state : State} {n : Nat}
    (running : ∀ m < n, ((step names)^[m] state).ended = false) :
    run names n state = run names 0 ((step names)^[n] state) := by
  induction n generalizing state with
  | zero => rfl
  | succ n ih =>
    have now : state.ended = false := running 0 (Nat.succ_pos n)
    have later := ih fun m less => running (m + 1) (Nat.succ_lt_succ less)
    exact (run_succ now n).trans later

theorem ended_of_run {names : Interner} {state : State} {outcome : Outcome} {world : World}
    (ended : run names 0 state = some (outcome, world)) : ∃ site, state = .deliver outcome site [] world := by
  cases now : state.ended with
  | false => cases ended.symm.trans (run_zero now)
  | true =>
    obtain ⟨outcome', site, world', rfl⟩ := ended_iff.mp now
    cases ended
    exact ⟨site, rfl⟩

theorem iterate_eq_of_ended {names : Interner} {state : State} {m n : Nat}
    (early : ((step names)^[m] state).ended = true) (le : m ≤ n) :
    (step names)^[n] state = (step names)^[m] state := by
  obtain ⟨d, rfl⟩ := Nat.exists_eq_add_of_le' le
  rw [Function.iterate_add_apply, iterate_of_ended early]

end State

theorem finishes_iff_iterate {names : Interner} {site : Site} {id : ExprId} {world after : World} {outcome : Outcome} :
    Finishes names site id world outcome after ↔
      ∃ steps, (State.step names)^[steps] (.eval id site [] world) = .deliver outcome site [] after := by
  constructor
  · intro finishes
    exact State.exists_iterate_of_reaches (finishes.evaluates.reaches [])
  · rintro ⟨steps, there⟩
    have reaches := State.reaches_iterate names (.eval id site [] world) steps
    rw [there] at reaches
    exact reaches.run_eq (State.run_final names 0 outcome site after)

def Takes (names : Interner) (site : Site) (id : ExprId) (world : World) (steps : Nat) (outcome : Outcome)
    (after : World) : Prop :=
  evaluate names steps site id world = some (outcome, after) ∧
    ∀ fewer < steps, evaluate names fewer site id world = none

namespace Takes

variable {names : Interner} {site : Site} {id : ExprId} {world after : World} {steps : Nat} {outcome : Outcome}

theorem running (takes : Takes names site id world steps outcome after) :
    ∀ fewer < steps, ((State.step names)^[fewer] (.eval id site [] world)).ended = false :=
  fun fewer less => State.iterate_running_of_run (takes.2 fewer less)

theorem iterate (takes : Takes names site id world steps outcome after) :
    (State.step names)^[steps] (.eval id site [] world) = .deliver outcome site [] after := by
  have last := takes.1
  rw [evaluate, State.run_of_running takes.running] at last
  obtain ⟨site', there⟩ := State.ended_of_run last
  obtain ⟨n, back⟩ := finishes_iff_iterate.mp ⟨steps, takes.1⟩
  have ended : ((State.step names)^[steps] (.eval id site [] world)).ended = true := State.ended_iff.mpr ⟨_, _, _, there⟩
  have ended' : ((State.step names)^[n] (.eval id site [] world)).ended = true := State.ended_iff.mpr ⟨_, _, _, back⟩
  rcases Nat.le_total steps n with le | le
  · exact (State.iterate_eq_of_ended ended le).symm.trans back
  · exact (State.iterate_eq_of_ended ended' le).trans back

theorem of_iterate {site' : Site}
    (there : (State.step names)^[steps] (.eval id site [] world) = .deliver outcome site' [] after)
    (running : ∀ fewer < steps, ((State.step names)^[fewer] (.eval id site [] world)).ended = false) :
    Takes names site id world steps outcome after := by
  constructor
  · rw [evaluate, State.run_of_running running, there]
    rfl
  · intro fewer less
    rw [evaluate, State.run_of_running fun m lower => running m (Nat.lt_trans lower less)]
    exact State.run_zero (running fewer less)

end Takes

/-- An expression is begun with in the course of a run, and what stands first in it has been evaluated, by itself, to a
    value: this is the time when that is done, and the world it leaves behind. -/
def State.Obtains (names : Interner) (start : State) (time : Nat) (site : Site) (node : Node) (value : Value)
    (world : World) : Prop :=
  ∃ begun steps id first stack before,
    (State.step names)^[begun] start = .eval id site stack before ∧ site.code.arena.node? id = some node ∧
    node.first? = some first ∧ Takes names site first before steps (.value value) world ∧ time = begun + 1 + steps

namespace State

theorem step_expr_of_first {names : Interner} {site : Site} {id child : ExprId} {node : Node}
    {continuation : Continuation} (found : site.code.arena.node? id = some node) (first : node.first? = some child)
    (waits : node.waiting? = some continuation) (stack : List Continuation) (world : World) :
    (State.eval id site stack world).step names = .eval child site (continuation :: stack) world := by
  rw [step_expr names found]
  exact node.start_of_first first waits site stack world

theorem Obtains.yields {names : Interner} {start : State} {time : Nat} {site : Site} {node : Node} {value : Value}
    {world : World} {continuation : Continuation} (obtains : start.Obtains names time site node value world)
    (waits : node.waiting? = some continuation) :
    ∃ stack, (step names)^[time] start = .yield value site (continuation :: stack) world := by
  obtain ⟨begun, steps, id, first, stack, before, there, found, first?, takes, rfl⟩ := obtains
  refine ⟨stack, ?_⟩
  rw [Nat.add_comm, Function.iterate_add_apply, Function.iterate_succ_apply', there,
    step_expr_of_first found first? waits]
  have whole := iterate_onto takes.running (continuation :: stack)
  rw [takes.iterate] at whole
  exact whole

end State

section Opening

variable {continuation : Continuation} {rest : List Continuation}

theorem Continuation.acts.suffix_of_cons {idle : Continuation} {stack : List Continuation}
    (acts : continuation.acts = true) (idles : idle.acts = false) (waits : (continuation :: rest) <:+ (idle :: stack)) :
    (continuation :: rest) <:+ stack := by
  rcases List.suffix_cons_iff.mp waits with same | deeper
  · cases same
    cases acts.symm.trans idles
  · exact deeper

theorem Closure.start_opens_none (acts : continuation.acts = true) {names : Interner} {closure : Closure}
    {args : List Value} {site : Site} {stack : List Continuation} {world : World}
    (waits : (continuation :: rest) <:+ (closure.start names args site stack world).stack) :
    (continuation :: rest) <:+ stack := by
  unfold Closure.start at waits
  dsimp only at waits
  split at waits
  · exact waits
  · cases listed : closure.paramNames? with
    | none =>
      rw [listed] at waits
      exact waits
    | some params =>
      rw [listed] at waits
      dsimp only at waits
      split at waits
      · exact waits
      · exact Continuation.acts.suffix_of_cons acts rfl waits

theorem Continuation.resume_opens_none (acts : continuation.acts = true) {names : Interner} {resumed : Continuation}
    {value : Value} {site : Site} {stack : List Continuation} {world : World}
    (waits : (continuation :: rest) <:+ (resumed.resume names value site stack world).stack) :
    (continuation :: rest) <:+ stack := by
  cases resumed with
  | print | apply | join | assign | argument | leave => exact waits
  | rightOperand | loopBody | second => exact Continuation.acts.suffix_of_cons acts rfl waits
  | branch consequent alternative =>
    simp only [resume] at waits
    split at waits
    · exact waits
    · cases alternative <;> exact waits
    · exact waits
  | loopTest =>
    simp only [resume] at waits
    split at waits
    · exact Continuation.acts.suffix_of_cons acts rfl waits
    · exact waits
    · exact waits
  | declare =>
    simp only [resume] at waits
    split at waits <;> exact waits
  | callee args =>
    simp only [resume] at waits
    split at waits
    · cases listed : site.code.arena.args? args with
      | none =>
        rw [listed] at waits
        exact waits
      | some ids =>
        rw [listed] at waits
        exact waits
    · exact waits

namespace State

theorem opened_by_step (acts : continuation.acts = true) {names : Interner} {state : State}
    (waits : (continuation :: rest) <:+ (state.step names).stack) :
    (continuation :: rest) <:+ state.stack ∨ ∃ id node child, state = .eval id state.site rest state.world ∧
      state.site.code.arena.node? id = some node ∧ node.first? = some child ∧ node.waiting? = some continuation := by
  obtain ⟨control, site, stack, world⟩ := state
  cases control with
  | perform task =>
    cases task with
    | expr id =>
      cases found : site.code.arena.node? id with
      | none =>
        left
        simp only [step, Task.start, found] at waits
        exact waits
      | some node =>
        simp only [step, Task.start, found] at waits
        rcases node.start_stack site stack world with same | ⟨child, pushed, first, waiting, same⟩
        · left
          rw [same] at waits
          exact waits
        · rw [same] at waits
          rcases List.suffix_cons_iff.mp waits with new | old
          · cases new
            exact .inr ⟨id, node, child, rfl, found, first, waiting⟩
          · exact .inl old
    | arguments callee evaluated ids =>
      left
      cases ids with
      | nil => exact waits
      | cons id ids => exact Continuation.acts.suffix_of_cons acts rfl waits
    | call callee args =>
      left
      exact Closure.start_opens_none acts waits
  | deliver outcome =>
    left
    cases stack with
    | nil => cases outcome <;> exact waits
    | cons below stack =>
      refine List.IsSuffix.trans ?_ (List.suffix_cons below stack)
      cases outcome with
      | value value => exact Continuation.resume_opens_none acts waits
      | failure | outOfRange => cases below <;> exact waits

theorem step_pops (acts : continuation.acts = true) (names : Interner) (outcome : Outcome) (site : Site) (world : World) :
    ((deliver outcome site (continuation :: rest) world).step names).stack = rest := by
  cases outcome with
  | value value =>
    cases continuation with
    | print | assign => rfl
    | declare name =>
      simp only [deliver, step, Continuation.resume]
      split <;> rfl
    | _ => cases acts
  | failure | outOfRange => cases continuation <;> rfl

/-- Whatever waits to change the world waits for the subexpression of an expression that was begun with,
    and that subexpression is being evaluated since, as if it stood alone. -/
theorem pending (acts : continuation.acts = true) {names : Interner} {start : State} (fresh : start.stack = [])
    {time : Nat} (waits : (continuation :: rest) <:+ ((step names)^[time] start).stack) :
    ∃ begun steps id first site node before, time = begun + 1 + steps ∧
      (step names)^[begun] start = .eval id site rest before ∧ site.code.arena.node? id = some node ∧
      node.first? = some first ∧ node.waiting? = some continuation ∧
      (step names)^[time] start = ((step names)^[steps] (.eval first site [] before)).onto (continuation :: rest) ∧
      ∀ fewer < steps, ((step names)^[fewer] (.eval first site [] before)).ended = false := by
  induction time with
  | zero =>
    rw [Function.iterate_zero_apply, fresh, List.suffix_nil] at waits
    cases waits
  | succ time ih =>
    rw [Function.iterate_succ_apply'] at waits ⊢
    -- what waited before is waited for still, or else this step begins with the expression it belongs to
    rcases opened_by_step acts waits with old | ⟨id, node, first, now, found, first?, waiting⟩
    · obtain ⟨begun, steps, id, first, site, node, before, rfl, there, found, first?, waiting, own, running⟩ := ih old
      have more : ((step names)^[steps] (.eval first site [] before)).ended = false := by
        -- the end of the subexpression takes the continuation off the stack, where it still is
        by_contra ended
        obtain ⟨outcome, site', world, last⟩ := ended_iff.mp (Bool.not_eq_false _ ▸ ended)
        rw [own, last] at waits
        have waits : (continuation :: rest) <:+
            ((deliver outcome site' (continuation :: rest) world).step names).stack := waits
        rw [step_pops acts] at waits
        exact absurd waits.length_le (Nat.not_succ_le_self _)
      refine ⟨begun, steps + 1, id, first, site, node, before, rfl, there, found, first?, waiting, ?_, ?_⟩
      · rw [own, step_onto names more, Function.iterate_succ_apply']
      · intro fewer less
        rcases Nat.lt_succ_iff_lt_or_eq.mp less with less | rfl
        · exact running fewer less
        · exact more
    · refine ⟨time, 0, id, first, _, node, _, rfl, now, found, first?, waiting, ?_, ?_⟩
      · rw [now, step_expr_of_first found first? waiting]
        rfl
      · intro fewer less
        cases less

theorem obtains_of_yields (acts : continuation.acts = true) {names : Interner} {start : State} (fresh : start.stack = [])
    {time : Nat} {value : Value} {site : Site} {world : World}
    (yields : (step names)^[time] start = .yield value site (continuation :: rest) world) :
    ∃ node, node.waiting? = some continuation ∧ start.Obtains names time site node value world := by
  have waits : (continuation :: rest) <:+ ((step names)^[time] start).stack := by
    rw [yields]
    exact List.suffix_refl _
  obtain ⟨begun, steps, id, first, site', node, before, when, there, found, first?, waiting, own, running⟩ :=
    pending acts fresh waits
  have last : (step names)^[steps] (.eval first site' [] before) = .yield value site [] world :=
    eq_deliver_of_onto (own.symm.trans yields)
  have takes : Takes names site' first before steps (.value value) world := .of_iterate last running
  cases last.symm.trans takes.iterate
  exact ⟨node, waiting, begun, steps, id, first, rest, before, there, found, first?, takes, when⟩

end State

end Opening

end ScopedEval
