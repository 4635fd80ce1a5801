import ScopedEval.Proofs.Adequacy
import ScopedEval.Proofs.Effects

namespace ScopedEval

def Event.isDebug : Event → Bool
  | .callFailed _ | .programFailed _ => true
  | .enterProgram | .exitProgram | .enterCall _ | .exitCall | .declare _ | .implicitGlobal _ => false

/-- How many calls are open after some events if so many were open before. Calls are closed in turn and only
    while one is open; a program neither begins nor ends inside. -/
def openCalls (depth : Nat) : List Event → Option Nat
  | [] => some depth
  | .enterCall _ :: rest => openCalls (depth + 1) rest
  | .exitCall :: rest =>
    match depth with
    | 0 => none
    | outer + 1 => openCalls outer rest
  | .enterProgram :: _ | .exitProgram :: _ => none
  | .declare _ :: rest | .implicitGlobal _ :: rest | .callFailed _ :: rest | .programFailed _ :: rest =>
    openCalls depth rest

theorem openCalls_append (depth : Nat) (early late : List Event) :
    openCalls depth (early ++ late) = (openCalls depth early).bind fun middle => openCalls middle late := by
  induction early generalizing depth with
  | nil => rfl
  | cons event rest ih =>
    cases event with
    | enterCall arity => exact ih (depth + 1)
    | exitCall =>
      cases depth with
      | zero => rfl
      | succ outer => exact ih outer
    | enterProgram | exitProgram => rfl
    | declare | implicitGlobal | callFailed | programFailed => exact ih depth

theorem openCalls_declared (depth : Nat) (bindings : List (Name × Value)) :
    openCalls depth (bindings.map fun binding => .declare binding.1) = some depth := by
  induction bindings with
  | nil => rfl
  | cons binding rest ih => exact ih

theorem openCalls_exits (depth : Nat) (outcome : Outcome) : openCalls (depth + 1) outcome.exits = some depth := by
  cases outcome <;> rfl

def Outcome.failures : Outcome → List Event
  | .failure cause => [.programFailed cause]
  | .value _ | .outOfRange => []

theorem World.trace_leaveProgram (world : World) (outcome : Outcome) :
    (world.leaveProgram outcome).trace.toList = world.trace.toList ++ (outcome.failures ++ [.exitProgram]) := by
  cases outcome <;> simp [leaveProgram, emit, Outcome.failures]

namespace State

structure GivesUp (names : Interner) (state : State) (outcome : Outcome) : Prop where
  running : state.control.aborts = false
  delivers : (state.step names).control = .deliver outcome
  aborts : outcome.aborts = true

inductive RefusesCall (names : Interner) (state : State) : Failure → Prop where
  | arity {callee : Closure} {args : List Value} : state.control = .perform (.call callee args) →
      args.length ≠ callee.arity → RefusesCall names state (.arityMismatch callee.arity args.length)
  | parameter {callee : Closure} {args : List Value} {early late : List Name} {name : Name} :
      state.control = .perform (.call callee args) → args.length = callee.arity →
      callee.paramNames? = some (early ++ name :: late) → early.Nodup → name ∈ early →
      RefusesCall names state (.redeclaration (names.lookup name))

namespace Moves

variable {names : Interner} {state next : State} {effects : List Effect}

theorem openCalls (moves : state.Moves names effects next) :
    openCalls (calls state.stack) (state.world.events effects) = some (calls next.stack) := by
  cases moves with
  | passes same => exact congrArg (some ∘ List.length) same.symm
  | makes | prints | declares => rfl
  | @assigns name value site stack world =>
    have reported : world.events _ = _ ∨ world.events _ = _ :=
      (world.events_assign site.frame name value).imp And.right And.right
    rcases reported with reported | reported
    · exact (congrArg (ScopedEval.openCalls (calls stack)) reported).trans rfl
    · exact (congrArg (ScopedEval.openCalls (calls stack)) reported).trans rfl
  | refuses => rfl
  | lacks => rfl
  | repeats =>
    rw [World.events_append, World.events_entering, openCalls_append]
    exact congrArg (Option.bind · _) (openCalls_declared _ _)
  | enters =>
    rw [World.events_entering]
    exact openCalls_declared _ _
  | @leaves outcome site caller stack world =>
    rw [World.events_report]
    exact openCalls_exits (calls stack) outcome

theorem unwinds (moves : state.Moves names effects next) {outcome : Outcome} (aborts : outcome.aborts = true)
    (gave : state.control = .deliver outcome) :
    next.control = .deliver outcome ∧
      (state.world.events effects = [] ∧ calls state.stack = calls next.stack ∨
        state.world.events effects = outcome.exits ∧ calls state.stack = calls next.stack + 1) := by
  cases moves with
  | passes same keeps =>
    cases gave
    exact ⟨keeps aborts, .inl ⟨rfl, congrArg List.length same.symm⟩⟩
  | leaves =>
    cases gave
    exact ⟨rfl, .inr ⟨World.events_report _ _, rfl⟩⟩
  | makes | refuses | lacks | repeats | enters => cases gave
  | prints | declares | assigns =>
    cases gave
    cases aborts

theorem quiet (moves : state.Moves names effects next) (running : state.control.aborts = false) {event : Event}
    (member : event ∈ state.world.events effects) : event.isDebug = false := by
  cases moves with
  | passes | makes | prints => cases member
  | declares | refuses =>
    simp only [World.events, Effect.events, List.append_nil, List.nil_append, List.cons_append, List.mem_cons,
      List.not_mem_nil, or_false] at member
    rcases member with rfl | rfl <;> rfl
  | @assigns name value site stack world =>
    have reported : event ∈ world.events _ := member
    rcases world.events_assign site.frame name value with ⟨_, nothing⟩ | ⟨_, created⟩
    · rw [nothing] at reported
      cases reported
    · rw [created] at reported
      rw [List.mem_singleton.mp reported]
      rfl
  | lacks | repeats =>
    rw [World.events_append, World.events_entering, List.mem_append, List.mem_cons, List.mem_map] at member
    rcases member with (rfl | ⟨_, _, rfl⟩) | member
    · rfl
    · rfl
    · rw [List.mem_singleton.mp member]
      rfl
  | enters =>
    rw [World.events_entering, List.mem_cons, List.mem_map] at member
    rcases member with rfl | ⟨_, _, rfl⟩ <;> rfl
  | @leaves outcome site caller stack world =>
    rw [World.events_report] at member
    cases outcome with
    | value value =>
      rw [List.mem_singleton.mp member]
      rfl
    | failure | outOfRange => cases running

theorem givesUp (moves : state.Moves names effects next) (running : state.control.aborts = false)
    {outcome : Outcome} (aborts : outcome.aborts = true) (gives : next.control = .deliver outcome) :
    calls next.stack = calls state.stack ∧ ∃ before closing, state.world.events effects = before ++ closing ∧
      ScopedEval.openCalls (calls state.stack) before = some (calls state.stack + closing.length) ∧
      (closing = [] ∧ state.control.isCall = false ∨ closing = [.exitCall] ∧ state.control.isCall = true ∧
        ∀ failure, outcome = .failure failure → state.RefusesCall names failure) := by
  cases moves with
  | passes same _ other => exact ⟨congrArg List.length same, [], [], rfl, rfl, .inl ⟨rfl, other⟩⟩
  | makes | prints | declares | assigns =>
    cases gives
    cases aborts
  | enters => cases gives
  | leaves =>
    cases gives
    exact absurd aborts (Bool.eq_false_iff.mp running)
  | refuses arity =>
    cases gives
    refine ⟨rfl, [.enterCall _], [.exitCall], rfl, rfl, .inr ⟨rfl, rfl, fun failure same => ?_⟩⟩
    cases same
    exact .arity rfl arity
  | lacks =>
    cases gives
    refine ⟨rfl, [.enterCall _], [.exitCall], rfl, rfl, .inr ⟨rfl, rfl, fun failure same => ?_⟩⟩
    cases same
  | @repeats callee args params early late name value site stack world arity read split fresh repeated =>
    cases gives
    refine ⟨rfl, .enterCall callee.arity :: early.map fun binding => .declare binding.1, [.exitCall], ?_,
      openCalls_declared _ _, .inr ⟨rfl, rfl, fun failure same => ?_⟩⟩
    · rw [World.events_append, World.events_entering]
      rfl
    · cases same
      have length : params.length = callee.arity := Arena.slice?_length read
      have listed := congrArg (List.map Prod.fst) split
      rw [List.map_fst_zip (by omega), List.map_append, List.map_cons] at listed
      rw [listed] at read
      exact .parameter rfl arity read fresh repeated

end Moves

namespace Performs

variable {names : Interner} {start state : State} {effects : List Effect}

theorem openCalls (performs : Performs names start effects state) :
    openCalls (calls start.stack) (start.world.events effects) = some (calls state.stack) := by
  induction performs with
  | refl => rfl
  | @step state final rest _ ih =>
    rw [World.events_append, openCalls_append, (state.moves names).openCalls, Option.bind_some, ← step_world names]
    exact ih

theorem unwinds (performs : Performs names start effects state) {outcome : Outcome} (aborts : outcome.aborts = true)
    (gave : start.control = .deliver outcome) :
    state.control = .deliver outcome ∧ ∃ count, calls start.stack = count + calls state.stack ∧
      start.world.events effects = (List.replicate count outcome.exits).flatten := by
  induction performs with
  | refl state => exact ⟨gave, 0, (Nat.zero_add _).symm, rfl⟩
  | @step state final rest _ ih =>
    obtain ⟨gave', reported⟩ := (state.moves names).unwinds aborts gave
    obtain ⟨gave'', count, left, later⟩ := ih gave'
    refine ⟨gave'', ?_⟩
    rw [World.events_append, ← step_world names, later]
    rcases reported with ⟨nothing, same⟩ | ⟨exits, left'⟩
    · exact ⟨count, same.trans left, by rw [nothing, List.nil_append]⟩
    · refine ⟨count + 1, by omega, ?_⟩
      rw [exits, List.replicate_succ, List.flatten_cons]

theorem running (performs : Performs names start effects state) (running : state.control.aborts = false) :
    start.control.aborts = false := by
  by_contra gave
  cases control : start.control with
  | perform task =>
    rw [control] at gave
    exact gave rfl
  | deliver outcome =>
    rw [control] at gave
    have aborts : outcome.aborts = true := Bool.not_eq_false _ ▸ gave
    rw [(performs.unwinds aborts control).1] at running
    exact absurd aborts (Bool.eq_false_iff.mp running)

theorem quiet (performs : Performs names start effects state) (running : state.control.aborts = false) {event : Event}
    (member : event ∈ start.world.events effects) : event.isDebug = false := by
  induction performs with
  | refl => cases member
  | @step state final rest later ih =>
    rw [World.events_append, List.mem_append, ← step_world names] at member
    rcases member with member | member
    · exact (state.moves names).quiet (Performs.running (.step later) running) member
    · exact ih running member

theorem splits (performs : Performs names start effects state) (running : start.control.aborts = false)
    (gave : state.control.aborts = true) :
    ∃ raised early late, Performs names start early raised ∧ raised.control.aborts = false ∧
      (raised.step names).control.aborts = true ∧ Performs names (raised.step names) late state ∧
      effects = early ++ (raised.effects ++ late) := by
  induction performs with
  | refl state => exact absurd gave (Bool.eq_false_iff.mp running)
  | @step state final rest later ih =>
    by_cases now : (state.step names).control.aborts = true
    · exact ⟨state, [], rest, .refl state, running, now, later, rfl⟩
    · obtain ⟨raised, early, late, first, running', now', last, same⟩ := ih (Bool.eq_false_iff.mpr now) gave
      refine ⟨raised, state.effects ++ early, late, .step first, running', now', last, ?_⟩
      rw [same, List.append_assoc]

end Performs

/-- An evaluation has given up in one of its steps. What was reported up to that moment leaves open the calls
    whose bodies were being evaluated and, if a call itself was what failed, that call too, which is closed by
    the same step. -/
structure GaveUp (names : Interner) (start : State) (outcome : Outcome) (raised : State)
    (before closing : List Event) : Prop where
  reached : Reaches names start raised
  givesUp : raised.GivesUp names outcome
  reported : (raised.step names).world.trace.toList = start.world.trace.toList ++ (before ++ closing)
  quiet : ∀ event ∈ before, event.isDebug = false
  depth : openCalls 0 before = some (calls raised.stack + closing.length)
  closes : closing = [] ∧ raised.control.isCall = false ∨ closing = [.exitCall] ∧ raised.control.isCall = true
  refuses : ∀ failure, outcome = .failure failure → (closing = [.exitCall] ↔ raised.RefusesCall names failure)

theorem RefusesCall.isCall {names : Interner} {state : State} {failure : Failure}
    (refuses : state.RefusesCall names failure) : state.control.isCall = true := by
  cases refuses with
  | arity performs | parameter performs =>
    rw [performs]
    rfl

theorem Performs.gaveUp {names : Interner} {start : State} {outcome : Outcome} {site : Site} {world : World}
    {effects : List Effect} (performs : Performs names start effects (.deliver outcome site [] world))
    (empty : start.stack = []) (running : start.control.aborts = false) (aborts : outcome.aborts = true) :
    ∃ raised before closing, GaveUp names start outcome raised before closing ∧
      start.world.events effects =
        before ++ closing ++ (List.replicate (calls raised.stack) outcome.exits).flatten := by
  -- The run is cut at the step that gives up: before it nothing tells of a failure, after it calls are only left.
  obtain ⟨raised, early, late, first, running', now, last, rfl⟩ := performs.splits running aborts
  cases control : (raised.step names).control with
  | perform task =>
    rw [control] at now
    cases now
  | deliver other =>
    rw [control] at now
    obtain ⟨same, count, left, unwound⟩ := last.unwinds now control
    cases same
    obtain ⟨level, before, closing, reported, depth, closed⟩ := (raised.moves names).givesUp running' now control
    have open' := first.openCalls
    have count_eq : calls raised.stack = count := level.symm.trans left
    rw [empty] at open'
    refine ⟨raised, start.world.events early ++ before, closing, ⟨first.reaches, ⟨running', control, now⟩, ?_, ?_, ?_,
      ?_, ?_⟩, ?_⟩
    · rw [step_world, World.trace_performAll, first.world, World.trace_performAll, ← first.world, reported]
      simp only [List.append_assoc]
    · intro event member
      rcases List.mem_append.mp member with member | member
      · exact first.quiet running' member
      · have reported' : event ∈ raised.world.events raised.effects := by
          rw [reported]
          exact List.mem_append_left _ member
        exact (raised.moves names).quiet running' reported'
    · rw [openCalls_append]
      exact (congrArg (Option.bind · _) open').trans depth
    · rcases closed with ⟨nothing, other⟩ | ⟨exits, call, _⟩
      · exact .inl ⟨nothing, other⟩
      · exact .inr ⟨exits, call⟩
    · intro failure same
      constructor
      · intro exits
        rcases closed with ⟨nothing, _⟩ | ⟨_, _, refuses⟩
        · rw [nothing] at exits
          cases exits
        · exact refuses failure same
      · intro refuses
        rcases closed with ⟨_, other⟩ | ⟨exits, _⟩
        · exact absurd refuses.isCall (Bool.eq_false_iff.mp other)
        · exact exits
    · rw [World.events_append, World.events_append, ← first.world, reported, ← step_world names, unwound, count_eq]
      simp only [List.append_assoc]

end State

/-- What the evaluation of a program reports: between the beginning and the end of the program, calls that are
    properly nested, and failures on their way out only. If the program yields a value, no failure is told of.
    If it fails, the call that itself is what fails ends, then each call whose body was being evaluated tells of
    the failure and ends, and last the program does. If it reads outside the code, the open calls end. -/
theorem program_reports_nest {names : Interner} {fuel : Nat} {site : Site} {root : ExprId} {world after : World}
    {outcome : Outcome} (ended : evaluateProgram names fuel site (some root) world = some (outcome, after)) :
    ∃ body, after.trace.toList = world.trace.toList ++ .enterProgram :: (body ++ [.exitProgram]) ∧
      openCalls 0 body = some 0 ∧
      (∀ value, outcome = .value value → ∀ event ∈ body, event.isDebug = false) ∧
      (∀ failure, outcome = .failure failure → ∃ raised before closing,
        State.GaveUp names (.eval root site [] (world.emit .enterProgram)) outcome raised before closing ∧
        body = before ++ closing ++ (List.replicate (calls raised.stack) [.callFailed failure, .exitCall]).flatten ++
          [.programFailed failure]) ∧
      (outcome = .outOfRange → ∃ raised before closing,
        State.GaveUp names (.eval root site [] (world.emit .enterProgram)) outcome raised before closing ∧
        body = before ++ closing ++ List.replicate (calls raised.stack) .exitCall) := by
  obtain ⟨⟨other, middle⟩, evaluated, same⟩ := Option.map_eq_some_iff.mp ended
  cases same
  have finishes : Finishes names site root (world.emit .enterProgram) outcome middle := ⟨fuel, evaluated⟩
  let start : State := .eval root site [] (world.emit .enterProgram)
  obtain ⟨effects, performs⟩ : ∃ effects,
      State.Performs names start effects (.deliver outcome site [] middle) :=
    State.Collects.of_reaches State.effects (finishes.evaluates.reaches [])
  have traced : middle.trace.toList = world.trace.toList ++ .enterProgram :: start.world.events effects := by
    have done : middle = start.world.performAll effects := performs.world
    rw [done, World.trace_performAll]
    show (world.trace.push .enterProgram).toList ++ _ = _
    rw [Array.toList_push, List.append_assoc]
    rfl
  have balanced : openCalls 0 (start.world.events effects) = some 0 := performs.openCalls
  refine ⟨start.world.events effects ++ outcome.failures, ?_, ?_, ?_, ?_, ?_⟩
  · rw [World.trace_leaveProgram, traced]
    simp only [List.append_assoc, List.cons_append]
  · rw [openCalls_append, balanced]
    cases outcome <;> rfl
  · intro value yields event member
    subst yields
    rw [Outcome.failures, List.append_nil] at member
    exact performs.quiet rfl member
  · intro failure fails
    subst fails
    obtain ⟨raised, before, closing, gaveUp, reported⟩ := performs.gaveUp rfl rfl rfl
    exact ⟨raised, before, closing, gaveUp, congrArg (· ++ [Event.programFailed failure]) reported⟩
  · intro stops
    subst stops
    obtain ⟨raised, before, closing, gaveUp, reported⟩ := performs.gaveUp rfl rfl rfl
    have exits : (List.replicate (calls raised.stack) Outcome.outOfRange.exits).flatten =
        List.replicate (calls raised.stack) .exitCall := by
      rw [Outcome.exits, List.flatten_replicate_singleton]
    rw [exits] at reported
    exact ⟨raised, before, closing, gaveUp, (List.append_nil _).trans reported⟩

/-- Calls a function whose body calls one of one parameter without an argument. -/
def miscalled : Arena where
  nodes := #[.ident ⟨1⟩, .function ⟨0, 1⟩ ⟨0⟩, .call ⟨1⟩ ⟨0, 0⟩, .function ⟨1, 0⟩ ⟨2⟩, .call ⟨3⟩ ⟨0, 0⟩]
  args := #[]
  params := #[⟨1⟩]

theorem program_reports_nest_miscalled :
    ∃ after body raised before closing,
      evaluateProgram .new 30 ⟨⟨0, miscalled⟩, ⟨0⟩⟩ (some ⟨4⟩) emptyWorld =
        some (.failure (.arityMismatch 1 0), after) ∧
      after.trace.toList = .enterProgram :: (body ++ [.exitProgram]) ∧
      body = [.enterCall 0, .enterCall 1, .exitCall, .callFailed (.arityMismatch 1 0), .exitCall,
        .programFailed (.arityMismatch 1 0)] ∧
      State.GaveUp .new (.eval ⟨4⟩ ⟨⟨0, miscalled⟩, ⟨0⟩⟩ [] (emptyWorld.emit .enterProgram))
        (.failure (.arityMismatch 1 0)) raised before closing ∧
      body = before ++ closing ++
        (List.replicate (calls raised.stack) [.callFailed (.arityMismatch 1 0), .exitCall]).flatten ++
        [.programFailed (.arityMismatch 1 0)] := by
  have ran : (evaluateProgram .new 30 ⟨⟨0, miscalled⟩, ⟨0⟩⟩ (some ⟨4⟩) emptyWorld).map
      (fun result => (result.1, result.2.trace.toList)) =
        some (.failure (.arityMismatch 1 0), [.enterProgram, .enterCall 0, .enterCall 1, .exitCall,
          .callFailed (.arityMismatch 1 0), .exitCall, .programFailed (.arityMismatch 1 0), .exitProgram]) := by
    decide +kernel
  obtain ⟨⟨outcome, after⟩, ended, shown⟩ := Option.map_eq_some_iff.mp ran
  obtain ⟨failed, shown⟩ := Prod.mk.inj shown
  cases failed
  obtain ⟨body, reported, _, _, fails, _⟩ := program_reports_nest ended
  obtain ⟨raised, before, closing, gaveUp, split⟩ := fails _ rfl
  have inner : body ++ [Event.exitProgram] = [.enterCall 0, .enterCall 1, .exitCall,
      .callFailed (.arityMismatch 1 0), .exitCall, .programFailed (.arityMismatch 1 0)] ++ [.exitProgram] :=
    (List.cons.inj (reported.symm.trans shown)).2
  exact ⟨after, body, raised, before, closing, ended, reported, List.append_cancel_right inner, gaveUp, split⟩

end ScopedEval
