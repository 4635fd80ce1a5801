import ScopedEval.Proofs.Steps

namespace ScopedEval

inductive Effect where
  | report (event : Event)
  | print (value : Value)
  | makeClosure (params : Span) (body : ExprId) (code : Code) (scope : FrameId)
  | makeFrame (outer : FrameId)
  | declare (frame : FrameId) (name : Name) (value : Value)
  | assign (frame : FrameId) (name : Name) (value : Value)

def Effect.declaring (frame : FrameId) (binding : Name × Value) : Effect := .declare frame binding.1 binding.2

namespace World

def perform (world : World) : Effect → World
  | .report event => world.emit event
  | .print value => world.print value
  | .makeClosure params body code scope => (world.newClosure params body code scope).2
  | .makeFrame outer => (world.newFrame (some outer)).2
  | .declare frame name value => world.declare frame name value
  | .assign frame name value => world.assign frame name value

def performAll (world : World) (effects : List Effect) : World := effects.foldl perform world

@[simp] theorem performAll_cons (world : World) (effect : Effect) (rest : List Effect) :
    world.performAll (effect :: rest) = (world.perform effect).performAll rest := rfl

theorem performAll_append (world : World) (early late : List Effect) :
    world.performAll (early ++ late) = (world.performAll early).performAll late := List.foldl_append

end World

def Effect.events (heap : Heap) : Effect → List Event
  | .report event => [event]
  | .declare _ name _ => [.declare name]
  | .assign frame name _ => if (heap.holder? frame name).isSome then [] else [.implicitGlobal name]
  | .print _ | .makeClosure _ _ _ _ | .makeFrame _ => []

namespace World

/-- What is reported of effects that are performed one after the other. -/
def events (world : World) : List Effect → List Event
  | [] => []
  | effect :: rest => effect.events world.heap ++ (world.perform effect).events rest

theorem trace_perform (world : World) (effect : Effect) :
    (world.perform effect).trace.toList = world.trace.toList ++ effect.events world.heap := by
  cases effect with
  | report event => exact Array.toList_push
  | declare frame name value => exact Array.toList_push
  | assign frame name value =>
    simp only [perform, Effect.events]
    rw [trace_assign]
    by_cases found : (world.heap.holder? frame name).isSome = true
    · rw [if_pos found, if_pos found, List.append_nil]
    · rw [if_neg found, if_neg found, Array.toList_push]
  | print | makeClosure | makeFrame => exact (List.append_nil _).symm

theorem trace_performAll (world : World) (effects : List Effect) :
    (world.performAll effects).trace.toList = world.trace.toList ++ world.events effects := by
  induction effects generalizing world with
  | nil => exact (List.append_nil _).symm
  | cons effect rest ih => rw [performAll_cons, ih, trace_perform, events, List.append_assoc]

theorem events_append (world : World) (early late : List Effect) :
    world.events (early ++ late) = world.events early ++ (world.performAll early).events late := by
  induction early generalizing world with
  | nil => rfl
  | cons effect rest ih => rw [List.cons_append, events, events, ih, performAll_cons, List.append_assoc]

theorem events_declaring (world : World) (frame : FrameId) (bindings : List (Name × Value)) :
    world.events (bindings.map (.declaring frame)) = bindings.map fun binding => .declare binding.1 := by
  induction bindings generalizing world with
  | nil => rfl
  | cons binding rest ih => exact congrArg (.declare binding.1 :: ·) (ih _)

theorem events_assign (world : World) (frame : FrameId) (name : Name) (value : Value) :
    (world.heap.holder? frame name).isSome = true ∧ world.events [.assign frame name value] = [] ∨
      world.heap.holder? frame name = none ∧ world.events [.assign frame name value] = [.implicitGlobal name] := by
  simp only [events, Effect.events]
  cases world.heap.holder? frame name with
  | none => exact .inr ⟨rfl, rfl⟩
  | some holder => exact .inl ⟨rfl, rfl⟩

theorem events_report (world : World) (events : List Event) : world.events (events.map .report) = events := by
  induction events generalizing world with
  | nil => rfl
  | cons event rest ih => exact congrArg (event :: ·) (ih _)

end World

/-- The bindings before the first whose name is bound when its turn comes. -/
def Heap.declarable (heap : Heap) (id : FrameId) : List (Name × Value) → List (Name × Value)
  | [] => []
  | (name, value) :: rest =>
    if heap.binds id name then [] else (name, value) :: (heap.bind id name value).declarable id rest

namespace Heap

theorem declarable_fresh {heap : Heap} {id : FrameId} (held : id.index < heap.frames.size)
    (bindings : List (Name × Value)) :
    ((heap.declarable id bindings).map Prod.fst).Nodup ∧
      ∀ name ∈ (heap.declarable id bindings).map Prod.fst, heap.binds id name = false := by
  induction bindings generalizing heap with
  | nil => simp [declarable]
  | cons binding rest ih =>
    obtain ⟨name, value⟩ := binding
    unfold declarable
    by_cases bound : heap.binds id name = true
    · simp [bound]
    · rw [if_neg bound, List.map_cons]
      have inside : id.index < (heap.bind id name value).frames.size := by
        rw [size_bind]
        exact held
      have later := ih inside
      have unbound : ∀ other ∈ ((heap.bind id name value).declarable id rest).map Prod.fst,
          other ≠ name ∧ heap.binds id other = false := by
        intro other member
        have free := later.2 other member
        rw [binds_bind, Bool.or_eq_false_iff, decide_eq_false_iff_not] at free
        exact ⟨fun same => free.1 ⟨rfl, same.symm, held⟩, free.2⟩
      constructor
      · exact List.nodup_cons.mpr ⟨fun member => (unbound name member).1 rfl, later.1⟩
      · intro other member
        rcases List.mem_cons.mp member with rfl | member
        · exact Bool.eq_false_iff.mpr bound
        · exact (unbound other member).2

end Heap

namespace World

theorem declareAll_eq (world : World) (id : FrameId) (bindings : List (Name × Value)) :
    (world.declareAll id bindings).2 =
      world.performAll ((world.heap.declarable id bindings).map (.declaring id)) := by
  induction bindings generalizing world with
  | nil => rfl
  | cons binding rest ih =>
    obtain ⟨name, value⟩ := binding
    unfold declareAll Heap.declarable
    by_cases bound : world.heap.binds id name = true
    · rw [if_pos bound, if_pos bound]
      rfl
    · rw [if_neg bound, if_neg bound]
      exact ih (world.declare id name value)

theorem declareAll_none {world : World} {id : FrameId} {bindings : List (Name × Value)}
    (all : (world.declareAll id bindings).1 = none) : world.heap.declarable id bindings = bindings := by
  induction bindings generalizing world with
  | nil => rfl
  | cons binding rest ih =>
    obtain ⟨name, value⟩ := binding
    unfold declareAll at all
    unfold Heap.declarable
    by_cases bound : world.heap.binds id name = true
    · rw [if_pos bound] at all
      cases all
    · rw [if_neg bound] at all ⊢
      exact congrArg ((name, value) :: ·) (ih all)

theorem declareAll_some {world : World} {id : FrameId} {bindings : List (Name × Value)} {name : Name}
    (stopped : (world.declareAll id bindings).1 = some name) :
    ∃ value late, bindings = world.heap.declarable id bindings ++ (name, value) :: late ∧
      (world.heap.binds id name = true ∨ name ∈ (world.heap.declarable id bindings).map Prod.fst) := by
  induction bindings generalizing world with
  | nil => cases stopped
  | cons binding rest ih =>
    obtain ⟨key, value⟩ := binding
    unfold declareAll at stopped
    unfold Heap.declarable
    by_cases bound : world.heap.binds id key = true
    · rw [if_pos bound] at stopped ⊢
      cases stopped
      exact ⟨value, rest, rfl, .inl bound⟩
    · rw [if_neg bound] at stopped ⊢
      obtain ⟨value', late, split, held⟩ := ih stopped
      have heap : (world.declare id key value).heap = world.heap.bind id key value := rfl
      rw [heap] at split held
      refine ⟨value', late, congrArg ((key, value) :: ·) split, ?_⟩
      rw [Heap.binds_bind, Bool.or_eq_true, decide_eq_true_eq] at held
      rw [List.map_cons, List.mem_cons]
      rcases held with (⟨_, same, _⟩ | held) | member
      · exact .inr (.inl same.symm)
      · exact .inl held
      · exact .inr (.inr member)

theorem performAll_declaring (world : World) (frame : FrameId) (bindings : List (Name × Value)) :
    (world.performAll (bindings.map (.declaring frame))).heap = world.heap.bindAll frame bindings ∧
      (world.performAll (bindings.map (.declaring frame))).sink = world.sink := by
  induction bindings generalizing world with
  | nil => exact ⟨rfl, rfl⟩
  | cons binding rest ih => exact ih (world.declare frame binding.1 binding.2)

theorem declareAll_fresh {world : World} {id : FrameId} (held : id.index < world.heap.frames.size)
    (free : ∀ name, world.heap.binds id name = false) (bindings : List (Name × Value)) :
    ((world.heap.declarable id bindings).map Prod.fst).Nodup ∧
      (world.heap.declarable id bindings = bindings ∧
        world.declareAll id bindings = (none, world.performAll (bindings.map (.declaring id))) ∨
      ∃ name value late, bindings = world.heap.declarable id bindings ++ (name, value) :: late ∧
        name ∈ (world.heap.declarable id bindings).map Prod.fst ∧
        world.declareAll id bindings =
          (some name, world.performAll ((world.heap.declarable id bindings).map (.declaring id)))) := by
  refine ⟨(Heap.declarable_fresh held bindings).1, ?_⟩
  have done := world.declareAll_eq id bindings
  cases result : world.declareAll id bindings with
  | mk stop bound =>
  rw [result] at done
  cases stop with
  | none =>
    have all := declareAll_none (congrArg Prod.fst result)
    rw [all] at done
    exact .inl ⟨all, congrArg (Prod.mk none) done⟩
  | some name =>
    obtain ⟨value, late, split, bound⟩ := declareAll_some (congrArg Prod.fst result)
    rw [free name] at bound
    exact .inr ⟨name, value, late, split, bound.resolve_left Bool.false_ne_true, congrArg (Prod.mk (some name)) done⟩

end World

def Outcome.exits : Outcome → List Event
  | .failure cause => [.callFailed cause, .exitCall]
  | .value _ | .outOfRange => [.exitCall]

def Closure.entering (closure : Closure) (frame : FrameId) (bindings : List (Name × Value)) : List Effect :=
  .report (.enterCall closure.arity) :: .makeFrame closure.scope :: bindings.map (.declaring frame)

theorem World.events_entering (world : World) (closure : Closure) (frame : FrameId)
    (bindings : List (Name × Value)) :
    world.events (closure.entering frame bindings) =
      .enterCall closure.arity :: bindings.map fun binding => .declare binding.1 :=
  congrArg (Event.enterCall closure.arity :: ·) (World.events_declaring _ frame bindings)

def Closure.effects (closure : Closure) (args : List Value) (heap : Heap) : List Effect :=
  if args.length ≠ closure.arity then [.report (.enterCall closure.arity), .report .exitCall]
  else
    match closure.paramNames? with
    | none => closure.entering ⟨heap.frames.size⟩ [] ++ [.report .exitCall]
    | some params =>
      let declared := (heap.newFrame (some closure.scope)).2.declarable ⟨heap.frames.size⟩ (params.zip args)
      closure.entering ⟨heap.frames.size⟩ declared ++
        if declared.length < (params.zip args).length then [.report .exitCall] else []

def Continuation.effects (continuation : Continuation) (value : Value) (site : Site) (heap : Heap) : List Effect :=
  match continuation with
  | .print => [.print value]
  | .declare name => if heap.binds site.frame name then [] else [.declare site.frame name value]
  | .assign name => [.assign site.frame name value]
  | .leave _ => (Outcome.value value).exits.map .report
  | _ => []

def State.effects : State → List Effect
  | ⟨.perform (.expr id), site, _, _⟩ =>
    match site.code.arena.node? id with
    | some (.function params body) => [.makeClosure params body site.code site.frame]
    | _ => []
  | ⟨.perform (.arguments _ _ _), _, _, _⟩ => []
  | ⟨.perform (.call callee args), _, _, world⟩ => callee.effects args world.heap
  | ⟨.deliver (.value value), site, continuation :: _, world⟩ => continuation.effects value site world.heap
  | ⟨.deliver outcome, _, .leave _ :: _, _⟩ => outcome.exits.map .report
  | ⟨.deliver _, _, _, _⟩ => []

def Outcome.isArityMismatch : Outcome → Bool
  | .failure (.arityMismatch _ _) => true
  | _ => false

theorem Operator.apply_isArityMismatch (op : Operator) (left right : Value) :
    (Outcome.ofExcept (op.apply left right)).isArityMismatch = false := by
  unfold Operator.apply
  split
  · rfl
  · unfold Operator.applyInt
    split <;> first | rfl | (split <;> rfl)
  · rfl

namespace Control

def aborts : Control → Bool
  | .perform _ => false
  | .deliver outcome => outcome.aborts

def isArityMismatch : Control → Bool
  | .perform _ => false
  | .deliver outcome => outcome.isArityMismatch

def isCall : Control → Bool
  | .perform (.call _ _) => true
  | .perform (.expr _) | .perform (.arguments _ _ _) | .deliver _ => false

end Control

def callers (stack : List Continuation) : List Site :=
  stack.filterMap fun
    | .leave caller => some caller
    | _ => none

def calls (stack : List Continuation) : Nat := (callers stack).length

/-- The ways a state can move on, with what is done on the way. -/
inductive State.Moves (names : Interner) : State → List Effect → State → Prop where
  | passes {control control' : Control} {site : Site} {stack stack' : List Continuation} {world : World} :
      callers stack' = callers stack → (control.aborts = true → control' = control) →
      control.isCall = false → (control'.isArityMismatch = true → control' = control) →
      Moves names ⟨control, site, stack, world⟩ [] ⟨control', site, stack', world⟩
  | makes {id body : ExprId} {params : Span} {site : Site} {stack : List Continuation} {world : World} :
      site.code.arena.node? id = some (.function params body) →
      Moves names (.eval id site stack world) [.makeClosure params body site.code site.frame]
        (.yield (.function (world.newClosure params body site.code site.frame).1) site stack
          (world.newClosure params body site.code site.frame).2)
  | prints {value : Value} {site : Site} {stack : List Continuation} {world : World} :
      Moves names (.yield value site (.print :: stack) world) [.print value]
        (.yield value site stack (world.print value))
  | declares {name : Name} {value : Value} {site : Site} {stack : List Continuation} {world : World} :
      world.heap.binds site.frame name = false →
      Moves names (.yield value site (.declare name :: stack) world) [.declare site.frame name value]
        (.yield value site stack (world.declare site.frame name value))
  | assigns {name : Name} {value : Value} {site : Site} {stack : List Continuation} {world : World} :
      Moves names (.yield value site (.assign name :: stack) world) [.assign site.frame name value]
        (.yield value site stack (world.assign site.frame name value))
  | refuses {callee : Closure} {args : List Value} {site : Site} {stack : List Continuation} {world : World} :
      args.length ≠ callee.arity →
      Moves names (.perform (.call callee args) site stack world)
        [.report (.enterCall callee.arity), .report .exitCall]
        (.fail (.arityMismatch callee.arity args.length) site stack
          (world.performAll [.report (.enterCall callee.arity), .report .exitCall]))
  | lacks {callee : Closure} {args : List Value} {site : Site} {stack : List Continuation} {world : World} :
      args.length = callee.arity → callee.paramNames? = none →
      Moves names (.perform (.call callee args) site stack world)
        (callee.entering ⟨world.heap.frames.size⟩ [] ++ [.report .exitCall])
        (.deliver .outOfRange site stack
          (world.performAll (callee.entering ⟨world.heap.frames.size⟩ [] ++ [.report .exitCall])))
  | repeats {callee : Closure} {args : List Value} {params : List Name} {early late : List (Name × Value)}
      {name : Name} {value : Value} {site : Site} {stack : List Continuation} {world : World} :
      args.length = callee.arity → callee.paramNames? = some params →
      params.zip args = early ++ (name, value) :: late → (early.map Prod.fst).Nodup → name ∈ early.map Prod.fst →
      Moves names (.perform (.call callee args) site stack world)
        (callee.entering ⟨world.heap.frames.size⟩ early ++ [.report .exitCall])
        (.fail (.redeclaration (names.lookup name)) site stack
          (world.performAll (callee.entering ⟨world.heap.frames.size⟩ early ++ [.report .exitCall])))
  | enters {callee : Closure} {args : List Value} {params : List Name} {site : Site} {stack : List Continuation}
      {world : World} :
      args.length = callee.arity → callee.paramNames? = some params → ((params.zip args).map Prod.fst).Nodup →
      Moves names (.perform (.call callee args) site stack world)
        (callee.entering ⟨world.heap.frames.size⟩ (params.zip args))
        (.eval callee.body ⟨callee.code, ⟨world.heap.frames.size⟩⟩ (.leave site :: stack)
          (world.performAll (callee.entering ⟨world.heap.frames.size⟩ (params.zip args))))
  | leaves {outcome : Outcome} {site caller : Site} {stack : List Continuation} {world : World} :
      Moves names (.deliver outcome site (.leave caller :: stack) world) (outcome.exits.map .report)
        (.deliver outcome caller stack (world.performAll (outcome.exits.map .report)))

theorem State.Moves.proceeds {names : Interner} {control control' : Control} {site : Site}
    {stack stack' : List Continuation} {world : World} (same : callers stack' = callers stack)
    (running : control.aborts = false) (other : control.isCall = false)
    (fine : control'.isArityMismatch = false) :
    Moves names ⟨control, site, stack, world⟩ [] ⟨control', site, stack', world⟩ :=
  .passes same (fun aborts => absurd aborts (Bool.eq_false_iff.mp running)) other
    fun refused => absurd refused (Bool.eq_false_iff.mp fine)

namespace Closure

variable {names : Interner} {closure : Closure} {args : List Value} {params : List Name} {site : Site}
  {stack : List Continuation} {world entered bound : World} {frame : FrameId}

theorem start_of_declared (arity : args.length = closure.arity)
    (made : (world.emit (.enterCall closure.arity)).newFrame (some closure.scope) = (frame, entered))
    (read : closure.paramNames? = some params) (declared : entered.declareAll frame (params.zip args) = (none, bound)) :
    closure.start names args site stack world =
      .eval closure.body ⟨closure.code, frame⟩ (.leave site :: stack) bound := by
  simp only [start, arity, ne_eq, not_true_eq_false, if_false, made, read, declared]

theorem start_of_repeated {name : Name} (arity : args.length = closure.arity)
    (made : (world.emit (.enterCall closure.arity)).newFrame (some closure.scope) = (frame, entered))
    (read : closure.paramNames? = some params)
    (stopped : entered.declareAll frame (params.zip args) = (some name, bound)) :
    closure.start names args site stack world =
      .fail (.redeclaration (names.lookup name)) site stack (bound.emit .exitCall) := by
  simp only [start, arity, ne_eq, not_true_eq_false, if_false, made, read, stopped]

theorem effects_eq (arity : args.length = closure.arity) (read : closure.paramNames? = some params) (heap : Heap) :
    closure.effects args heap = closure.entering ⟨heap.frames.size⟩
        ((heap.newFrame (some closure.scope)).2.declarable ⟨heap.frames.size⟩ (params.zip args)) ++
      if ((heap.newFrame (some closure.scope)).2.declarable ⟨heap.frames.size⟩ (params.zip args)).length <
        (params.zip args).length then [.report .exitCall] else [] := by
  simp only [effects, arity, ne_eq, not_true_eq_false, if_false, read]

theorem declareAll_entered (callee : Closure) (world : World) (bindings : List (Name × Value)) :
    let declared := (world.heap.newFrame (some callee.scope)).2.declarable ⟨world.heap.frames.size⟩ bindings
    let result := ((world.emit (.enterCall callee.arity)).newFrame (some callee.scope)).2.declareAll
      ⟨world.heap.frames.size⟩ bindings
    (declared.map Prod.fst).Nodup ∧
      (declared = bindings ∧
        result = (none, world.performAll (callee.entering ⟨world.heap.frames.size⟩ bindings)) ∨
      ∃ name value late, bindings = declared ++ (name, value) :: late ∧ name ∈ declared.map Prod.fst ∧
        result = (some name, world.performAll (callee.entering ⟨world.heap.frames.size⟩ declared))) := by
  let entered := ((world.emit (.enterCall callee.arity)).newFrame (some callee.scope)).2
  have held : world.heap.frames.size < entered.heap.frames.size := by
    show world.heap.frames.size < (world.heap.newFrame (some callee.scope)).2.frames.size
    rw [Heap.size_newFrame]
    exact Nat.lt_succ_self _
  have free : ∀ name, entered.heap.binds ⟨world.heap.frames.size⟩ name = false := by
    intro name
    show (world.heap.newFrame (some callee.scope)).2.binds ⟨world.heap.frames.size⟩ name = false
    rw [Heap.binds_newFrame, decide_eq_false (fun new => new rfl), Bool.false_and]
  exact @World.declareAll_fresh entered ⟨world.heap.frames.size⟩ held free bindings

theorem start_moves (names : Interner) (callee : Closure) (args : List Value) (site : Site)
    (stack : List Continuation) (world : World) :
    State.Moves names (.perform (.call callee args) site stack world) (callee.effects args world.heap)
      (callee.start names args site stack world) := by
  by_cases arity : args.length = callee.arity
  · cases read : callee.paramNames? with
    | none =>
      simp only [effects, start, arity, ne_eq, not_true_eq_false, if_false, read]
      exact .lacks arity read
    | some params =>
      have entry := callee.declareAll_entered world (params.zip args)
      rw [effects_eq arity read]
      generalize (world.heap.newFrame (some callee.scope)).2.declarable ⟨world.heap.frames.size⟩
        (params.zip args) = declared at entry
      obtain ⟨fresh, ⟨rfl, result⟩ | ⟨name, value, late, split, member, result⟩⟩ := entry
      · rw [start_of_declared arity rfl read result, if_neg (Nat.lt_irrefl _), List.append_nil]
        exact .enters arity read fresh
      · have shorter : declared.length < (params.zip args).length := by
          rw [split, List.length_append, List.length_cons]
          omega
        have same : (world.performAll (callee.entering ⟨world.heap.frames.size⟩ declared)).emit .exitCall =
            world.performAll (callee.entering ⟨world.heap.frames.size⟩ declared ++ [.report .exitCall]) := by
          rw [World.performAll_append]
          rfl
        rw [start_of_repeated arity rfl read result, if_pos shorter, same]
        exact .repeats arity read split fresh member
  · simp only [effects, start, arity, ne_eq, not_false_eq_true, if_true]
    exact .refuses arity

end Closure

namespace State

theorem moves (names : Interner) (state : State) : state.Moves names state.effects (state.step names) := by
  obtain ⟨control, site, stack, world⟩ := state
  cases control with
  | perform task =>
    cases task with
    | expr id =>
      simp only [effects, step, Task.start]
      cases read : site.code.arena.node? id with
      | none => exact .proceeds rfl rfl rfl rfl
      | some node =>
        cases node with
        | function params body => exact .makes read
        | _ => exact .proceeds rfl rfl rfl rfl
    | arguments callee evaluated rest =>
      cases rest with
      | nil => exact .proceeds rfl rfl rfl rfl
      | cons => exact .proceeds rfl rfl rfl rfl
    | call callee args => exact callee.start_moves names args site stack world
  | deliver outcome =>
    cases stack with
    | nil => cases outcome <;> exact .passes rfl (fun _ => rfl) rfl (fun _ => rfl)
    | cons continuation stack =>
      cases outcome with
      | value value =>
        simp only [effects, step]
        cases continuation with
        | print => exact .prints
        | branch consequent alternative =>
          simp only [Continuation.resume, Continuation.effects]
          split
          · exact .proceeds rfl rfl rfl rfl
          · cases alternative <;> exact .proceeds rfl rfl rfl rfl
          · exact .proceeds rfl rfl rfl rfl
        | loopTest condition body =>
          simp only [Continuation.resume, Continuation.effects]
          split <;> exact .proceeds rfl rfl rfl rfl
        | declare name =>
          simp only [Continuation.resume, Continuation.effects]
          split
          · exact .proceeds rfl rfl rfl rfl
          · rename_i free
            exact .declares (Bool.eq_false_iff.mpr free)
        | assign name => exact .assigns
        | callee args =>
          simp only [Continuation.resume, Continuation.effects]
          split
          · cases site.code.arena.args? args <;> exact .proceeds rfl rfl rfl rfl
          · exact .proceeds rfl rfl rfl rfl
        | leave caller => exact .leaves
        | apply op left => exact .proceeds rfl rfl rfl (op.apply_isArityMismatch left value)
        | _ => exact .proceeds rfl rfl rfl rfl
      | failure failure =>
        cases continuation with
        | leave caller => exact .leaves
        | _ => exact .passes rfl (fun _ => rfl) rfl (fun _ => rfl)
      | outOfRange =>
        cases continuation with
        | leave caller => exact .leaves
        | _ => exact .passes rfl (fun _ => rfl) rfl (fun _ => rfl)

theorem Moves.world {names : Interner} {state next : State} {effects : List Effect}
    (moves : state.Moves names effects next) : next.world = state.world.performAll effects := by
  cases moves <;> rfl

theorem step_world (names : Interner) (state : State) :
    (state.step names).world = state.world.performAll state.effects :=
  (state.moves names).world

abbrev Performs (names : Interner) : State → List Effect → State → Prop := Collects names effects

theorem Performs.world {names : Interner} {start state : State} {effects : List Effect}
    (performs : Performs names start effects state) : state.world = start.world.performAll effects := by
  induction performs with
  | refl => rfl
  | @step state _ _ _ ih => rw [ih, step_world, World.performAll_append]

end State

end ScopedEval
