import ScopedEval.Proofs.Calls
import ScopedEval.Proofs.Clients
import ScopedEval.Proofs.Effects

namespace ScopedEval

namespace Site

variable (home : Site) (old : Heap)

/-- Code that an evaluation can come to: that at hand, and that of each closure some frame binds. -/
def Source (code : Code) : Prop :=
  code = home.code ∨ ∃ closure, old.Holds (.function closure) ∧ closure.code = code

def Occurs (node : Node) : Prop := ∃ code id, home.Source old code ∧ code.arena.node? id = some node

inductive Lists : List Name → Prop where
  | closure {closure : Closure} {params : List Name} : old.Holds (.function closure) →
      closure.paramNames? = some params → Lists params
  | function {code : Code} {id body : ExprId} {span : Span} {params : List Name} : home.Source old code →
      code.arena.node? id = some (.function span body) → code.arena.params? span = some params → Lists params

end Site

/-- A failure and its message tell of something that can have happened: what is said of types, numbers and
    names holds, and an expression that fails in this way stands in the code. -/
inductive Failure.Genuine (names : Interner) (home : Site) (old new : Heap) : Failure → String → Prop where
  | divisionByZero {left right : ExprId} : home.Occurs old (.binary .div left right) →
      Genuine names home old new .divisionByZero "division by zero"
  | moduloByZero {left right : ExprId} : home.Occurs old (.binary .mod left right) →
      Genuine names home old new .moduloByZero "modulo by zero"
  | typeMismatch {op : Operator} {left right : ExprId} {first second : String} :
      home.Occurs old (.binary op left right) → op ≠ .eq →
      first ∈ ["int", "bool", "null", "function"] → second ∈ ["int", "bool", "null", "function"] →
      ¬ (first = "int" ∧ second = "int") →
      Genuine names home old new (.typeMismatch op first second)
        ("operator `" ++ op.symbol ++ "` cannot be applied to `" ++ first ++ "` and `" ++ second ++ "`")
  | branchCondition {condition consequent : ExprId} {alternative : Option ExprId} {got : String} :
      home.Occurs old (.branch condition consequent alternative) → got ∈ ["int", "null", "function"] →
      Genuine names home old new (.nonBooleanCondition "if" got) ("if condition must be bool, got " ++ got)
  | loopCondition {condition body : ExprId} {got : String} :
      home.Occurs old (.loop condition body) → got ∈ ["int", "null", "function"] →
      Genuine names home old new (.nonBooleanCondition "while" got) ("while condition must be bool, got " ++ got)
  | redeclared {name : Name} {init : ExprId} {frame : FrameId} :
      home.Occurs old (.declare name init) → new.binds frame name = true →
      Genuine names home old new (.redeclaration (names.lookup name))
        ("variable `" ++ names.lookup name ++ "` is already declared in this scope")
  | repeatedParameter {name : Name} {early late : List Name} {callee : ExprId} {args : Span} {frame : FrameId} :
      home.Occurs old (.call callee args) → home.Lists old (early ++ name :: late) → name ∈ early →
      new.binds frame name = true →
      Genuine names home old new (.redeclaration (names.lookup name))
        ("variable `" ++ names.lookup name ++ "` is already declared in this scope")
  | notCallable {callee : ExprId} {args : Span} {got : String} :
      home.Occurs old (.call callee args) → got ∈ ["int", "bool", "null"] →
      Genuine names home old new (.notCallable got) (got ++ " is not callable")
  | arityMismatch {callee : ExprId} {args : Span} {expected got : Nat} :
      home.Occurs old (.call callee args) → expected ≠ got →
      Genuine names home old new (.arityMismatch expected got)
        ("expected " ++ toString expected ++ (if expected = 1 then " argument" else " arguments") ++
          ", got " ++ toString got)

theorem Value.typeName_mem (value : Value) : value.typeName ∈ ["int", "bool", "null", "function"] := by
  cases value <;> simp [typeName]

theorem Value.exists_int_of_typeName {value : Value} (named : value.typeName = "int") :
    ∃ number, value = .int number := by
  cases value with
  | int number => exact ⟨number, rfl⟩
  | bool | null | function => simp [typeName] at named

theorem Value.typeName_of_not_bool {value : Value} (other : value.toBool? = none) :
    value.typeName ∈ ["int", "null", "function"] := by
  cases value with
  | bool => cases other
  | int | null | function => simp [typeName]

theorem Value.typeName_of_not_function {value : Value} (other : value.toFunction? = none) :
    value.typeName ∈ ["int", "bool", "null"] := by
  cases value with
  | function => cases other
  | int | bool | null => simp [typeName]

theorem Operator.apply_error {op : Operator} {left right : Value} {failure : Failure}
    (failed : op.apply left right = .error failure) :
    op = .div ∧ failure = .divisionByZero ∨ op = .mod ∧ failure = .moduloByZero ∨
      op ≠ .eq ∧ ¬ (left.typeName = "int" ∧ right.typeName = "int") ∧
        failure = .typeMismatch op left.typeName right.typeName := by
  unfold apply at failed
  split at failed
  · cases failed
  · rename_i a b _
    unfold applyInt at failed
    split at failed
    case h_4 | h_5 =>
      split at failed
      · cases failed
        simp
      · cases failed
    all_goals cases failed
  · rename_i other mixed
    refine .inr (.inr ⟨?_, ?_, (Except.error.inj failed).symm⟩)
    · rintro rfl
      exact other rfl
    · rintro ⟨first, second⟩
      obtain ⟨a, rfl⟩ := Value.exists_int_of_typeName first
      obtain ⟨b, rfl⟩ := Value.exists_int_of_typeName second
      exact mixed a b rfl rfl

theorem World.binds_of_declareAll {world bound : World} {id : FrameId} {bindings : List (Name × Value)} {name : Name}
    (stopped : world.declareAll id bindings = (some name, bound)) : bound.heap.binds id name = true := by
  induction bindings generalizing world with
  | nil => cases stopped
  | cons binding rest ih =>
    obtain ⟨key, value⟩ := binding
    unfold declareAll at stopped
    split at stopped
    · rename_i held
      cases stopped
      exact held
    · exact ih stopped

def sourced (home : Site) (old : Heap) : Discipline where
  closure closure := home.Source old closure.code ∧
    ∀ params, closure.paramNames? = some params → home.Lists old params
  expr _ _ := True
  declares _ _ := True
  assigns _ _ := True
  site site := home.Source old site.code
  child _ _ := trivial
  declared _ _ := trivial
  assigned _ _ := trivial

/-- The site of a task, the functions it handles and those in the heap come from such code; and a task that is part
    of a call has a call there. -/
structure Site.Knows (home : Site) (old : Heap) (site : Site) (task : Task) (heap : Heap) : Prop where
  here : home.Source old site.code
  handles : (sourced home old).task site task
  closed : heap.Closed (fun _ => True) (sourced home old).closure
  asked : (∃ id, task = .expr id) ∨ ∃ callee args, home.Occurs old (.call callee args)

theorem State.step_sourced {names : Interner} {home : Site} {old : Heap} {state : State}
    (allowed : (sourced home old).Allows state)
    (closed : state.world.heap.Closed (fun _ => True) (sourced home old).closure) :
    (sourced home old).Allows (state.step names) ∧
      (state.step names).world.heap.Closed (fun _ => True) (sourced home old).closure := by
  constructor
  · refine allowed.step (closed.resolve trivial) ?_ ?_
    · intro id params body _ read
      exact ⟨allowed.site, fun listed found => .function allowed.site read found⟩
    · intro callee args params performs _ _ _
      exact ⟨(allowed.called performs).1.1, trivial⟩
  · exact allowed.closed (state.step_changes names) closed fun _ _ => trivial

namespace Site.Knows

variable {names : Interner} {home : Site} {old : Heap} {site : Site} {task : Task} {world after : World}
  {outcome : Outcome}

theorem kept (knows : home.Knows old site task world.heap)
    (evaluates : Evaluates names site task world outcome after) :
    after.heap.Closed (fun _ => True) (sourced home old).closure ∧
      ∀ value, outcome = .value value → (sourced home old).value value := by
  have kept := (evaluates.reaches []).invariant
    (fun state (held : (sourced home old).Allows state ∧
      state.world.heap.Closed (fun _ => True) (sourced home old).closure) => State.step_sourced held.1 held.2)
    ⟨⟨knows.here, knows.handles, trivial⟩, knows.closed⟩
  exact ⟨kept.2, kept.1.control⟩

theorem expr (knows : home.Knows old site task world.heap) (id : ExprId) :
    home.Knows old site (.expr id) world.heap :=
  ⟨knows.here, trivial, knows.closed, .inl ⟨id, rfl⟩⟩

theorem next (knows : home.Knows old site task world.heap)
    (evaluates : Evaluates names site task world outcome after) (id : ExprId) :
    home.Knows old site (.expr id) after.heap :=
  ⟨knows.here, trivial, (knows.kept evaluates).1, .inl ⟨id, rfl⟩⟩

theorem occurs (knows : home.Knows old site task world.heap) {id : ExprId} {node : Node}
    (read : site.code.arena.node? id = some node) : home.Occurs old node :=
  ⟨site.code, id, knows.here, read⟩

theorem call (knows : home.Knows old site task world.heap) (other : ∀ id, task ≠ .expr id) :
    ∃ callee args, home.Occurs old (.call callee args) :=
  knows.asked.resolve_left (not_exists.mpr other)

theorem body {closure : Closure} {args : List Value} {params : List Name} {frame : FrameId} {entered bound : World}
    (knows : home.Knows old site (.call closure args) world.heap)
    (made : (world.emit (.enterCall closure.arity)).newFrame (some closure.scope) = (frame, entered))
    (declared : entered.declareAll frame (params.zip args) = (none, bound)) :
    home.Knows old ⟨closure.code, frame⟩ (.expr closure.body) bound.heap := by
  obtain ⟨source, values⟩ : (sourced home old).closure closure ∧ ∀ arg ∈ args, (sourced home old).value arg :=
    knows.handles
  cases made
  obtain ⟨bindings, early, heap, _⟩ := World.declareAll_heap _ _ (params.zip args)
  rw [declared] at heap
  refine ⟨source.1, trivial, ?_, .inl ⟨_, rfl⟩⟩
  rw [heap]
  refine (knows.closed.newFrame fun _ _ => trivial).bindAll _ fun binding member => ?_
  exact values _ (List.of_mem_zip (early.subset member)).2

end Site.Knows

theorem Closure.repeats_of_declareAll {closure : Closure} {args : List Value} {params : List Name} {name : Name}
    {frame : FrameId} {world entered bound : World} (arity : args.length = closure.arity)
    (made : (world.emit (.enterCall closure.arity)).newFrame (some closure.scope) = (frame, entered))
    (read : closure.paramNames? = some params)
    (repeated : entered.declareAll frame (params.zip args) = (some name, bound)) :
    ∃ early late, params = early ++ name :: late ∧ name ∈ early := by
  cases made
  have paired : params.length = args.length := Closure.params_paired arity read
  rcases closure.declareAll_params paired world with ⟨_, all⟩ | ⟨declared, other, late, split, _, member, stopped⟩
  · cases repeated.symm.trans all
  · cases repeated.symm.trans stopped
    exact ⟨_, late, split, member⟩

/-- A failure is genuine, whatever evaluations, calls and code it passes through on its way out. -/
theorem Evaluates.genuine {names : Interner} {home site : Site} {old : Heap} {task : Task} {world after : World}
    {outcome : Outcome} (evaluates : Evaluates names site task world outcome after)
    (knows : home.Knows old site task world.heap) {failure : Failure} (fails : outcome = .failure failure) :
    failure.Genuine names home old after.heap failure.message := by
  -- One rule raises the failure, in the world that is left behind; all others hand it on.
  induction evaluates with
  | missing | argsMissing | paramsMissing => cases fails
  | literal | ident | function | print | binary | branchNone | loopDone | seq | declare | assign => cases fails
  | firstAborts _ _ _ _ ih => exact ih (knows.expr _) fails
  | binaryFails read _ _ applied =>
    cases fails
    have node := knows.occurs read
    rcases Operator.apply_error applied with ⟨rfl, rfl⟩ | ⟨rfl, rfl⟩ | ⟨other, mixed, rfl⟩
    · exact .divisionByZero node
    · exact .moduloByZero node
    · exact .typeMismatch node other (Value.typeName_mem _) (Value.typeName_mem _) mixed
  | rightAborts _ left _ _ _ ih => exact ih ((knows.expr _).next left _) fails
  | branchTrue _ tested _ _ ih | branchFalse _ tested _ _ ih => exact ih ((knows.expr _).next tested _) fails
  | branchOther read _ other =>
    cases fails
    exact .branchCondition (knows.occurs read) (Value.typeName_of_not_bool other)
  | loopAgain _ tested passed _ _ _ ih =>
    exact ih (((knows.expr _).next tested _).next passed _) fails
  | loopAborts _ tested _ _ _ ih => exact ih ((knows.expr _).next tested _) fails
  | loopOther read _ other =>
    cases fails
    exact .loopCondition (knows.occurs read) (Value.typeName_of_not_bool other)
  | secondAborts _ first _ _ _ ih => exact ih ((knows.expr _).next first _) fails
  | redeclare read _ bound =>
    cases fails
    exact .redeclared (knows.occurs read) bound
  | notCallable read _ other =>
    cases fails
    exact .notCallable (knows.occurs read) (Value.typeName_of_not_function other)
  | call read callee _ _ _ ih =>
    obtain ⟨heap, closure⟩ := (knows.expr _).kept callee
    refine ih ⟨knows.here, ⟨closure _ rfl _ rfl, by simp, fun _ _ => trivial⟩, heap, .inr ?_⟩ fails
    exact ⟨_, _, knows.occurs read⟩
  | argument first _ _ ih =>
    obtain ⟨closure, values, _⟩ := knows.handles
    obtain ⟨heap, value⟩ := (knows.expr _).kept first
    have evaluated := List.forall_mem_cons.mpr ⟨value _ rfl, values⟩
    exact ih ⟨knows.here, ⟨closure, evaluated, fun _ _ => trivial⟩, heap, .inr (knows.call (by simp))⟩ fails
  | argumentAborts _ _ ih => exact ih (knows.expr _) fails
  | argumentsDone _ ih =>
    obtain ⟨closure, values, _⟩ := knows.handles
    have args := fun arg member => values arg (List.mem_reverse.mp member)
    exact ih ⟨knows.here, ⟨closure, args⟩, knows.closed, .inr (knows.call (by simp))⟩ fails
  | arity different =>
    cases fails
    obtain ⟨_, _, node⟩ := knows.call (by simp)
    exact .arityMismatch node (Ne.symm different)
  | paramRepeated arity made read repeated =>
    cases fails
    obtain ⟨_, _, node⟩ := knows.call (by simp)
    have repeated := repeated.declareAll
    have bound := World.binds_of_declareAll repeated
    obtain ⟨early, late, rfl, member⟩ := Closure.repeats_of_declareAll arity made read repeated
    exact .repeatedParameter node (knows.handles.1.2 _ read) member bound
  | body _ made _ declared _ ih =>
    rw [World.heap_leaveCall]
    exact ih (knows.body made declared.declareAll) fails

/-- Every failure an evaluation ends in is genuine, in the code at hand and that of the closures bound before. -/
theorem reported_failures_genuine {names : Interner} {site : Site} {id : ExprId} {world after : World}
    {failure : Failure} (finishes : Finishes names site id world (.failure failure) after) :
    failure.Genuine names site world.heap after.heap failure.message := by
  refine finishes.evaluates.genuine ⟨.inl rfl, trivial, ⟨fun _ _ => trivial, ?_⟩, .inl ⟨id, rfl⟩⟩ rfl
  intro frame name closure _ bound
  have held : world.heap.Holds (.function closure) := ⟨frame, name, bound⟩
  exact ⟨.inr ⟨closure, held, rfl⟩, fun params read => .closure held read⟩

/-- A function with two parameters of one name, made in other code, that a global variable holds. -/
def namesakes : Closure := ⟨0, ⟨0, 2⟩, ⟨0⟩, ⟨1, ⟨#[.ident ⟨1⟩], #[], #[⟨1⟩, ⟨1⟩]⟩⟩, ⟨0⟩⟩

def namesakesBound : World := ⟨⟨#[⟨none, Bindings.empty.insert ⟨2⟩ (.function namesakes)⟩], 1⟩, .silent, #[]⟩

def callsNamesakes : Code := ⟨0, ⟨#[.ident ⟨2⟩, .literal .null, .call ⟨0⟩ ⟨0, 2⟩, .print ⟨2⟩], #[⟨1⟩, ⟨1⟩], #[]⟩⟩

theorem reported_failures_genuine_namesakes :
    let names := (Interner.new.internAll ["x", "twice"]).2
    ∃ after, Finishes names ⟨callsNamesakes, ⟨0⟩⟩ ⟨3⟩ namesakesBound (.failure (.redeclaration "x")) after ∧
      Failure.Genuine names ⟨callsNamesakes, ⟨0⟩⟩ namesakesBound.heap after.heap (.redeclaration "x")
        "variable `x` is already declared in this scope" := by
  intro names
  have ran : (evaluate names 20 ⟨callsNamesakes, ⟨0⟩⟩ ⟨3⟩ namesakesBound).map Prod.fst =
      some (.failure (.redeclaration "x")) := by decide +kernel
  obtain ⟨⟨outcome, after⟩, ended, rfl⟩ := Option.map_eq_some_iff.mp ran
  have finishes : Finishes names ⟨callsNamesakes, ⟨0⟩⟩ ⟨3⟩ namesakesBound (.failure (.redeclaration "x")) after :=
    ⟨20, ended⟩
  exact ⟨after, finishes, reported_failures_genuine finishes⟩

end ScopedEval
