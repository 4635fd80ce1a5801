import ScopedEval.Evaluation.Machine
import ScopedEval.Proofs.OwnLevel
import ScopedEval.Proofs.Regions

namespace ScopedEval

def Heap.bindAll (heap : Heap) (id : FrameId) (bindings : List (Name × Value)) : Heap :=
  bindings.foldl (fun heap binding => heap.bind id binding.1 binding.2) heap

namespace Heap

@[simp] theorem bindAll_nil (heap : Heap) (id : FrameId) : heap.bindAll id [] = heap := rfl

@[simp] theorem bindAll_cons (heap : Heap) (id : FrameId) (name : Name) (value : Value)
    (rest : List (Name × Value)) :
    heap.bindAll id ((name, value) :: rest) = (heap.bind id name value).bindAll id rest := rfl

@[simp] theorem size_bindAll (heap : Heap) (id : FrameId) (bindings : List (Name × Value)) :
    (heap.bindAll id bindings).frames.size = heap.frames.size := by
  induction bindings generalizing heap with
  | nil => rfl
  | cons binding rest ih =>
    rw [bindAll_cons, ih, size_bind]

@[simp] theorem closures_bindAll (heap : Heap) (id : FrameId) (bindings : List (Name × Value)) :
    (heap.bindAll id bindings).closures = heap.closures := by
  induction bindings generalizing heap with
  | nil => rfl
  | cons binding rest ih =>
    rw [bindAll_cons, ih]
    rfl

@[simp] theorem parent?_bindAll (heap : Heap) (id other : FrameId) (bindings : List (Name × Value)) :
    (heap.bindAll id bindings).parent? other = heap.parent? other := by
  induction bindings generalizing heap with
  | nil => rfl
  | cons binding rest ih =>
    rw [bindAll_cons, ih, parent?_bind]

theorem binds_bindAll (heap : Heap) (id other : FrameId) (name : Name) (bindings : List (Name × Value)) :
    (heap.bindAll id bindings).binds other name = true ↔
      heap.binds other name = true ∨
        id = other ∧ id.index < heap.frames.size ∧ name ∈ bindings.map Prod.fst := by
  induction bindings generalizing heap with
  | nil => simp
  | cons binding rest ih =>
    obtain ⟨key, value⟩ := binding
    rw [bindAll_cons, ih, binds_bind, size_bind, Bool.or_eq_true, decide_eq_true_eq, List.map_cons, List.mem_cons]
    constructor
    · rintro ((⟨same, key, inside⟩ | bound) | ⟨same, inside, member⟩)
      · exact .inr ⟨same, inside, .inl key.symm⟩
      · exact .inl bound
      · exact .inr ⟨same, inside, .inr member⟩
    · rintro (bound | ⟨same, inside, key | member⟩)
      · exact .inl (.inr bound)
      · exact .inl (.inl ⟨same, key.symm, inside⟩)
      · exact .inr ⟨same, inside, member⟩

theorem Closed.bindAll {region : FrameId → Prop} {valid : Closure → Prop} {heap : Heap}
    (closed : heap.Closed region valid) (id : FrameId) {bindings : List (Name × Value)}
    (only : ∀ binding ∈ bindings, binding.2.Only valid) : (heap.bindAll id bindings).Closed region valid := by
  induction bindings generalizing heap with
  | nil => exact closed
  | cons binding rest ih =>
    have first := closed.bind id binding.1 (only binding List.mem_cons_self)
    exact ih first fun other member => only other (List.mem_cons_of_mem _ member)

theorem Named.bindAll {region : FrameId → Prop} {named : FrameId → Name → Prop} {heap : Heap}
    (all : heap.Named region named) {id : FrameId} {bindings : List (Name × Value)}
    (allowed : ∀ binding ∈ bindings, named id binding.1) : (heap.bindAll id bindings).Named region named := by
  intro other name inside bound
  rcases (heap.binds_bindAll id other name bindings).mp bound with bound | ⟨rfl, _, member⟩
  · exact all inside bound
  · obtain ⟨binding, listed, rfl⟩ := List.mem_map.mp member
    exact allowed binding listed

end Heap

theorem World.declareAll_heap (world : World) (id : FrameId) (bindings : List (Name × Value)) :
    ∃ made, made <+: bindings ∧ (world.declareAll id bindings).2.heap = world.heap.bindAll id made ∧
      ((world.declareAll id bindings).1 = none → made = bindings) := by
  induction bindings generalizing world with
  | nil => exact ⟨[], List.prefix_rfl, rfl, fun _ => rfl⟩
  | cons binding rest ih =>
    obtain ⟨name, value⟩ := binding
    unfold World.declareAll
    split
    · exact ⟨[], List.nil_prefix, rfl, fun none => by cases none⟩
    · obtain ⟨made, early, heap, all⟩ := ih (world.declare id name value)
      refine ⟨(name, value) :: made, ?_, heap, ?_⟩
      · exact List.cons_prefix_cons.mpr ⟨rfl, early⟩
      · intro none
        rw [all none]

/-- The ways a call begins: it ends at once, with some of the parameters bound or without a new frame,
    or all parameters are bound in a new frame and the body is evaluated there. -/
theorem Closure.start_cases (names : Interner) (closure : Closure) (args : List Value) (site : Site)
    (stack : List Continuation) (world : World) :
    (∃ outcome after, outcome.aborts = true ∧ after.heap = world.heap ∧ args.length ≠ closure.arity ∧
      closure.start names args site stack world = .deliver outcome site stack after) ∨
    (∃ outcome after made, outcome.aborts = true ∧ args.length = closure.arity ∧
      (∀ binding ∈ made, binding.2 ∈ args ∧
        ∃ params, closure.paramNames? = some params ∧ binding.1 ∈ params) ∧
      after.heap = (world.heap.newFrame (some closure.scope)).2.bindAll ⟨world.heap.frames.size⟩ made ∧
      closure.start names args site stack world = .deliver outcome site stack after) ∨
    ∃ params after, args.length = closure.arity ∧ closure.paramNames? = some params ∧
      after.heap = (world.heap.newFrame (some closure.scope)).2.bindAll ⟨world.heap.frames.size⟩ (params.zip args) ∧
      closure.start names args site stack world =
        .eval closure.body ⟨closure.code, ⟨world.heap.frames.size⟩⟩ (.leave site :: stack) after := by
  unfold Closure.start
  simp only
  split
  · rename_i different
    exact .inl ⟨.failure (.arityMismatch closure.arity args.length),
      (world.emit (.enterCall closure.arity)).emit .exitCall, rfl, rfl, different, rfl⟩
  · rename_i same
    have same := Decidable.not_not.mp same
    split
    · exact .inr (.inl ⟨_, _, [], rfl, same, by simp, rfl, rfl⟩)
    · rename_i params read
      obtain ⟨made, early, heap, all⟩ :=
        World.declareAll_heap ((world.emit (.enterCall closure.arity)).newFrame (some closure.scope)).2
          ((world.emit (.enterCall closure.arity)).newFrame (some closure.scope)).1 (params.zip args)
      split
      · rename_i name after stopped
        rw [stopped] at heap
        refine .inr (.inl ⟨.failure (.redeclaration (names.lookup name)), after.emit .exitCall, made, rfl, same, ?_,
          heap, rfl⟩)
        intro binding member
        have both := List.of_mem_zip (early.subset member)
        exact ⟨both.2, params, read, both.1⟩
      · rename_i after declared
        rw [declared] at heap all
        rw [all rfl] at heap
        exact .inr (.inr ⟨params, after, same, read, heap, rfl⟩)

inductive State.Changes (state : State) : Heap → Prop where
  | nothing : Changes state state.world.heap
  | makes {id body : ExprId} {params : Span} : state.control = .perform (.expr id) →
      state.site.code.arena.node? id = some (.function params body) →
      Changes state (state.world.heap.newClosure params body state.site.code state.site.frame).2
  | declares {name : Name} {value : Value} {stack : List Continuation} :
      state.control = .deliver (.value value) → state.stack = .declare name :: stack →
      state.world.heap.binds state.site.frame name = false →
      Changes state (state.world.heap.bind state.site.frame name value)
  | assigns {name : Name} {value : Value} {stack : List Continuation} :
      state.control = .deliver (.value value) → state.stack = .assign name :: stack →
      Changes state (state.world.heap.bind (state.world.heap.target state.site.frame name) name value)
  | enters {callee : Closure} {args : List Value} {made : List (Name × Value)} :
      state.control = .perform (.call callee args) → args.length = callee.arity →
      (∀ binding ∈ made, binding.2 ∈ args ∧ ∃ params, callee.paramNames? = some params ∧ binding.1 ∈ params) →
      Changes state ((state.world.heap.newFrame (some callee.scope)).2.bindAll
        ⟨state.world.heap.frames.size⟩ made)

namespace State

theorem step_changes (names : Interner) (state : State) : state.Changes (state.step names).world.heap := by
  obtain ⟨control, site, stack, world⟩ := state
  cases control with
  | perform task =>
    cases task with
    | expr id =>
      simp only [step, Task.start]
      cases read : site.code.arena.node? id with
      | none => exact .nothing
      | some node =>
        cases node with
        | function params body => exact .makes rfl read
        | _ => exact .nothing
    | arguments callee evaluated rest => cases rest <;> exact .nothing
    | call callee args =>
      simp only [step, Task.start]
      rcases callee.start_cases names args site stack world with ⟨outcome, after, _, heap, _, same⟩ |
        ⟨outcome, after, made, _, arity, listed, heap, same⟩ | ⟨params, after, arity, read, heap, same⟩
      · rw [same]
        simp only [deliver, heap]
        exact .nothing
      · rw [same]
        simp only [deliver, heap]
        exact .enters rfl arity listed
      · rw [same]
        simp only [eval, perform, heap]
        refine .enters rfl arity fun binding member => ?_
        have both := List.of_mem_zip member
        exact ⟨both.2, params, read, both.1⟩
  | deliver outcome =>
    cases stack with
    | nil => cases outcome <;> exact .nothing
    | cons continuation stack =>
      cases outcome with
      | value value =>
        simp only [step]
        cases continuation with
        | branch consequent alternative =>
          simp only [Continuation.resume]
          split
          · exact .nothing
          · cases alternative <;> exact .nothing
          · exact .nothing
        | loopTest condition body =>
          simp only [Continuation.resume]
          split <;> exact .nothing
        | declare name =>
          simp only [Continuation.resume]
          split
          · exact .nothing
          · rename_i free
            exact .declares rfl rfl (Bool.eq_false_iff.mpr free)
        | assign name =>
          simp only [Continuation.resume, yield, deliver]
          rw [World.heap_assign]
          exact .assigns rfl rfl
        | callee args =>
          simp only [Continuation.resume]
          split
          · cases site.code.arena.args? args <;> exact .nothing
          · exact .nothing
        | _ => exact .nothing
      | failure failure => cases continuation <;> exact .nothing
      | outOfRange => cases continuation <;> exact .nothing

theorem Reaches.invariant {names : Interner} {motive : State → Prop} {start state : State}
    (reaches : Reaches names start state) (step : ∀ state, motive state → motive (state.step names))
    (holds : motive start) : motive state := by
  induction reaches with
  | refl => exact holds
  | step _ ih => exact ih (step _ holds)

theorem Reaches.tail {names : Interner} {start state : State} (reaches : Reaches names start state) :
    Reaches names start (state.step names) :=
  reaches.trans (.step (.refl _))

/-- A run goes one way: of two states it passes, one leads to the other. -/
theorem Reaches.total {names : Interner} {start left right : State} (first : Reaches names start left)
    (second : Reaches names start right) : Reaches names left right ∨ Reaches names right left := by
  induction first with
  | refl => exact .inl second
  | step rest ih =>
    cases second with
    | refl => exact .inr (.step rest)
    | step second => exact ih second

inductive Collects {α : Type} (names : Interner) (notes : State → List α) : State → List α → State → Prop where
  | refl (state : State) : Collects names notes state [] state
  | step {state final : State} {rest : List α} : Collects names notes (state.step names) rest final →
      Collects names notes state (notes state ++ rest) final

namespace Collects

variable {α : Type} {names : Interner} {notes : State → List α} {start state : State} {noted : List α}

theorem reaches (collects : Collects names notes start noted state) : Reaches names start state := by
  induction collects with
  | refl state => exact .refl state
  | step _ ih => exact .step ih

theorem trans {middle : State} {early late : List α} (first : Collects names notes start early middle)
    (second : Collects names notes middle late state) : Collects names notes start (early ++ late) state := by
  induction first with
  | refl => exact second
  | step _ ih =>
    rw [List.append_assoc]
    exact .step (ih second)

theorem of_reaches (notes : State → List α) (reaches : Reaches names start state) :
    ∃ noted, Collects names notes start noted state := by
  induction reaches with
  | refl state => exact ⟨[], .refl state⟩
  | step _ ih =>
    obtain ⟨rest, collects⟩ := ih
    exact ⟨_, .step collects⟩

end Collects

end State

def Continuation.resumesAt (site : Site) : Continuation → Site
  | .leave caller => caller
  | _ => site

/-- What may occur in the states of a run: which closures, which expressions at which sites, which names
    are declared and assigned at a site, and which sites. -/
structure Discipline where
  closure : Closure → Prop
  expr : Site → ExprId → Prop
  declares : Site → Name → Prop
  assigns : Site → Name → Prop
  site : Site → Prop
  child {site : Site} {id child : ExprId} : expr site id → site.code.arena.Child id child → expr site child
  declared {site : Site} {id init : ExprId} {name : Name} : expr site id →
    site.code.arena.node? id = some (.declare name init) → declares site name
  assigned {site : Site} {id source : ExprId} {name : Name} : expr site id →
    site.code.arena.node? id = some (.assign name source) → assigns site name

namespace Discipline

variable (discipline : Discipline)

def value (value : Value) : Prop := value.Only discipline.closure

def task (site : Site) : Task → Prop
  | .expr id => discipline.expr site id
  | .arguments callee evaluated rest =>
    discipline.closure callee ∧ (∀ arg ∈ evaluated, discipline.value arg) ∧
      ∀ id ∈ rest, discipline.expr site id
  | .call callee args => discipline.closure callee ∧ ∀ arg ∈ args, discipline.value arg

def control (site : Site) : Control → Prop
  | .perform task => discipline.task site task
  | .deliver outcome => ∀ value, outcome = .value value → discipline.value value

def continuation (site : Site) : Continuation → Prop
  | .print => True
  | .rightOperand _ right => discipline.expr site right
  | .apply _ left => discipline.value left
  | .branch consequent alternative =>
    discipline.expr site consequent ∧ ∀ other, alternative = some other → discipline.expr site other
  | .loopTest condition body | .loopBody condition body =>
    discipline.expr site condition ∧ discipline.expr site body
  | .second id => discipline.expr site id
  | .join first => discipline.value first
  | .declare name => discipline.declares site name
  | .assign name => discipline.assigns site name
  | .callee args => ∀ ids, site.code.arena.args? args = some ids → ∀ id ∈ ids, discipline.expr site id
  | .argument callee evaluated rest =>
    discipline.closure callee ∧ (∀ arg ∈ evaluated, discipline.value arg) ∧
      ∀ id ∈ rest, discipline.expr site id
  | .leave caller => discipline.site caller

def stack : Site → List Continuation → Prop
  | _, [] => True
  | site, continuation :: rest =>
    discipline.continuation site continuation ∧ stack (continuation.resumesAt site) rest

structure Allows (state : State) : Prop where
  site : discipline.site state.site
  control : discipline.control state.site state.control
  stack : discipline.stack state.site state.stack

structure Within (discipline other : Discipline) : Prop where
  closure {closure : Closure} : discipline.closure closure → other.closure closure
  expr {site : Site} {id : ExprId} : discipline.expr site id → other.expr site id
  declares {site : Site} {name : Name} : discipline.declares site name → other.declares site name
  assigns {site : Site} {name : Name} : discipline.assigns site name → other.assigns site name
  site {site : Site} : discipline.site site → other.site site

namespace Within

variable {discipline} {other : Discipline}

theorem value (within : discipline.Within other) {value : Value} (allowed : discipline.value value) :
    other.value value :=
  allowed.mono fun _ => within.closure

theorem control (within : discipline.Within other) {site : Site} {control : Control}
    (allowed : discipline.control site control) : other.control site control := by
  cases control with
  | deliver outcome => exact fun value same => within.value (allowed value same)
  | perform task =>
    cases task with
    | expr id => exact within.expr allowed
    | arguments callee evaluated rest =>
      obtain ⟨closure, values, exprs⟩ := allowed
      exact ⟨within.closure closure, fun arg member => within.value (values arg member),
        fun id member => within.expr (exprs id member)⟩
    | call callee args =>
      obtain ⟨closure, values⟩ := allowed
      exact ⟨within.closure closure, fun arg member => within.value (values arg member)⟩

theorem continuation (within : discipline.Within other) {site : Site} {continuation : Continuation}
    (allowed : discipline.continuation site continuation) : other.continuation site continuation := by
  cases continuation with
  | print => trivial
  | rightOperand | second => exact within.expr allowed
  | apply | join => exact within.value allowed
  | branch => exact ⟨within.expr allowed.1, fun id same => within.expr (allowed.2 id same)⟩
  | loopTest | loopBody => exact ⟨within.expr allowed.1, within.expr allowed.2⟩
  | declare => exact within.declares allowed
  | assign => exact within.assigns allowed
  | callee => exact fun ids read id member => within.expr (allowed ids read id member)
  | argument =>
    obtain ⟨closure, values, exprs⟩ := allowed
    exact ⟨within.closure closure, fun arg member => within.value (values arg member),
      fun id member => within.expr (exprs id member)⟩
  | leave => exact within.site allowed

theorem stack (within : discipline.Within other) {site : Site} {stack : List Continuation}
    (allowed : discipline.stack site stack) : other.stack site stack := by
  induction stack generalizing site with
  | nil => trivial
  | cons continuation rest ih => exact ⟨within.continuation allowed.1, ih allowed.2⟩

theorem allows (within : discipline.Within other) {state : State} (allowed : discipline.Allows state) :
    other.Allows state :=
  ⟨within.site allowed.site, within.control allowed.control, within.stack allowed.stack⟩

end Within

variable {discipline}

theorem control_value {site : Site} {value : Value} (allowed : discipline.value value) :
    discipline.control site (.deliver (.value value)) := by
  intro other same
  cases same
  exact allowed

theorem control_abort {site : Site} {outcome : Outcome} (aborts : outcome.aborts = true) :
    discipline.control site (.deliver outcome) := by
  intro value same
  rw [same] at aborts
  cases aborts

/-- A discipline is kept by a step if the value of a variable, a new closure and the body of a call are
    allowed. -/
theorem Allows.step {names : Interner} {state : State} (allowed : discipline.Allows state)
    (resolved : ∀ name, discipline.value (state.world.heap.resolve state.site.frame name))
    (made : ∀ id params body, state.control = .perform (.expr id) →
      state.site.code.arena.node? id = some (.function params body) →
      discipline.closure (state.world.newClosure params body state.site.code state.site.frame).1)
    (entered : ∀ callee args params, state.control = .perform (.call callee args) → args.length = callee.arity →
      callee.paramNames? = some params →
      (state.step names).world.heap = (state.world.heap.newFrame (some callee.scope)).2.bindAll
        ⟨state.world.heap.frames.size⟩ (params.zip args) →
      discipline.site ⟨callee.code, ⟨state.world.heap.frames.size⟩⟩ ∧
        discipline.expr ⟨callee.code, ⟨state.world.heap.frames.size⟩⟩ callee.body) :
    discipline.Allows (state.step names) := by
  obtain ⟨control, site, stack, world⟩ := state
  obtain ⟨here, now, waiting⟩ := allowed
  cases control with
  | perform task =>
    cases task with
    | expr id =>
      have expr : discipline.expr site id := now
      simp only [State.step, Task.start]
      cases read : site.code.arena.node? id with
      | none => exact ⟨here, control_abort rfl, waiting⟩
      | some node =>
        have operand : ∀ {child}, child ∈ node.operands → discipline.expr site child :=
          fun member => discipline.child expr (.operand read member)
        cases node with
        | literal value =>
          have scalar : (Value.ofLiteral value).toFunction? = none := by cases value <;> rfl
          exact ⟨here, control_value (.of_scalar scalar), waiting⟩
        | ident name => exact ⟨here, control_value (resolved name), waiting⟩
        | print child => exact ⟨here, operand (by simp), trivial, waiting⟩
        | binary op left right => exact ⟨here, operand (by simp), operand (by simp), waiting⟩
        | branch condition consequent alternative =>
          refine ⟨here, operand (by simp), ⟨operand (by simp), fun other same => ?_⟩, waiting⟩
          subst same
          exact operand (by simp)
        | loop condition body => exact ⟨here, operand (by simp), ⟨operand (by simp), operand (by simp)⟩, waiting⟩
        | seq first second => exact ⟨here, operand (by simp), operand (by simp), waiting⟩
        | declare name init => exact ⟨here, operand (by simp), discipline.declared expr read, waiting⟩
        | assign name source => exact ⟨here, operand (by simp), discipline.assigned expr read, waiting⟩
        | function params body =>
          have closure := made id params body rfl read
          exact ⟨here, control_value (.function closure), waiting⟩
        | call callee args =>
          refine ⟨here, operand (by simp), fun ids found arg member => ?_, waiting⟩
          exact discipline.child expr (.argument read found member)
    | arguments callee evaluated rest =>
      obtain ⟨closure, values, exprs⟩ := now
      cases rest with
      | nil => exact ⟨here, ⟨closure, fun arg member => values arg (List.mem_reverse.mp member)⟩, waiting⟩
      | cons id rest =>
        have first := exprs id List.mem_cons_self
        have others := fun other member => exprs other (List.mem_cons_of_mem id member)
        exact ⟨here, first, ⟨closure, values, others⟩, waiting⟩
    | call callee args =>
      have begins : (State.step names ⟨.perform (.call callee args), site, stack, world⟩) =
        callee.start names args site stack world := rfl
      rcases callee.start_cases names args site stack world with ⟨outcome, after, aborts, _, _, same⟩ |
        ⟨outcome, after, bindings, aborts, _, _, _, same⟩ | ⟨params, after, arity, read, heap, same⟩
      · rw [begins, same]
        exact ⟨here, control_abort aborts, waiting⟩
      · rw [begins, same]
        exact ⟨here, control_abort aborts, waiting⟩
      · have heap' : (State.step names ⟨.perform (.call callee args), site, stack, world⟩).world.heap =
            (world.heap.newFrame (some callee.scope)).2.bindAll ⟨world.heap.frames.size⟩ (params.zip args) := by
          rw [begins, same]
          exact heap
        obtain ⟨inside, body⟩ := entered callee args params rfl arity read heap'
        rw [begins, same]
        exact ⟨inside, body, here, waiting⟩
  | deliver outcome =>
    cases stack with
    | nil => cases outcome <;> exact ⟨here, now, trivial⟩
    | cons continuation stack =>
      obtain ⟨first, rest⟩ := waiting
      cases outcome with
      | value value =>
        have held : discipline.value value := now value rfl
        simp only [State.step]
        cases continuation with
        | print => exact ⟨here, control_value held, rest⟩
        | rightOperand op right => exact ⟨here, first, held, rest⟩
        | apply op left =>
          refine ⟨here, fun result same => ?_, rest⟩
          cases applied : op.apply left value with
          | ok scalar =>
            simp only [applied, Outcome.ofExcept, Outcome.value.injEq] at same
            subst same
            exact .of_scalar (Operator.apply_scalar applied)
          | error failure =>
            rw [applied] at same
            cases same
        | branch consequent alternative =>
          simp only [Continuation.resume]
          split
          · exact ⟨here, first.1, rest⟩
          · cases alternative with
            | none => exact ⟨here, control_value (.of_scalar rfl), rest⟩
            | some other => exact ⟨here, first.2 other rfl, rest⟩
          · exact ⟨here, control_abort rfl, rest⟩
        | loopTest condition body =>
          simp only [Continuation.resume]
          split
          · exact ⟨here, first.2, first, rest⟩
          · exact ⟨here, control_value (.of_scalar rfl), rest⟩
          · exact ⟨here, control_abort rfl, rest⟩
        | loopBody condition body => exact ⟨here, first.1, first, rest⟩
        | second id => exact ⟨here, first, held, rest⟩
        | join other =>
          refine ⟨here, control_value ?_, rest⟩
          split
          · exact first
          · exact held
        | declare name =>
          simp only [Continuation.resume]
          split
          · exact ⟨here, control_abort rfl, rest⟩
          · exact ⟨here, control_value held, rest⟩
        | assign name => exact ⟨here, control_value held, rest⟩
        | callee args =>
          simp only [Continuation.resume]
          split
          · rename_i closure
            have called : discipline.closure closure := held closure rfl
            cases found : site.code.arena.args? args with
            | none => exact ⟨here, control_abort rfl, rest⟩
            | some ids => exact ⟨here, ⟨called, by simp, first ids found⟩, rest⟩
          · exact ⟨here, control_abort rfl, rest⟩
        | argument callee evaluated ids =>
          obtain ⟨closure, values, exprs⟩ := first
          refine ⟨here, ⟨closure, fun arg member => ?_, exprs⟩, rest⟩
          rcases List.mem_cons.mp member with rfl | member
          · exact held
          · exact values arg member
        | leave caller => exact ⟨first, control_value held, rest⟩
      | failure failure =>
        have aborted : ∀ site, discipline.control site (.deliver (.failure failure)) := fun _ => control_abort rfl
        cases continuation with
        | leave caller => exact ⟨first, aborted caller, rest⟩
        | _ => exact ⟨here, aborted site, rest⟩
      | outOfRange =>
        have aborted : ∀ site, discipline.control site (.deliver .outOfRange) := fun _ => control_abort rfl
        cases continuation with
        | leave caller => exact ⟨first, aborted caller, rest⟩
        | _ => exact ⟨here, aborted site, rest⟩

theorem Allows.delivered {state : State} {value : Value} (allowed : discipline.Allows state)
    (delivers : state.control = .deliver (.value value)) : discipline.value value := by
  have now := allowed.control
  rw [delivers] at now
  exact now value rfl

theorem Allows.called {state : State} {callee : Closure} {args : List Value} (allowed : discipline.Allows state)
    (performs : state.control = .perform (.call callee args)) :
    discipline.closure callee ∧ ∀ arg ∈ args, discipline.value arg := by
  have now := allowed.control
  rw [performs] at now
  exact now

theorem Allows.waiting {state : State} {continuation : Continuation} {stack : List Continuation}
    (allowed : discipline.Allows state) (waits : state.stack = continuation :: stack) :
    discipline.continuation state.site continuation := by
  have all := allowed.stack
  rw [waits] at all
  exact all.1

theorem Allows.closed {state : State} {heap : Heap} {region : FrameId → Prop} (allowed : discipline.Allows state)
    (changes : state.Changes heap) (closed : state.world.heap.Closed region discipline.closure)
    (around : ∀ callee, discipline.closure callee → region callee.scope) : heap.Closed region discipline.closure := by
  cases changes with
  | nothing => exact closed
  | makes => exact ⟨closed.parent, closed.closure⟩
  | declares delivers => exact closed.bind _ _ (allowed.delivered delivers)
  | assigns delivers => exact closed.bind _ _ (allowed.delivered delivers)
  | @enters callee args made performs arity listed =>
    obtain ⟨closure, values⟩ := allowed.called performs
    have inside : ∀ outer, some callee.scope = some outer → region outer := by
      intro outer same
      cases same
      exact around callee closure
    exact (closed.newFrame inside).bindAll _ fun binding member => values _ (listed binding member).1

theorem Allows.named {state : State} {heap : Heap} {region : FrameId → Prop} {named : FrameId → Name → Prop}
    (allowed : discipline.Allows state) (changes : state.Changes heap) (all : state.world.heap.Named region named)
    (declared : ∀ name, discipline.declares state.site name → named state.site.frame name)
    (assigned : ∀ name, discipline.assigns state.site name → named (state.world.heap.root state.site.frame) name)
    (entered : ∀ callee args params, state.control = .perform (.call callee args) → args.length = callee.arity →
      callee.paramNames? = some params → ∀ name ∈ params, named ⟨state.world.heap.frames.size⟩ name) :
    heap.Named region named := by
  cases changes with
  | nothing => exact all
  | makes => exact all
  | declares _ waits => exact all.bind _ fun _ => declared _ (allowed.waiting waits)
  | assigns _ waits => exact all.assign _ fun _ _ => assigned _ (allowed.waiting waits)
  | @enters callee args made performs arity listed =>
    apply Heap.Named.bindAll (all.newFrame _)
    intro binding member
    obtain ⟨_, params, read, member⟩ := listed binding member
    exact entered callee args params performs arity read binding.1 member

end Discipline

end ScopedEval
