import ScopedEval.Proofs.Growth
import ScopedEval.Proofs.Nesting
import ScopedEval.Session

namespace ScopedEval

def Arena.Parameter (arena : Arena) (function : ExprId) (name : Name) : Prop :=
  ∃ params body names, arena.node? function = some (.function params body) ∧
    arena.params? params = some names ∧ name ∈ names

def Arena.OwnDeclares (arena : Arena) (id : ExprId) (name : Name) : Prop :=
  ∃ inner init, arena.OwnLevel id inner ∧ arena.node? inner = some (.declare name init)

def Arena.BodyDeclares (arena : Arena) (function : ExprId) (name : Name) : Prop :=
  ∃ inner init, arena.Directly function inner ∧ arena.node? inner = some (.declare name init)

def Arena.Assigns (arena : Arena) (name : Name) : Prop :=
  ∃ id value, arena.node? id = some (.assign name value)

namespace State

def Makes (state : State) (code : Code) (function : ExprId) (closure : Closure) : Prop :=
  ∃ params body, state.control = .perform (.expr function) ∧ state.site.code = code ∧
    code.arena.node? function = some (.function params body) ∧
    closure = (state.world.newClosure params body code state.site.frame).1

def Enters (state : State) (callee : Closure) (frame : FrameId) : Prop :=
  ∃ args, state.control = .perform (.call callee args) ∧ args.length = callee.arity ∧
    frame = ⟨state.world.heap.frames.size⟩

theorem Enters.heap (names : Interner) {state : State} {callee : Closure} {frame : FrameId}
    (enters : state.Enters callee frame) :
    ∃ made, (state.step names).world.heap = (state.world.heap.newFrame (some callee.scope)).2.bindAll frame made := by
  obtain ⟨args, performs, arity, rfl⟩ := enters
  obtain ⟨control, site, stack, world⟩ := state
  cases performs
  simp only [step, Task.start]
  rcases callee.start_cases names args site stack world with ⟨_, _, _, _, different, _⟩ |
    ⟨outcome, after, made, _, _, _, heap, same⟩ | ⟨params, after, _, _, heap, same⟩
  · exact absurd arity different
  · rw [same]
    exact ⟨made, heap⟩
  · rw [same]
    exact ⟨params.zip args, heap⟩

theorem Enters.size (names : Interner) {state : State} {callee : Closure} {frame : FrameId}
    (enters : state.Enters callee frame) : (state.step names).world.heap.frames.size = frame.index + 1 := by
  obtain ⟨made, heap⟩ := enters.heap names
  obtain ⟨_, _, _, rfl⟩ := enters
  rw [heap, Heap.size_bindAll, Heap.size_newFrame]

theorem Enters.parent (names : Interner) {state : State} {callee : Closure} {frame : FrameId}
    (enters : state.Enters callee frame) : (state.step names).world.heap.parent? frame = some callee.scope := by
  obtain ⟨made, heap⟩ := enters.heap names
  obtain ⟨_, _, _, rfl⟩ := enters
  rw [heap, Heap.parent?_bindAll, Heap.parent?_newFrame, if_pos rfl]

theorem Changes.new_frame {state : State} {heap : Heap} {frame : FrameId} (changes : state.Changes heap)
    (young : state.world.heap.frames.size ≤ frame.index) (held : frame.index < heap.frames.size) :
    ∃ callee, state.Enters callee frame := by
  cases changes with
  | nothing => omega
  | makes => exact absurd held (Nat.not_lt.mpr young)
  | declares =>
    rw [Heap.size_bind] at held
    omega
  | assigns =>
    rw [Heap.size_bind] at held
    omega
  | @enters callee args made performs arity listed =>
    rw [Heap.size_bindAll, Heap.size_newFrame] at held
    have last : frame.index = state.world.heap.frames.size := by omega
    exact ⟨callee, args, performs, arity, congrArg FrameId.mk last⟩

theorem Enters.unique {names : Interner} {early late : State} {callee callee' : Closure} {frame : FrameId}
    (enters : early.Enters callee frame) (enters' : late.Enters callee' frame) (more : Reaches names early late) :
    callee = callee' := by
  cases more with
  | refl =>
    obtain ⟨_, performs, _⟩ := enters
    obtain ⟨_, performs', _⟩ := enters'
    cases performs.symm.trans performs'
    rfl
  | step more =>
    have made := enters.size names
    have kept := more.grows.size
    obtain ⟨_, _, _, rfl⟩ := enters'
    simp only at made
    omega

end State

structure Run where
  names : Interner
  start : State

namespace Run

/-- The run passes the event and takes its step before it comes to the present state. -/
structure Passed (run : Run) (event now : State) : Prop where
  reached : State.Reaches run.names run.start event
  later : State.Reaches run.names (event.step run.names) now

def Created (run : Run) (code : Code) (now : State) (function : ExprId) (closure : Closure) : Prop :=
  ∃ event, run.Passed event now ∧ event.Makes code function closure

/-- The frame has been made by a call of a closure made from the function. -/
def Activated (run : Run) (code : Code) (now : State) (function : ExprId) (frame : FrameId) : Prop :=
  ∃ event callee, run.Passed event now ∧ event.Enters callee frame ∧ run.Created code event function callee

variable {run : Run} {code : Code} {now later event : State} {function : ExprId} {frame : FrameId}

theorem Passed.reaches (passed : run.Passed event now) : State.Reaches run.names event now := .step passed.later

theorem Passed.mono (passed : run.Passed event now) (more : State.Reaches run.names now later) :
    run.Passed event later :=
  ⟨passed.reached, passed.later.trans more⟩

theorem Created.mono {closure : Closure} (created : run.Created code now function closure)
    (more : State.Reaches run.names now later) : run.Created code later function closure := by
  obtain ⟨event, passed, makes⟩ := created
  exact ⟨event, passed.mono more, makes⟩

theorem Activated.mono (activated : run.Activated code now function frame)
    (more : State.Reaches run.names now later) : run.Activated code later function frame := by
  obtain ⟨event, callee, passed, enters, created⟩ := activated
  exact ⟨event, callee, passed.mono more, enters, created⟩

theorem Created.code_eq {closure : Closure} (created : run.Created code now function closure) :
    closure.code = code := by
  obtain ⟨event, _, params, body, _, _, _, rfl⟩ := created
  rfl

theorem Created.node {closure : Closure} (created : run.Created code now function closure) :
    code.arena.node? function = some (.function closure.params closure.body) := by
  obtain ⟨event, _, params, body, _, _, read, rfl⟩ := created
  exact read

theorem Activated.held (activated : run.Activated code now function frame) :
    frame.index < now.world.heap.frames.size := by
  obtain ⟨event, callee, passed, enters, _⟩ := activated
  have made := enters.size run.names
  have kept := passed.later.grows.size
  omega

theorem Activated.young (activated : run.Activated code now function frame) :
    run.start.world.heap.frames.size ≤ frame.index := by
  obtain ⟨event, callee, passed, ⟨_, _, _, rfl⟩, _⟩ := activated
  exact passed.reached.grows.size

theorem entered_once {left right : State} {callee callee' : Closure}
    (first : State.Reaches run.names run.start left) (second : State.Reaches run.names run.start right)
    (enters : left.Enters callee frame) (enters' : right.Enters callee' frame) : callee = callee' := by
  rcases first.total second with more | more
  · exact enters.unique enters' more
  · exact (enters'.unique enters more).symm

end Run

structure Program where
  code : Code
  root : ExprId
  global : FrameId

namespace Program

/-- The run begins with the program, which is a tree, in an outermost frame that was made last and binds
    nothing. -/
structure Begins (program : Program) (run : Run) : Prop where
  forest : program.code.arena.Forest [program.root]
  start : ∃ world, run.start = .eval program.root ⟨program.code, program.global⟩ [] world
  newest : run.start.world.heap.frames.size = program.global.index + 1
  outermost : run.start.world.heap.parent? program.global = none
  unbound : ∀ name, run.start.world.heap.binds program.global name = false

def Level (program : Program) (run : Run) (now : State) (frame : FrameId) (id : ExprId) : Prop :=
  frame = program.global ∧ program.code.arena.OwnLevel program.root id ∨
    ∃ function, run.Activated program.code now function frame ∧ program.code.arena.Directly function id

def Allots (program : Program) (run : Run) (now : State) (frame : FrameId) (name : Name) : Prop :=
  frame = program.global ∧
      (program.code.arena.OwnDeclares program.root name ∨ program.code.arena.Assigns name) ∨
    ∃ function, run.Activated program.code now function frame ∧
      (program.code.arena.Parameter function name ∨ program.code.arena.BodyDeclares function name)

/-- A closure of the program that captured the frame of the level it was made at. -/
def Native (program : Program) (run : Run) (now : State) (closure : Closure) : Prop :=
  ∃ function, run.Created program.code now function closure ∧ program.Level run now closure.scope function

def Live (program : Program) (run : Run) (now : State) (frame : FrameId) : Prop :=
  frame = program.global ∨ ∃ function, run.Activated program.code now function frame ∧
    ∀ name, program.code.arena.Parameter function name → now.world.heap.binds frame name = true

variable {program : Program} {run : Run} {now later : State} {frame : FrameId}

theorem Level.mono {id : ExprId} (level : program.Level run now frame id)
    (more : State.Reaches run.names now later) : program.Level run later frame id := by
  rcases level with top | ⟨function, activated, directly⟩
  · exact .inl top
  · exact .inr ⟨function, activated.mono more, directly⟩

theorem Level.child {id child : ExprId} (level : program.Level run now frame id)
    (step : program.code.arena.Child id child) : program.Level run now frame child := by
  rcases level with ⟨top, level⟩ | ⟨function, activated, directly⟩
  · exact .inl ⟨top, level.tail step⟩
  · exact .inr ⟨function, activated, directly.child step⟩

theorem Level.declares {id init : ExprId} {name : Name} (level : program.Level run now frame id)
    (read : program.code.arena.node? id = some (.declare name init)) : program.Allots run now frame name := by
  rcases level with ⟨top, level⟩ | ⟨function, activated, directly⟩
  · exact .inl ⟨top, .inl ⟨id, init, level, read⟩⟩
  · exact .inr ⟨function, activated, .inr ⟨id, init, directly, read⟩⟩

theorem Allots.mono {name : Name} (allots : program.Allots run now frame name)
    (more : State.Reaches run.names now later) : program.Allots run later frame name := by
  rcases allots with top | ⟨function, activated, listed⟩
  · exact .inl top
  · exact .inr ⟨function, activated.mono more, listed⟩

theorem Native.mono {closure : Closure} (native : program.Native run now closure)
    (more : State.Reaches run.names now later) : program.Native run later closure := by
  obtain ⟨function, created, level⟩ := native
  exact ⟨function, created.mono more, level.mono more⟩

theorem Live.mono (live : program.Live run now frame) (more : State.Reaches run.names now later) :
    program.Live run later frame := by
  rcases live with top | ⟨function, activated, bound⟩
  · exact .inl top
  · exact .inr ⟨function, activated.mono more, fun name listed => more.grows.binds (bound name listed)⟩

def discipline (program : Program) (run : Run) (now : State) : Discipline where
  closure := program.Native run now
  expr site id := site.code = program.code ∧ program.Level run now site.frame id
  declares site name := program.Allots run now site.frame name
  assigns _ name := program.code.arena.Assigns name
  site site := site.code = program.code ∧ program.Live run now site.frame
  child := by
    rintro ⟨_, frame⟩ id child ⟨rfl, level⟩ step
    exact ⟨rfl, level.child step⟩
  declared := by
    rintro ⟨_, frame⟩ id init name ⟨rfl, level⟩ read
    exact level.declares read
  assigned := by
    rintro ⟨_, frame⟩ id source name ⟨rfl, level⟩ read
    exact ⟨id, source, read⟩

theorem discipline_within (program : Program) (more : State.Reaches run.names now later) :
    (program.discipline run now).Within (program.discipline run later) where
  closure native := native.mono more
  expr level := ⟨level.1, level.2.mono more⟩
  declares allots := allots.mono more
  assigns assigned := assigned
  site live := ⟨live.1, live.2.mono more⟩

/-- What holds of the states of a run: each frame made since the start comes from a call of a closure of the
    program, and what the frames hold fits their levels. -/
structure Nested (program : Program) (run : Run) (now : State) : Prop where
  reached : State.Reaches run.names run.start now
  allows : (program.discipline run now).Allows now
  frames {frame : FrameId} : program.global.index < frame.index → frame.index < now.world.heap.frames.size →
    ∃ event callee, run.Passed event now ∧ event.Enters callee frame ∧ program.Native run event callee
  closed : now.world.heap.Closed (fun frame => program.global.index ≤ frame.index) (program.Native run now)
  named : now.world.heap.Named (fun frame => program.global.index ≤ frame.index) (program.Allots run now)

namespace Begins

variable (begins : program.Begins run)

include begins

theorem activated_young {function : ExprId} (activated : run.Activated program.code now function frame) :
    program.global.index < frame.index := by
  have young := activated.young
  have newest := begins.newest
  omega

theorem activated_ne {function : ExprId} (activated : run.Activated program.code now function frame) :
    frame ≠ program.global := by
  rintro rfl
  exact Nat.lt_irrefl _ (begins.activated_young activated)

theorem level_young {id : ExprId} (level : program.Level run now frame id) :
    program.global.index ≤ frame.index := by
  rcases level with ⟨rfl, _⟩ | ⟨function, activated, _⟩
  · exact Nat.le_refl _
  · exact Nat.le_of_lt (begins.activated_young activated)

theorem live_young (live : program.Live run now frame) : program.global.index ≤ frame.index := by
  rcases live with rfl | ⟨function, activated, _⟩
  · exact Nat.le_refl _
  · exact Nat.le_of_lt (begins.activated_young activated)

theorem global_held (reached : State.Reaches run.names run.start now) :
    program.global.index < now.world.heap.frames.size := by
  have kept := reached.grows.size
  have newest := begins.newest
  omega

theorem global_outermost (reached : State.Reaches run.names run.start now) :
    now.world.heap.parent? program.global = none := by
  have held := begins.newest
  rw [reached.grows.parent (by omega)]
  exact begins.outermost

theorem level_held (reached : State.Reaches run.names run.start now) {id : ExprId}
    (level : program.Level run now frame id) : frame.index < now.world.heap.frames.size := by
  rcases level with ⟨rfl, _⟩ | ⟨function, activated, _⟩
  · exact begins.global_held reached
  · exact activated.held

theorem live_held (reached : State.Reaches run.names run.start now) (live : program.Live run now frame) :
    frame.index < now.world.heap.frames.size := by
  rcases live with rfl | ⟨function, activated, _⟩
  · exact begins.global_held reached
  · exact activated.held

theorem native_scope {callee : Closure} (native : program.Native run now callee) :
    program.global.index ≤ callee.scope.index := by
  obtain ⟨function, created, level⟩ := native
  exact begins.level_young level

theorem activated_unique {function function' : ExprId} (first : run.Activated program.code now function frame)
    (second : run.Activated program.code later function' frame) : function = function' := by
  obtain ⟨event, callee, passed, enters, created⟩ := first
  obtain ⟨event', callee', passed', enters', created'⟩ := second
  cases Run.entered_once passed.reached passed'.reached enters enters'
  exact begins.forest.single (.body created.node) (.body created'.node)

end Begins

namespace Nested

variable (begins : program.Begins run) (nested : program.Nested run now)

include begins nested

theorem parent (young : program.global.index < frame.index) (held : frame.index < now.world.heap.frames.size) :
    ∃ parent, now.world.heap.parent? frame = some parent ∧ program.global.index ≤ parent.index ∧
      parent.index < frame.index := by
  obtain ⟨event, callee, passed, enters, native⟩ := nested.frames young held
  refine ⟨callee.scope, ?_, begins.native_scope native, ?_⟩
  · have made := enters.size run.names
    rw [passed.later.grows.parent (by omega)]
    exact enters.parent run.names
  · obtain ⟨function, _, level⟩ := native
    obtain ⟨_, _, _, rfl⟩ := enters
    exact begins.level_held passed.reached level

theorem root_eq (young : program.global.index ≤ frame.index) (held : frame.index < now.world.heap.frames.size) :
    now.world.heap.root frame = program.global := by
  induction index : frame.index using Nat.strong_induction_on generalizing frame with
  | _ index ih =>
    subst index
    by_cases top : frame = program.global
    · subst top
      rw [Heap.root, begins.global_outermost nested.reached]
    · have inner : program.global.index < frame.index := by
        apply Nat.lt_of_le_of_ne young
        intro same
        exact top (congrArg FrameId.mk same.symm)
      obtain ⟨parent, up, around, older⟩ := nested.parent begins inner held
      rw [Heap.root, up]
      simp only [older, if_true]
      exact ih parent.index older around (by omega) rfl

theorem step_allows : (program.discipline run (now.step run.names)).Allows (now.step run.names) := by
  have next : State.Reaches run.names now (now.step run.names) := .step (.refl _)
  have passed : run.Passed now (now.step run.names) := ⟨nested.reached, .refl _⟩
  have site := nested.allows.site
  apply (program.discipline_within next).allows nested.allows |>.step
  · intro name
    have closed := nested.closed.mono fun _ native => native.mono next
    exact closed.resolve (begins.live_young site.2) name
  · intro function params body performs read
    have control := nested.allows.control
    rw [performs] at control
    obtain ⟨code, level⟩ := control
    rw [code] at read
    rw [code]
    exact ⟨function, ⟨now, passed, params, body, performs, code, read, rfl⟩, level.mono next⟩
  · intro callee args params performs arity read heap
    obtain ⟨⟨function, created, level⟩, _⟩ := nested.allows.called performs
    have activated : run.Activated program.code (now.step run.names) function ⟨now.world.heap.frames.size⟩ :=
      ⟨now, callee, passed, ⟨args, performs, arity, rfl⟩, created⟩
    refine ⟨⟨created.code_eq, .inr ⟨function, activated, ?_⟩⟩, created.code_eq, .inr ⟨function, activated, ?_⟩⟩
    · rintro name ⟨span, body, listed, node, found, member⟩
      cases created.node.symm.trans node
      have found : callee.paramNames? = some listed := by
        rw [Closure.paramNames?, created.code_eq]
        exact found
      cases read.symm.trans found
      rw [heap, Heap.binds_bindAll]
      refine .inr ⟨rfl, by rw [Heap.size_newFrame]; exact Nat.lt_succ_self _, ?_⟩
      rw [List.map_fst_zip]
      · exact member
      · have length : params.length = callee.arity := Arena.slice?_length read
        omega
    · exact ⟨callee.params, callee.body, created.node, .refl⟩

theorem step : program.Nested run (now.step run.names) := by
  have next : State.Reaches run.names now (now.step run.names) := .step (.refl _)
  have passed : run.Passed now (now.step run.names) := ⟨nested.reached, .refl _⟩
  have changes := now.step_changes run.names
  have allowed := (program.discipline_within next).allows nested.allows
  have live := nested.allows.site.2
  refine ⟨nested.reached.tail, nested.step_allows begins, ?_, ?_, ?_⟩
  · intro frame young held
    by_cases old : frame.index < now.world.heap.frames.size
    · obtain ⟨event, callee, passed, enters, native⟩ := nested.frames young old
      exact ⟨event, callee, passed.mono next, enters, native⟩
    · obtain ⟨callee, args, performs, made⟩ := changes.new_frame (Nat.not_lt.mp old) held
      exact ⟨now, callee, passed, ⟨args, performs, made⟩, (nested.allows.called performs).1⟩
  · have closed := nested.closed.mono fun _ native => native.mono next
    exact allowed.closed changes closed fun callee native => begins.native_scope native
  · have named : now.world.heap.Named (fun frame => program.global.index ≤ frame.index)
        (program.Allots run (now.step run.names)) := fun young bound => (nested.named young bound).mono next
    apply allowed.named changes named
    · exact fun name allots => allots
    · intro name assigned
      have root := nested.root_eq begins (begins.live_young live) (begins.live_held nested.reached live)
      exact .inl ⟨root, .inr assigned⟩
    · intro callee args params performs arity read name member
      obtain ⟨⟨function, created, _⟩, _⟩ := nested.allows.called performs
      refine .inr ⟨function, ⟨now, callee, passed, ⟨args, performs, arity, rfl⟩, created⟩, .inl ?_⟩
      refine ⟨callee.params, callee.body, params, created.node, ?_, member⟩
      rw [← created.code_eq]
      exact read

end Nested

namespace Begins

variable (begins : program.Begins run)

include begins

theorem nested_start : program.Nested run run.start := by
  have newest := begins.newest
  have only : ∀ {frame : FrameId}, program.global.index ≤ frame.index →
      frame.index < run.start.world.heap.frames.size → frame = program.global := by
    intro frame young held
    have same : frame.index = program.global.index := by omega
    exact congrArg FrameId.mk same
  have unbound : ∀ {frame : FrameId} {name : Name}, program.global.index ≤ frame.index →
      run.start.world.heap.binds frame name = true → False := by
    intro frame name young bound
    rw [only young (Heap.index_lt_of_binds bound), begins.unbound] at bound
    cases bound
  refine ⟨.refl _, ?_, ?_, ⟨?_, ?_⟩, ?_⟩
  · obtain ⟨world, start⟩ := begins.start
    rw [start]
    exact ⟨⟨rfl, .inl rfl⟩, ⟨rfl, .inl ⟨rfl, .refl⟩⟩, trivial⟩
  · intro frame young held
    omega
  · intro frame parent young up
    by_cases held : frame.index < run.start.world.heap.frames.size
    · rw [only young held, begins.outermost] at up
      cases up
    · rw [Heap.parent?, Heap.frame?_of_size_le (Nat.not_lt.mp held)] at up
      cases up
  · intro frame name closure young read
    have bound : run.start.world.heap.binds frame name = true := by
      rw [Heap.binds, read]
      rfl
    exact absurd (unbound young bound) id
  · intro frame name young bound
    exact absurd (unbound young bound) id

theorem nested (reached : State.Reaches run.names run.start now) : program.Nested run now :=
  reached.invariant (fun _ nested => nested.step begins) begins.nested_start

/-- A closure captures the frame the program is run in, or a frame of the innermost function around the one
    it is made from. -/
theorem scope_cases {function : ExprId} {closure : Closure} (created : run.Created program.code now function closure) :
    closure.scope = program.global ∧ (∀ outer, ¬ program.code.arena.Encloses outer function) ∨
      ∃ outer, program.code.arena.Innermost outer function ∧ run.Activated program.code now outer closure.scope := by
  obtain ⟨event, passed, params, body, performs, code, read, rfl⟩ := created
  have control := (begins.nested passed.reached).allows.control
  rw [performs] at control
  rcases control.2 with ⟨top, level⟩ | ⟨outer, activated, directly⟩
  · exact .inl ⟨top, fun outer => begins.forest.not_encloses List.mem_cons_self level⟩
  · exact .inr ⟨outer, begins.forest.innermost directly, activated.mono passed.reaches⟩

theorem parent_of_activated {function : ExprId} (activated : run.Activated program.code now function frame) :
    ∃ closure, run.Created program.code now function closure ∧ closure.scope.index < frame.index ∧
      now.world.heap.parent? frame = some closure.scope := by
  obtain ⟨event, callee, passed, enters, created⟩ := activated
  refine ⟨callee, created.mono passed.reaches, ?_, ?_⟩
  · obtain ⟨_, _, _, rfl⟩ := enters
    rcases begins.scope_cases created with ⟨top, _⟩ | ⟨outer, _, around⟩
    · rw [top]
      exact begins.global_held passed.reached
    · exact around.held
  · have made := enters.size run.names
    rw [passed.later.grows.parent (by omega)]
    exact enters.parent run.names

theorem depth_eq (reached : State.Reaches run.names run.start now) {function : ExprId}
    (activated : run.Activated program.code now function frame) :
    now.world.heap.depth frame = 2 + {outer | program.code.arena.Encloses outer function}.ncard := by
  rw [Heap.depth_eq]
  induction index : frame.index using Nat.strong_induction_on generalizing frame function with
  | _ index ih =>
    subst index
    obtain ⟨closure, created, older, up⟩ := begins.parent_of_activated activated
    rw [Heap.chain_of_parent up older, List.length_cons]
    rcases begins.scope_cases created with ⟨top, alone⟩ | ⟨outer, innermost, around⟩
    · have single : now.world.heap.chain program.global = [program.global] := by
        apply Heap.chain_of_top
        intro parent up
        rw [begins.global_outermost reached] at up
        cases up
      have none : {outer | program.code.arena.Encloses outer function} = ∅ :=
        Set.eq_empty_of_forall_notMem alone
      rw [top, single, none, Set.ncard_empty, List.length_singleton]
    · rw [ih closure.scope.index older around rfl, begins.forest.ncard_encloses innermost]
      omega

end Begins

end Program

def Session.freshRun (session : Session) (code : Code) (root : ExprId) : Run :=
  let (global, ready) := session.newFrame none
  ⟨session.names, .eval root ⟨code, global⟩ [] (ready.world.emit .enterProgram)⟩

theorem Session.freshRun_begins {session after : Session} {program : List Tree} {code : Code} {root : ExprId}
    (loaded : session.load program = (code, some root, after)) :
    (Program.mk code root (after.newFrame none).1).Begins (after.freshRun code root) := by
  have forest : code.arena.Forest [root] := by
    simp only [Session.load, Session.freeze, Prod.mk.injEq] at loaded
    obtain ⟨rfl, top, _⟩ := loaded
    exact Tree.buildProgram_forest (Prod.ext top rfl)
  have fresh : ∀ name, (after.world.heap.newFrame none).2.binds ⟨after.world.heap.frames.size⟩ name = false := by
    intro name
    rw [Heap.binds_newFrame, decide_eq_false (fun other => other rfl), Bool.false_and]
  refine ⟨forest, ⟨_, rfl⟩, Heap.size_newFrame _ _, ?_, fresh⟩
  have up := after.world.heap.parent?_newFrame none ⟨after.world.heap.frames.size⟩
  rw [if_pos rfl] at up
  exact up

/-- Scope chains follow the nesting of functions in the program, in every state of its run: closures capture
    a frame of the function around them, the frame of a call lies in the captured one and so as deep as the
    function is nested, and frames bind only what is written at their level. -/
theorem scope_chains_follow_nesting (session after : Session) (program : List Tree) (code : Code) (root : ExprId)
    (loaded : session.load program = (code, some root, after)) (state : State)
    (reached : State.Reaches after.names (after.freshRun code root).start state) :
    let run := after.freshRun code root
    let global := (after.newFrame none).1
    let heap := state.world.heap
    (∀ function closure, run.Created code state function closure →
      closure.scope = global ∧ (∀ outer, ¬ code.arena.Encloses outer function) ∨
        ∃ outer, code.arena.Innermost outer function ∧ run.Activated code state outer closure.scope) ∧
    (∀ function frame, run.Activated code state function frame →
      (∃ closure, run.Created code state function closure ∧ heap.parent? frame = some closure.scope) ∧
      heap.depth frame = 2 + {outer | code.arena.Encloses outer function}.ncard ∧
      (∀ name, heap.binds frame name = true →
        code.arena.Parameter function name ∨ code.arena.BodyDeclares function name) ∧
      ∀ entered, State.Reaches after.names run.start entered → State.Reaches after.names entered state →
        entered.site.frame = frame → ∀ name, code.arena.Parameter function name → heap.binds frame name = true) ∧
    (∀ frame, global.index < frame.index → frame.index < heap.frames.size →
      ∃ function, run.Activated code state function frame) ∧
    (∀ frame name closure, global.index ≤ frame.index → heap.get? frame name = some (.function closure) →
      ∃ function, run.Created code state function closure) ∧
    ∀ name, heap.binds global name = true → code.arena.OwnDeclares root name ∨ code.arena.Assigns name := by
  intro run global heap
  have begins := Session.freshRun_begins loaded
  have nested := begins.nested reached
  refine ⟨fun function closure created => begins.scope_cases created, ?_, ?_, ?_, ?_⟩
  · intro function frame activated
    refine ⟨?_, begins.depth_eq reached activated, ?_, ?_⟩
    · obtain ⟨closure, created, _, up⟩ := begins.parent_of_activated activated
      exact ⟨closure, created, up⟩
    · intro name bound
      have young := Nat.le_of_lt (begins.activated_young activated)
      rcases nested.named young bound with ⟨top, _⟩ | ⟨other, activated', listed⟩
      · exact absurd top (begins.activated_ne activated)
      · cases begins.activated_unique activated activated'
        exact listed
    · rintro entered before more rfl name listed
      rcases (begins.nested before).allows.site.2 with top | ⟨other, activated', bound⟩
      · exact absurd top (begins.activated_ne activated)
      · cases begins.activated_unique activated activated'
        exact more.grows.binds (bound name listed)
  · intro frame young held
    obtain ⟨event, callee, passed, enters, function, created, _⟩ := nested.frames young held
    exact ⟨function, event, callee, passed, enters, created⟩
  · intro frame name closure young read
    obtain ⟨function, created, _⟩ := nested.closed.closure young read
    exact ⟨function, created⟩
  · intro name bound
    rcases nested.named (Nat.le_refl _) bound with ⟨_, listed⟩ | ⟨function, activated, _⟩
    · exact listed
    · exact absurd rfl (begins.activated_ne activated)

def nestedCalls : List Tree := [.call (.function [] (.call (.function [] (.literal .null)) [])) []]

theorem nestedCalls_loads : (Session.new .silent).load nestedCalls =
    (((Session.new .silent).load nestedCalls).1, some ⟨4⟩, ((Session.new .silent).load nestedCalls).2.2) := rfl

theorem scope_chains_follow_nesting_nestedCalls :
    let after := ((Session.new .silent).load nestedCalls).2.2
    let code := ((Session.new .silent).load nestedCalls).1
    ∃ state, State.Reaches after.names (after.freshRun code ⟨4⟩).start state ∧
      ∃ function, (after.freshRun code ⟨4⟩).Activated code state function ⟨2⟩ ∧
        state.world.heap.depth ⟨2⟩ = 2 + {outer | code.arena.Encloses outer function}.ncard := by
  intro after code
  have reached : State.Reaches after.names (after.freshRun code ⟨4⟩).start
      ((State.step after.names)^[10] (after.freshRun code ⟨4⟩).start) :=
    .step (.step (.step (.step (.step (.step (.step (.step (.step (.step (.refl _))))))))))
  obtain ⟨_, activations, frames, _⟩ := scope_chains_follow_nesting _ _ _ _ _ nestedCalls_loads _ reached
  obtain ⟨function, activated⟩ := frames ⟨2⟩ (by decide) (by decide)
  exact ⟨_, reached, function, activated, (activations function _ activated).2.1⟩

end ScopedEval
