import ScopedEval.Proofs.Growth
import ScopedEval.Proofs.ScopeChains

namespace ScopedEval

def Heap.Holds (heap : Heap) (value : Value) : Prop := ∃ id name, heap.get? id name = some value

namespace Heap.Holds

variable {heap : Heap} {value : Value}

theorem of_bind {id : FrameId} {name : Name} {stored : Value} (holds : (heap.bind id name stored).Holds value) :
    value = stored ∨ heap.Holds value := by
  obtain ⟨other, key, read⟩ := holds
  rw [get?_bind] at read
  split at read
  · exact .inl (Option.some.inj read).symm
  · exact .inr ⟨other, key, read⟩

theorem of_newFrame {parent : Option FrameId} (holds : (heap.newFrame parent).2.Holds value) : heap.Holds value := by
  obtain ⟨id, name, read⟩ := holds
  rw [get?_newFrame_eq] at read
  exact ⟨id, name, read⟩

theorem of_resolve {id : FrameId} {name : Name} {closure : Closure}
    (resolved : heap.resolve id name = .function closure) : heap.Holds (.function closure) := by
  have closed : heap.Closed (fun _ => True) fun closure => heap.Holds (.function closure) :=
    ⟨fun _ _ => trivial, fun _ read => ⟨_, _, read⟩⟩
  exact closed.resolve trivial name closure resolved

end Heap.Holds

def Outcome.values : Outcome → List Value
  | .value result => [result]
  | .failure _ | .outOfRange => []

def Task.values : Task → List Value
  | .expr _ => []
  | .arguments callee evaluated _ => .function callee :: evaluated
  | .call callee args => .function callee :: args

def Control.values : Control → List Value
  | .perform task => task.values
  | .deliver outcome => outcome.values

def Continuation.values : Continuation → List Value
  | .apply _ left => [left]
  | .join first => [first]
  | .argument closure evaluated _ => .function closure :: evaluated
  | .print | .rightOperand .. | .branch .. | .loopTest .. | .loopBody .. | .second _ | .declare _ | .assign _
  | .callee _ | .leave _ => []

/-- The values on their way: operands and arguments already evaluated, functions about to be called, results. -/
def State.values (state : State) : List Value := state.control.values ++ state.stack.flatMap Continuation.values

def State.Holds (state : State) (value : Value) : Prop := value ∈ state.values ∨ state.world.heap.Holds value

def handling (valid : Closure → Prop) : Discipline where
  closure := valid
  expr _ _ := True
  declares _ _ := True
  assigns _ _ := True
  site _ := True
  child _ _ := trivial
  declared _ _ := trivial
  assigned _ _ := trivial

namespace State

variable {valid : Closure → Prop}

theorem only_function_cons {callee : Closure} {args : List Value} :
    (∀ value ∈ Value.function callee :: args, value.Only valid) ↔ valid callee ∧ ∀ arg ∈ args, arg.Only valid := by
  rw [List.forall_mem_cons]
  exact and_congr_left fun _ => ⟨fun only => only callee rfl, .function⟩

theorem handling_control (site : Site) (control : Control) :
    (handling valid).control site control ↔ ∀ value ∈ control.values, value.Only valid := by
  cases control with
  | perform task =>
    cases task with
    | expr id => exact ⟨fun _ => List.forall_mem_nil _, fun _ => trivial⟩
    | arguments callee evaluated rest =>
      refine Iff.trans ?_ only_function_cons.symm
      exact ⟨fun all => ⟨all.1, all.2.1⟩, fun all => ⟨all.1, all.2, fun _ _ => trivial⟩⟩
    | call callee args => exact only_function_cons.symm
  | deliver outcome =>
    cases outcome with
    | value value =>
      refine Iff.trans ?_ List.forall_mem_singleton.symm
      exact ⟨fun all => all value rfl, fun only => Discipline.control_value only⟩
    | failure | outOfRange => exact ⟨fun _ => List.forall_mem_nil _, fun _ => Discipline.control_abort rfl⟩

theorem handling_continuation (site : Site) (continuation : Continuation) :
    (handling valid).continuation site continuation ↔ ∀ value ∈ continuation.values, value.Only valid := by
  cases continuation with
  | apply op left => exact (List.forall_mem_singleton (p := fun value : Value => value.Only valid)).symm
  | join first => exact (List.forall_mem_singleton (p := fun value : Value => value.Only valid)).symm
  | argument callee evaluated rest =>
    refine Iff.trans ?_ only_function_cons.symm
    exact ⟨fun all => ⟨all.1, all.2.1⟩, fun all => ⟨all.1, all.2, fun _ _ => trivial⟩⟩
  | branch | loopTest | loopBody =>
    exact ⟨fun _ => List.forall_mem_nil _, fun _ => ⟨trivial, by intros; trivial⟩⟩
  | callee => exact ⟨fun _ => List.forall_mem_nil _, fun _ _ _ _ _ => trivial⟩
  | print | rightOperand | second | declare | assign | leave =>
    exact ⟨fun _ => List.forall_mem_nil _, fun _ => trivial⟩

theorem handling_stack (site : Site) (stack : List Continuation) :
    (handling valid).stack site stack ↔ ∀ value ∈ stack.flatMap Continuation.values, value.Only valid := by
  induction stack generalizing site with
  | nil => exact ⟨fun _ => List.forall_mem_nil _, fun _ => trivial⟩
  | cons continuation rest ih =>
    rw [List.flatMap_cons, List.forall_mem_append, ← handling_continuation site, ← ih]
    exact Iff.rfl

theorem handling_allows_iff (state : State) :
    (handling valid).Allows state ↔ ∀ value ∈ state.values, value.Only valid := by
  rw [values, List.forall_mem_append, ← handling_control state.site, ← handling_stack state.site]
  exact ⟨fun allowed => ⟨allowed.control, allowed.stack⟩, fun both => ⟨trivial, both.1, both.2⟩⟩

def making? (state : State) : Option Closure :=
  match state.control with
  | .perform (.expr id) =>
    match state.site.code.arena.node? id with
    | some (.function params body) =>
      some (state.world.newClosure params body state.site.code state.site.frame).1
    | _ => none
  | _ => none

theorem making?_eq_some_iff {state : State} {closure : Closure} :
    state.making? = some closure ↔ ∃ code function, state.Makes code function closure := by
  constructor
  · intro making
    unfold making? at making
    split at making
    · rename_i id performs
      split at making
      · rename_i params body read
        exact ⟨state.site.code, id, params, body, performs, rfl, read, (Option.some.inj making).symm⟩
      · cases making
    · cases making
  · rintro ⟨_, function, params, body, performs, rfl, read, rfl⟩
    unfold making?
    rw [performs]
    simp only [read]

theorem Makes.step {state : State} {code : Code} {function : ExprId} {closure : Closure}
    (makes : state.Makes code function closure) (names : Interner) :
    (state.step names).control = .deliver (.value (.function closure)) ∧
      (state.step names).world.heap.closures = state.world.heap.closures + 1 := by
  obtain ⟨params, body, performs, rfl, read, rfl⟩ := makes
  obtain ⟨control, site, stack, world⟩ := state
  cases performs
  have begins : State.step names ⟨.perform (.expr function), site, stack, world⟩ =
      (Node.function params body).start site stack world := State.step_expr names read stack world
  rw [begins]
  exact ⟨rfl, rfl⟩

theorem step_closures (names : Interner) (state : State) :
    (state.step names).world.heap.closures = state.world.heap.closures + state.making?.toList.length := by
  cases making : state.making? with
  | some closure =>
    obtain ⟨code, function, makes⟩ := making?_eq_some_iff.mp making
    exact (makes.step names).2
  | none =>
    have changes := state.step_changes names
    generalize (state.step names).world.heap = heap at changes ⊢
    cases changes with
    | nothing | declares | assigns => rfl
    | @makes id body params performs read =>
      have makes : state.Makes state.site.code id _ := ⟨params, body, performs, rfl, read, rfl⟩
      cases making.symm.trans (making?_eq_some_iff.mpr ⟨_, _, makes⟩)
    | enters =>
      rw [Heap.closures_bindAll]
      rfl

/-- A function there is after a step was there before, or the step makes it. -/
theorem holds_of_step {names : Interner} {state : State} {closure : Closure}
    (holds : (state.step names).Holds (.function closure)) :
    state.Holds (.function closure) ∨ state.making? = some closure := by
  -- a discipline that allows what is there now and what is about to be made, and nothing else
  have allowed : (handling fun closure => state.Holds (.function closure) ∨ state.making? = some closure).Allows
      state := by
    rw [handling_allows_iff]
    rintro value member closure rfl
    exact .inl (.inl member)
  have closed : state.world.heap.Closed (fun _ => True) fun closure =>
      state.Holds (.function closure) ∨ state.making? = some closure :=
    ⟨fun _ _ => trivial, fun _ read => .inl (.inr ⟨_, _, read⟩)⟩
  rcases holds with member | ⟨id, name, read⟩
  · have later := @Discipline.Allows.step _ names _ allowed (fun name => closed.resolve trivial name)
      (fun id params body performs read =>
        .inr (making?_eq_some_iff.mpr ⟨_, id, params, body, performs, rfl, read, rfl⟩))
      (fun _ _ _ _ _ _ _ => ⟨trivial, trivial⟩)
    exact (handling_allows_iff (state.step names)).mp later _ member closure rfl
  · have later := allowed.closed (state.step_changes names) closed fun _ _ => trivial
    exact later.closure trivial read

theorem Changes.parent {state : State} {heap : Heap} (changes : state.Changes heap) {id outer : FrameId}
    (up : heap.parent? id = some outer) :
    state.world.heap.parent? id = some outer ∨ id.index = state.world.heap.frames.size ∧
      ∃ closure, state.Holds (.function closure) ∧ closure.scope = outer := by
  cases changes with
  | nothing | makes => exact .inl up
  | declares | assigns =>
    rw [Heap.parent?_bind] at up
    exact .inl up
  | @enters callee args made performs arity listed =>
    have called : .function callee ∈ state.control.values := by
      rw [performs]
      exact List.mem_cons_self
    rw [Heap.parent?_bindAll, Heap.parent?_newFrame] at up
    split at up
    · rename_i last
      exact .inr ⟨last, callee, .inl (List.mem_append_left _ called), Option.some.inj up⟩
    · exact .inl up

end State

inductive Activity where
  | idle (world : World)
  | evaluating (names : Interner) (state : State)

namespace Activity

def world : Activity → World
  | .idle world => world
  | .evaluating _ state => state.world

def Holds : Activity → Value → Prop
  | .idle world => world.heap.Holds
  | .evaluating _ state => state.Holds

end Activity

/-- A program that has evaluation at its service: the frames and the values it has got hold of, and what goes on
    at the moment. -/
structure Client where
  frames : List FrameId
  values : List Value
  activity : Activity

namespace Client

def new (sink : Sink) : Client := ⟨[], [], .idle (.new sink)⟩

def heap (client : Client) : Heap := client.activity.world.heap

def Holds (client : Client) (value : Value) : Prop := value ∈ client.values ∨ client.activity.Holds value

theorem holds_of_get {client : Client} {id : FrameId} {name : Name} {value : Value}
    (read : client.heap.get? id name = some value) : client.Holds value := by
  obtain ⟨frames, values, activity⟩ := client
  cases activity with
  | idle world => exact .inr ⟨id, name, read⟩
  | evaluating names state => exact .inr (.inr ⟨id, name, read⟩)

/-- What a client can do, with the function that is made by it. An evaluation, once begun, goes on step by step,
    and when it has come to its end, be it a failure, the client has the result. -/
inductive Step : Client → Option Closure → Client → Prop where
  | newFrame {frames : List FrameId} {values : List Value} {world : World} :
      Step ⟨frames, values, .idle world⟩ none
        ⟨(world.newFrame none).1 :: frames, values, .idle (world.newFrame none).2⟩
  | child {frames : List FrameId} {values : List Value} {world : World} {outer : FrameId} : outer ∈ frames →
      Step ⟨frames, values, .idle world⟩ none
        ⟨(world.newFrame (some outer)).1 :: frames, values, .idle (world.newFrame (some outer)).2⟩
  | captured {frames : List FrameId} {values : List Value} {world : World} {closure : Closure} :
      .function closure ∈ values →
      Step ⟨frames, values, .idle world⟩ none ⟨closure.scope :: frames, values, .idle world⟩
  | scalar {frames : List FrameId} {values : List Value} {world : World} {value : Value} :
      value.toFunction? = none →
      Step ⟨frames, values, .idle world⟩ none ⟨frames, value :: values, .idle world⟩
  | construct {frames : List FrameId} {values : List Value} {world : World} {scope : FrameId} {params : Span}
      {body : ExprId} {code : Code} : scope ∈ frames →
      Step ⟨frames, values, .idle world⟩ (some (world.newClosure params body code scope).1)
        ⟨frames, .function (world.newClosure params body code scope).1 :: values,
          .idle (world.newClosure params body code scope).2⟩
  | resolve {frames : List FrameId} {values : List Value} {world : World} {id : FrameId} {name : Name} :
      id ∈ frames →
      Step ⟨frames, values, .idle world⟩ none ⟨frames, world.heap.resolve id name :: values, .idle world⟩
  | declare {frames : List FrameId} {values : List Value} {world : World} {id : FrameId} {name : Name}
      {value : Value} : id ∈ frames → value ∈ values → world.heap.binds id name = false →
      Step ⟨frames, values, .idle world⟩ none ⟨frames, values, .idle (world.declare id name value)⟩
  | assign {frames : List FrameId} {values : List Value} {world : World} {id : FrameId} {name : Name}
      {value : Value} : id ∈ frames → value ∈ values →
      Step ⟨frames, values, .idle world⟩ none ⟨frames, values, .idle (world.assign id name value)⟩
  | report {frames : List FrameId} {values : List Value} {world other : World} : other.heap = world.heap →
      Step ⟨frames, values, .idle world⟩ none ⟨frames, values, .idle other⟩
  | begin {frames : List FrameId} {values : List Value} {world : World} {names : Interner} {site : Site}
      {id : ExprId} : site.frame ∈ frames →
      Step ⟨frames, values, .idle world⟩ none ⟨frames, values, .evaluating names (.eval id site [] world)⟩
  | proceed {frames : List FrameId} {values : List Value} {names : Interner} {state : State} :
      Step ⟨frames, values, .evaluating names state⟩ state.making?
        ⟨frames, values, .evaluating names (state.step names)⟩
  | finish {frames : List FrameId} {values : List Value} {names : Interner} {outcome : Outcome} {site : Site}
      {world : World} :
      Step ⟨frames, values, .evaluating names (.deliver outcome site [] world)⟩ none
        ⟨frames, outcome.values ++ values, .idle world⟩

inductive Runs (start : Client) : List Closure → Client → Prop where
  | refl : Runs start [] start
  | step {made : List Closure} {middle next : Client} {closure : Option Closure} : Runs start made middle →
      Step middle closure next → Runs start (made ++ closure.toList) next

namespace Step

variable {client next : Client} {made : Option Closure}

theorem grows (step : client.Step made next) : client.heap.Grows next.heap := by
  cases step with
  | newFrame | child => exact .newFrame _ _
  | captured | scalar | resolve | begin | finish => exact .refl _
  | construct => exact ⟨Nat.le_refl _, fun _ => rfl, id⟩
  | declare => exact .bind _ _ _ _
  | @assign _ _ world id name value =>
    show world.heap.Grows (world.assign id name value).heap
    rw [World.heap_assign]
    exact .bind _ _ _ _
  | @report _ _ world other same =>
    show world.heap.Grows other.heap
    rw [same]
    exact .refl _
  | @proceed _ _ names state => exact state.step_grows names

theorem parent (step : client.Step made next) {id outer : FrameId} (up : next.heap.parent? id = some outer) :
    client.heap.parent? id = some outer ∨ id.index = client.heap.frames.size ∧
      (outer ∈ client.frames ∨ ∃ closure, client.Holds (.function closure) ∧ closure.scope = outer) := by
  cases step with
  | captured | scalar | construct | resolve | begin | finish => exact .inl up
  | @newFrame _ _ world =>
    have up : (world.heap.newFrame none).2.parent? id = some outer := up
    rw [Heap.parent?_newFrame] at up
    split at up
    · cases up
    · exact .inl up
  | @child _ _ world inside known =>
    have up : (world.heap.newFrame (some inside)).2.parent? id = some outer := up
    rw [Heap.parent?_newFrame] at up
    split at up
    · rename_i last
      cases up
      exact .inr ⟨last, .inl known⟩
    · exact .inl up
  | @declare _ _ world frame name value =>
    have up : (world.heap.bind frame name value).parent? id = some outer := up
    rw [Heap.parent?_bind] at up
    exact .inl up
  | @assign _ _ world frame name value =>
    have up : (world.assign frame name value).heap.parent? id = some outer := up
    rw [World.heap_assign, Heap.parent?_bind] at up
    exact .inl up
  | @report _ _ world other same =>
    have up : other.heap.parent? id = some outer := up
    rw [same] at up
    exact .inl up
  | @proceed _ _ names state =>
    rcases (state.step_changes names).parent up with before | ⟨last, closure, there, captured⟩
    · exact .inl before
    · exact .inr ⟨last, .inr ⟨closure, .inr there, captured⟩⟩

theorem closures (step : client.Step made next) :
    next.heap.closures = client.heap.closures + made.toList.length ∧
      ∀ closure, made = some closure → closure.stamp = client.heap.closures := by
  cases step with
  | newFrame | child | captured | scalar | resolve | declare | begin | finish =>
    exact ⟨rfl, fun _ none => by cases none⟩
  | construct =>
    refine ⟨rfl, fun closure same => ?_⟩
    cases same
    rfl
  | @assign _ _ world id name value =>
    refine ⟨?_, fun _ none => by cases none⟩
    show (world.assign id name value).heap.closures = world.heap.closures
    rw [World.heap_assign]
    rfl
  | report same => exact ⟨congrArg Heap.closures same, fun _ none => by cases none⟩
  | @proceed _ _ names state =>
    refine ⟨state.step_closures names, fun closure making => ?_⟩
    obtain ⟨_, _, _, _, _, _, _, rfl⟩ := State.making?_eq_some_iff.mp making
    rfl

theorem holds (step : client.Step made next) {closure : Closure} (there : next.Holds (.function closure)) :
    client.Holds (.function closure) ∨ made = some closure := by
  cases step with
  | newFrame | child =>
    rcases there with known | bound
    · exact .inl (.inl known)
    · exact .inl (.inr (Heap.Holds.of_newFrame bound))
  | captured => exact .inl there
  | scalar isScalar =>
    rcases there with known | bound
    · rcases List.mem_cons.mp known with rfl | known
      · cases isScalar
      · exact .inl (.inl known)
    · exact .inl (.inr bound)
  | construct =>
    rcases there with known | bound
    · rcases List.mem_cons.mp known with same | known
      · cases same
        exact .inr rfl
      · exact .inl (.inl known)
    · exact .inl (.inr bound)
  | resolve =>
    rcases there with known | bound
    · rcases List.mem_cons.mp known with same | known
      · exact .inl (.inr (Heap.Holds.of_resolve same.symm))
      · exact .inl (.inl known)
    · exact .inl (.inr bound)
  | declare _ given =>
    rcases there with known | bound
    · exact .inl (.inl known)
    · rcases Heap.Holds.of_bind bound with rfl | bound
      · exact .inl (.inl given)
      · exact .inl (.inr bound)
  | @assign _ _ world id name value _ given =>
    rcases there with known | bound
    · exact .inl (.inl known)
    · have bound : (world.assign id name value).heap.Holds (.function closure) := bound
      rw [World.heap_assign] at bound
      rcases bound.of_bind with rfl | bound
      · exact .inl (.inl given)
      · exact .inl (.inr bound)
  | @report _ _ world other same =>
    rcases there with known | bound
    · exact .inl (.inl known)
    · have bound : other.heap.Holds (.function closure) := bound
      rw [same] at bound
      exact .inl (.inr bound)
  | begin =>
    rcases there with known | member | bound
    · exact .inl (.inl known)
    · cases member
    · exact .inl (.inr bound)
  | proceed =>
    rcases there with known | there
    · exact .inl (.inl known)
    · rcases State.holds_of_step there with before | making
      · exact .inl (.inr before)
      · exact .inr making
  | finish =>
    rcases there with known | bound
    · rcases List.mem_append.mp known with result | known
      · exact .inl (.inr (.inl (List.mem_append_left _ result)))
      · exact .inl (.inl known)
    · exact .inl (.inr (.inr bound))

end Step

namespace Runs

variable {start middle now : Client} {made more : List Closure}

theorem trans (early : start.Runs made middle) (late : middle.Runs more now) : start.Runs (made ++ more) now := by
  induction late with
  | refl =>
    rw [List.append_nil]
    exact early
  | step _ step ih =>
    rw [← List.append_assoc]
    exact .step ih step

theorem grows (runs : start.Runs made now) : start.heap.Grows now.heap := by
  induction runs with
  | refl => exact .refl _
  | step _ step ih => exact ih.trans step.grows

theorem holds (runs : start.Runs made now) {closure : Closure} (there : now.Holds (.function closure)) :
    start.Holds (.function closure) ∨ closure ∈ made := by
  induction runs with
  | refl => exact .inl there
  | step _ step ih =>
    rcases step.holds there with before | rfl
    · rcases ih before with given | made
      · exact .inl given
      · exact .inr (List.mem_append_left _ made)
    · exact .inr (List.mem_append_right _ (List.mem_singleton_self closure))

theorem closures (runs : start.Runs made now) :
    now.heap.closures = start.heap.closures + made.length ∧
      made.map Closure.stamp = List.range' start.heap.closures made.length := by
  induction runs with
  | refl => exact ⟨rfl, rfl⟩
  | @step made middle next closure _ step ih =>
    obtain ⟨count, stamps⟩ := ih
    obtain ⟨later, stamp⟩ := step.closures
    rw [List.length_append]
    refine ⟨by omega, ?_⟩
    rw [List.map_append, stamps, ← List.range'_append_1, ← count]
    cases closure with
    | none => rfl
    | some closure => simp [stamp closure rfl]

theorem of_reaches {names : Interner} {state final : State} (reaches : State.Reaches names state final)
    (frames : List FrameId) (values : List Value) :
    ∃ made, Runs ⟨frames, values, .evaluating names state⟩ made ⟨frames, values, .evaluating names final⟩ := by
  induction reaches with
  | refl => exact ⟨[], .refl⟩
  | step _ ih =>
    obtain ⟨made, late⟩ := ih
    exact ⟨_, (Runs.refl.step .proceed).trans late⟩

theorem of_finishes {names : Interner} {site : Site} {id : ExprId} {world after : World} {outcome : Outcome}
    (finishes : Finishes names site id world outcome after) {frames : List FrameId} (inside : site.frame ∈ frames)
    (values : List Value) :
    ∃ made, Runs ⟨frames, values, .idle world⟩ made ⟨frames, outcome.values ++ values, .idle after⟩ := by
  obtain ⟨made, running⟩ := of_reaches (finishes.evaluates.reaches []) frames values
  exact ⟨_, ((Runs.refl.step (.begin inside)).trans running).step .finish⟩

end Runs

end Client

end ScopedEval
