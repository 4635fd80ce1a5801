import ScopedEval.Proofs.Effects
import ScopedEval.Proofs.Growth

namespace ScopedEval

def Event.bound? : Event → Option Name
  | .declare name | .implicitGlobal name => some name
  | .enterProgram | .exitProgram | .enterCall _ | .exitCall | .callFailed _ | .programFailed _ => none

def Event.entersCall : Event → Bool
  | .enterCall _ => true
  | _ => false

namespace Heap

def bindingCount (heap : Heap) : Nat :=
  (heap.frames.toList.flatMap fun frame => frame.bindings.entries).length

theorem bindingCount_newFrame (heap : Heap) (parent : Option FrameId) :
    (heap.newFrame parent).2.bindingCount = heap.bindingCount := by
  simp [bindingCount, newFrame, Bindings.empty]

theorem bindingCount_bind {heap : Heap} {id : FrameId} (held : id.index < heap.frames.size) (name : Name)
    (value : Value) :
    (heap.bind id name value).bindingCount = heap.bindingCount + if heap.binds id name then 0 else 1 := by
  let update := fun frame : Frame => { frame with bindings := frame.bindings.insert name value }
  have inside : id.index < heap.frames.toList.length := by rwa [Array.length_toList]
  obtain ⟨before, frame, behind, frames, place, modified⟩ := List.exists_of_modify update inside
  have read : heap.frame? id = some frame := by
    rw [frame?, ← Array.getElem?_toList, frames, ← place, List.getElem?_append_right (Nat.le_refl _), Nat.sub_self]
    rfl
  have bound : heap.binds id name = frame.bindings.contains name := by
    rw [binds, get?, read]
    rfl
  have grown := frame.bindings.size_insert name value
  unfold Bindings.size at grown
  have after : (heap.bind id name value).frames.toList = before ++ update frame :: behind := by
    rw [bind, Array.toList_modify, modified]
  rw [bindingCount, bindingCount, after, frames, bound]
  simp only [List.flatMap_append, List.flatMap_cons, List.length_append, update, grown]
  split <;> omega

theorem root_le (heap : Heap) (id : FrameId) : (heap.root id).index ≤ id.index :=
  index_le_of_mem_chain (heap.root_mem_chain id)

theorem binds_root {heap : Heap} {id : FrameId} {name : Name} (unbound : heap.holder? id name = none) :
    heap.binds (heap.root id) name = false := by
  rw [holder?_eq_find?, List.find?_eq_none] at unbound
  exact Bool.eq_false_iff.mpr (unbound _ (heap.root_mem_chain id))

end Heap

namespace Effect

def Sound (heap : Heap) : Effect → Prop
  | .report event => event.bound? = none
  | .declare frame name _ => frame.index < heap.frames.size ∧ heap.binds frame name = false
  | .assign frame _ _ => frame.index < heap.frames.size
  | .print _ | .makeClosure _ _ _ _ | .makeFrame _ => True

/-- The effect binds a name in a frame: by a declaration there, or by an assignment that finds the name bound
    nowhere, in the outermost frame. -/
inductive Creates (heap : Heap) : Effect → FrameId → Name → Value → Prop where
  | declares {frame : FrameId} {name : Name} {value : Value} :
      Creates heap (.declare frame name value) frame name value
  | assigns {frame : FrameId} {name : Name} {value : Value} : heap.holder? frame name = none →
      Creates heap (.assign frame name value) (heap.root frame) name value

theorem Creates.heap_perform {world : World} {effect : Effect} {frame : FrameId} {name : Name} {value : Value}
    (creates : effect.Creates world.heap frame name value) :
    (world.perform effect).heap = world.heap.bind frame name value := by
  cases creates with
  | declares => rfl
  | @assigns inner _ _ unbound =>
    show (world.assign inner name value).heap = _
    rw [World.heap_assign, Heap.target, unbound]
    rfl

theorem Creates.fresh {heap : Heap} {effect : Effect} {frame : FrameId} {name : Name} {value : Value}
    (creates : effect.Creates heap frame name value) (sound : effect.Sound heap) :
    frame.index < heap.frames.size ∧ heap.binds frame name = false := by
  cases creates with
  | declares => exact sound
  | @assigns inner _ _ unbound => exact ⟨Nat.lt_of_le_of_lt (heap.root_le inner) sound, Heap.binds_root unbound⟩

theorem events_cases {heap : Heap} {effect : Effect} (sound : effect.Sound heap) :
    effect.events heap = [] ∨ ∃ event, effect.events heap = [event] ∧
      ∀ name, event.bound? = some name → ∃ frame value, effect.Creates heap frame name value := by
  cases effect with
  | report event =>
    refine .inr ⟨event, rfl, fun name bound => ?_⟩
    cases sound.symm.trans bound
  | declare frame name value =>
    refine .inr ⟨.declare name, rfl, fun other bound => ?_⟩
    cases bound
    exact ⟨frame, value, .declares⟩
  | assign frame name value =>
    cases found : heap.holder? frame name with
    | some holder =>
      refine .inl ?_
      rw [events, found]
      rfl
    | none =>
      refine .inr ⟨.implicitGlobal name, ?_, fun other bound => ?_⟩
      · rw [events, found]
        rfl
      · cases bound
        exact ⟨heap.root frame, value, .assigns found⟩
  | print | makeClosure | makeFrame => exact .inl rfl

end Effect

namespace World

theorem bindingCount_perform {world : World} {effect : Effect} (sound : effect.Sound world.heap) :
    (world.perform effect).heap.bindingCount =
      world.heap.bindingCount + ((effect.events world.heap).filterMap Event.bound?).length := by
  cases effect with
  | report event =>
    have silent : [event].filterMap Event.bound? = [] := by simp [show event.bound? = none from sound]
    show world.heap.bindingCount = world.heap.bindingCount + ([event].filterMap Event.bound?).length
    rw [silent]
    rfl
  | declare frame name value =>
    show (world.heap.bind frame name value).bindingCount = _
    rw [Heap.bindingCount_bind sound.1, sound.2]
    rfl
  | assign frame name value =>
    show (world.assign frame name value).heap.bindingCount = _
    rw [heap_assign, Heap.target, Effect.events]
    cases found : world.heap.holder? frame name with
    | some holder =>
      have bound := (Heap.holder?_mem_chain found).2
      show (world.heap.bind holder name value).bindingCount = _
      rw [Heap.bindingCount_bind (Heap.index_lt_of_binds bound), bound]
      rfl
    | none =>
      have held : (world.heap.root frame).index < world.heap.frames.size :=
        Nat.lt_of_le_of_lt (world.heap.root_le frame) sound
      show (world.heap.bind (world.heap.root frame) name value).bindingCount = _
      rw [Heap.bindingCount_bind held, Heap.binds_root found]
      rfl
  | makeFrame outer => exact Heap.bindingCount_newFrame world.heap (some outer)
  | print | makeClosure => rfl

def Sound (world : World) : List Effect → Prop
  | [] => True
  | effect :: rest => effect.Sound world.heap ∧ (world.perform effect).Sound rest

theorem sound_append {world : World} {early late : List Effect} (first : world.Sound early)
    (second : (world.performAll early).Sound late) : world.Sound (early ++ late) := by
  induction early generalizing world with
  | nil => exact second
  | cons effect rest ih => exact ⟨first.1, ih first.2 second⟩

theorem sound_declaring {world : World} {frame : FrameId} {bindings : List (Name × Value)}
    (held : frame.index < world.heap.frames.size) (different : (bindings.map Prod.fst).Nodup)
    (unbound : ∀ name ∈ bindings.map Prod.fst, world.heap.binds frame name = false) :
    world.Sound (bindings.map (.declaring frame)) := by
  induction bindings generalizing world with
  | nil => trivial
  | cons binding rest ih =>
    obtain ⟨name, value⟩ := binding
    rw [List.map_cons, List.nodup_cons] at different
    refine ⟨⟨held, unbound name List.mem_cons_self⟩, ih ?_ different.2 ?_⟩
    · show frame.index < (world.heap.bind frame name value).frames.size
      rwa [Heap.size_bind]
    · intro other member
      show (world.heap.bind frame name value).binds frame other = false
      have free := unbound other (List.mem_cons_of_mem _ member)
      have distinct : name ≠ other := fun same => different.1 (same ▸ member)
      rw [Heap.binds_bind, free, Bool.or_false, decide_eq_false_iff_not]
      exact fun here => distinct here.2.1

theorem sound_report {world : World} {events : List Event} (silent : ∀ event ∈ events, event.bound? = none) :
    world.Sound (events.map .report) := by
  induction events generalizing world with
  | nil => trivial
  | cons event rest ih =>
    exact ⟨silent event List.mem_cons_self, ih fun other member => silent other (List.mem_cons_of_mem _ member)⟩

theorem bindingCount_performAll {world : World} {effects : List Effect} (sound : world.Sound effects) :
    (world.performAll effects).heap.bindingCount =
      world.heap.bindingCount + ((world.events effects).filterMap Event.bound?).length := by
  induction effects generalizing world with
  | nil => rfl
  | cons effect rest ih =>
    rw [performAll_cons, ih sound.2, bindingCount_perform sound.1, events, List.filterMap_append, List.length_append]
    omega

def Creates (world : World) (effects : List Effect) (early : List Event) (name : Name) : Prop :=
  ∃ earlier effect later frame value, effects = earlier ++ effect :: later ∧
    (world.performAll earlier).trace.toList = world.trace.toList ++ early ∧
    effect.Creates (world.performAll earlier).heap frame name value ∧
    (world.performAll earlier).heap.binds frame name = false ∧
    (world.performAll (earlier ++ [effect])).heap = (world.performAll earlier).heap.bind frame name value ∧
    (world.performAll (earlier ++ [effect])).heap.binds frame name = true

theorem Creates.now {world : World} {effect : Effect} {frame : FrameId} {name : Name} {value : Value}
    (creates : effect.Creates world.heap frame name value) (sound : effect.Sound world.heap) (rest : List Effect) :
    world.Creates (effect :: rest) [] name := by
  obtain ⟨held, unbound⟩ := creates.fresh sound
  have bound : (world.perform effect).heap.binds frame name = true := by
    rw [creates.heap_perform, Heap.binds_bind, decide_eq_true ⟨rfl, rfl, held⟩, Bool.true_or]
  exact ⟨[], effect, rest, frame, value, rfl, (List.append_nil _).symm, creates, unbound, creates.heap_perform, bound⟩

theorem Creates.later {world : World} {effect : Effect} {rest : List Effect} {early : List Event} {name : Name}
    (creates : (world.perform effect).Creates rest early name) :
    world.Creates (effect :: rest) (effect.events world.heap ++ early) name := by
  obtain ⟨earlier, other, behind, frame, value, rfl, reported, during⟩ := creates
  refine ⟨effect :: earlier, other, behind, frame, value, rfl, ?_, during⟩
  rw [performAll_cons, reported, trace_perform, List.append_assoc]

theorem creates_of_reported {world : World} {effects : List Effect} {early late : List Event} {event : Event}
    {name : Name} (sound : world.Sound effects) (reported : world.events effects = early ++ event :: late)
    (bound : event.bound? = some name) : world.Creates effects early name := by
  induction effects generalizing world early with
  | nil => cases early <;> cases reported
  | cons effect rest ih =>
    unfold events at reported
    rcases effect.events_cases sound.1 with nothing | ⟨first, single, creates⟩
    · rw [nothing] at reported
      have later := (ih sound.2 reported).later
      rwa [nothing] at later
    · rw [single] at reported
      cases early with
      | nil =>
        cases reported
        obtain ⟨frame, value, creates⟩ := creates name bound
        exact .now creates sound.1 rest
      | cons head early =>
        obtain ⟨rfl, behind⟩ := List.cons.inj reported
        have later := (ih sound.2 behind).later
        rwa [single] at later

theorem size_performAll_declaring (world : World) (frame : FrameId) (bindings : List (Name × Value)) :
    (world.performAll (bindings.map (.declaring frame))).heap.frames.size = world.heap.frames.size := by
  rw [(world.performAll_declaring frame bindings).1, Heap.size_bindAll]

theorem size_performAll_report (world : World) (events : List Event) :
    (world.performAll (events.map .report)).heap.frames.size = world.heap.frames.size := by
  induction events generalizing world with
  | nil => rfl
  | cons event rest ih => exact ih (world.emit event)

theorem size_entering (world : World) (callee : Closure) (frame : FrameId) (bindings : List (Name × Value)) :
    (world.performAll (callee.entering frame bindings)).heap.frames.size = world.heap.frames.size + 1 := by
  show (World.performAll _ (bindings.map (.declaring frame))).heap.frames.size = _
  rw [size_performAll_declaring]
  exact Heap.size_newFrame world.heap (some callee.scope)

theorem countP_entering (world : World) (callee : Closure) (frame : FrameId) (bindings : List (Name × Value)) :
    (world.events (callee.entering frame bindings)).countP Event.entersCall = 1 := by
  have silent : (bindings.map fun binding => Event.declare binding.1).countP Event.entersCall = 0 := by
    rw [List.countP_map, List.countP_eq_zero]
    intro binding _
    exact Bool.false_ne_true
  rw [events_entering, List.countP_cons, silent]
  rfl

theorem sound_entering {world : World} (callee : Closure) {bindings : List (Name × Value)}
    (different : (bindings.map Prod.fst).Nodup) :
    world.Sound (callee.entering ⟨world.heap.frames.size⟩ bindings) := by
  refine ⟨rfl, trivial, sound_declaring ?_ different fun name _ => ?_⟩
  · show world.heap.frames.size < (world.heap.newFrame (some callee.scope)).2.frames.size
    rw [Heap.size_newFrame]
    exact Nat.lt_succ_self _
  · show (world.heap.newFrame (some callee.scope)).2.binds ⟨world.heap.frames.size⟩ name = false
    rw [Heap.binds_newFrame]
    simp

end World

theorem Outcome.bound?_exits (outcome : Outcome) : ∀ event ∈ outcome.exits, event.bound? = none := by
  cases outcome <;> simp [Outcome.exits, Event.bound?]

theorem Control.aborts_of_isArityMismatch {control : Control} (refused : control.isArityMismatch = true) :
    control.aborts = true := by
  cases control with
  | perform task => cases refused
  | deliver outcome =>
    cases outcome with
    | value value => cases refused
    | failure | outOfRange => rfl

theorem Outcome.countP_exits (outcome : Outcome) : outcome.exits.countP Event.entersCall = 0 := by
  cases outcome <;> rfl

namespace State

structure Placed (state : State) : Prop where
  here : state.site.frame.index < state.world.heap.frames.size
  callers : ∀ caller ∈ callers state.stack, caller.frame.index < state.world.heap.frames.size

namespace Moves

variable {names : Interner} {state next : State} {effects : List Effect}

theorem sound (moves : state.Moves names effects next) (placed : state.Placed) : state.world.Sound effects := by
  cases moves with
  | passes => trivial
  | makes | prints => exact ⟨trivial, trivial⟩
  | declares free => exact ⟨⟨placed.here, free⟩, trivial⟩
  | assigns => exact ⟨placed.here, trivial⟩
  | refuses => exact ⟨rfl, rfl, trivial⟩
  | lacks => exact ⟨rfl, trivial, rfl, trivial⟩
  | repeats _ _ _ different => exact World.sound_append (World.sound_entering _ different) ⟨rfl, trivial⟩
  | enters _ _ different => exact World.sound_entering _ different
  | @leaves outcome => exact World.sound_report outcome.bound?_exits

theorem placed (moves : state.Moves names effects next) (grows : state.world.heap.Grows next.world.heap)
    (placed : state.Placed) : next.Placed := by
  have here := Nat.lt_of_lt_of_le placed.here grows.size
  have there : ∀ caller ∈ callers state.stack, caller.frame.index < next.world.heap.frames.size :=
    fun caller member => Nat.lt_of_lt_of_le (placed.callers caller member) grows.size
  cases moves with
  | passes same =>
    refine ⟨here, fun caller member => there caller ?_⟩
    exact same ▸ member
  | makes | prints | declares | assigns | refuses | lacks | repeats => exact ⟨here, there⟩
  | @enters callee args params site stack world =>
    refine ⟨?_, fun caller member => ?_⟩
    · have made := World.size_entering world callee ⟨world.heap.frames.size⟩ (params.zip args)
      exact made ▸ Nat.lt_succ_self _
    · rcases List.mem_cons.mp member with rfl | member
      · exact here
      · exact there caller member
  | @leaves outcome site caller stack world =>
    exact ⟨there caller List.mem_cons_self, fun other member => there other (List.mem_cons_of_mem _ member)⟩

theorem frames (moves : state.Moves names effects next) :
    next.world.heap.frames.size + (if next.control.isArityMismatch then 1 else 0) =
      state.world.heap.frames.size + (if state.control.isArityMismatch then 1 else 0) +
        (state.world.events effects).countP Event.entersCall := by
  cases moves with
  | @passes control control' site stack stack' world same keeps other refused =>
    -- A mismatch is passed on as it is, and nothing but a call brings one about.
    have level : control'.isArityMismatch = control.isArityMismatch := by
      by_cases now : control'.isArityMismatch = true
      · rw [refused now]
      · by_cases before : control.isArityMismatch = true
        · rw [keeps (Control.aborts_of_isArityMismatch before)]
        · rw [Bool.eq_false_iff.mpr now, Bool.eq_false_iff.mpr before]
    show world.heap.frames.size + (if control'.isArityMismatch then 1 else 0) =
      world.heap.frames.size + (if control.isArityMismatch then 1 else 0) + 0
    rw [level]
    rfl
  | makes | prints | refuses => rfl
  | @declares name value site stack world => exact Heap.size_bind world.heap site.frame name value
  | @assigns name value site stack world =>
    show (world.assign site.frame name value).heap.frames.size =
      world.heap.frames.size + (world.events [.assign site.frame name value]).countP Event.entersCall
    rw [World.heap_assign, Heap.size_bind]
    rcases world.events_assign site.frame name value with ⟨_, reported⟩ | ⟨_, reported⟩
    · rw [reported]
      rfl
    · rw [reported]
      rfl
  | @lacks callee args site stack world => exact Heap.size_newFrame world.heap (some callee.scope)
  | @repeats callee args params early late name value site stack world =>
    have made := World.size_entering world callee ⟨world.heap.frames.size⟩ early
    have entered := World.countP_entering world callee ⟨world.heap.frames.size⟩ early
    rw [World.events_append, List.countP_append]
    show (World.performAll world (_ ++ _)).heap.frames.size =
      world.heap.frames.size + (List.countP _ (world.events _) + 0)
    rw [World.performAll_append, entered]
    exact made
  | @enters callee args params site stack world =>
    have made := World.size_entering world callee ⟨world.heap.frames.size⟩ (params.zip args)
    have entered := World.countP_entering world callee ⟨world.heap.frames.size⟩ (params.zip args)
    show _ = world.heap.frames.size + List.countP _ (world.events _)
    rw [entered]
    exact made
  | @leaves outcome site caller stack world =>
    show (world.performAll (outcome.exits.map .report)).heap.frames.size +
        (if outcome.isArityMismatch then 1 else 0) =
      world.heap.frames.size + (if outcome.isArityMismatch then 1 else 0) +
        (world.events (outcome.exits.map .report)).countP Event.entersCall
    rw [World.events_report, outcome.countP_exits, World.size_performAll_report]
    rfl

end Moves

namespace Performs

variable {names : Interner} {start state : State} {effects : List Effect}

theorem sound (performs : Performs names start effects state) (placed : start.Placed) :
    start.world.Sound effects := by
  induction performs with
  | refl => trivial
  | @step state final rest _ ih =>
    have moves := state.moves names
    have later := ih (moves.placed (state.step_grows names) placed)
    rw [step_world] at later
    exact World.sound_append (moves.sound placed) later

theorem frames (performs : Performs names start effects state) :
    state.world.heap.frames.size + (if state.control.isArityMismatch then 1 else 0) =
      start.world.heap.frames.size + (if start.control.isArityMismatch then 1 else 0) +
        (start.world.events effects).countP Event.entersCall := by
  induction performs with
  | refl => rfl
  | @step state final rest _ ih =>
    have first := (state.moves names).frames
    rw [World.events_append, List.countP_append, ← step_world names]
    omega

end Performs

end State

/-- What is made in the course of an evaluation is reported. Every binding that was not there before comes with
    an event that tells of it, and every such event with a binding: the effect that it reports binds the name in
    a frame which did not bind it. Every frame comes with the beginning of a call, and every beginning of a call
    with a frame, but for a call that fails since it has the wrong number of arguments. -/
theorem reports_account_for_allocation {names : Interner} {site : Site} {id : ExprId} {world after : World}
    {outcome : Outcome} (here : site.frame.index < world.heap.frames.size)
    (finishes : Finishes names site id world outcome after) :
    ∃ events effects, after.trace.toList = world.trace.toList ++ events ∧
      State.Performs names (.eval id site [] world) effects (.deliver outcome site [] after) ∧
      after.heap.bindingCount = world.heap.bindingCount + (events.filterMap Event.bound?).length ∧
      (∀ early event late name, events = early ++ event :: late → event.bound? = some name →
        world.Creates effects early name) ∧
      after.heap.frames.size + (if outcome.isArityMismatch then 1 else 0) =
        world.heap.frames.size + events.countP Event.entersCall := by
  obtain ⟨effects, performs⟩ : ∃ effects,
      State.Performs names (.eval id site [] world) effects (.deliver outcome site [] after) :=
    State.Collects.of_reaches State.effects (finishes.evaluates.reaches [])
  have placed : (State.eval id site [] world).Placed := ⟨here, fun caller none => by cases none⟩
  have sound : world.Sound effects := performs.sound placed
  have done : after = world.performAll effects := performs.world
  refine ⟨world.events effects, effects, ?_, performs, ?_, ?_, performs.frames⟩
  · rw [done, World.trace_performAll]
  · rw [done, World.bindingCount_performAll sound]
  · intro early event late name reported bound
    exact World.creates_of_reported sound reported bound

/-- Assigns to an unknown name, then calls a function of one parameter that declares a variable, once with an
    argument and once without. -/
def calledTwice : Arena where
  nodes := #[.literal (.int 7), .assign ⟨1⟩ ⟨0⟩, .ident ⟨2⟩, .declare ⟨3⟩ ⟨2⟩, .function ⟨0, 1⟩ ⟨3⟩, .call ⟨4⟩ ⟨0, 1⟩,
    .call ⟨4⟩ ⟨1, 0⟩, .seq ⟨1⟩ ⟨5⟩, .seq ⟨7⟩ ⟨6⟩]
  args := #[⟨0⟩]
  params := #[⟨2⟩]

theorem reports_account_for_allocation_calledTwice :
    0 < emptyWorld.heap.frames.size ∧ ∃ after effects,
      Finishes .new ⟨⟨0, calledTwice⟩, ⟨0⟩⟩ ⟨8⟩ emptyWorld (.failure (.arityMismatch 1 0)) after ∧
      after.trace.toList = [.implicitGlobal ⟨1⟩, .enterCall 1, .declare ⟨2⟩, .declare ⟨3⟩, .exitCall, .enterCall 1,
        .exitCall] ∧
      after.heap.bindingCount = emptyWorld.heap.bindingCount + 3 ∧
      emptyWorld.Creates effects [] ⟨1⟩ ∧
      emptyWorld.Creates effects [.implicitGlobal ⟨1⟩, .enterCall 1] ⟨2⟩ ∧
      emptyWorld.Creates effects [.implicitGlobal ⟨1⟩, .enterCall 1, .declare ⟨2⟩] ⟨3⟩ ∧
      after.heap.frames.size + 1 = emptyWorld.heap.frames.size + 2 := by
  have here : 0 < emptyWorld.heap.frames.size := by decide
  have ran : (evaluate .new 40 ⟨⟨0, calledTwice⟩, ⟨0⟩⟩ ⟨8⟩ emptyWorld).map
      (fun result => (result.1, result.2.trace.toList)) = some (.failure (.arityMismatch 1 0),
        [.implicitGlobal ⟨1⟩, .enterCall 1, .declare ⟨2⟩, .declare ⟨3⟩, .exitCall, .enterCall 1, .exitCall]) := by
    decide +kernel
  obtain ⟨⟨outcome, after⟩, ended, shown⟩ := Option.map_eq_some_iff.mp ran
  obtain ⟨failed, shown⟩ := Prod.mk.inj shown
  cases failed
  have finishes : Finishes .new ⟨⟨0, calledTwice⟩, ⟨0⟩⟩ ⟨8⟩ emptyWorld (.failure (.arityMismatch 1 0)) after :=
    ⟨40, ended⟩
  obtain ⟨events, effects, traced, _, count, creates, frames⟩ := reports_account_for_allocation here finishes
  have reported := traced.symm.trans shown
  cases reported
  exact ⟨here, after, effects, finishes, shown, count, creates [] _ _ _ rfl rfl,
    creates [.implicitGlobal ⟨1⟩, .enterCall 1] _ _ _ rfl rfl,
    creates [.implicitGlobal ⟨1⟩, .enterCall 1, .declare ⟨2⟩] _ _ _ rfl rfl, frames⟩

end ScopedEval
