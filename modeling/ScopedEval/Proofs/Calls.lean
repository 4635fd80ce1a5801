import ScopedEval.Proofs.Effects
import ScopedEval.Proofs.Inlining

namespace ScopedEval

namespace Heap

theorem frame?_bindAll_of_ne (heap : Heap) {id other : FrameId} (different : id ≠ other)
    (bindings : List (Name × Value)) : (heap.bindAll id bindings).frame? other = heap.frame? other := by
  induction bindings generalizing heap with
  | nil => rfl
  | cons binding rest ih => rw [bindAll_cons, ih, frame?_bind, if_neg different]

theorem get?_bindAll_of_not_mem (heap : Heap) (id : FrameId) {name : Name} {bindings : List (Name × Value)}
    (absent : name ∉ bindings.map Prod.fst) : (heap.bindAll id bindings).get? id name = heap.get? id name := by
  induction bindings generalizing heap with
  | nil => rfl
  | cons binding rest ih =>
    rw [List.map_cons, List.mem_cons, not_or] at absent
    rw [bindAll_cons, ih _ absent.2, get?_bind]
    exact if_neg fun here => absent.1 here.2.1.symm

theorem get?_bindAll_of_mem {heap : Heap} {id : FrameId} (held : id.index < heap.frames.size)
    {bindings : List (Name × Value)} (different : (bindings.map Prod.fst).Nodup) {name : Name} {value : Value}
    (member : (name, value) ∈ bindings) : (heap.bindAll id bindings).get? id name = some value := by
  induction bindings generalizing heap with
  | nil => cases member
  | cons binding rest ih =>
    rw [List.map_cons, List.nodup_cons] at different
    rw [bindAll_cons]
    rcases List.mem_cons.mp member with rfl | member
    · rw [get?_bindAll_of_not_mem _ _ different.1, get?_bind]
      exact if_pos ⟨rfl, rfl, held⟩
    · have inside : id.index < (heap.bind id binding.1 binding.2).frames.size := by
        rw [size_bind]
        exact held
      exact ih inside different.2 member

end Heap

namespace World

structure Spares (world after : World) : Prop where
  frames {id : FrameId} : id.index < world.heap.frames.size → after.heap.frame? id = world.heap.frame? id
  sink : after.sink = world.sink

theorem Spares.emit {world after : World} (spares : world.Spares after) (event : Event) :
    world.Spares (after.emit event) := ⟨spares.frames, spares.sink⟩

/-- The body of a call is about to be evaluated: a new frame, inside the one that the closure captured, binds the
    parameters to the arguments, one to one and in order, and binds nothing else. -/
structure Entered (world : World) (closure : Closure) (params : List Name) (args : List Value) (frame : FrameId)
    (bound : World) : Prop where
  spares : world.Spares bound
  fresh : frame.index = world.heap.frames.size
  size : bound.heap.frames.size = world.heap.frames.size + 1
  parent : bound.heap.parent? frame = some closure.scope
  paired : params.length = args.length
  param {i : Nat} {name : Name} : params[i]? = some name → bound.heap.get? frame name = args[i]?
  only {name : Name} : name ∉ params → bound.heap.get? frame name = none

theorem heap_entering (world : World) (callee : Closure) (frame : FrameId) (bindings : List (Name × Value)) :
    (world.performAll (callee.entering frame bindings)).heap =
      (world.heap.newFrame (some callee.scope)).2.bindAll frame bindings :=
  (performAll_declaring _ frame bindings).1

theorem spares_entering (world : World) (callee : Closure) (bindings : List (Name × Value)) :
    world.Spares (world.performAll (callee.entering ⟨world.heap.frames.size⟩ bindings)) := by
  refine ⟨fun {id} old => ?_, (performAll_declaring _ _ bindings).2⟩
  have different : (⟨world.heap.frames.size⟩ : FrameId) ≠ id := by
    rintro rfl
    exact Nat.lt_irrefl _ old
  rw [heap_entering, Heap.frame?_bindAll_of_ne _ different, Heap.frame?_newFrame, if_neg (Nat.ne_of_lt old)]

theorem entered_entering (world : World) (closure : Closure) {params : List Name} {args : List Value}
    (paired : params.length = args.length) (different : params.Nodup) :
    world.Entered closure params args ⟨world.heap.frames.size⟩
      (world.performAll (closure.entering ⟨world.heap.frames.size⟩ (params.zip args))) := by
  have keys : (params.zip args).map Prod.fst = params := List.map_fst_zip (Nat.le_of_eq paired)
  have held : world.heap.frames.size < (world.heap.newFrame (some closure.scope)).2.frames.size := by
    rw [Heap.size_newFrame]
    exact Nat.lt_succ_self _
  refine ⟨world.spares_entering closure _, rfl, ?_, ?_, paired, ?_, ?_⟩
  · rw [heap_entering, Heap.size_bindAll, Heap.size_newFrame]
  · rw [heap_entering, Heap.parent?_bindAll, Heap.parent?_newFrame, if_pos rfl]
  · intro i name here
    have inside : i < args.length := by
      rw [← paired]
      exact (List.getElem?_eq_some_iff.mp here).1
    have there : args[i]? = some args[i] := List.getElem?_eq_getElem inside
    have member : (name, args[i]) ∈ params.zip args := by
      apply List.mem_of_getElem? (i := i)
      simp [List.getElem?_zip_eq_some, here, there]
    rw [heap_entering, there]
    exact Heap.get?_bindAll_of_mem held (keys.symm ▸ different) member
  · intro name absent
    rw [heap_entering, Heap.get?_bindAll_of_not_mem _ _ (keys.symm ▸ absent), Heap.get?_newFrame, if_pos rfl]

end World

def Closure.Ends (closure : Closure) (names : Interner) (args : List Value) (site : Site) (world : World)
    (outcome : Outcome) (after : World) : Prop :=
  ∃ fuel, State.run names fuel (.perform (.call closure args) site [] world) = some (outcome, after)

namespace Closure

variable {names : Interner} {closure : Closure} {args : List Value} {params : List Name} {site : Site} {world : World}

theorem ends_of_fails {failure : Failure} {after : World}
    (fails : closure.start names args site [] world = .fail failure site [] after) (outcome : Outcome) (last : World) :
    closure.Ends names args site world outcome last ↔ outcome = .failure failure ∧ last = after := by
  have ran : State.run names 1 (.perform (.call closure args) site [] world) = some (.failure failure, after) := by
    show State.run names 0 (closure.start names args site [] world) = some (.failure failure, after)
    rw [fails]
    rfl
  constructor
  · rintro ⟨fuel, ended⟩
    exact Prod.mk.inj (State.run_unique ended ran)
  · rintro ⟨rfl, rfl⟩
    exact ⟨1, ran⟩

theorem ends_of_declared {bound : World} (arity : args.length = closure.arity) (read : closure.paramNames? = some params)
    (declared : ((world.emit (.enterCall closure.arity)).newFrame (some closure.scope)).2.declareAll
      ⟨world.heap.frames.size⟩ (params.zip args) = (none, bound)) (outcome : Outcome) (last : World) :
    closure.Ends names args site world outcome last ↔ ∃ after,
      Finishes names ⟨closure.code, ⟨world.heap.frames.size⟩⟩ closure.body bound outcome after ∧
        last = after.leaveCall outcome := by
  rw [Ends, run_iff_evaluates]
  constructor
  · intro evaluates
    cases evaluates with
    | arity different => exact absurd arity different
    | paramsMissing _ _ missing => cases read.symm.trans missing
    | paramRepeated _ made read' stopped =>
      cases made
      cases read.symm.trans read'
      cases declared.symm.trans stopped.declareAll
    | body _ made read' declared' body =>
      cases made
      cases read.symm.trans read'
      cases declared.symm.trans declared'.declareAll
      exact ⟨_, body.finishes, rfl⟩
  · rintro ⟨after, ended, rfl⟩
    have declares := World.declares_of_declareAll (Closure.params_paired arity read) declared
    exact .body arity rfl read declares ended.evaluates

/-- All parameters are declared if they are different, and otherwise those before the first that repeats one. -/
theorem declareAll_params (closure : Closure) (paired : params.length = args.length) (world : World) :
    let result := ((world.emit (.enterCall closure.arity)).newFrame (some closure.scope)).2.declareAll
      ⟨world.heap.frames.size⟩ (params.zip args)
    (params.Nodup ∧
      result = (none, world.performAll (closure.entering ⟨world.heap.frames.size⟩ (params.zip args)))) ∨
    ∃ declared name late, params = declared.map Prod.fst ++ name :: late ∧ (declared.map Prod.fst).Nodup ∧
      name ∈ declared.map Prod.fst ∧
      result = (some name, world.performAll (closure.entering ⟨world.heap.frames.size⟩ declared)) := by
  have keys : (params.zip args).map Prod.fst = params := List.map_fst_zip (Nat.le_of_eq paired)
  have entry := closure.declareAll_entered world (params.zip args)
  generalize (world.heap.newFrame (some closure.scope)).2.declarable ⟨world.heap.frames.size⟩
    (params.zip args) = declared at entry
  obtain ⟨fresh, ⟨rfl, result⟩ | ⟨name, value, late, split, member, result⟩⟩ := entry
  · exact .inl ⟨keys ▸ fresh, result⟩
  · have names := congrArg (List.map Prod.fst) split
    rw [keys, List.map_append, List.map_cons] at names
    exact .inr ⟨declared, name, late.map Prod.fst, names, fresh, member, result⟩

theorem not_nodup_of_repeats {early late : List Name} {name : Name} (member : name ∈ early) :
    ¬ (early ++ name :: late).Nodup := by
  intro different
  exact (List.nodup_append.mp different).2.2 name member name List.mem_cons_self rfl

end Closure

/-- A call with another number of arguments than parameters fails with the two numbers; one with a parameter that
    repeats an earlier one fails with the name of the first such; and neither touches a frame or prints. Any other
    call evaluates the body in a new frame that binds the parameters to the arguments, and ends as the body does. -/
theorem calls_bind_their_parameters {closure : Closure} {params : List Name}
    (read : closure.paramNames? = some params) (names : Interner) (args : List Value) (site : Site) (world : World) :
    (args.length ≠ closure.arity → ∃ after, after.heap = world.heap ∧ after.sink = world.sink ∧
      ∀ outcome last, closure.Ends names args site world outcome last ↔
        outcome = .failure (.arityMismatch closure.arity args.length) ∧ last = after) ∧
    (args.length = closure.arity → ¬ params.Nodup →
      ∃ early name late after, params = early ++ name :: late ∧ early.Nodup ∧ name ∈ early ∧ world.Spares after ∧
        (∀ stack, (State.perform (.call closure args) site stack world).step names =
          .fail (.redeclaration (names.lookup name)) site stack after) ∧
        ∀ outcome last, closure.Ends names args site world outcome last ↔
          outcome = .failure (.redeclaration (names.lookup name)) ∧ last = after) ∧
    (args.length = closure.arity → params.Nodup →
      ∃ frame bound, world.Entered closure params args frame bound ∧
        (∀ stack, (State.perform (.call closure args) site stack world).step names =
          .eval closure.body ⟨closure.code, frame⟩ (.leave site :: stack) bound) ∧
        ∀ outcome last, closure.Ends names args site world outcome last ↔
          ∃ after, Finishes names ⟨closure.code, frame⟩ closure.body bound outcome after ∧
            last = after.leaveCall outcome ∧ last.heap = after.heap ∧ last.sink = after.sink) := by
  refine ⟨?_, ?_, ?_⟩
  · intro different
    refine ⟨(world.emit (.enterCall closure.arity)).emit .exitCall, rfl, rfl, Closure.ends_of_fails ?_⟩
    simp only [Closure.start, different, ne_eq, not_false_eq_true, if_true]
  · intro arity repeated
    have paired : params.length = args.length := Closure.params_paired arity read
    rcases closure.declareAll_params paired world with ⟨different, _⟩ |
      ⟨declared, name, late, split, fresh, member, result⟩
    · exact absurd different repeated
    · have spares := (world.spares_entering closure declared).emit .exitCall
      have fails := fun stack =>
        @Closure.start_of_repeated names closure args params site stack world _ _ _ name arity rfl read result
      exact ⟨declared.map Prod.fst, name, late, _, split, fresh, member, spares, fails,
        Closure.ends_of_fails (fails [])⟩
  · intro arity different
    have paired : params.length = args.length := Closure.params_paired arity read
    rcases closure.declareAll_params paired world with ⟨_, declared⟩ | ⟨_, name, late, split, _, member, _⟩
    case inr => exact absurd (split ▸ different) (Closure.not_nodup_of_repeats member)
    refine ⟨⟨world.heap.frames.size⟩, _, world.entered_entering closure paired different,
      fun stack => Closure.start_of_declared arity rfl read declared, fun outcome last => ?_⟩
    rw [Closure.ends_of_declared arity read declared]
    constructor
    · rintro ⟨after, ended, rfl⟩
      exact ⟨after, ended, rfl, after.heap_leaveCall outcome, after.sink_leaveCall outcome⟩
    · rintro ⟨after, ended, same, _⟩
      exact ⟨after, ended, same⟩

/-- Yields its second parameter; there may be more parameters than two, and then they repeat. -/
def pairing (arity : Nat) : Closure where
  stamp := 0
  params := ⟨0, arity⟩
  body := ⟨0⟩
  code := ⟨0, ⟨#[.ident ⟨2⟩], #[], #[⟨1⟩, ⟨2⟩, ⟨1⟩, ⟨2⟩]⟩⟩
  scope := ⟨0⟩

theorem calls_bind_their_parameters_pairing :
    let names := (Interner.new.internAll ["a", "b"]).2
    let site : Site := ⟨⟨1, .empty⟩, ⟨0⟩⟩
    (pairing 2).paramNames? = some [⟨1⟩, ⟨2⟩] ∧ (pairing 4).paramNames? = some [⟨1⟩, ⟨2⟩, ⟨1⟩, ⟨2⟩] ∧
    (∃ last, (pairing 2).Ends names [.int 3] site emptyWorld (.failure (.arityMismatch 2 1)) last ∧
      last.heap = emptyWorld.heap) ∧
    (∃ last, (pairing 4).Ends names [.int 3, .int 4, .int 5, .int 6] site emptyWorld
      (.failure (.redeclaration "a")) last ∧ emptyWorld.Spares last) ∧
    ∃ frame bound last, emptyWorld.Entered (pairing 2) [⟨1⟩, ⟨2⟩] [.int 3, .int 4] frame bound ∧
      (pairing 2).Ends names [.int 3, .int 4] site emptyWorld (.value (.int 4)) last := by
  intro names site
  have two : (pairing 2).paramNames? = some [⟨1⟩, ⟨2⟩] := by decide +kernel
  have four : (pairing 4).paramNames? = some [⟨1⟩, ⟨2⟩, ⟨1⟩, ⟨2⟩] := by decide +kernel
  refine ⟨two, four, ?_, ?_, ?_⟩
  · obtain ⟨after, heap, _, ends⟩ := (calls_bind_their_parameters two names [.int 3] site emptyWorld).1 (by decide)
    exact ⟨after, (ends _ _).mpr ⟨rfl, rfl⟩, heap⟩
  · have ran : (State.run names 1 (.perform (.call (pairing 4) [.int 3, .int 4, .int 5, .int 6]) site []
        emptyWorld)).map Prod.fst = some (.failure (.redeclaration "a")) := by decide +kernel
    obtain ⟨⟨outcome, last⟩, ended, rfl⟩ := Option.map_eq_some_iff.mp ran
    obtain ⟨_, _, _, after, _, _, _, spares, _, ends⟩ :=
      (calls_bind_their_parameters four names [.int 3, .int 4, .int 5, .int 6] site emptyWorld).2.1 rfl (by decide)
    have same := ((ends _ _).mp ⟨1, ended⟩).2
    exact ⟨last, ⟨1, ended⟩, same ▸ spares⟩
  · have ran : (State.run names 9 (.perform (.call (pairing 2) [.int 3, .int 4]) site [] emptyWorld)).map Prod.fst =
        some (.value (.int 4)) := by decide +kernel
    obtain ⟨⟨outcome, last⟩, ended, rfl⟩ := Option.map_eq_some_iff.mp ran
    obtain ⟨frame, bound, entered, _⟩ :=
      (calls_bind_their_parameters two names [.int 3, .int 4] site emptyWorld).2.2 rfl (by decide)
    exact ⟨frame, bound, last, entered, ⟨9, ended⟩⟩

end ScopedEval
