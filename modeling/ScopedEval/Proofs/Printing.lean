import Mathlib.Data.List.Sort
import ScopedEval.Proofs.Heaps
import ScopedEval.Proofs.Occasions

namespace ScopedEval

def printedText : List Value → String
  | [] => ""
  | value :: rest => value.text ++ "\n" ++ printedText rest

def Sink.receive (text : String) : Sink → Sink
  | .buffer captured => .buffer (captured ++ text)
  | .stdout written => .stdout (written ++ text)
  | .silent => .silent

namespace Sink

@[simp] theorem receive_empty (sink : Sink) : sink.receive "" = sink := by
  cases sink <;> simp [receive]

theorem receive_append (sink : Sink) (early late : String) :
    sink.receive (early ++ late) = (sink.receive early).receive late := by
  cases sink <;> simp [receive, String.append_assoc]

theorem writeLine_eq (sink : Sink) (line : String) : sink.writeLine line = sink.receive (line ++ "\n") := by
  cases sink <;> simp [writeLine, receive, String.append_assoc]

theorem writeValue_eq (sink : Sink) (value : Value) : sink.writeValue value = sink.receive (value.text ++ "\n") :=
  sink.writeLine_eq value.text

end Sink

theorem printedText_append (early late : List Value) :
    printedText (early ++ late) = printedText early ++ printedText late := by
  induction early with
  | nil => exact String.empty_append.symm
  | cons value rest ih => simp only [List.cons_append, printedText, ih, String.append_assoc]

namespace World

def withSink (world : World) (sink : Sink) : World := { world with sink := sink }

theorem assign_withSink (world : World) (sink : Sink) (id : FrameId) (name : Name) (value : Value) :
    (world.withSink sink).assign id name value = (world.assign id name value).withSink sink := by
  unfold assign withSink
  dsimp only
  cases world.heap.holder? id name <;> rfl

theorem declareAll_withSink (world : World) (sink : Sink) (id : FrameId) (bindings : List (Name × Value)) :
    (world.withSink sink).declareAll id bindings =
      ((world.declareAll id bindings).1, (world.declareAll id bindings).2.withSink sink) := by
  induction bindings generalizing world with
  | nil => rfl
  | cons binding rest ih =>
    obtain ⟨name, value⟩ := binding
    unfold declareAll
    by_cases bound : world.heap.binds id name = true
    · rw [if_pos bound]
      exact if_pos bound
    · rw [if_neg bound]
      exact (if_neg bound).trans (ih (world.declare id name value))

end World

namespace State

def withSink (state : State) (sink : Sink) : State := { state with world := state.world.withSink sink }

/-- What a run prints: the value of each operand of `print` that is evaluated to one, in the order in which that is
    done. -/
structure Prints (names : Interner) (start : State) (prints : List (Nat × Value)) : Prop where
  ordered : prints.Pairwise fun early late => early.1 < late.1
  complete (time : Nat) (value : Value) :
    (time, value) ∈ prints ↔ ∃ site operand world, start.Obtains names time site (.print operand) value world

def printing? (state : State) : Option Value :=
  match state.control, state.stack with
  | .deliver (.value value), .print :: _ => some value
  | _, _ => none

end State

theorem Closure.start_withSink (names : Interner) (closure : Closure) (args : List Value) (site : Site)
    (stack : List Continuation) (world : World) (sink : Sink) :
    closure.start names args site stack (world.withSink sink) =
      (closure.start names args site stack world).withSink sink := by
  unfold Closure.start
  by_cases arity : args.length = closure.arity
  · simp only [arity, ne_eq, not_true_eq_false, if_false]
    cases closure.paramNames? with
    | none => rfl
    | some params =>
      cases result : ((world.emit (.enterCall closure.arity)).newFrame (some closure.scope)).2.declareAll
          ((world.emit (.enterCall closure.arity)).newFrame (some closure.scope)).1 (params.zip args) with
      | mk stop bound =>
      have moved := ((world.emit (.enterCall closure.arity)).newFrame (some closure.scope)).2.declareAll_withSink sink
        ((world.emit (.enterCall closure.arity)).newFrame (some closure.scope)).1 (params.zip args)
      rw [result] at moved
      have moved' : (((world.withSink sink).emit (.enterCall closure.arity)).newFrame (some closure.scope)).2.declareAll
          (((world.withSink sink).emit (.enterCall closure.arity)).newFrame (some closure.scope)).1 (params.zip args) =
            (stop, bound.withSink sink) := moved
      simp only [result, moved']
      cases stop <;> rfl
  · simp only [arity, ne_eq, not_false_eq_true, if_true]
    rfl

theorem Task.start_withSink (names : Interner) (task : Task) (site : Site) (stack : List Continuation) (world : World)
    (sink : Sink) :
    task.start names site stack (world.withSink sink) = (task.start names site stack world).withSink sink := by
  cases task with
  | expr id =>
    simp only [Task.start]
    cases site.code.arena.node? id with
    | none => rfl
    | some node => cases node <;> rfl
  | arguments callee evaluated rest => cases rest <;> rfl
  | call callee args => exact callee.start_withSink names args site stack world sink

theorem Continuation.resume_withSink (names : Interner) {continuation : Continuation} (other : continuation ≠ .print)
    (value : Value) (site : Site) (stack : List Continuation) (world : World) (sink : Sink) :
    continuation.resume names value site stack (world.withSink sink) =
      (continuation.resume names value site stack world).withSink sink := by
  cases continuation with
  | print => exact absurd rfl other
  | branch consequent alternative =>
    simp only [resume]
    split
    · rfl
    · cases alternative <;> rfl
    · rfl
  | loopTest condition body =>
    simp only [resume]
    split <;> rfl
  | declare name =>
    simp only [resume]
    by_cases bound : world.heap.binds site.frame name = true
    · rw [if_pos bound]
      exact if_pos bound
    · rw [if_neg bound]
      exact if_neg bound
  | assign name => exact congrArg (State.yield value site stack) (world.assign_withSink sink site.frame name value)
  | callee args =>
    simp only [resume]
    split
    · cases site.code.arena.args? args <;> rfl
    · rfl
  | _ => rfl

namespace State

theorem step_withSink (names : Interner) (state : State) (sink : Sink) :
    (state.withSink sink).step names =
      (state.step names).withSink (sink.receive (printedText state.printing?.toList)) := by
  obtain ⟨control, site, stack, world⟩ := state
  have silent : sink.receive (printedText []) = sink := sink.receive_empty
  cases control with
  | perform task =>
    show task.start names site stack (world.withSink sink) =
      (task.start names site stack world).withSink (sink.receive (printedText []))
    rw [silent, task.start_withSink]
  | deliver outcome =>
    cases stack with
    | nil =>
      have quiet : State.printing? ⟨.deliver outcome, site, [], world⟩ = none := by cases outcome <;> rfl
      rw [quiet, Option.toList_none, silent]
      cases outcome <;> rfl
    | cons continuation stack =>
      cases outcome with
      | value value =>
        show continuation.resume names value site stack (world.withSink sink) =
          (continuation.resume names value site stack world).withSink _
        by_cases prints : continuation = .print
        · subst prints
          have line : printedText [value] = value.text ++ "\n" := String.append_empty
          show State.yield value site stack ((world.withSink sink).print value) =
            (State.yield value site stack (world.print value)).withSink (sink.receive (printedText [value]))
          rw [line, ← sink.writeValue_eq]
          rfl
        · have quiet : State.printing? ⟨.deliver (.value value), site, continuation :: stack, world⟩ = none := by
            cases continuation with
            | print => exact absurd rfl prints
            | _ => rfl
          rw [quiet, Option.toList_none, silent, Continuation.resume_withSink names prints]
      | failure | outOfRange =>
        show continuation.discard _ site stack (world.withSink sink) =
          (continuation.discard _ site stack world).withSink (sink.receive (printedText []))
        rw [silent]
        cases continuation <;> rfl

theorem printing?_eq_some_iff {state : State} {value : Value} :
    state.printing? = some value ↔ ∃ rest, state = .yield value state.site (.print :: rest) state.world := by
  obtain ⟨control, site, stack, world⟩ := state
  constructor
  · intro prints
    unfold printing? at prints
    split at prints
    · rename_i value' rest delivers waits
      cases delivers
      cases waits
      cases prints
      exact ⟨rest, rfl⟩
    · cases prints
  · rintro ⟨rest, same⟩
    cases same
    rfl

theorem printing?_iterate_iff {names : Interner} {start : State} (fresh : start.stack = []) {time : Nat} {value : Value} :
    ((step names)^[time] start).printing? = some value ↔
      ∃ site operand world, start.Obtains names time site (.print operand) value world := by
  constructor
  · intro prints
    obtain ⟨rest, yields⟩ := printing?_eq_some_iff.mp prints
    obtain ⟨node, waits, obtains⟩ := obtains_of_yields rfl fresh yields
    cases node with
    | print operand => exact ⟨_, operand, _, obtains⟩
    | _ => cases waits
  · rintro ⟨site, operand, world, obtains⟩
    obtain ⟨stack, yields⟩ := obtains.yields rfl
    rw [yields]
    rfl

def printsWithin (names : Interner) (start : State) (steps : Nat) : List (Nat × Value) :=
  (List.range steps).filterMap fun time => ((step names)^[time] start).printing?.map (Prod.mk time)

theorem map_printsWithin_succ (names : Interner) (start : State) (steps : Nat) :
    (start.printsWithin names (steps + 1)).map Prod.snd =
      (start.printsWithin names steps).map Prod.snd ++ ((step names)^[steps] start).printing?.toList := by
  rw [printsWithin, List.range_succ, List.filterMap_append, List.map_append]
  congr 1
  rw [List.filterMap_cons, List.filterMap_nil]
  cases ((step names)^[steps] start).printing? <;> rfl

theorem iterate_withSink (names : Interner) (start : State) (sink : Sink) (steps : Nat) :
    (step names)^[steps] (start.withSink sink) = ((step names)^[steps] start).withSink
      (sink.receive (printedText ((start.printsWithin names steps).map Prod.snd))) := by
  induction steps with
  | zero => exact congrArg start.withSink sink.receive_empty.symm
  | succ steps ih =>
    rw [Function.iterate_succ_apply', ih, step_withSink, Function.iterate_succ_apply', map_printsWithin_succ,
      printedText_append, Sink.receive_append]

theorem printsWithin_withSink (names : Interner) (start : State) (sink : Sink) (steps : Nat) :
    (start.withSink sink).printsWithin names steps = start.printsWithin names steps := by
  unfold printsWithin
  simp only [iterate_withSink]
  rfl

theorem prints_of_ended {names : Interner} {start : State} (fresh : start.stack = []) {steps : Nat}
    (ended : ((step names)^[steps] start).ended = true) : start.Prints names (start.printsWithin names steps) := by
  constructor
  · refine List.pairwise_filterMap.mpr (List.pairwise_lt_range.imp ?_)
    intro early late less first now second later
    obtain ⟨_, _, rfl⟩ := Option.map_eq_some_iff.mp now
    obtain ⟨_, _, rfl⟩ := Option.map_eq_some_iff.mp later
    exact less
  · intro time value
    rw [← printing?_iterate_iff fresh, printsWithin, List.mem_filterMap]
    constructor
    · rintro ⟨time', _, now⟩
      obtain ⟨value', prints, same⟩ := Option.map_eq_some_iff.mp now
      cases same
      exact prints
    · intro prints
      -- a run that has come to its end hands nothing over any more
      have early : time < steps := by
        by_contra late
        rw [iterate_eq_of_ended ended (Nat.not_lt.mp late)] at prints
        obtain ⟨outcome, site, world, last⟩ := ended_iff.mp ended
        rw [last] at prints
        cases outcome <;> cases prints
      exact ⟨time, List.mem_range.mpr early, by rw [prints]; rfl⟩

theorem prints_withSink {names : Interner} {start : State} (fresh : start.stack = []) {steps : Nat}
    (ended : ((step names)^[steps] start).ended = true) (sink : Sink) :
    (start.withSink sink).Prints names (start.printsWithin names steps) := by
  have ended' : ((step names)^[steps] (start.withSink sink)).ended = true := by
    obtain ⟨outcome, site, world, last⟩ := ended_iff.mp ended
    rw [iterate_withSink, last]
    rfl
  have fresh' : (start.withSink sink).stack = [] := fresh
  rw [← printsWithin_withSink names start sink]
  exact prints_of_ended fresh' ended'

theorem exists_prints {names : Interner} {site : Site} {id : ExprId} {world after : World} {outcome : Outcome}
    (finishes : Finishes names site id world outcome after) :
    ∃ prints, (State.eval id site [] world).Prints names prints ∧
      after.sink = world.sink.receive (printedText (prints.map Prod.snd)) := by
  obtain ⟨steps, there⟩ := finishes_iff_iterate.mp finishes
  have moved := iterate_withSink names (.eval id site [] world) world.sink steps
  rw [there] at moved
  exact ⟨_, prints_of_ended rfl (ended_iff.mpr ⟨_, _, _, there⟩),
    congrArg (fun state => state.world.sink) (there.symm.trans moved)⟩

theorem Prints.unique {names : Interner} {start : State} {prints other : List (Nat × Value)}
    (first : start.Prints names prints) (second : start.Prints names other) : prints = other := by
  have : Std.Irrefl fun early late : Nat × Value => early.1 < late.1 := ⟨fun _ => Nat.lt_irrefl _⟩
  have : Std.Antisymm fun early late : Nat × Value => early.1 < late.1 :=
    ⟨fun _ _ less more => absurd less (Nat.lt_asymm more)⟩
  refine first.ordered.eq_of_mem_iff second.ordered fun print => ?_
  exact (first.complete print.1 print.2).trans (second.complete print.1 print.2).symm

end State

/-- Printing has no influence on evaluation, and no line is lost. Either evaluation ends wherever printed lines
    go or it does nowhere. If it ends, it does so with one outcome, one heap and one report; and what arrives,
    behind what was there before, is the lines of all values that operands of `print` were evaluated to, in order. -/
theorem printing_unobserved (names : Interner) (site : Site) (id : ExprId) (heap : Heap) (trace : Array Event) :
    (∀ sink outcome after, ¬ Finishes names site id ⟨heap, sink, trace⟩ outcome after) ∨
      ∃ outcome heap' trace' prints, ∀ sink : Sink,
        (State.eval id site [] ⟨heap, sink, trace⟩).Prints names prints ∧
        Finishes names site id ⟨heap, sink, trace⟩ outcome
          ⟨heap', sink.receive (printedText (prints.map Prod.snd)), trace'⟩ := by
  by_cases ends : ∃ sink outcome after, Finishes names site id ⟨heap, sink, trace⟩ outcome after
  · obtain ⟨sink, outcome, after, finishes⟩ := ends
    obtain ⟨steps, there⟩ := finishes_iff_iterate.mp finishes
    refine .inr ⟨outcome, after.heap, after.trace,
      (State.eval id site [] ⟨heap, sink, trace⟩).printsWithin names steps, fun other => ?_⟩
    have moved := State.iterate_withSink names (.eval id site [] ⟨heap, sink, trace⟩) other steps
    rw [there] at moved
    exact ⟨State.prints_withSink rfl (State.ended_iff.mpr ⟨_, _, _, there⟩) other,
      finishes_iff_iterate.mpr ⟨steps, moved⟩⟩
  · exact .inl fun sink outcome after finishes => ends ⟨sink, outcome, after, finishes⟩

/-- Prints, then calls a function that prints what it computes after it has printed, and divides what it yields by
    zero; the quotient was to be printed too. -/
def unprinted : Arena where
  nodes := #[.literal (.bool true), .print ⟨0⟩, .literal (.int 1), .print ⟨2⟩, .literal (.int 2), .seq ⟨3⟩ ⟨4⟩,
    .print ⟨5⟩, .function ⟨0, 0⟩ ⟨6⟩, .call ⟨7⟩ ⟨0, 0⟩, .literal (.int 0), .binary .div ⟨8⟩ ⟨9⟩, .print ⟨10⟩,
    .seq ⟨1⟩ ⟨11⟩]
  args := #[]
  params := #[]

theorem printing_unobserved_unprinted :
    let site : Site := ⟨⟨0, unprinted⟩, ⟨0⟩⟩
    ∃ heap trace prints, prints.map Prod.snd = [.bool true, .int 1, .int 2] ∧ ∀ sink : Sink,
      (State.eval ⟨12⟩ site [] ⟨emptyWorld.heap, sink, #[]⟩).Prints .new prints ∧
      Finishes .new site ⟨12⟩ ⟨emptyWorld.heap, sink, #[]⟩ (.failure .divisionByZero)
        ⟨heap, sink.receive "true\n1\n2\n", trace⟩ := by
  intro site
  have ran : (evaluate .new 40 site ⟨12⟩ ⟨emptyWorld.heap, .silent, #[]⟩).map Prod.fst =
      some (.failure .divisionByZero) := by decide +kernel
  obtain ⟨⟨outcome, after⟩, ended, failed⟩ := Option.map_eq_some_iff.mp ran
  cases failed
  rcases printing_unobserved .new site ⟨12⟩ emptyWorld.heap #[] with never | ⟨outcome, heap, trace, prints, same⟩
  · exact absurd ⟨40, ended⟩ (never .silent _ _)
  · have stopped : ((State.step .new)^[40] (State.eval ⟨12⟩ site [] ⟨emptyWorld.heap, .silent, #[]⟩)).ended = true := by
      decide +kernel
    have values : prints.map Prod.snd = [.bool true, .int 1, .int 2] := by
      rw [(same .silent).1.unique (State.prints_of_ended rfl stopped)]
      decide +kernel
    have text : printedText (prints.map Prod.snd) = "true\n1\n2\n" := by
      rw [values]
      decide +kernel
    cases ((same .silent).2.unique ⟨40, ended⟩).1
    exact ⟨heap, trace, prints, values, text ▸ same⟩

end ScopedEval
