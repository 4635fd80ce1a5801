import ScopedEval.Proofs.Acyclicity
import ScopedEval.Proofs.Footprints

namespace ScopedEval

inductive Node.Operand : Node → Nat → ExprId → List Continuation → Prop where
  | print {operand : ExprId} : Operand (.print operand) 0 operand [.print]
  | left {op : Operator} {left right : ExprId} : Operand (.binary op left right) 0 left [.rightOperand op right]
  | right {op : Operator} {left right : ExprId} (value : Value) :
      Operand (.binary op left right) 1 right [.apply op value]
  | condition {condition consequent : ExprId} {alternative : Option ExprId} :
      Operand (.branch condition consequent alternative) 0 condition [.branch consequent alternative]
  | consequent {condition consequent : ExprId} {alternative : Option ExprId} :
      Operand (.branch condition consequent alternative) 1 consequent []
  | alternative {condition consequent alternative : ExprId} :
      Operand (.branch condition consequent (some alternative)) 2 alternative []
  | first {first second : ExprId} : Operand (.seq first second) 0 first [.second second]
  | second {first second : ExprId} (value : Value) : Operand (.seq first second) 1 second [.join value]
  | init {name : Name} {init : ExprId} : Operand (.declare name init) 0 init [.declare name]
  | source {name : Name} {source : ExprId} : Operand (.assign name source) 0 source [.assign name]

namespace Node.Operand

variable {node : Node} {position : Nat} {child : ExprId} {waiting : List Continuation}

theorem operands (operand : node.Operand position child waiting) : node.operands[position]? = some child := by
  cases operand <;> rfl

theorem inner (operand : node.Operand position child waiting) :
    ∀ continuation ∈ waiting, continuation.leaves = false := by
  cases operand <;> simp [Continuation.leaves]

end Node.Operand

/-- Where an expression occurs in the tree that another unfolds to at its own level: a path of positions from the
    outside in. The two stacks are what waits for the outer expression and for the inner one. -/
inductive Arena.Occurrence (arena : Arena) : ExprId → List Continuation → List Nat → ExprId → List Continuation →
    Prop where
  | here {id : ExprId} {stack : List Continuation} : Occurrence arena id stack [] id stack
  | under {id child inner : ExprId} {node : Node} {position : Nat} {path : List Nat}
      {waiting stack inside : List Continuation} : arena.node? id = some node →
      node.Operand position child waiting → Occurrence arena child (waiting ++ stack) path inner inside →
      Occurrence arena id stack (position :: path) inner inside

namespace State

def begun (state : State) : List State :=
  match state.control with
  | .perform (.expr _) => [state]
  | _ => []

def Begins (site : Site) (id : ExprId) (stack : List Continuation) (state : State) (path : List Nat) : Prop :=
  ∃ inner inside world, state = .eval inner site inside world ∧
    site.code.arena.Occurrence id stack path inner inside

def Covers (names : Interner) (site : Site) (id : ExprId) (stack : List Continuation) (start : State)
    (paths : List (List Nat)) (final : State) : Prop :=
  ∃ states, Collects names begun start states final ∧ List.Forall₂ (Begins site id stack) states paths

namespace Covers

variable {names : Interner} {site : Site} {id : ExprId} {stack : List Continuation} {start middle final : State}
  {early late paths : List (List Nat)}

theorem refl (state : State) : Covers names site id stack state [] state := ⟨[], .refl state, .nil⟩

theorem trans (first : Covers names site id stack start early middle)
    (second : Covers names site id stack middle late final) :
    Covers names site id stack start (early ++ late) final := by
  obtain ⟨states, collects, begins⟩ := first
  obtain ⟨states', collects', begins'⟩ := second
  exact ⟨states ++ states', collects.trans collects', List.rel_append begins begins'⟩

theorem quiet (silent : start.begun = []) (rest : Covers names site id stack (start.step names) paths final) :
    Covers names site id stack start paths final := by
  obtain ⟨states, collects, begins⟩ := rest
  refine ⟨start.begun ++ states, .step collects, ?_⟩
  rw [silent]
  exact begins

theorem self {node : Node} (read : site.code.arena.node? id = some node) {world : World}
    (rest : Covers names site id stack (node.start site stack world) paths final) :
    Covers names site id stack (.eval id site stack world) ([] :: paths) final := by
  obtain ⟨states, collects, begins⟩ := rest
  rw [← State.step_expr names read] at collects
  exact ⟨_ :: states, .step collects, .cons ⟨id, stack, world, rfl, .here⟩ begins⟩

theorem under {node : Node} {child : ExprId} {position : Nat} {waiting : List Continuation}
    (read : site.code.arena.node? id = some node) (operand : node.Operand position child waiting)
    (covers : Covers names site child (waiting ++ stack) start paths final) :
    Covers names site id stack start (paths.map (position :: ·)) final := by
  obtain ⟨states, collects, begins⟩ := covers
  refine ⟨states, collects, List.forall₂_map_right_iff.mpr (begins.imp ?_)⟩
  rintro state path ⟨inner, inside, world, same, occurrence⟩
  exact ⟨inner, inside, world, same, .under read operand occurrence⟩

theorem abort {outcome : Outcome} (aborts : outcome.aborts = true) {waiting : List Continuation}
    (inner : ∀ continuation ∈ waiting, continuation.leaves = false) (world : World) :
    Covers names site id stack (.deliver outcome site (waiting ++ stack) world) []
      (.deliver outcome site stack world) := by
  induction waiting with
  | nil => exact .refl _
  | cons continuation waiting ih =>
    refine .quiet rfl ?_
    rw [List.cons_append, State.step_abort names aborts,
      Continuation.discard_of_not_leaves (inner continuation List.mem_cons_self)]
    exact ih fun other member => inner other (List.mem_cons_of_mem _ member)

end Covers

/-- The evaluation of an expression goes on to a value or a failure, and what it still begins are operands from a
    position on, each occurrence once. -/
def Settles (names : Interner) (site : Site) (id : ExprId) (stack : List Continuation) (position : Nat)
    (state : State) : Prop :=
  ∃ outcome after paths, outcome ≠ .outOfRange ∧
    Covers names site id stack state paths (.deliver outcome site stack after) ∧ paths.Nodup ∧
    ∀ path ∈ paths, ∃ first rest, path = first :: rest ∧ position ≤ first

end State

def EndsOnce (names : Interner) (site : Site) (id : ExprId) (stack : List Continuation) (world : World) : Prop :=
  ∃ outcome after paths, outcome ≠ .outOfRange ∧
    State.Covers names site id stack (.eval id site stack world) paths (.deliver outcome site stack after) ∧
    paths.Nodup

namespace State.Settles

variable {names : Interner} {site : Site} {id : ExprId} {stack : List Continuation} {position : Nat} {state : State}

theorem done {outcome : Outcome} (known : outcome ≠ .outOfRange) (after : World) :
    Settles names site id stack position (.deliver outcome site stack after) :=
  ⟨outcome, after, [], known, .refl _, List.nodup_nil, by simp⟩

theorem quiet (silent : state.begun = []) (rest : Settles names site id stack position (state.step names)) :
    Settles names site id stack position state := by
  obtain ⟨outcome, after, paths, known, covers, once, later⟩ := rest
  exact ⟨outcome, after, paths, known, covers.quiet silent, once, later⟩

theorem operand {node : Node} {place : Nat} {child : ExprId} {waiting : List Continuation} {world : World}
    (read : site.code.arena.node? id = some node) (operand : node.Operand place child waiting)
    (reached : position ≤ place) (ends : EndsOnce names site child (waiting ++ stack) world)
    (rest : ∀ value after, Settles names site id stack (place + 1) (.yield value site (waiting ++ stack) after)) :
    Settles names site id stack position (.eval child site (waiting ++ stack) world) := by
  obtain ⟨outcome, middle, paths, known, covers, once⟩ := ends
  have inside := covers.under read operand
  have once' : (paths.map (place :: ·)).Nodup := once.map (List.cons_injective)
  have begins : ∀ path ∈ paths.map (place :: ·), ∃ tail, path = place :: tail := by
    intro path member
    obtain ⟨tail, _, rfl⟩ := List.mem_map.mp member
    exact ⟨tail, rfl⟩
  -- A failure passes by what waits inside the expression; after a value the later operands have their turn.
  cases outcome with
  | outOfRange => exact absurd rfl known
  | failure failure =>
    refine ⟨.failure failure, middle, _, known, inside.trans (.abort rfl operand.inner middle), ?_, ?_⟩
    · rw [List.append_nil]
      exact once'
    · intro path member
      rw [List.append_nil] at member
      obtain ⟨tail, rfl⟩ := begins path member
      exact ⟨place, tail, rfl, reached⟩
  | value value =>
    obtain ⟨outcome, after, paths', known', covers', once'', later⟩ := rest value middle
    refine ⟨outcome, after, _, known', inside.trans covers', List.nodup_append.mpr ⟨once', once'', ?_⟩, ?_⟩
    · -- What is begun later stands at a later position.
      rintro path member other member' rfl
      obtain ⟨tail, rfl⟩ := begins path member
      obtain ⟨first, rest, same, behind⟩ := later _ member'
      cases same
      omega
    · intro path member
      rcases List.mem_append.mp member with member | member
      · obtain ⟨tail, rfl⟩ := begins path member
        exact ⟨place, tail, rfl, reached⟩
      · obtain ⟨first, rest, same, behind⟩ := later path member
        exact ⟨first, rest, same, by omega⟩

theorem endsOnce {node : Node} {world : World} (read : site.code.arena.node? id = some node)
    (settles : Settles names site id stack 0 (node.start site stack world)) :
    EndsOnce names site id stack world := by
  obtain ⟨outcome, after, paths, known, covers, once, later⟩ := settles
  refine ⟨outcome, after, [] :: paths, known, covers.self read, List.nodup_cons.mpr ⟨fun member => ?_, once⟩⟩
  obtain ⟨first, rest, same, _⟩ := later [] member
  cases same

end State.Settles

theorem Arena.Ordered.endsOnce {names : Interner} {site : Site} (ordered : site.code.arena.Ordered) {id : ExprId}
    (inside : id.index < site.code.arena.size)
    (loopFree : ∀ condition body, ¬ site.code.arena.Owns id (.loop condition body))
    (callFree : ∀ callee args, ¬ site.code.arena.Owns id (.call callee args)) (stack : List Continuation)
    (world : World) : EndsOnce names site id stack world := by
  -- On ids: an expression is made of earlier ones, and what its level lacks, the levels of its operands lack.
  induction index : id.index using Nat.strongRecOn generalizing id stack world with
  | ind bound ih =>
  obtain ⟨node, read⟩ : ∃ node, site.code.arena.node? id = some node := by
    rw [← Option.isSome_iff_exists, Arena.node?_isSome]
    exact decide_eq_true inside
  have ends : ∀ {position child waiting}, node.Operand position child waiting → ∀ stack world,
      EndsOnce names site child stack world := by
    intro position child waiting operand stack world
    have step : site.code.arena.Child id child := .operand read (List.mem_of_getElem? operand.operands)
    have below := ordered.child_lt step
    exact ih child.index (by omega) (by omega) (fun _ _ owned => loopFree _ _ (owned.of_child step))
      (fun _ _ owned => callFree _ _ (owned.of_child step)) stack world rfl
  refine State.Settles.endsOnce read ?_
  cases node with
  | loop condition body => exact absurd ⟨id, .refl, read⟩ (loopFree condition body)
  | call callee args => exact absurd ⟨id, .refl, read⟩ (callFree callee args)
  | literal | ident | function => exact .done (by simp) _
  | print operand =>
    exact .operand read .print (Nat.le_refl 0) (ends .print _ world) fun value after =>
      .quiet rfl (.done (by simp) _)
  | declare name init =>
    refine .operand read .init (Nat.le_refl 0) (ends .init _ world) fun value after => .quiet rfl ?_
    show State.Settles names site id stack 1 (Continuation.resume names (.declare name) value site stack after)
    simp only [Continuation.resume]
    split
    · exact .done (by simp) _
    · exact .done (by simp) _
  | assign name source =>
    exact .operand read .source (Nat.le_refl 0) (ends .source _ world) fun value after =>
      .quiet rfl (.done (by simp) _)
  | binary op left right =>
    refine .operand read .left (Nat.le_refl 0) (ends .left _ world) fun value after => .quiet rfl ?_
    refine .operand read (.right value) (Nat.le_refl 1) (ends (.right value) _ after) fun value' after' =>
      .quiet rfl (.done ?_ _)
    cases op.apply value value' <;> simp [Outcome.ofExcept]
  | seq first second =>
    refine .operand read .first (Nat.le_refl 0) (ends .first _ world) fun value after => .quiet rfl ?_
    exact .operand read (.second value) (Nat.le_refl 1) (ends (.second value) _ after) fun value' after' =>
      .quiet rfl (.done (by simp) _)
  | branch condition consequent alternative =>
    refine .operand read .condition (Nat.le_refl 0) (ends .condition _ world) fun value after => .quiet rfl ?_
    cases value with
    | int | null | function => exact .done (by simp) _
    | bool holds =>
      cases holds with
      | true =>
        exact .operand read .consequent (Nat.le_refl 1) (ends .consequent _ after) fun _ _ => .done (by simp) _
      | false =>
        cases alternative with
        | none => exact .done (by simp) _
        | some alternative =>
          exact .operand read .alternative (Nat.le_succ 1) (ends .alternative _ after) fun _ _ => .done (by simp) _

theorem Heap.Walk.congr {left right : Heap} (links : ∀ id, right.parent? id = left.parent? id) {id : FrameId}
    {frames : List FrameId} (walk : left.Walk id frames) : right.Walk id frames := by
  induction walk with
  | outermost top => exact .outermost ((links _).trans top)
  | inner up _ ih => exact .inner ((links _).trans up) ih

theorem Heap.Grows.links {old new : Heap} (grows : old.Grows new) (size : new.frames.size = old.frames.size)
    (id : FrameId) : new.parent? id = old.parent? id := by
  by_cases held : id.index < old.frames.size
  · exact grows.parent held
  · have absent : old.frame? id = none := Heap.frame?_of_size_le (by omega)
    have absent' : new.frame? id = none := Heap.frame?_of_size_le (by omega)
    rw [Heap.parent?, Heap.parent?, absent, absent']

theorem State.Reaches.size_of_end {names : Interner} {start state : State} {outcome : Outcome} {site : Site}
    {after : World} (ended : Reaches names start (.deliver outcome site [] after))
    (same : after.heap.frames.size = start.world.heap.frames.size) (reaches : Reaches names start state) :
    state.world.heap.frames.size = start.world.heap.frames.size := by
  have more := reaches.grows.size
  have less : state.world.heap.frames.size ≤ after.heap.frames.size := by
    rcases reaches.total ended with later | back
    · exact later.grows.size
    · have stays : state = .deliver outcome site [] after := by
        refine Reaches.invariant (motive := (· = .deliver outcome site [] after)) back (fun other same => ?_) rfl
        rw [same]
        cases outcome <;> rfl
      rw [stays]
      exact Nat.le_refl _
  omega

/-- Code without loops and calls at its own level, built from its parts upwards, ends in a value or a failure, from
    every frame of every heap. The evaluations of expressions that begin on the way do so at different occurrences
    of the tree it unfolds to. In every state names are looked up along the same frames, and where such a walk came
    to an outermost frame before, it still does. -/
theorem loopFree_callFree_terminates {builder : Builder} {ids : List ExprId} (made : builder.Made ids) {id : ExprId}
    (inside : id.index < builder.arena.size)
    (loopFree : ∀ condition body, ¬ builder.arena.Owns id (.loop condition body))
    (callFree : ∀ callee args, ¬ builder.arena.Owns id (.call callee args))
    (names : Interner) (stamp : Nat) (frame : FrameId) (world : World) :
    let site : Site := ⟨⟨stamp, builder.arena⟩, frame⟩
    ∃ outcome after, Finishes names site id world outcome after ∧ outcome ≠ .outOfRange ∧
      (∃ states paths, State.Collects names State.begun (.eval id site [] world) states
          (.deliver outcome site [] after) ∧
        List.Forall₂ (State.Begins site id []) states paths ∧ paths.Nodup) ∧
      ∀ state, State.Reaches names (.eval id site [] world) state → ∀ start,
        state.world.heap.chain start = world.heap.chain start ∧
          (world.heap.Walk start (world.heap.chain start) → state.world.heap.Walk start (world.heap.chain start)) := by
  intro site
  have ordered : site.code.arena.Ordered := made.sound.ordered
  obtain ⟨outcome, after, paths, known, ⟨states, collects, begins⟩, once⟩ :=
    ordered.endsOnce inside loopFree callFree [] world
  have finishes : Finishes names site id world outcome after :=
    collects.reaches.run_eq (State.run_final names 0 outcome site after)
  refine ⟨outcome, after, finishes, known, ⟨states, paths, collects, begins, once⟩, ?_⟩
  intro state reaches start
  have foot := finishes.evaluates.footprint callFree rfl .refl
  have links := reaches.grows.links (collects.reaches.size_of_end foot.size reaches)
  exact ⟨Heap.chain_congr links start, fun walk => walk.congr links⟩

/-- Prints twice the same expression under a condition, and makes a function with a loop in its body. -/
def sharing : Builder :=
  let (_, builder) := (Builder.withNames .new).literal (.bool true)
  let (_, builder) := builder.print ⟨0⟩
  let (_, builder) := builder.seq ⟨1⟩ ⟨1⟩
  let (_, builder) := builder.branch ⟨0⟩ ⟨2⟩ (some ⟨2⟩)
  let (_, builder) := builder.loop ⟨0⟩ ⟨1⟩
  let (_, builder) := builder.function [] ⟨4⟩
  (builder.seq ⟨3⟩ ⟨5⟩).2

theorem sharing_made : sharing.Made [⟨6⟩, ⟨5⟩, ⟨4⟩, ⟨3⟩, ⟨2⟩, ⟨1⟩, ⟨0⟩] := by
  have one : Builder.Made _ _ := .call (.literal (.bool true)) (.start .new) (by simp)
  have two := Builder.Made.call (.print ⟨0⟩) one (by decide +kernel)
  have three := Builder.Made.call (.seq ⟨1⟩ ⟨1⟩) two (by decide +kernel)
  have four := Builder.Made.call (.branch ⟨0⟩ ⟨2⟩ (some ⟨2⟩)) three (by decide +kernel)
  have five := Builder.Made.call (.loop ⟨0⟩ ⟨1⟩) four (by decide +kernel)
  have six := Builder.Made.call (.function [] ⟨4⟩) five (by decide +kernel)
  exact .call (.seq ⟨3⟩ ⟨5⟩) six (by decide +kernel)

theorem sharing_owns {node : Node} (owned : sharing.arena.Owns ⟨6⟩ node) :
    some node ∈ [some (.seq ⟨3⟩ ⟨5⟩), some (.function ⟨0, 0⟩ ⟨4⟩), some (.branch ⟨0⟩ ⟨2⟩ (some ⟨2⟩)),
      some (.seq ⟨1⟩ ⟨1⟩), some (.print ⟨0⟩), some (.literal (.bool true))] := by
  obtain ⟨inner, level, read⟩ := owned
  have member : inner ∈ ([⟨6⟩, ⟨5⟩, ⟨3⟩, ⟨2⟩, ⟨1⟩, ⟨0⟩] : List ExprId) :=
    level.mem_of_closed (by decide) (by decide +kernel) (by decide +kernel)
  have nodes : ([⟨6⟩, ⟨5⟩, ⟨3⟩, ⟨2⟩, ⟨1⟩, ⟨0⟩] : List ExprId).map sharing.arena.node? =
      [some (.seq ⟨3⟩ ⟨5⟩), some (.function ⟨0, 0⟩ ⟨4⟩), some (.branch ⟨0⟩ ⟨2⟩ (some ⟨2⟩)),
        some (.seq ⟨1⟩ ⟨1⟩), some (.print ⟨0⟩), some (.literal (.bool true))] := by decide +kernel
  rw [← nodes, ← read]
  exact List.mem_map_of_mem member

theorem loopFree_callFree_terminates_sharing :
    let site : Site := ⟨⟨0, sharing.arena⟩, ⟨0⟩⟩
    sharing.Made [⟨6⟩, ⟨5⟩, ⟨4⟩, ⟨3⟩, ⟨2⟩, ⟨1⟩, ⟨0⟩] ∧
    (∀ condition body, ¬ sharing.arena.Owns ⟨6⟩ (.loop condition body)) ∧
    (∀ callee args, ¬ sharing.arena.Owns ⟨6⟩ (.call callee args)) ∧
    ∃ after states paths,
      Finishes .new site ⟨6⟩ emptyWorld (.value (.function ⟨0, ⟨0, 0⟩, ⟨4⟩, site.code, ⟨0⟩⟩)) after ∧
      State.Collects .new State.begun (.eval ⟨6⟩ site [] emptyWorld) states
        (.deliver (.value (.function ⟨0, ⟨0, 0⟩, ⟨4⟩, site.code, ⟨0⟩⟩)) site [] after) ∧
      List.Forall₂ (State.Begins site ⟨6⟩ []) states paths ∧ paths.Nodup := by
  intro site
  have loopFree : ∀ condition body, ¬ sharing.arena.Owns ⟨6⟩ (.loop condition body) := by
    intro condition body owned
    simpa using sharing_owns owned
  have callFree : ∀ callee args, ¬ sharing.arena.Owns ⟨6⟩ (.call callee args) := by
    intro callee args owned
    simpa using sharing_owns owned
  obtain ⟨outcome, after, finishes, _, ⟨states, paths, collects, begins, once⟩, _⟩ :=
    loopFree_callFree_terminates sharing_made (by decide +kernel) loopFree callFree .new 0 ⟨0⟩ emptyWorld
  have ran : (evaluate .new 60 site ⟨6⟩ emptyWorld).map Prod.fst =
      some (.value (.function ⟨0, ⟨0, 0⟩, ⟨4⟩, site.code, ⟨0⟩⟩)) := by decide +kernel
  obtain ⟨⟨other, last⟩, ended, rfl⟩ := Option.map_eq_some_iff.mp ran
  obtain ⟨rfl, rfl⟩ := finishes.unique ⟨60, ended⟩
  exact ⟨sharing_made, loopFree, callFree, after, states, paths, finishes, collects, begins, once⟩

end ScopedEval
