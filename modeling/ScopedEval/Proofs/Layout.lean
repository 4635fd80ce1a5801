import ScopedEval.Proofs.Heaps
import ScopedEval.Proofs.Simulation

namespace ScopedEval

/-- A pairing of the expressions of two arenas under which paired expressions are of one kind, with
    the same literal, operator, names and parameters and with paired subexpressions. Where the
    expressions stand, whether one stands for several, and what else the arenas hold is left open. -/
def Bisimulation (left right : Arena) (pairs : ExprId → ExprId → Prop) : Prop :=
  ∀ {a b}, pairs a b →
    Fetched True (Node.Matches True left right
      { uses := Eq
        declares := Eq
        children := pairs
        functions := fun params body params' body' =>
          left.params? params = right.params? params' ∧ params.length = params'.length ∧ pairs body body' })
      (left.node? a) (right.node? b)

def Bisimilar (left : Arena) (a : ExprId) (right : Arena) (b : ExprId) : Prop :=
  ∃ pairs, Bisimulation left right pairs ∧ pairs a b

structure Closure.Alike (left right : Closure) : Prop where
  stamp : left.stamp = right.stamp
  scope : left.scope = right.scope
  arity : left.arity = right.arity
  params : left.paramNames? = right.paramNames?
  body : Bisimilar left.code.arena left.body right.code.arena right.body

structure Heap.Alike (left right : Heap) : Prop where
  size : left.frames.size = right.frames.size
  closures : left.closures = right.closures
  parent (id : FrameId) : left.parent? id = right.parent? id
  get (id : FrameId) (name : Name) :
    Option.Rel (Value.Related Closure.Alike) (left.get? id name) (right.get? id name)

namespace Heap.Alike

variable {left right : Heap}

theorem corresponds (alike : left.Alike right) : Corresponds Eq Eq Closure.Alike left right where
  held same := by rw [same, alike.size]
  get sameFrame sameName := by
    subst sameFrame sameName
    exact alike.get _ _

theorem of_corresponds (same : Corresponds Eq Eq Closure.Alike left right)
    (size : left.frames.size = right.frames.size) (closures : left.closures = right.closures)
    (parent : ∀ id, left.parent? id = right.parent? id) : left.Alike right :=
  ⟨size, closures, parent, fun _ _ => same.get rfl rfl⟩

theorem scope (alike : left.Alike right) (id : FrameId) : SameScope Eq (fun _ => true) left right id id :=
  .of_parent alike.parent id

theorem holder? (alike : left.Alike right) (id : FrameId) (name : Name) :
    left.holder? id name = right.holder? id name :=
  (alike.scope id).holder?_eq fun same => alike.corresponds.binds same (Eq.refl name)

theorem target (alike : left.Alike right) (id : FrameId) (name : Name) :
    left.target id name = right.target id name :=
  (alike.scope id).target fun same => alike.corresponds.binds same (Eq.refl name)

theorem bind (alike : left.Alike right) (id : FrameId) (name : Name) {value value' : Value}
    (related : Value.Related Closure.Alike value value') :
    (left.bind id name value).Alike (right.bind id name value') := by
  have same := alike.corresponds.bind biUnique_eq biUnique_eq (Eq.refl id) (Eq.refl name) related
  apply of_corresponds same
  · rw [size_bind, size_bind, alike.size]
  · exact alike.closures
  · intro other
    rw [parent?_bind, parent?_bind, alike.parent]

theorem newFrame (alike : left.Alike right) (parent : Option FrameId) :
    (left.newFrame parent).2.Alike (right.newFrame parent).2 := by
  have fresh : (⟨left.frames.size⟩ : FrameId) = ⟨right.frames.size⟩ := by rw [alike.size]
  apply of_corresponds (alike.corresponds.newFrame biUnique_eq fresh parent parent)
  · rw [size_newFrame, size_newFrame, alike.size]
  · exact alike.closures
  · intro id
    rw [parent?_newFrame, parent?_newFrame, alike.size, alike.parent]

end Heap.Alike

structure World.Alike (left right : World) : Prop where
  heap : left.heap.Alike right.heap
  sink : left.sink = right.sink
  trace : left.trace = right.trace

namespace World.Alike

variable {left right : World}

theorem emit (alike : left.Alike right) (event : Event) : (left.emit event).Alike (right.emit event) :=
  ⟨alike.heap, alike.sink, congrArg (·.push event) alike.trace⟩

theorem newClosure (alike : left.Alike right) {params params' : Span} {body body' : ExprId}
    {code code' : Code} {scope scope' : FrameId} :
    (left.newClosure params body code scope).2.Alike (right.newClosure params' body' code' scope').2 := by
  refine ⟨⟨alike.heap.size, ?_, alike.heap.parent, alike.heap.get⟩, alike.sink, alike.trace⟩
  exact congrArg (· + 1) alike.heap.closures

theorem newFrame (alike : left.Alike right) (parent : Option FrameId) :
    (left.newFrame parent).2.Alike (right.newFrame parent).2 :=
  ⟨alike.heap.newFrame parent, alike.sink, alike.trace⟩

theorem bind (alike : left.Alike right) (id : FrameId) (name : Name) {value value' : Value}
    (related : Value.Related Closure.Alike value value') :
    (left.bind id name value).Alike (right.bind id name value') :=
  ⟨alike.heap.bind id name related, alike.sink, alike.trace⟩

theorem print (alike : left.Alike right) {value value' : Value}
    (related : Value.Related Closure.Alike value value') : (left.print value).Alike (right.print value') := by
  refine ⟨alike.heap, ?_, alike.trace⟩
  exact sink_print related alike.sink

theorem assign (alike : left.Alike right) (id : FrameId) (name : Name) {value value' : Value}
    (related : Value.Related Closure.Alike value value') :
    (left.assign id name value).Alike (right.assign id name value') := by
  constructor
  · rw [heap_assign, heap_assign, alike.heap.target]
    exact alike.heap.bind _ name related
  · rw [sink_assign, sink_assign, alike.sink]
  · rw [trace_assign, trace_assign, alike.heap.holder?, alike.trace]

end World.Alike

def layout : Correspondence where
  Stage := Unit
  later _ _ := True
  uses := Eq
  declares _ frame frame' name name' := frame = frame' ∧ name = name'
  closures _ := Closure.Alike
  scopes _ := Eq
  exprs _ site a site' b := site.frame = site'.frame ∧ Bisimilar site.code.arena a site'.code.arena b
  worlds _ := World.Alike

theorem layout_read {site site' : Site} {a b : ExprId} (exprs : layout.exprs () site a site' b) :
    Fetched True (Node.Matches True site.code.arena site'.code.arena (layout.parts () site site'))
      (site.code.arena.node? a) (site'.code.arena.node? b) := by
  obtain ⟨frame, pairs, bisimulation, related⟩ := exprs
  apply (bisimulation related).mono
  intro node node' same
  apply same.mono
  · exact fun _ _ used => used
  · exact fun _ _ declared => ⟨frame, declared⟩
  · exact fun _ _ child => ⟨frame, pairs, bisimulation, child⟩
  · rintro params body params' body' ⟨names, length, paired⟩ world world' worlds
    refine ⟨(), trivial, ?_, worlds.newClosure⟩
    exact ⟨worlds.heap.closures, frame, length, names, pairs, bisimulation, paired⟩

theorem layout_simulates (names : Interner) : layout.Simulates True names names where
  later_refl _ := trivial
  later_trans _ _ := trivial
  closures_later _ alike := alike
  scopes_later _ same := same
  declares_later _ same := same
  exprs_later _ exprs := exprs
  text same := by rw [same]
  declares_uses same := same.2
  identity left right := by simp only [Closure.same, left.stamp, right.stamp]
  scope exprs := exprs.1
  read := layout_read
  resolve worlds same used := by
    subst same
    exact worlds.heap.corresponds.resolve (worlds.heap.scope _) used
  emit event worlds := worlds.emit event
  print worlds related := worlds.print related
  binds worlds same := worlds.heap.corresponds.binds same.1 same.2
  declare worlds same related _ := by
    obtain ⟨rfl, rfl⟩ := same
    exact (worlds.bind _ _ related).emit _
  assign worlds same used related := by
    subst same used
    exact worlds.assign _ _ related
  arity alike := alike.arity
  params alike := by
    rw [alike.params]
    exact .same trivial _
  enter {stage closure closure' world world'} alike worlds := by
    have fresh : (world.newFrame (some closure.scope)).1 = (world'.newFrame (some closure'.scope)).1 :=
      congrArg FrameId.mk worlds.heap.size
    refine ⟨(), trivial, ?_, ?_, fresh, alike.body⟩
    · rw [alike.scope]
      exact worlds.newFrame _
    · exact fun name name' used => ⟨fresh, used⟩

/-- How an expression is laid out cannot be told from evaluating it. -/
theorem evaluate_bisimilar {names : Interner} {left right : Code} {a b : ExprId} {world world' : World}
    (frame : FrameId) (similar : Bisimilar left.arena a right.arena b) (heaps : world.heap.Alike world'.heap)
    (sinks : world.sink = world'.sink) (traces : world.trace = world'.trace) :
    BothOrNeither (Finishes names ⟨left, frame⟩ a world) (Finishes names ⟨right, frame⟩ b world')
      fun outcome after outcome' after' =>
        Outcome.Related True Closure.Alike outcome outcome' ∧ after.heap.Alike after'.heap ∧
          after.sink = after'.sink ∧ after.trace = after'.trace := by
  have exprs : layout.exprs () ⟨left, frame⟩ a ⟨right, frame⟩ b := ⟨rfl, similar⟩
  have worlds : layout.worlds () world world' := ⟨heaps, sinks, traces⟩
  apply ((layout_simulates names).bothOrNeither exprs worlds).mono
  rintro outcome after outcome' after' ⟨_, _, related, alike⟩
  exact ⟨related, alike.heap, alike.sink, alike.trace⟩

/-- A function that doubles its argument, called with 5; the two operands are one expression. -/
def doublingShared : Arena where
  nodes := #[.ident ⟨1⟩, .binary .add ⟨0⟩ ⟨0⟩, .function ⟨0, 1⟩ ⟨1⟩, .literal (.int 5), .call ⟨2⟩ ⟨0, 1⟩]
  args := #[⟨3⟩]
  params := #[⟨1⟩]

def doublingSpread : Arena where
  nodes := #[.literal .null, .ident ⟨1⟩, .ident ⟨1⟩, .binary .add ⟨2⟩ ⟨1⟩, .function ⟨1, 1⟩ ⟨3⟩,
    .literal (.int 5), .call ⟨4⟩ ⟨1, 1⟩]
  args := #[⟨0⟩, ⟨5⟩]
  params := #[⟨7⟩, ⟨1⟩]

theorem doubling_bisimilar : Bisimilar doublingShared ⟨4⟩ doublingSpread ⟨6⟩ := by
  let pairs : ExprId → ExprId → Prop := fun a b =>
    (a.index, b.index) ∈ [(0, 1), (0, 2), (1, 3), (2, 4), (3, 5), (4, 6)]
  refine ⟨pairs, ?_, by decide⟩
  rintro ⟨a⟩ ⟨b⟩ related
  have cases : (a = 0 ∧ b = 1) ∨ (a = 0 ∧ b = 2) ∨ (a = 1 ∧ b = 3) ∨ (a = 2 ∧ b = 4) ∨ (a = 3 ∧ b = 5) ∨
      (a = 4 ∧ b = 6) := by simpa [pairs] using related
  rcases cases with ⟨rfl, rfl⟩ | ⟨rfl, rfl⟩ | ⟨rfl, rfl⟩ | ⟨rfl, rfl⟩ | ⟨rfl, rfl⟩ | ⟨rfl, rfl⟩
  · exact .found (.ident rfl)
  · exact .found (.ident rfl)
  · exact .found (.binary .add (by decide) (by decide))
  · exact .found (.function ⟨by decide, rfl, by decide⟩)
  · exact .found (.literal _)
  · exact .found (.call (by decide) (.found (.cons (by decide) .nil)))

theorem emptyWorld_alike : emptyWorld.heap.Alike emptyWorld.heap where
  size := rfl
  closures := rfl
  parent _ := rfl
  get id name := by
    rw [get?_emptyWorld]
    exact .none

theorem evaluate_bisimilar_doubling :
    Bisimilar doublingShared ⟨4⟩ doublingSpread ⟨6⟩ ∧ emptyWorld.heap.Alike emptyWorld.heap ∧
    ∃ after, Finishes .new ⟨⟨1, doublingSpread⟩, ⟨0⟩⟩ ⟨6⟩ emptyWorld (.value (.int 10)) after := by
  refine ⟨doubling_bisimilar, emptyWorld_alike, ?_⟩
  have ran : (evaluate .new 20 ⟨⟨0, doublingShared⟩, ⟨0⟩⟩ ⟨4⟩ emptyWorld).map Prod.fst =
      some (.value (.int 10)) := by decide +kernel
  obtain ⟨⟨outcome, after⟩, ended, same⟩ := Option.map_eq_some_iff.mp ran
  have left : Finishes .new ⟨⟨0, doublingShared⟩, ⟨0⟩⟩ ⟨4⟩ emptyWorld outcome after := ⟨20, ended⟩
  have both := @evaluate_bisimilar .new ⟨0, doublingShared⟩ ⟨1, doublingSpread⟩ ⟨4⟩ ⟨6⟩ emptyWorld emptyWorld
    ⟨0⟩ doubling_bisimilar emptyWorld_alike rfl rfl
  obtain ⟨outcome', after', right, related, _⟩ := both.1 outcome after left
  cases same
  cases related with
  | value same =>
    cases same
    exact ⟨after', right⟩

end ScopedEval
