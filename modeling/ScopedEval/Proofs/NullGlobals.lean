import ScopedEval.Proofs.ScopeChains
import ScopedEval.Proofs.Simulation

namespace ScopedEval

namespace Heap

/-- The second heap is the first one with a name bound to null that an outermost frame did not bind. -/
structure LacksNull (root : FrameId) (global : Name) (left right : Heap) : Prop where
  held : root.index < left.frames.size
  outermost : left.parent? root = none
  unbound : left.get? root global = none
  same : right = left.bind root global .null

namespace LacksNull

variable {root : FrameId} {global : Name} {left right : Heap}

theorem parent (lacks : left.LacksNull root global right) (id : FrameId) : right.parent? id = left.parent? id := by
  rw [lacks.same, parent?_bind]

theorem get_root (lacks : left.LacksNull root global right) : right.get? root global = some .null := by
  rw [lacks.same, get?_bind, if_pos ⟨rfl, rfl, lacks.held⟩]

theorem get_other (lacks : left.LacksNull root global right) {id : FrameId} {name : Name}
    (other : ¬ (id = root ∧ name = global)) : right.get? id name = left.get? id name := by
  rw [lacks.same, get?_bind, if_neg]
  exact fun here => other ⟨here.1.symm, here.2.1.symm⟩

theorem binds_other (lacks : left.LacksNull root global right) {id : FrameId} {name : Name}
    (other : ¬ (id = root ∧ name = global)) : right.binds id name = left.binds id name := by
  rw [binds, binds, lacks.get_other other]

theorem top (lacks : left.LacksNull root global right) {id : FrameId}
    (highest : ∀ parent, left.parent? id = some parent → ¬ parent.index < id.index) :
    ∀ parent, right.parent? id = some parent → ¬ parent.index < id.index := by
  intro parent up
  rw [lacks.parent] at up
  exact highest parent up

theorem inner (lacks : left.LacksNull root global right) {id parent : FrameId} (up : left.parent? id = some parent)
    (name : Name) : ¬ (id = root ∧ name = global) := by
  rintro ⟨rfl, _⟩
  cases lacks.outermost.symm.trans up

theorem resolve_top (lacks : left.LacksNull root global right) (id : FrameId) (name : Name) :
    (right.get? id name).getD .null = (left.get? id name).getD .null := by
  by_cases here : id = root ∧ name = global
  · obtain ⟨rfl, rfl⟩ := here
    rw [lacks.get_root, lacks.unbound]
    rfl
  · rw [lacks.get_other here]

theorem resolve (lacks : left.LacksNull root global right) (id : FrameId) (name : Name) :
    right.resolve id name = left.resolve id name := by
  induction id using left.inward_induction with
  | top id highest => rw [resolve_of_top highest, resolve_of_top (lacks.top highest), lacks.resolve_top]
  | inner id parent up older ih =>
    have same := lacks.get_other (lacks.inner up name)
    have up' : right.parent? id = some parent := (lacks.parent id).trans up
    cases read : left.get? id name with
    | some value => rw [resolve_of_get read, resolve_of_get (same.trans read)]
    | none => rw [resolve_of_parent read up older, resolve_of_parent (same.trans read) up' older, ih]

/-- An assignment that finds the null in the one heap and nothing in the other writes to the same place. -/
theorem target (lacks : left.LacksNull root global right) (id : FrameId) (name : Name) :
    right.target id name = left.target id name := by
  induction id using left.inward_induction with
  | top id highest => rw [target_of_top highest, target_of_top (lacks.top highest)]
  | inner id parent up older ih =>
    have same := lacks.binds_other (lacks.inner up name)
    have up' : right.parent? id = some parent := (lacks.parent id).trans up
    cases bound : left.binds id name with
    | true => rw [target_of_binds bound, target_of_binds (same.trans bound)]
    | false => rw [target_of_parent bound up older, target_of_parent (same.trans bound) up' older, ih]

theorem bind (lacks : left.LacksNull root global right) (id : FrameId) (name : Name) (value : Value) :
    left.bind id name value = right.bind id name value ∨
      (left.bind id name value).LacksNull root global (right.bind id name value) := by
  by_cases here : id = root ∧ name = global
  · obtain ⟨rfl, rfl⟩ := here
    rw [lacks.same, bind_bind_self]
    exact .inl rfl
  · refine .inr ⟨?_, ?_, ?_, ?_⟩
    · rw [size_bind]
      exact lacks.held
    · rw [parent?_bind]
      exact lacks.outermost
    · rw [get?_bind, if_neg fun there => here ⟨there.1, there.2.1⟩]
      exact lacks.unbound
    · rw [lacks.same, bind_comm left here]

theorem newFrame (lacks : left.LacksNull root global right) (parent : Option FrameId) :
    (left.newFrame parent).2.LacksNull root global (right.newFrame parent).2 := by
  have old : root.index ≠ left.frames.size := Nat.ne_of_lt lacks.held
  refine ⟨?_, ?_, ?_, ?_⟩
  · rw [size_newFrame]
    exact Nat.lt_succ_of_lt lacks.held
  · rw [parent?_newFrame, if_neg old]
    exact lacks.outermost
  · rw [get?_newFrame_eq]
    exact lacks.unbound
  · apply eq_of_reads
    · rw [size_newFrame, size_bind, size_newFrame, lacks.same, size_bind]
    · rw [lacks.same]
      rfl
    · intro id
      rw [parent?_bind, parent?_newFrame, parent?_newFrame, lacks.same, size_bind, parent?_bind]
    · intro id name
      have held := lacks.held
      have held' : root.index < (left.newFrame parent).2.frames.size := by
        rw [size_newFrame]
        exact Nat.lt_succ_of_lt held
      rw [get?_bind, get?_newFrame_eq, get?_newFrame_eq, lacks.same, get?_bind]
      simp only [held, held']

end LacksNull

end Heap

structure World.NullApart (root : FrameId) (global : Name) (left right : World) : Prop where
  held : root.index < left.heap.frames.size
  heaps : left.heap = right.heap ∨ left.heap.LacksNull root global right.heap
  sink : left.sink = right.sink

namespace World.NullApart

variable {root : FrameId} {global : Name} {left right : World}

theorem size (apart : left.NullApart root global right) : left.heap.frames.size = right.heap.frames.size := by
  rcases apart.heaps with same | lacks
  · rw [same]
  · rw [lacks.same, Heap.size_bind]

theorem closures (apart : left.NullApart root global right) : left.heap.closures = right.heap.closures := by
  rcases apart.heaps with same | lacks
  · rw [same]
  · rw [lacks.same]
    rfl

theorem resolve (apart : left.NullApart root global right) (id : FrameId) (name : Name) :
    left.heap.resolve id name = right.heap.resolve id name := by
  rcases apart.heaps with same | lacks
  · rw [same]
  · rw [lacks.resolve]

theorem target (apart : left.NullApart root global right) (id : FrameId) (name : Name) :
    left.heap.target id name = right.heap.target id name := by
  rcases apart.heaps with same | lacks
  · rw [same]
  · rw [lacks.target]

theorem binds (apart : left.NullApart root global right) {id : FrameId} {name : Name}
    (other : ¬ (id = root ∧ name = global)) : left.heap.binds id name = right.heap.binds id name := by
  rcases apart.heaps with same | lacks
  · rw [same]
  · rw [lacks.binds_other other]

theorem bind (apart : left.NullApart root global right) (id : FrameId) (name : Name) (value : Value) :
    (left.bind id name value).NullApart root global (right.bind id name value) := by
  refine ⟨?_, ?_, apart.sink⟩
  · show root.index < (left.heap.bind id name value).frames.size
    rw [Heap.size_bind]
    exact apart.held
  · rcases apart.heaps with same | lacks
    · exact .inl (congrArg (·.bind id name value) same)
    · exact lacks.bind id name value

theorem assign (apart : left.NullApart root global right) (id : FrameId) (name : Name) (value : Value) :
    (left.assign id name value).NullApart root global (right.assign id name value) := by
  have bound := apart.bind (left.heap.target id name) name value
  refine ⟨?_, ?_, ?_⟩
  · rw [heap_assign]
    exact bound.held
  · rw [heap_assign, heap_assign, ← apart.target]
    exact bound.heaps
  · rw [sink_assign, sink_assign, apart.sink]

theorem newFrame (apart : left.NullApart root global right) (parent : Option FrameId) :
    (left.newFrame parent).2.NullApart root global (right.newFrame parent).2 := by
  refine ⟨?_, ?_, apart.sink⟩
  · show root.index < (left.heap.newFrame parent).2.frames.size
    rw [Heap.size_newFrame]
    exact Nat.lt_succ_of_lt apart.held
  · rcases apart.heaps with same | lacks
    · exact .inl (congrArg (fun heap => (heap.newFrame parent).2) same)
    · exact .inr (lacks.newFrame parent)

theorem newClosure (apart : left.NullApart root global right) (params : Span) (body : ExprId) (code : Code)
    (scope : FrameId) :
    (left.newClosure params body code scope).2.NullApart root global (right.newClosure params body code scope).2 := by
  refine ⟨apart.held, ?_, apart.sink⟩
  rcases apart.heaps with same | lacks
  · exact .inl (congrArg (fun heap => (heap.newClosure params body code scope).2) same)
  · refine .inr ⟨lacks.held, lacks.outermost, lacks.unbound, ?_⟩
    exact congrArg (fun heap => (heap.newClosure params body code scope).2) lacks.same

end World.NullApart

/-- One expression evaluated in two worlds that differ in the binding of a global name to null. In the frame in
    question it declares that name nowhere at its own level. -/
def nullGlobals (root : FrameId) (global : Name) : Correspondence where
  Stage := Unit
  later _ _ := True
  uses := Eq
  declares _ frame frame' name name' := frame = frame' ∧ name = name' ∧ ¬ (frame = root ∧ name = global)
  closures _ := Eq
  scopes _ := Eq
  exprs _ site a site' b :=
    site = site' ∧ a = b ∧ (site.frame = root → ¬ site.code.arena.OwnDeclares a global)
  worlds _ := World.NullApart root global

theorem nullGlobals_read {root : FrameId} {global : Name} {site site' : Site} {a b : ExprId}
    (exprs : (nullGlobals root global).exprs () site a site' b) :
    Fetched True (Node.Matches True site.code.arena site'.code.arena
      ((nullGlobals root global).parts () site site')) (site.code.arena.node? a) (site'.code.arena.node? b) := by
  obtain ⟨rfl, rfl, undeclared⟩ := exprs
  cases read : site.code.arena.node? a with
  | none => exact .missing trivial
  | some node =>
    apply Fetched.found
    apply Node.Matches.self read
    · exact fun name => rfl
    · rintro name init rfl
      refine ⟨rfl, rfl, ?_⟩
      -- this very declaration would be one at the own level
      rintro ⟨here, rfl⟩
      exact undeclared here ⟨a, init, .refl, read⟩
    · intro child step
      refine ⟨rfl, rfl, fun here => ?_⟩
      rintro ⟨inner, init, level, declares⟩
      exact undeclared here ⟨inner, init, .head step level, declares⟩
    · rintro params body - world world' worlds
      refine ⟨(), trivial, ?_, worlds.newClosure params body site.code site.frame⟩
      simp only [nullGlobals, World.newClosure, Heap.newClosure, worlds.closures]
    · exact fun _ _ _ _ => trivial

theorem nullGlobals_simulates (root : FrameId) (global : Name) (names : Interner) :
    (nullGlobals root global).Simulates True names names where
  later_refl _ := trivial
  later_trans _ _ := trivial
  closures_later _ same := same
  scopes_later _ same := same
  declares_later _ same := same
  exprs_later _ exprs := exprs
  text same := by rw [same]
  declares_uses same := same.2.1
  identity left right := by rw [left, right]
  scope exprs := congrArg Site.frame exprs.1
  read := nullGlobals_read
  resolve worlds scopes used := by
    subst scopes used
    rw [worlds.resolve]
    exact .refl (fun _ => rfl) _
  emit _ worlds := ⟨worlds.held, worlds.heaps, worlds.sink⟩
  print worlds related := ⟨worlds.held, worlds.heaps, World.sink_print related worlds.sink⟩
  binds worlds same := by
    obtain ⟨rfl, rfl, other⟩ := same
    exact worlds.binds other
  declare worlds same related _ := by
    obtain ⟨rfl, rfl, _⟩ := same
    cases related.eq
    exact ⟨(worlds.bind _ _ _).held, (worlds.bind _ _ _).heaps, worlds.sink⟩
  assign worlds scopes used related := by
    subst scopes used
    cases related.eq
    exact worlds.assign _ _ _
  arity same := by rw [same]
  params same := by
    rw [same]
    exact .same trivial _
  enter {stage closure closure' world world'} same worlds := by
    subst same
    have frame : (world.newFrame (some closure.scope)).1 = (world'.newFrame (some closure.scope)).1 :=
      congrArg FrameId.mk worlds.size
    have new : (world.newFrame (some closure.scope)).1 ≠ root := by
      rintro rfl
      exact Nat.lt_irrefl _ worlds.held
    refine ⟨(), trivial, worlds.newFrame _, ?_, ?_, rfl, fun here => absurd here new⟩
    · exact fun name name' used => ⟨frame, used, fun here => new here.1⟩
    · rw [frame]

/-- Running code cannot tell a global name that is bound to null from one that is not bound, unless it declares
    the name in the global frame itself. -/
theorem null_global_unobservable {names : Interner} {code : Code} {frame root : FrameId} {id : ExprId}
    {global : Name} {left right : Heap} (sink : Sink) (trace trace' : Array Event)
    (lacks : left.LacksNull root global right) (apart : frame ≠ root ∨ ¬ code.arena.OwnDeclares id global) :
    BothOrNeither (Finishes names ⟨code, frame⟩ id ⟨left, sink, trace⟩)
      (Finishes names ⟨code, frame⟩ id ⟨right, sink, trace'⟩)
      fun outcome after outcome' after' =>
        outcome = outcome' ∧ after.sink = after'.sink ∧
          (after.heap = after'.heap ∨ after.heap.LacksNull root global after'.heap) := by
  have exprs : (nullGlobals root global).exprs () ⟨code, frame⟩ id ⟨code, frame⟩ id :=
    ⟨rfl, rfl, fun here => apart.resolve_left fun other => other here⟩
  have worlds : (nullGlobals root global).worlds () ⟨left, sink, trace⟩ ⟨right, sink, trace'⟩ :=
    ⟨lacks.held, .inr lacks, rfl⟩
  apply ((nullGlobals_simulates root global names).bothOrNeither exprs worlds).mono
  rintro outcome after outcome' after' ⟨_, _, related, final⟩
  exact ⟨related.eq, final.sink, final.heaps⟩

/-- Prints a global name, calls a function that declares the name for itself, and assigns the result to it. -/
def shadowing : Arena where
  nodes := #[.ident ⟨0⟩, .print ⟨0⟩, .literal (.int 5), .declare ⟨0⟩ ⟨2⟩, .function ⟨0, 0⟩ ⟨3⟩, .call ⟨4⟩ ⟨0, 0⟩,
    .seq ⟨1⟩ ⟨5⟩, .assign ⟨0⟩ ⟨6⟩]
  args := #[]
  params := #[]

theorem shadowing_ownLevel {inner : ExprId} (level : shadowing.OwnLevel ⟨7⟩ inner) :
    inner ∈ ([⟨7⟩, ⟨6⟩, ⟨5⟩, ⟨4⟩, ⟨1⟩, ⟨0⟩] : List ExprId) :=
  level.mem_of_closed (by decide) (by decide) (by decide)

theorem shadowing_undeclared : ¬ shadowing.OwnDeclares ⟨7⟩ ⟨0⟩ := by
  rintro ⟨inner, init, level, read⟩
  have member := shadowing_ownLevel level
  simp only [List.mem_cons, List.not_mem_nil, or_false] at member
  rcases member with rfl | rfl | rfl | rfl | rfl | rfl <;> cases read

theorem emptyWorld_lacksNull :
    emptyWorld.heap.LacksNull ⟨0⟩ ⟨0⟩ (emptyWorld.heap.bind ⟨0⟩ ⟨0⟩ .null) where
  held := by decide
  outermost := rfl
  unbound := get?_emptyWorld _ _
  same := rfl

theorem null_global_unobservable_shadowing :
    emptyWorld.heap.LacksNull ⟨0⟩ ⟨0⟩ (emptyWorld.heap.bind ⟨0⟩ ⟨0⟩ .null) ∧ ¬ shadowing.OwnDeclares ⟨7⟩ ⟨0⟩ ∧
    ∃ after, Finishes .new ⟨⟨0, shadowing⟩, ⟨0⟩⟩ ⟨7⟩
        ⟨emptyWorld.heap.bind ⟨0⟩ ⟨0⟩ .null, .buffer "", #[]⟩ (.value (.int 5)) after ∧
      after.sink = .buffer "null\n" := by
  refine ⟨emptyWorld_lacksNull, shadowing_undeclared, ?_⟩
  have ran : (evaluate .new 40 ⟨⟨0, shadowing⟩, ⟨0⟩⟩ ⟨7⟩ ⟨emptyWorld.heap, .buffer "", #[]⟩).map
      (fun result => (result.1, result.2.sink)) = some (.value (.int 5), .buffer "null\n") := by decide +kernel
  obtain ⟨⟨outcome, after⟩, ended, same⟩ := Option.map_eq_some_iff.mp ran
  obtain ⟨rfl, printed⟩ := Prod.mk.inj same
  have both := @null_global_unobservable .new ⟨0, shadowing⟩ ⟨0⟩ ⟨0⟩ ⟨7⟩ ⟨0⟩ _ _ (.buffer "") #[] #[]
    emptyWorld_lacksNull (.inr shadowing_undeclared)
  obtain ⟨outcome', after', right, rfl, sinks, _⟩ := both.1 _ after ⟨40, ended⟩
  exact ⟨after', right, sinks.symm.trans printed⟩

end ScopedEval
