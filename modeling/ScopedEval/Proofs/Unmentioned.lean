import ScopedEval.Proofs.Interning
import ScopedEval.Proofs.Regions

namespace ScopedEval

theorem Arena.Relabelled.self {uses : Name → Name → Prop} {arena : Arena}
    (used : ∀ name, arena.Mentions name → uses name name) : arena.Relabelled uses arena where
  nodes := by
    refine List.forall₂_same.mpr fun node member => ?_
    have named : ∀ name, node.name? = some name → uses name name := fun name same =>
      used name (.inl ⟨node, member, same⟩)
    cases node with
    | ident name => exact .ident (named name rfl)
    | declare name init => exact .declare (named name rfl)
    | assign name value => exact .assign (named name rfl)
    | _ => exact .plain rfl
  args := rfl
  params := List.forall₂_same.mpr fun name member => used name (.inr member)

def Name.Apart (apart name name' : Name) : Prop := name = name' ∧ name ≠ apart

theorem Name.Apart.biUnique (apart : Name) : Relator.BiUnique (Name.Apart apart) := by
  constructor
  · intro a b c left right
    exact left.1.trans right.1.symm
  · intro a b c left right
    exact left.1.symm.trans right.1

theorem Arena.relabelled_apart {arena : Arena} {apart : Name} (unmentioned : ¬ arena.Mentions apart) :
    arena.Relabelled (Name.Apart apart) arena := by
  apply Arena.Relabelled.self
  intro name mentioned
  refine ⟨rfl, ?_⟩
  rintro rfl
  exact unmentioned mentioned

def Closure.Unaware (apart : Name) (left right : Closure) : Prop :=
  left = right ∧ ¬ left.code.arena.Mentions apart

namespace Heap

structure AgreeApart (apart : Name) (left right : Heap) : Prop where
  size : left.frames.size = right.frames.size
  closures : left.closures = right.closures
  parent (id : FrameId) : left.parent? id = right.parent? id
  get (id : FrameId) {name : Name} : name ≠ apart → left.get? id name = right.get? id name

/-- Heaps that differ in the bindings of a name no code mentions; and these are as they were in the heaps
    that evaluation started with. -/
structure Unaware (apart : Name) (start start' left right : Heap) : Prop where
  size : left.frames.size = right.frames.size
  closures : left.closures = right.closures
  parent (id : FrameId) : left.parent? id = right.parent? id
  same : Corresponds Eq (Name.Apart apart) (Closure.Unaware apart) left right
  kept (id : FrameId) : left.get? id apart = start.get? id apart
  kept' (id : FrameId) : right.get? id apart = start'.get? id apart

theorem AgreeApart.unaware {apart : Name} {left right : Heap} (agree : left.AgreeApart apart right)
    (unmentioned : ∀ id name closure, name ≠ apart → left.get? id name = some (.function closure) →
      ¬ closure.code.arena.Mentions apart) : Unaware apart left right left right where
  size := agree.size
  closures := agree.closures
  parent := agree.parent
  same := by
    refine ⟨fun same => by rw [same, agree.size], ?_⟩
    rintro id id' name name' rfl ⟨rfl, other⟩
    rw [← agree.get id other]
    cases read : left.get? id name with
    | none => exact .none
    | some value =>
      have only : value.Only fun closure => ¬ closure.code.arena.Mentions apart := by
        rintro closure rfl
        exact unmentioned id name closure other read
      exact .some only.related
  kept _ := rfl
  kept' _ := rfl

theorem agreeApart_bind (heap : Heap) (id : FrameId) (apart : Name) (value : Value) :
    (heap.bind id apart value).AgreeApart apart heap where
  size := size_bind heap id apart value
  closures := rfl
  parent other := parent?_bind heap id other apart value
  get other name different := by
    rw [get?_bind, if_neg]
    exact fun here => different here.2.1.symm

namespace Unaware

variable {apart : Name} {start start' left right : Heap}

theorem agree (unaware : Unaware apart start start' left right) : left.AgreeApart apart right where
  size := unaware.size
  closures := unaware.closures
  parent := unaware.parent
  get id name other := by
    have read := unaware.same.get (Eq.refl id) ⟨Eq.refl name, other⟩
    generalize left.get? id name = value at read
    generalize right.get? id name = value' at read
    cases read with
    | none => rfl
    | some related => rw [(Value.Only.of_related related).1]

theorem scope (unaware : Unaware apart start start' left right) (id : FrameId) :
    SameScope Eq (fun _ => true) left right id id :=
  .of_parent unaware.parent id

theorem holder? (unaware : Unaware apart start start' left right) (id : FrameId) {name : Name} (other : name ≠ apart) :
    left.holder? id name = right.holder? id name :=
  (unaware.scope id).holder?_eq fun same => unaware.same.binds same ⟨Eq.refl name, other⟩

theorem target (unaware : Unaware apart start start' left right) (id : FrameId) {name : Name} (other : name ≠ apart) :
    left.target id name = right.target id name :=
  (unaware.scope id).target fun same => unaware.same.binds same ⟨Eq.refl name, other⟩

theorem bind (unaware : Unaware apart start start' left right) (id : FrameId) {name : Name} (other : name ≠ apart)
    {value value' : Value} (related : Value.Related (Closure.Unaware apart) value value') :
    Unaware apart start start' (left.bind id name value) (right.bind id name value') where
  size := by rw [size_bind, size_bind, unaware.size]
  closures := unaware.closures
  parent id := by rw [parent?_bind, parent?_bind, unaware.parent]
  same := unaware.same.bind biUnique_eq (Name.Apart.biUnique apart) (Eq.refl id) ⟨Eq.refl name, other⟩ related
  kept id := by
    rw [get?_bind, if_neg fun here => other here.2.1]
    exact unaware.kept id
  kept' id := by
    rw [get?_bind, if_neg fun here => other here.2.1]
    exact unaware.kept' id

theorem newFrame (unaware : Unaware apart start start' left right) (parent : Option FrameId) :
    Unaware apart start start' (left.newFrame parent).2 (right.newFrame parent).2 where
  size := by rw [size_newFrame, size_newFrame, unaware.size]
  closures := unaware.closures
  parent id := by rw [parent?_newFrame, parent?_newFrame, unaware.size, unaware.parent]
  same := by
    have fresh : (⟨left.frames.size⟩ : FrameId) = ⟨right.frames.size⟩ := by rw [unaware.size]
    exact unaware.same.newFrame biUnique_eq fresh parent parent
  -- a new frame binds nothing, and neither did it at the start, where it was not there
  kept id := by
    rw [get?_newFrame_eq]
    exact unaware.kept id
  kept' id := by
    rw [get?_newFrame_eq]
    exact unaware.kept' id

end Unaware

end Heap

structure World.Unaware (apart : Name) (start start' : Heap) (left right : World) : Prop where
  heap : Heap.Unaware apart start start' left.heap right.heap
  sink : left.sink = right.sink
  trace : left.trace = right.trace

namespace World.Unaware

variable {apart : Name} {start start' : Heap} {left right : World}

theorem emit (unaware : World.Unaware apart start start' left right) (event : Event) :
    World.Unaware apart start start' (left.emit event) (right.emit event) :=
  ⟨unaware.heap, unaware.sink, congrArg (·.push event) unaware.trace⟩

theorem bind (unaware : World.Unaware apart start start' left right) (id : FrameId) {name : Name}
    (other : name ≠ apart) {value value' : Value} (related : Value.Related (Closure.Unaware apart) value value') :
    World.Unaware apart start start' (left.bind id name value) (right.bind id name value') :=
  ⟨unaware.heap.bind id other related, unaware.sink, unaware.trace⟩

theorem assign (unaware : World.Unaware apart start start' left right) (id : FrameId) {name : Name}
    (other : name ≠ apart) {value value' : Value} (related : Value.Related (Closure.Unaware apart) value value') :
    World.Unaware apart start start' (left.assign id name value) (right.assign id name value') := by
  constructor
  · rw [heap_assign, heap_assign, unaware.heap.target id other]
    exact unaware.heap.bind _ other related
  · rw [sink_assign, sink_assign, unaware.sink]
  · rw [trace_assign, trace_assign, unaware.heap.holder? id other, unaware.trace]

theorem newClosure (unaware : World.Unaware apart start start' left right) (params : Span) (body : ExprId)
    (code : Code) (scope : FrameId) :
    World.Unaware apart start start' (left.newClosure params body code scope).2
      (right.newClosure params body code scope).2 := by
  refine ⟨⟨unaware.heap.size, ?_, unaware.heap.parent, ?_, unaware.heap.kept, unaware.heap.kept'⟩, unaware.sink,
    unaware.trace⟩
  · exact congrArg (· + 1) unaware.heap.closures
  · exact ⟨unaware.heap.same.held, unaware.heap.same.get⟩

end World.Unaware

def unmentioned (apart : Name) (start start' : Heap) : Correspondence where
  Stage := Unit
  later _ _ := True
  uses := Name.Apart apart
  declares _ frame frame' name name' := frame = frame' ∧ Name.Apart apart name name'
  closures _ := Closure.Unaware apart
  scopes _ := Eq
  exprs _ site a site' b := site = site' ∧ a = b ∧ ¬ site.code.arena.Mentions apart
  worlds _ := World.Unaware apart start start'

theorem unmentioned_read {apart : Name} {start start' : Heap} {site site' : Site} {a b : ExprId}
    (exprs : (unmentioned apart start start').exprs () site a site' b) :
    Fetched True (Node.Matches True site.code.arena site'.code.arena
      ((unmentioned apart start start').parts () site site')) (site.code.arena.node? a) (site'.code.arena.node? b) := by
  obtain ⟨rfl, rfl, silent⟩ := exprs
  apply ((Arena.relabelled_apart silent).node? a).mono
  intro node node' same
  apply same.matches_self rfl
  · exact fun _ _ used => used
  · exact fun _ _ used => ⟨rfl, used⟩
  · exact fun _ => ⟨rfl, rfl, silent⟩
  · intro params body world world' worlds
    refine ⟨(), trivial, ⟨?_, silent⟩, worlds.newClosure params body site.code site.frame⟩
    simp only [World.newClosure, Heap.newClosure, worlds.heap.closures]

theorem unmentioned_simulates (apart : Name) (start start' : Heap) (names : Interner) :
    (unmentioned apart start start').Simulates True names names where
  later_refl _ := trivial
  later_trans _ _ := trivial
  closures_later _ same := same
  scopes_later _ same := same
  declares_later _ same := same
  exprs_later _ exprs := exprs
  text same := by rw [same.1]
  declares_uses same := same.2
  identity left right := by rw [left.1, right.1]
  scope exprs := congrArg Site.frame exprs.1
  read := unmentioned_read
  resolve worlds same used := by
    subst same
    exact worlds.heap.same.resolve (worlds.heap.scope _) used
  emit event worlds := worlds.emit event
  print worlds related := ⟨worlds.heap, World.sink_print related worlds.sink, worlds.trace⟩
  binds worlds same := worlds.heap.same.binds same.1 same.2
  declare worlds same related _ := by
    obtain ⟨rfl, rfl, other⟩ := same
    exact (worlds.bind _ other related).emit _
  assign worlds same used related := by
    obtain ⟨rfl, other⟩ := used
    subst same
    exact worlds.assign _ other related
  arity same := by rw [same.1]
  params same := by
    obtain ⟨rfl, silent⟩ := same
    exact (Arena.relabelled_apart silent).params? _
  enter {stage closure closure' world world'} same worlds := by
    obtain ⟨rfl, silent⟩ := same
    have frame : (world.newFrame (some closure.scope)).1 = (world'.newFrame (some closure.scope)).1 :=
      congrArg FrameId.mk worlds.heap.size
    refine ⟨(), trivial, ⟨worlds.heap.newFrame _, worlds.sink, worlds.trace⟩, ?_, ?_, rfl, silent⟩
    · exact fun name name' used => ⟨frame, used⟩
    · rw [frame]

/-- What is bound to a name that no code mentions has no influence on evaluation, and evaluation has none on
    it. -/
theorem unmentioned_name_irrelevant {names : Interner} {code : Code} {frame : FrameId} {id : ExprId} {apart : Name}
    {left right : Heap} (sink : Sink) (trace : Array Event) (silent : ¬ code.arena.Mentions apart)
    (closures : ∀ frame name closure, name ≠ apart → left.get? frame name = some (.function closure) →
      ¬ closure.code.arena.Mentions apart)
    (agree : left.AgreeApart apart right) :
    BothOrNeither (Finishes names ⟨code, frame⟩ id ⟨left, sink, trace⟩)
      (Finishes names ⟨code, frame⟩ id ⟨right, sink, trace⟩)
      fun outcome after outcome' after' =>
        outcome = outcome' ∧ after.sink = after'.sink ∧ after.trace = after'.trace ∧
        after.heap.AgreeApart apart after'.heap ∧
        (∀ frame, after.heap.get? frame apart = left.get? frame apart) ∧
        ∀ frame, after'.heap.get? frame apart = right.get? frame apart := by
  have exprs : (unmentioned apart left right).exprs () ⟨code, frame⟩ id ⟨code, frame⟩ id :=
    ⟨rfl, rfl, silent⟩
  have worlds : (unmentioned apart left right).worlds () ⟨left, sink, trace⟩ ⟨right, sink, trace⟩ :=
    ⟨agree.unaware closures, rfl, rfl⟩
  apply ((unmentioned_simulates apart left right names).bothOrNeither exprs worlds).mono
  rintro outcome after outcome' after' ⟨_, _, related, final⟩
  have same : outcome = outcome' := (related.mono fun _ _ unaware => unaware.1).eq
  exact ⟨same, final.sink, final.trace, final.heap.agree, final.heap.kept, final.heap.kept'⟩

def calling : Arena where
  nodes := #[.ident ⟨1⟩, .call ⟨0⟩ ⟨0, 0⟩]
  args := #[]
  params := #[]

def noting : Closure where
  stamp := 0
  params := ⟨0, 0⟩
  body := ⟨2⟩
  code := ⟨1, #[.literal (.int 7), .print ⟨0⟩, .assign ⟨2⟩ ⟨1⟩], #[], #[]⟩
  scope := ⟨0⟩

def selfReading : Closure where
  stamp := 1
  params := ⟨0, 0⟩
  body := ⟨0⟩
  code := ⟨2, #[.ident ⟨9⟩], #[], #[]⟩
  scope := ⟨0⟩

theorem calling_silent : ¬ calling.Mentions ⟨9⟩ := by
  unfold Arena.Mentions
  decide

theorem noting_silent {frame : FrameId} {name : Name} {closure : Closure} (other : name ≠ ⟨9⟩)
    (read : ((emptyWorld.heap.bind ⟨0⟩ ⟨1⟩ (.function noting)).bind ⟨0⟩ ⟨9⟩ (.function selfReading)).get? frame name =
      some (.function closure)) : ¬ closure.code.arena.Mentions ⟨9⟩ := by
  rw [Heap.get?_bind, if_neg fun here => other here.2.1.symm, Heap.get?_bind, get?_emptyWorld] at read
  split at read
  · cases read
    unfold Arena.Mentions
    decide
  · cases read

theorem unmentioned_name_irrelevant_noting :
    ¬ calling.Mentions ⟨9⟩ ∧ selfReading.code.arena.Mentions ⟨9⟩ ∧ ∃ after after',
      Finishes .new ⟨⟨0, calling⟩, ⟨0⟩⟩ ⟨1⟩
        ⟨(emptyWorld.heap.bind ⟨0⟩ ⟨1⟩ (.function noting)).bind ⟨0⟩ ⟨9⟩ (.function selfReading), .buffer "", #[]⟩
        (.value (.int 7)) after ∧
      Finishes .new ⟨⟨0, calling⟩, ⟨0⟩⟩ ⟨1⟩ ⟨emptyWorld.heap.bind ⟨0⟩ ⟨1⟩ (.function noting), .buffer "", #[]⟩
        (.value (.int 7)) after' ∧
      after.sink = .buffer "7\n" ∧ after'.sink = .buffer "7\n" ∧
      after.heap.get? ⟨0⟩ ⟨9⟩ = some (.function selfReading) ∧ after'.heap.get? ⟨0⟩ ⟨9⟩ = none := by
  have ran : (evaluate .new 40 ⟨⟨0, calling⟩, ⟨0⟩⟩ ⟨1⟩
      ⟨emptyWorld.heap.bind ⟨0⟩ ⟨1⟩ (.function noting), .buffer "", #[]⟩).map
        (fun result => (result.1, result.2.sink)) = some (.value (.int 7), .buffer "7\n") := by decide +kernel
  obtain ⟨⟨outcome, after'⟩, ended, same⟩ := Option.map_eq_some_iff.mp ran
  obtain ⟨rfl, printed⟩ := Prod.mk.inj same
  have both := @unmentioned_name_irrelevant .new ⟨0, calling⟩ ⟨0⟩ ⟨1⟩ ⟨9⟩ _ _ (.buffer "") #[] calling_silent
    (fun _ _ _ => noting_silent) (Heap.agreeApart_bind _ ⟨0⟩ _ (.function selfReading))
  obtain ⟨outcome, after, left, rfl, sinks, _, _, kept, kept'⟩ := both.2 _ after' ⟨40, ended⟩
  refine ⟨calling_silent, ?_, after, after', left, ⟨40, ended⟩, sinks.trans printed, printed, ?_, ?_⟩
  · unfold Arena.Mentions
    decide
  · rw [kept, Heap.get?_bind, if_pos (by decide)]
  · rw [kept', Heap.get?_bind, if_neg (by decide), get?_emptyWorld]

end ScopedEval
