import ScopedEval.Proofs.OwnLevel
import ScopedEval.Proofs.Regions
import ScopedEval.Proofs.Simulation

namespace ScopedEval

namespace Heap

/-- What can be got at from a frame: the frames around it, and the frames captured by closures that are
    bound in a frame within reach. -/
inductive Reaches (heap : Heap) (start : FrameId) : FrameId → Prop where
  | start : Reaches heap start start
  | parent {id parent : FrameId} : Reaches heap start id → heap.parent? id = some parent →
      Reaches heap start parent
  | captured {id : FrameId} {name : Name} {closure : Closure} : Reaches heap start id →
      heap.get? id name = some (.function closure) → Reaches heap start closure.scope

theorem Closed.reaches {region : FrameId → Prop} {heap : Heap}
    (closed : heap.Closed region fun closure => region closure.scope) {start id : FrameId}
    (inside : region start) (reaches : heap.Reaches start id) : region id := by
  induction reaches with
  | start => exact inside
  | parent _ up ih => exact closed.parent ih up
  | captured _ read ih => exact closed.closure ih read

theorem AgreeOn.reaches {region : FrameId → Prop} {left right : Heap} (agree : left.AgreeOn region right)
    (closed : left.Closed region fun closure => region closure.scope) {start id : FrameId}
    (inside : region start) (reaches : left.Reaches start id) : right.Reaches start id := by
  induction reaches with
  | start => exact .start
  | parent before up ih =>
    have around := closed.reaches inside before
    rw [agree.parent around] at up
    exact .parent ih up
  | captured before read ih =>
    have around := closed.reaches inside before
    rw [agree.get around] at read
    exact .captured ih read

theorem AgreeOn.reaches_iff {region : FrameId → Prop} {left right : Heap} (agree : left.AgreeOn region right)
    (closed : left.Closed region fun closure => region closure.scope) {start : FrameId} (inside : region start)
    (id : FrameId) : left.Reaches start id ↔ right.Reaches start id := by
  have back : right.AgreeOn region left :=
    ⟨agree.size.symm, agree.closures.symm, fun around => (agree.frame around).symm⟩
  exact ⟨agree.reaches closed inside, back.reaches (agree.closed closed) inside⟩

def reach (heap : Heap) (start id : FrameId) : Prop := heap.Reaches start id ∨ heap.frames.size ≤ id.index

theorem reach_closed (heap : Heap) (start : FrameId) :
    heap.Closed (heap.reach start) fun closure => heap.reach start closure.scope := by
  constructor
  · rintro id parent (reaches | absent) up
    · exact .inl (.parent reaches up)
    · rw [parent?, frame?_of_size_le absent] at up
      cases up
  · rintro id name closure (reaches | absent) read
    · exact .inl (.captured reaches read)
    · rw [get?, frame?_of_size_le absent] at read
      cases read

theorem reaches_of_binds {heap : Heap} {start id : FrameId} {name : Name} (inside : heap.reach start id)
    (bound : heap.binds id name = true) : heap.Reaches start id := by
  rcases inside with reaches | absent
  · exact reaches
  · rw [binds, get?, frame?_of_size_le absent] at bound
    cases bound

theorem reach_agreeOn {left right : Heap} {start : FrameId} (size : left.frames.size = right.frames.size)
    (closures : left.closures = right.closures)
    (same : ∀ id, left.Reaches start id → left.frame? id = right.frame? id) :
    left.AgreeOn (left.reach start) right := by
  refine ⟨size, closures, ?_⟩
  rintro id (reaches | absent)
  · exact same id reaches
  · have absent' : right.frames.size ≤ id.index := size ▸ absent
    rw [frame?_of_size_le absent, frame?_of_size_le absent']

structure Spares (region : FrameId → Prop) (old new : Heap) : Prop where
  size : old.frames.size ≤ new.frames.size
  frame {id : FrameId} : ¬ region id → new.frame? id = old.frame? id

namespace Spares

variable {region : FrameId → Prop} {old new : Heap}

theorem refl (heap : Heap) : heap.Spares region heap := ⟨Nat.le_refl _, fun _ => rfl⟩

theorem bind (spares : old.Spares region new) {id : FrameId} (inside : region id) (name : Name) (value : Value) :
    old.Spares region (new.bind id name value) := by
  constructor
  · rw [size_bind]
    exact spares.size
  · intro other outside
    have apart : id ≠ other := fun same => outside (same ▸ inside)
    rw [frame?_bind, if_neg apart]
    exact spares.frame outside

theorem newFrame (spares : old.Spares region new) (fresh : ∀ id, old.frames.size ≤ id.index → region id)
    (parent : Option FrameId) : old.Spares region (new.newFrame parent).2 := by
  have size := spares.size
  constructor
  · rw [size_newFrame]
    omega
  · intro id outside
    have apart : id.index ≠ new.frames.size := by
      intro last
      have young : old.frames.size ≤ id.index := by omega
      exact outside (fresh id young)
    rw [frame?_newFrame, if_neg apart]
    exact spares.frame outside

end Spares

end Heap

/-- Two worlds that agree on a region, closed under what can be got at from it, have changed within the
    region only since they were two given heaps. -/
structure World.Confined (region : FrameId → Prop) (base base' : Heap) (left right : World) : Prop where
  agree : left.heap.AgreeOn region right.heap
  closed : left.heap.Closed region fun closure => region closure.scope
  spares : base.Spares region left.heap
  spares' : base'.Spares region right.heap
  sink : left.sink = right.sink
  trace : left.trace = right.trace

namespace World.Confined

variable {region : FrameId → Prop} {base base' : Heap} {left right : World}

theorem emit (confined : Confined region base base' left right) (event : Event) :
    Confined region base base' (left.emit event) (right.emit event) :=
  { confined with trace := congrArg (·.push event) confined.trace }

theorem print (confined : Confined region base base' left right) (value : Value) :
    Confined region base base' (left.print value) (right.print value) :=
  { confined with sink := congrArg (·.writeValue value) confined.sink }

theorem bind (confined : Confined region base base' left right) {id : FrameId} (inside : region id) (name : Name)
    {value : Value} (only : value.Only fun closure => region closure.scope) :
    Confined region base base' (left.bind id name value) (right.bind id name value) where
  agree := confined.agree.bind id name value
  closed := confined.closed.bind id name only
  spares := confined.spares.bind inside name value
  spares' := confined.spares'.bind inside name value
  sink := confined.sink
  trace := confined.trace

theorem assign (confined : Confined region base base' left right) {id : FrameId} (inside : region id) (name : Name)
    {value : Value} (only : value.Only fun closure => region closure.scope) :
    Confined region base base' (left.assign id name value) (right.assign id name value) := by
  have holder := confined.agree.holder? confined.closed inside name
  have target := confined.agree.target confined.closed inside name
  have around := confined.closed.target inside name
  have bound := confined.bind around name only
  refine ⟨?_, ?_, ?_, ?_, ?_, ?_⟩
  · rw [heap_assign, heap_assign, ← target]
    exact bound.agree
  · rw [heap_assign]
    exact bound.closed
  · rw [heap_assign]
    exact bound.spares
  · rw [heap_assign, ← target]
    exact bound.spares'
  · rw [sink_assign, sink_assign, confined.sink]
  · rw [trace_assign, trace_assign, holder, confined.trace]

theorem newClosure (confined : Confined region base base' left right) (params : Span) (body : ExprId) (code : Code)
    (scope : FrameId) :
    Confined region base base' (left.newClosure params body code scope).2
      (right.newClosure params body code scope).2 where
  agree := ⟨confined.agree.size, congrArg (· + 1) confined.agree.closures, confined.agree.frame⟩
  closed := ⟨confined.closed.parent, confined.closed.closure⟩
  spares := ⟨confined.spares.size, confined.spares.frame⟩
  spares' := ⟨confined.spares'.size, confined.spares'.frame⟩
  sink := confined.sink
  trace := confined.trace

theorem newFrame (confined : Confined region base base' left right)
    (fresh : ∀ id, base.frames.size ≤ id.index → region id)
    (fresh' : ∀ id, base'.frames.size ≤ id.index → region id) {parent : FrameId} (inside : region parent) :
    Confined region base base' (left.newFrame (some parent)).2 (right.newFrame (some parent)).2 where
  agree := confined.agree.newFrame (some parent)
  closed := by
    apply confined.closed.newFrame
    intro outer same
    cases same
    exact inside
  spares := confined.spares.newFrame fresh (some parent)
  spares' := confined.spares'.newFrame fresh' (some parent)
  sink := confined.sink
  trace := confined.trace

end World.Confined

def confinement (region : FrameId → Prop) (base base' : Heap) : Correspondence where
  Stage := Unit
  later _ _ := True
  uses := Eq
  declares _ frame frame' name name' := frame = frame' ∧ region frame ∧ name = name'
  closures _ closure closure' := closure = closure' ∧ region closure.scope
  scopes _ frame frame' := frame = frame' ∧ region frame
  exprs _ site a site' b := site = site' ∧ a = b ∧ region site.frame
  worlds _ := World.Confined region base base'

theorem confinement_read {region : FrameId → Prop} {base base' : Heap} {site site' : Site} {a b : ExprId}
    (exprs : (confinement region base base').exprs () site a site' b) :
    Fetched True (Node.Matches True site.code.arena site'.code.arena
      ((confinement region base base').parts () site site')) (site.code.arena.node? a)
      (site'.code.arena.node? b) := by
  obtain ⟨rfl, rfl, inside⟩ := exprs
  cases read : site.code.arena.node? a with
  | none => exact .missing trivial
  | some node =>
    refine .found (Node.Matches.self read (fun _ => rfl) ?_ ?_ ?_ fun _ _ _ _ => trivial)
    · exact fun name init _ => ⟨rfl, inside, rfl⟩
    · exact fun child _ => ⟨rfl, rfl, inside⟩
    · rintro params body - world world' worlds
      have stamp : world.heap.closures = world'.heap.closures := worlds.agree.closures
      refine ⟨(), trivial, ⟨?_, inside⟩, worlds.newClosure params body site.code site.frame⟩
      simp only [World.newClosure, Heap.newClosure, stamp]

theorem confinement_simulates {region : FrameId → Prop} {base base' : Heap}
    (fresh : ∀ id, base.frames.size ≤ id.index → region id)
    (fresh' : ∀ id, base'.frames.size ≤ id.index → region id) (names : Interner) :
    (confinement region base base').Simulates True names names where
  later_refl _ := trivial
  later_trans _ _ := trivial
  closures_later _ same := same
  scopes_later _ same := same
  declares_later _ same := same
  exprs_later _ exprs := exprs
  text same := by rw [same]
  declares_uses same := same.2.2
  identity left right := by rw [left.1, right.1]
  scope exprs := ⟨congrArg Site.frame exprs.1, exprs.2.2⟩
  read := confinement_read
  resolve worlds scopes used := by
    obtain ⟨rfl, inside⟩ := scopes
    have scope := worlds.agree.scope worlds.closed inside
    exact (worlds.agree.corresponds worlds.closed).resolve scope used
  emit event worlds := worlds.emit event
  print worlds related := by
    obtain ⟨rfl, _⟩ := Value.Only.of_related related
    exact worlds.print _
  binds worlds same := by
    obtain ⟨rfl, inside, rfl⟩ := same
    exact (worlds.agree.corresponds worlds.closed).binds ⟨rfl, inside⟩ rfl
  declare worlds same related _ := by
    obtain ⟨rfl, inside, rfl⟩ := same
    obtain ⟨rfl, only⟩ := Value.Only.of_related related
    exact (worlds.bind inside _ only).emit _
  assign worlds scopes used related := by
    obtain ⟨rfl, inside⟩ := scopes
    obtain ⟨rfl, only⟩ := Value.Only.of_related related
    subst used
    exact worlds.assign inside _ only
  arity same := by rw [same.1]
  params same := by
    rw [same.1]
    exact .same trivial _
  enter {stage closure closure' world world'} same worlds := by
    obtain ⟨rfl, inside⟩ := same
    have frame : (world.newFrame (some closure.scope)).1 = (world'.newFrame (some closure.scope)).1 :=
      congrArg FrameId.mk worlds.agree.size
    have new : region (world.newFrame (some closure.scope)).1 := fresh _ worlds.spares.size
    refine ⟨(), trivial, worlds.newFrame fresh fresh' inside, ?_, ?_, rfl, new⟩
    · exact fun name name' used => ⟨frame, new, used⟩
    · rw [frame]

def Heap.AfterReaches (heap : Heap) (frame : FrameId) (outcome : Outcome) (id : FrameId) : Prop :=
  heap.Reaches frame id ∨ ∃ closure, outcome = .value (.function closure) ∧ heap.Reaches closure.scope id

/-- An evaluation reads and writes nothing but frames within reach of its own frame. In two heaps that
    differ in other frames only it has the same course, and it leaves those as they are. -/
theorem only_reachable_frames_matter {names : Interner} {code : Code} {frame : FrameId} {id : ExprId}
    {left right : Heap} {sink : Sink} {trace : Array Event} (size : left.frames.size = right.frames.size)
    (closures : left.closures = right.closures)
    (same : ∀ other, left.Reaches frame other → left.frame? other = right.frame? other) :
    BothOrNeither (Finishes names ⟨code, frame⟩ id ⟨left, sink, trace⟩)
      (Finishes names ⟨code, frame⟩ id ⟨right, sink, trace⟩)
      fun outcome after outcome' after' =>
        outcome = outcome' ∧ after.sink = after'.sink ∧ after.trace = after'.trace ∧
        after.heap.frames.size = after'.heap.frames.size ∧ after.heap.closures = after'.heap.closures ∧
        (∀ other, after.heap.AfterReaches frame outcome other ↔ after'.heap.AfterReaches frame outcome' other) ∧
        (∀ other, after.heap.AfterReaches frame outcome other →
          after.heap.frame? other = after'.heap.frame? other) ∧
        (∀ other, other.index < left.frames.size → ¬ left.Reaches frame other →
          after.heap.frame? other = left.frame? other) ∧
        ∀ other, other.index < right.frames.size → ¬ right.Reaches frame other →
          after'.heap.frame? other = right.frame? other := by
  have inside : left.reach frame frame := .inl .start
  have closed := left.reach_closed frame
  have agree := Heap.reach_agreeOn size closures same
  have fresh : ∀ id : FrameId, left.frames.size ≤ id.index → left.reach frame id := fun _ young => .inr young
  have fresh' : ∀ id : FrameId, right.frames.size ≤ id.index → left.reach frame id :=
    fun _ young => .inr (size ▸ young)
  have exprs : (confinement (left.reach frame) left right).exprs () ⟨code, frame⟩ id ⟨code, frame⟩ id :=
    ⟨rfl, rfl, inside⟩
  have worlds : (confinement (left.reach frame) left right).worlds () ⟨left, sink, trace⟩ ⟨right, sink, trace⟩ :=
    ⟨agree, closed, .refl left, .refl right, rfl, rfl⟩
  apply ((confinement_simulates fresh fresh' names).bothOrNeither exprs worlds).mono
  rintro outcome after outcome' after' ⟨_, _, related, confined⟩
  have result : outcome = outcome' ∧
      ∀ closure, outcome = .value (.function closure) → left.reach frame closure.scope := by
    cases related with
    | value related =>
      obtain ⟨rfl, only⟩ := Value.Only.of_related related
      exact ⟨rfl, fun closure same => only closure (Outcome.value.inj same)⟩
    | failure | outOfRange => exact ⟨rfl, fun closure same => by cases same⟩
  obtain ⟨rfl, captured⟩ := result
  have around : ∀ other, after.heap.AfterReaches frame outcome other → left.reach frame other := by
    rintro other (reaches | ⟨closure, value, reaches⟩)
    · exact confined.closed.reaches inside reaches
    · exact confined.closed.reaches (captured closure value) reaches
  refine ⟨rfl, confined.sink, confined.trace, confined.agree.size, confined.agree.closures, ?_, ?_, ?_, ?_⟩
  · intro other
    have own := confined.agree.reaches_iff confined.closed inside other
    have other := fun closure value => confined.agree.reaches_iff confined.closed (captured closure value) other
    exact or_congr own (exists_congr fun closure => and_congr_right (other closure))
  · intro other reaches
    exact confined.agree.frame (around other reaches)
  · intro other old unreachable
    apply confined.spares.frame
    rintro (reaches | young)
    · exact unreachable reaches
    · omega
  · intro other old unreachable
    apply confined.spares'.frame
    rintro (reaches | young)
    · exact unreachable (agree.reaches closed inside reaches)
    · omega

def callingByName : Arena where
  nodes := #[.ident ⟨1⟩, .call ⟨0⟩ ⟨0, 0⟩, .ident ⟨2⟩]
  args := #[]
  params := #[]

/-- A global frame that binds a function made in an inner frame, where its variable is bound to 7, and a
    third frame that binds the same variable to some other value. -/
def withBystander (value : Value) : Heap where
  frames := #[
    ⟨none, Bindings.empty.insert ⟨1⟩ (.function ⟨0, ⟨0, 0⟩, ⟨2⟩, ⟨0, callingByName⟩, ⟨1⟩⟩)⟩,
    ⟨some ⟨0⟩, Bindings.empty.insert ⟨2⟩ (.int 7)⟩,
    ⟨some ⟨0⟩, Bindings.empty.insert ⟨2⟩ value⟩]
  closures := 1

theorem withBystander_reaches {value : Value} {id : FrameId} (reaches : (withBystander value).Reaches ⟨0⟩ id) :
    id = ⟨0⟩ ∨ id = ⟨1⟩ := by
  induction reaches with
  | start => exact .inl rfl
  | parent _ up ih =>
    rcases ih with rfl | rfl
    · cases up
    · exact .inl (Option.some.inj up).symm
  | @captured id name closure _ read ih =>
    have bound : (withBystander value).get? ⟨0⟩ name =
        if (⟨1⟩ : Name) = name then some (.function ⟨0, ⟨0, 0⟩, ⟨2⟩, ⟨0, callingByName⟩, ⟨1⟩⟩) else none :=
      Bindings.get?_insert _ _ _ _
    have bound' : (withBystander value).get? ⟨1⟩ name = if (⟨2⟩ : Name) = name then some (.int 7) else none :=
      Bindings.get?_insert _ _ _ _
    rcases ih with rfl | rfl
    · rw [bound] at read
      split at read
      · cases read
        exact .inr rfl
      · cases read
    · rw [bound'] at read
      split at read <;> cases read

theorem only_reachable_frames_matter_bystander :
    (∀ other, (withBystander .null).Reaches ⟨0⟩ other →
      (withBystander .null).frame? other = (withBystander (.int 8)).frame? other) ∧
    ¬ (withBystander (.int 8)).Reaches ⟨0⟩ ⟨2⟩ ∧
    ∃ after, Finishes .new ⟨⟨0, callingByName⟩, ⟨0⟩⟩ ⟨1⟩ ⟨withBystander (.int 8), .silent, #[]⟩ (.value (.int 7)) after ∧
      after.heap.frame? ⟨2⟩ = (withBystander (.int 8)).frame? ⟨2⟩ := by
  have same : ∀ other, (withBystander .null).Reaches ⟨0⟩ other →
      (withBystander .null).frame? other = (withBystander (.int 8)).frame? other := by
    intro other reaches
    rcases withBystander_reaches reaches with rfl | rfl <;> rfl
  have apart : ¬ (withBystander (.int 8)).Reaches ⟨0⟩ ⟨2⟩ := by
    intro reaches
    rcases withBystander_reaches reaches with same | same <;> cases same
  refine ⟨same, apart, ?_⟩
  have ran : (evaluate .new 20 ⟨⟨0, callingByName⟩, ⟨0⟩⟩ ⟨1⟩ ⟨withBystander .null, .silent, #[]⟩).map Prod.fst =
      some (.value (.int 7)) := by decide +kernel
  obtain ⟨⟨outcome, after⟩, ended, value⟩ := Option.map_eq_some_iff.mp ran
  cases value
  have left : Finishes .new ⟨⟨0, callingByName⟩, ⟨0⟩⟩ ⟨1⟩ ⟨withBystander .null, .silent, #[]⟩ (.value (.int 7)) after :=
    ⟨20, ended⟩
  have both := @only_reachable_frames_matter .new ⟨0, callingByName⟩ ⟨0⟩ ⟨1⟩ (withBystander .null)
    (withBystander (.int 8)) .silent #[] rfl rfl same
  obtain ⟨outcome', after', right, rfl, _, _, _, _, _, _, _, spared⟩ := both.1 _ after left
  exact ⟨after', right, spared ⟨2⟩ (by decide) apart⟩

end ScopedEval
