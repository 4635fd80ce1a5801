import ScopedEval.Proofs.Occasions
import ScopedEval.Proofs.Steps

namespace ScopedEval

/-- Frames are added, none is moved, and no name is given up. -/
structure Heap.Grows (old new : Heap) : Prop where
  size : old.frames.size ≤ new.frames.size
  parent {id : FrameId} : id.index < old.frames.size → new.parent? id = old.parent? id
  binds {id : FrameId} {name : Name} : old.binds id name = true → new.binds id name = true

namespace Heap

theorem index_lt_of_binds {heap : Heap} {id : FrameId} {name : Name} (bound : heap.binds id name = true) :
    id.index < heap.frames.size := by
  by_contra outside
  have absent := frame?_of_size_le (Nat.not_lt.mp outside)
  rw [binds, get?, absent] at bound
  cases bound

theorem root_eq_self_iff (heap : Heap) (id : FrameId) :
    heap.root id = id ↔ ∀ parent, heap.parent? id = some parent → ¬ parent.index < id.index := by
  constructor
  · intro outermost parent up
    have top := heap.root_top id (outermost.symm ▸ up)
    rw [outermost] at top
    exact top
  · intro top
    have alone := chain_of_top top
    have member := heap.root_mem_chain id
    rw [alone] at member
    exact List.mem_singleton.mp member

namespace Grows

theorem refl (heap : Heap) : heap.Grows heap := ⟨Nat.le_refl _, fun _ => rfl, id⟩

theorem trans {first second third : Heap} (early : first.Grows second) (late : second.Grows third) :
    first.Grows third := by
  refine ⟨Nat.le_trans early.size late.size, ?_, fun bound => late.binds (early.binds bound)⟩
  intro id old
  have kept := late.parent (Nat.lt_of_lt_of_le old early.size)
  exact kept.trans (early.parent old)

theorem bind (heap : Heap) (id : FrameId) (name : Name) (value : Value) :
    heap.Grows (heap.bind id name value) := by
  constructor
  · exact Nat.le_of_eq (size_bind heap id name value).symm
  · intro other _
    exact parent?_bind heap id other name value
  · intro other key bound
    rw [binds_bind, bound, Bool.or_true]

theorem newFrame (heap : Heap) (parent : Option FrameId) : heap.Grows (heap.newFrame parent).2 := by
  constructor
  · rw [size_newFrame]
    omega
  · intro id old
    rw [parent?_newFrame, if_neg (Nat.ne_of_lt old)]
  · intro id name bound
    have old := index_lt_of_binds bound
    rw [binds_newFrame, bound, decide_eq_true (Nat.ne_of_lt old), Bool.and_true]

theorem bindAll (heap : Heap) (id : FrameId) (bindings : List (Name × Value)) :
    heap.Grows (heap.bindAll id bindings) := by
  induction bindings generalizing heap with
  | nil => exact .refl heap
  | cons binding rest ih => exact (bind heap id binding.1 binding.2).trans (ih _)

theorem root_eq_self {old new : Heap} (grows : old.Grows new) {id : FrameId} (held : id.index < old.frames.size) :
    new.root id = id ↔ old.root id = id := by
  rw [root_eq_self_iff, root_eq_self_iff, grows.parent held]

end Grows

end Heap

namespace State

theorem Changes.grows {state : State} {heap : Heap} (changes : state.Changes heap) :
    state.world.heap.Grows heap := by
  cases changes with
  | nothing => exact .refl _
  | makes => exact ⟨Nat.le_refl _, fun _ => rfl, id⟩
  | declares => exact .bind _ _ _ _
  | assigns => exact .bind _ _ _ _
  | enters => exact (Heap.Grows.newFrame _ _).trans (.bindAll _ _ _)

theorem step_grows (names : Interner) (state : State) : state.world.heap.Grows (state.step names).world.heap :=
  (state.step_changes names).grows

theorem Reaches.grows {names : Interner} {start state : State} (reaches : Reaches names start state) :
    start.world.heap.Grows state.world.heap := by
  induction reaches with
  | refl => exact .refl _
  | @step state _ _ ih => exact (state.step_grows names).trans ih

theorem Changes.new_name {state : State} {heap : Heap} (changes : state.Changes heap) {frame : FrameId}
    {name : Name} (old : frame.index < state.world.heap.frames.size) (bound : heap.binds frame name = true) :
    state.world.heap.binds frame name = true ∨ state.site.frame = frame ∨
      ∃ value rest, state = .yield value state.site (.assign name :: rest) state.world ∧
        (∀ inner ∈ state.world.heap.chain state.site.frame, state.world.heap.binds inner name = false) ∧
        state.world.heap.root state.site.frame = frame ∧ heap.get? frame name = some value := by
  cases changes with
  | nothing => exact .inl bound
  | makes => exact .inl bound
  | declares =>
    rw [Heap.binds_bind, Bool.or_eq_true, decide_eq_true_eq] at bound
    rcases bound with ⟨here, _⟩ | bound
    · exact .inr (.inl here)
    · exact .inl bound
  | @assigns key value stack delivers waits =>
    rw [Heap.binds_bind, Bool.or_eq_true, decide_eq_true_eq] at bound
    rcases bound with ⟨here, rfl, held⟩ | bound
    · have created := Heap.get?_bind state.world.heap (state.world.heap.target state.site.frame key) frame key key value
      rw [if_pos ⟨here, rfl, held⟩] at created
      unfold Heap.target at here
      cases found : state.world.heap.holder? state.site.frame key with
      | some holder =>
        rw [found] at here
        subst here
        exact .inl (Heap.holder?_mem_chain found).2
      | none =>
        rw [found] at here
        refine .inr (.inr ⟨value, stack, ?_, fun inner member => ?_, here, created⟩)
        · obtain ⟨control, site, rest, world⟩ := state
          cases delivers
          cases waits
          rfl
        · rw [Heap.holder?_eq_find?, List.find?_eq_none] at found
          exact Bool.eq_false_iff.mpr (found inner member)
    · exact .inl bound
  | @enters callee args made performs arity listed =>
    rcases (Heap.binds_bindAll _ _ _ _ _).mp bound with bound | ⟨here, _, _⟩
    · rw [Heap.binds_newFrame, Bool.and_eq_true] at bound
      exact .inl bound.2
    · rw [← here] at old
      exact absurd old (Nat.lt_irrefl _)

end State

def ownFrames (frame : FrameId) (size : Nat) : Discipline where
  closure _ := True
  expr _ _ := True
  declares _ _ := True
  assigns _ _ := True
  site site := site.frame = frame ∨ size ≤ site.frame.index
  child _ _ := trivial
  declared _ _ := trivial
  assigned _ _ := trivial

namespace State.Reaches

variable {names : Interner} {site : Site} {id : ExprId} {world : World} {state : State}

theorem ownFrames (reaches : State.Reaches names (.eval id site [] world) state) :
    (ScopedEval.ownFrames site.frame world.heap.frames.size).Allows state := by
  refine (reaches.invariant
    (motive := fun state => (ScopedEval.ownFrames site.frame world.heap.frames.size).Allows state ∧
      world.heap.frames.size ≤ state.world.heap.frames.size) ?_ ?_).1
  · rintro state ⟨allowed, young⟩
    refine ⟨allowed.step ?_ ?_ ?_, Nat.le_trans young (state.step_grows names).size⟩
    · exact fun name closure _ => trivial
    · exact fun id params body _ _ => trivial
    · exact fun callee args params _ _ _ _ => ⟨.inr young, trivial⟩
  · exact ⟨⟨.inl rfl, trivial, trivial⟩, Nat.le_refl _⟩

end State.Reaches

namespace State

/-- At this time of a run an assignment makes a name global: no frame of its chain binds the name, and the frame that
    the chain ends in binds it from then on. -/
def CreatesGlobal (names : Interner) (start : State) (time : Nat) (frame : FrameId) (name : Name) : Prop :=
  ∃ site source value world, start.Obtains names time site (.assign name source) value world ∧
    (∀ inner ∈ world.heap.chain site.frame, world.heap.binds inner name = false) ∧
    world.heap.root site.frame = frame ∧ ((step names)^[time + 1] start).world.heap.get? frame name = some value

theorem iterate_grows (names : Interner) (start : State) {early late : Nat} (le : early ≤ late) :
    ((step names)^[early] start).world.heap.Grows ((step names)^[late] start).world.heap := by
  obtain ⟨more, rfl⟩ := Nat.exists_eq_add_of_le' le
  rw [Function.iterate_add_apply]
  exact (reaches_iterate names _ more).grows

end State

section Evaluation

variable {names : Interner} {site : Site} {id : ExprId} {world : World}

theorem State.new_name {time : Nat} {frame : FrameId} {name : Name} (old : frame.index < world.heap.frames.size)
    (other : frame ≠ site.frame)
    (bound : ((step names)^[time] (.eval id site [] world)).world.heap.binds frame name = true) :
    world.heap.binds frame name = true ∨ ∃ earlier, (State.eval id site [] world).CreatesGlobal names earlier frame name := by
  induction time with
  | zero => exact .inl bound
  | succ time ih =>
    have reached := reaches_iterate names (.eval id site [] world) time
    have held := Nat.lt_of_lt_of_le old reached.grows.size
    have changes := ((step names)^[time] (.eval id site [] world)).step_changes names
    rw [← Function.iterate_succ_apply' (step names)] at changes
    rcases changes.new_name held bound with bound | here | ⟨value, rest, yields, unbound, outermost, created⟩
    · exact ih bound
    · rcases reached.ownFrames.site with own | young
      · exact absurd (here.symm.trans own) other
      · rw [here] at young
        omega
    · obtain ⟨node, waits, obtains⟩ := obtains_of_yields rfl rfl yields
      cases node with
      | assign key source =>
        cases waits
        exact .inr ⟨time, _, source, value, _, obtains, unbound, outermost, created⟩
      | _ => cases waits

theorem Finishes.creates_global {after : World} {outcome : Outcome} {frame : FrameId} {name : Name}
    (finishes : Finishes names site id world outcome after) (old : frame.index < world.heap.frames.size)
    (other : frame ≠ site.frame) (free : world.heap.binds frame name = false)
    (bound : after.heap.binds frame name = true) :
    ∃ time, (State.eval id site [] world).CreatesGlobal names time frame name := by
  obtain ⟨time, there⟩ := finishes_iff_iterate.mp finishes
  have bound' : ((State.step names)^[time] (.eval id site [] world)).world.heap.binds frame name = true := by
    rw [there]
    exact bound
  rcases State.new_name old other bound' with held | gained
  · cases free.symm.trans held
  · exact gained

theorem State.CreatesGlobal.root_eq {start : State} {time : Nat} {frame : FrameId} {name : Name}
    (creates : start.CreatesGlobal names time frame name) (old : frame.index < start.world.heap.frames.size) :
    start.world.heap.root frame = frame := by
  obtain ⟨site, source, value, world, obtains, _, outermost, _⟩ := creates
  obtain ⟨stack, yields⟩ := obtains.yields rfl
  have grows := State.iterate_grows names start (Nat.zero_le time)
  rw [yields] at grows
  have top : world.heap.root frame = frame := by
    rw [Heap.root_eq_self_iff]
    intro parent up
    have above := world.heap.root_top site.frame (outermost.symm ▸ up)
    rw [outermost] at above
    exact above
  exact (grows.root_eq_self old).mp top

theorem redeclaration_fails {early late : Nat} {declaration init : ExprId} {inner : Site} {stack : List Continuation}
    {before middle : World} {name : Name} {value : Value} (le : early ≤ late)
    (there : (State.step names)^[late] (.eval id site [] world) = .eval declaration inner stack before)
    (found : inner.code.arena.node? declaration = some (.declare name init))
    (bound : ((State.step names)^[early] (.eval id site [] world)).world.heap.binds inner.frame name = true)
    (finishes : Finishes names inner init before (.value value) middle) :
    Finishes names inner declaration before (.failure (.redeclaration (names.lookup name))) middle ∧
      ∃ after, Finishes names site id world (.failure (.redeclaration (names.lookup name))) after ∧
        after.heap = middle.heap := by
  have held : middle.heap.binds inner.frame name = true := by
    have grows := State.iterate_grows names (.eval id site [] world) le
    rw [there] at grows
    exact (finishes.evaluates.reaches []).grows.binds (grows.binds bound)
  have fails : Evaluates names inner (.expr declaration) before (.failure (.redeclaration (names.lookup name))) middle :=
    .redeclare found finishes.evaluates held
  refine ⟨fails.finishes, ?_⟩
  -- nothing that waits for the declaration goes on, so its failure is that of the whole evaluation
  have begun := State.reaches_iterate names (.eval id site [] world) late
  rw [there] at begun
  obtain ⟨fuel, after, ended, same⟩ := State.run_abort names
    (rfl : (Outcome.failure (.redeclaration (names.lookup name))).aborts = true) inner stack middle
  exact ⟨after, (begun.trans (fails.reaches stack)).run_eq ended, same⟩

end Evaluation

/-- What an evaluation does to the frames that are there: they stay where they are and keep their names;
    none gets a new name but the frame of the evaluation itself and, through an assignment that finds no
    binding, the outermost frame of some chain. So a name can be declared in a frame once only: a later declaration
    fails as soon as its value is there, and the evaluation with it. -/
theorem frames_only_grow (names : Interner) (site : Site) (id : ExprId) (world : World) :
    (∀ outcome after, Finishes names site id world outcome after →
      (∀ frame, frame.index < world.heap.frames.size → after.heap.parent? frame = world.heap.parent? frame) ∧
      (∀ frame name, world.heap.binds frame name = true → after.heap.binds frame name = true) ∧
      (∀ frame name, frame.index < world.heap.frames.size → frame ≠ site.frame → world.heap.root frame ≠ frame →
        after.heap.binds frame name = world.heap.binds frame name) ∧
      ∀ frame name, frame.index < world.heap.frames.size → frame ≠ site.frame →
        world.heap.binds frame name = false → after.heap.binds frame name = true →
        ∃ time, (State.eval id site [] world).CreatesGlobal names time frame name) ∧
    ∀ early late declaration inner stack before name init,
      early ≤ late → (State.step names)^[late] (.eval id site [] world) = .eval declaration inner stack before →
      inner.code.arena.node? declaration = some (.declare name init) →
      ((State.step names)^[early] (.eval id site [] world)).world.heap.binds inner.frame name = true →
      ∀ value middle, Finishes names inner init before (.value value) middle →
        Finishes names inner declaration before (.failure (.redeclaration (names.lookup name))) middle ∧
        ∃ after, Finishes names site id world (.failure (.redeclaration (names.lookup name))) after ∧
          after.heap = middle.heap := by
  constructor
  · intro outcome after finishes
    have grows : world.heap.Grows after.heap := (finishes.evaluates.reaches []).grows
    refine ⟨fun frame old => grows.parent old, fun frame name bound => grows.binds bound, ?_,
      fun frame name old other free bound => finishes.creates_global old other free bound⟩
    intro frame name old other inner
    cases free : world.heap.binds frame name with
    | true => exact grows.binds free
    | false =>
      by_contra gained
      have bound : after.heap.binds frame name = true := Bool.not_eq_false _ ▸ gained
      obtain ⟨time, creates⟩ := finishes.creates_global old other free bound
      exact inner (creates.root_eq old)
  · intro early late declaration inner stack before name init le there found bound value middle finishes
    exact redeclaration_fails le there found bound finishes

/-- A function that assigns a name bound nowhere around it; it was made in a global environment of its own. -/
def stranger : Closure := ⟨0, ⟨0, 0⟩, ⟨1⟩, ⟨1, ⟨#[.literal (.int 5), .assign ⟨2⟩ ⟨0⟩], #[], #[]⟩⟩, ⟨1⟩⟩

def strangerBound : World :=
  ⟨⟨#[⟨none, Bindings.empty.insert ⟨1⟩ (.function stranger)⟩, ⟨none, .empty⟩], 1⟩, .silent, #[]⟩

def declaresTwice : Code := ⟨0, ⟨#[.ident ⟨1⟩, .call ⟨0⟩ ⟨0, 0⟩, .declare ⟨2⟩ ⟨1⟩, .seq ⟨2⟩ ⟨2⟩], #[], #[]⟩⟩

theorem frames_only_grow_stranger :
    let names := (Interner.new.internAll ["stranger", "x"]).2
    let site : Site := ⟨declaresTwice, ⟨0⟩⟩
    let start : State := .eval ⟨3⟩ site [] strangerBound
    (∃ after, Finishes names site ⟨3⟩ strangerBound (.failure (.redeclaration "x")) after ∧
      after.heap.get? ⟨1⟩ ⟨2⟩ = some (.int 5) ∧ ∃ time, start.CreatesGlobal names time ⟨1⟩ ⟨2⟩) ∧
    ∃ stack before middle, (State.step names)^[13] start = .eval ⟨2⟩ site stack before ∧
      Finishes names site ⟨1⟩ before (.value (.int 5)) middle ∧
      Finishes names site ⟨2⟩ before (.failure (.redeclaration "x")) middle := by
  intro names site start
  obtain ⟨kept, redeclares⟩ := frames_only_grow names site ⟨3⟩ strangerBound
  constructor
  · have ran : (evaluate names 30 site ⟨3⟩ strangerBound).map (fun result => (result.1, result.2.heap.get? ⟨1⟩ ⟨2⟩)) =
        some (.failure (.redeclaration "x"), some (.int 5)) := by decide +kernel
    obtain ⟨⟨outcome, after⟩, ended, shown⟩ := Option.map_eq_some_iff.mp ran
    obtain ⟨rfl, found⟩ := Prod.mk.inj shown
    have bound : after.heap.binds ⟨1⟩ ⟨2⟩ = true := Option.isSome_of_eq_some found
    exact ⟨after, ⟨30, ended⟩, found, (kept _ after ⟨30, ended⟩).2.2.2 ⟨1⟩ ⟨2⟩ (by decide) (by decide) (by decide +kernel) bound⟩
  · have there : (State.step names)^[13] start = .eval ⟨2⟩ site ((State.step names)^[13] start).stack
        ((State.step names)^[13] start).world := by with_unfolding_all rfl
    have ran : (evaluate names 30 site ⟨1⟩ ((State.step names)^[13] start).world).map Prod.fst = some (.value (.int 5)) := by
      decide +kernel
    obtain ⟨⟨outcome, middle⟩, ended, same⟩ := Option.map_eq_some_iff.mp ran
    cases same
    have fails := redeclares 12 13 ⟨2⟩ site _ _ ⟨2⟩ ⟨1⟩ (by decide) there rfl (by decide +kernel) (.int 5) middle ⟨30, ended⟩
    exact ⟨_, _, middle, there, ⟨30, ended⟩, fails.1⟩

end ScopedEval
