import ScopedEval.Proofs.Acyclicity

namespace ScopedEval

namespace Heap

def Exposes (heap : Heap) (frames : List FrameId) (target : FrameId) (name : Name) : Prop :=
  ∃ nearer farther, frames = nearer ++ target :: farther ∧ ∀ frame ∈ nearer, heap.binds frame name = false

theorem Exposes.cons {heap : Heap} {frames : List FrameId} {target frame : FrameId} {name : Name}
    (exposes : heap.Exposes frames target name) (unbound : heap.binds frame name = false) :
    heap.Exposes (frame :: frames) target name := by
  obtain ⟨nearer, farther, split, free⟩ := exposes
  refine ⟨frame :: nearer, farther, by rw [split, List.cons_append], ?_⟩
  intro other member
  rcases List.mem_cons.mp member with rfl | member
  · exact unbound
  · exact free other member

/-- One heap reads as the other with a binding written in the target: as the value, from every frame that the
    target is exposed to, and in every other respect as before. -/
structure Written (old : Heap) (target : FrameId) (name : Name) (value : Value) (new : Heap) : Prop where
  seen {id : FrameId} {frames : List FrameId} : old.Walk id frames → old.Exposes frames target name →
    new.resolve id name = value
  unseen {id : FrameId} {frames : List FrameId} {key : Name} : old.Walk id frames →
    ¬ (key = name ∧ old.Exposes frames target name) → new.resolve id key = old.resolve id key

theorem get?_eq_none_of_binds {heap : Heap} {id : FrameId} {name : Name} (unbound : heap.binds id name = false) :
    heap.get? id name = none := by
  simpa [binds] using unbound

section

variable {heap : Heap} {target : FrameId} {name : Name} (value : Value)

theorem findSome?_bind_of_exposes (held : target.index < heap.frames.size) {frames : List FrameId}
    (exposes : heap.Exposes frames target name) :
    (frames.findSome? fun frame => (heap.bind target name value).get? frame name) = some value := by
  obtain ⟨nearer, farther, rfl, free⟩ := exposes
  induction nearer with
  | nil => simp [get?_bind, held]
  | cons frame nearer ih =>
    have rest := ih fun other member => free other (List.mem_cons_of_mem _ member)
    have missing := get?_eq_none_of_binds (free frame List.mem_cons_self)
    rw [List.cons_append, List.findSome?_cons, get?_bind]
    by_cases here : target = frame
    · simp [here, here ▸ held]
    · simp [here, missing, rest]

theorem findSome?_bind_of_hidden {frames : List FrameId} {key : Name}
    (hidden : ¬ (key = name ∧ heap.Exposes frames target name)) :
    (frames.findSome? fun frame => (heap.bind target name value).get? frame key) =
      frames.findSome? fun frame => heap.get? frame key := by
  induction frames with
  | nil => rfl
  | cons frame frames ih =>
    have other : ¬ (target = frame ∧ name = key) := by
      rintro ⟨rfl, rfl⟩
      exact hidden ⟨rfl, [], frames, rfl, by simp⟩
    have same : (heap.bind target name value).get? frame key = heap.get? frame key := by
      rw [get?_bind]
      exact if_neg fun here => other ⟨here.1, here.2.1⟩
    rw [List.findSome?_cons, List.findSome?_cons, same]
    cases read : heap.get? frame key with
    | some found => rfl
    | none =>
      apply ih
      rintro ⟨rfl, exposes⟩
      exact hidden ⟨rfl, exposes.cons (by simp [binds, read])⟩

end

section

variable {heap : Heap} (older : ∀ {id parent}, heap.parent? id = some parent → parent.index < id.index)

include older

theorem written_bind {target : FrameId} (held : target.index < heap.frames.size) (name : Name) (value : Value) :
    heap.Written target name value (heap.bind target name value) := by
  have links (id : FrameId) {frames : List FrameId} (walk : heap.Walk id frames) :
      (heap.bind target name value).chain id = frames := by
    rw [chain_congr (heap.parent?_bind target · name value)]
    exact (walk_chain_of_older older id).unique walk
  constructor
  · intro id frames walk exposes
    rw [resolve, lookup_eq_findSome?, links id walk, findSome?_bind_of_exposes value held exposes]
    rfl
  · intro id frames key walk hidden
    have chain : heap.chain id = frames := (walk_chain_of_older older id).unique walk
    rw [resolve, resolve, lookup_eq_findSome?, lookup_eq_findSome?, links id walk, chain,
      findSome?_bind_of_hidden value hidden]

theorem target_of_walk {id : FrameId} {frames : List FrameId} (walk : heap.Walk id frames) (name : Name) :
    (frames.find? fun frame => heap.binds frame name).or frames.getLast? = some (heap.target id name) := by
  have chain : heap.chain id = frames := (walk_chain_of_older older id).unique walk
  have last : frames.getLast? = some (heap.root id) := by
    simp only [root_eq_getLast, List.getLast?_eq_some_getLast walk.ne_nil, chain]
  rw [target, holder?_eq_find?, chain, last]
  cases frames.find? fun frame => heap.binds frame name <;> rfl

end

theorem target_le (heap : Heap) (id : FrameId) (name : Name) : (heap.target id name).index ≤ id.index := by
  unfold target
  cases found : heap.holder? id name with
  | none => exact heap.root_le id
  | some holder => exact index_le_of_mem_chain (holder?_mem_chain found).1

theorem lookup_eq_of_holder (heap : Heap) (id : FrameId) (name : Name) :
    heap.lookup id name = (heap.holder? id name).bind fun frame => heap.get? frame name := by
  rw [lookup_eq_findSome?, holder?_eq_find?]
  induction heap.chain id with
  | nil => rfl
  | cons frame frames ih =>
    rw [List.findSome?_cons, List.find?_cons]
    cases read : heap.get? frame name with
    | none => simp [binds, read, ih]
    | some value => simp [binds, read]

theorem lookup_isSome (heap : Heap) (id : FrameId) (name : Name) :
    (heap.lookup id name).isSome = (heap.holder? id name).isSome := by
  rw [lookup_eq_of_holder]
  cases found : heap.holder? id name with
  | none => rfl
  | some frame => exact (holder?_mem_chain found).2

end Heap

namespace World

theorem assign_written {world : World}
    (older : ∀ {id parent}, world.heap.parent? id = some parent → parent.index < id.index)
    {id : FrameId} (held : id.index < world.heap.frames.size) (name : Name) (value : Value) :
    world.heap.Written (world.heap.target id name) name value (world.assign id name value).heap := by
  rw [heap_assign]
  exact Heap.written_bind older (Nat.lt_of_le_of_lt (world.heap.target_le id name) held) name value

theorem declareAll_singleton (world : World) (id : FrameId) (name : Name) (value : Value) :
    world.declareAll id [(name, value)] =
      if world.heap.binds id name then (some name, world) else (none, world.declare id name value) := by
  rw [declareAll, declareAll]

theorem declareAll_outcome {world : World}
    (older : ∀ {id parent}, world.heap.parent? id = some parent → parent.index < id.index)
    {id : FrameId} (held : id.index < world.heap.frames.size) (name : Name) (value : Value) :
    let result := world.declareAll id [(name, value)]
    (result.1.isSome = true ↔ world.heap.binds id name = true) ∧
      (result.1 = none → world.heap.Written id name value result.2.heap) ∧
      (result.1 ≠ none → result.1 = some name ∧ result.2 = world) := by
  intro result
  cases bound : world.heap.binds id name with
  | true =>
    have refused : result = (some name, world) := by simp [result, declareAll_singleton, bound]
    rw [refused]
    simp
  | false =>
    have declared : result = (none, world.declare id name value) := by simp [result, declareAll_singleton, bound]
    rw [declared]
    exact ⟨by simp, fun _ => Heap.written_bind older held name value, fun refused => absurd rfl refused⟩

end World

theorem Continuation.resume_declare (names : Interner) (name : Name) (value : Value) (site : Site)
    (stack : List Continuation) (world : World) :
    (Continuation.declare name).resume names value site stack world =
      (world.declareAll site.frame [(name, value)]).1.elim
        (.yield value site stack (world.declareAll site.frame [(name, value)]).2)
        fun taken => .fail (.redeclaration (names.lookup taken)) site stack
          (world.declareAll site.frame [(name, value)]).2 := by
  rw [World.declareAll_singleton, resume]
  by_cases bound : world.heap.binds site.frame name = true <;> simp [bound]

theorem Session.declare_eq (names : Interner) (world : World) (codes : Nat) (id : FrameId) (text : String)
    (value : Value) :
    Session.declare ⟨names, world, codes⟩ id text value =
      ((world.declareAll id [((names.intern text).1, value)]).1,
        ⟨(names.intern text).2, (world.declareAll id [((names.intern text).1, value)]).2, codes⟩) := by
  rw [World.declareAll_singleton, declare]
  simp only [Session.intern, Session.heap]
  by_cases bound : world.heap.binds id (names.intern text).1 = true <;> simp [bound]

/-- A write is seen from every frame whose chain comes to the written frame before another binding of the
    name, and nothing else reads differently. Assignments write in the nearest frame that binds the name, or
    in the outermost one; declarations, by a program as by its host, write in the frame itself, and are refused
    if it binds the name already. The frame that an assignment looks for is the one where reads end. -/
theorem writes_seen_from_everywhere {world : World}
    (older : ∀ {id parent}, world.heap.parent? id = some parent → parent.index < id.index)
    {id : FrameId} (held : id.index < world.heap.frames.size) (name : Name) (value : Value) :
    (∃ frames target, world.heap.Walk id frames ∧
      (frames.find? fun frame => world.heap.binds frame name).or frames.getLast? = some target ∧
      world.heap.Written target name value (world.assign id name value).heap) ∧
    (∃ taken after, world.declareAll id [(name, value)] = (taken, after) ∧
      (taken.isSome = true ↔ world.heap.binds id name = true) ∧
      (taken = none → world.heap.Written id name value after.heap) ∧
      (taken ≠ none → taken = some name ∧ after = world) ∧
      (∀ names code stack, (Continuation.declare name).resume names value ⟨code, id⟩ stack world =
        taken.elim (.yield value ⟨code, id⟩ stack after)
          fun name => .fail (.redeclaration (names.lookup name)) ⟨code, id⟩ stack after) ∧
      ∀ names codes text, (Interner.intern names text).1 = name →
        Session.declare ⟨names, world, codes⟩ id text value =
          (taken, ⟨(Interner.intern names text).2, after, codes⟩)) ∧
    ∀ other, ∃ frames, world.heap.Walk other frames ∧ ∀ key,
      world.heap.holder? other key = frames.find? (fun frame => world.heap.binds frame key) ∧
      (world.heap.lookup other key).isSome = (world.heap.holder? other key).isSome ∧
      (∀ frame, world.heap.holder? other key = some frame →
        world.heap.lookup other key = world.heap.get? frame key) ∧
      (∀ found, world.heap.lookup other key = some found → world.heap.resolve other key = found) ∧
      (world.heap.lookup other key = none → world.heap.resolve other key = .null) := by
  have walks := Heap.walk_chain_of_older older
  obtain ⟨refused, written, kept⟩ := World.declareAll_outcome older held name value
  refine ⟨⟨world.heap.chain id, world.heap.target id name, walks id, Heap.target_of_walk older (walks id) name,
    World.assign_written older held name value⟩, ⟨(world.declareAll id [(name, value)]).1,
    (world.declareAll id [(name, value)]).2, rfl, refused, written, kept, ?_, ?_⟩, ?_⟩
  · exact fun names code stack => Continuation.resume_declare names name value ⟨code, id⟩ stack world
  · intro names codes text interned
    rw [Session.declare_eq, interned]
  · intro other
    refine ⟨world.heap.chain other, walks other, fun key => ⟨world.heap.holder?_eq_find? other key,
      world.heap.lookup_isSome other key, ?_, ?_, ?_⟩⟩
    · intro frame found
      rw [Heap.lookup_eq_of_holder, found, Option.bind_some]
    · intro found read
      rw [Heap.resolve, read, Option.getD_some]
    · intro missing
      rw [Heap.resolve, missing, Option.getD_none]

/-- A global frame that binds a name, and inside it one frame that does not and one that hides it. -/
def shadowed : World where
  heap := ⟨#[⟨none, Bindings.empty.insert ⟨1⟩ (.int 1)⟩, ⟨some ⟨0⟩, .empty⟩,
    ⟨some ⟨0⟩, Bindings.empty.insert ⟨1⟩ (.int 2)⟩], 0⟩
  sink := .silent
  trace := #[]

theorem shadowed_older {id parent : FrameId} (up : shadowed.heap.parent? id = some parent) :
    parent.index < id.index := by
  obtain ⟨index⟩ := id
  have inside : index < 3 := by
    apply Decidable.byContradiction
    intro outside
    have absent : shadowed.heap.frame? ⟨index⟩ = none := Heap.frame?_of_size_le (Nat.le_of_not_lt outside)
    rw [Heap.parent?, absent] at up
    cases up
  have cases : index = 0 ∨ index = 1 ∨ index = 2 := by omega
  rcases cases with rfl | rfl | rfl <;> cases up <;> decide

theorem writes_seen_from_everywhere_shadowed :
    (∀ {id parent}, shadowed.heap.parent? id = some parent → parent.index < id.index) ∧
    1 < shadowed.heap.frames.size ∧
    (shadowed.assign ⟨1⟩ ⟨1⟩ (.int 5)).heap.resolve ⟨0⟩ ⟨1⟩ = .int 5 ∧
    (shadowed.assign ⟨1⟩ ⟨1⟩ (.int 5)).heap.resolve ⟨2⟩ ⟨1⟩ = .int 2 := by
  obtain ⟨⟨frames, target, walk, found, written⟩, _⟩ :=
    writes_seen_from_everywhere shadowed_older (show 1 < shadowed.heap.frames.size by decide) ⟨1⟩ (.int 5)
  have chain : frames = [⟨1⟩, ⟨0⟩] := walk.unique (.inner rfl (.outermost rfl))
  subst chain
  cases found
  refine ⟨shadowed_older, by decide, written.seen (.outermost rfl) ⟨[], [], rfl, by simp⟩, ?_⟩
  rw [written.unseen (.inner rfl (.outermost rfl))]
  · decide +kernel
  · rintro ⟨-, nearer, farther, split, free⟩
    cases nearer with
    | nil => cases split
    | cons frame nearer =>
      have first : (⟨2⟩ : FrameId) = frame := (List.cons.inj split).1
      subst first
      exact absurd (free ⟨2⟩ List.mem_cons_self) (by decide)

end ScopedEval
