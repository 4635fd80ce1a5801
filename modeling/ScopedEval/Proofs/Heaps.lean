import Mathlib.Data.List.Forall2
import Mathlib.Logic.Relator
import ScopedEval.Heap.Chain
import ScopedEval.Proofs.Relations

namespace ScopedEval

namespace Heap

@[simp] theorem size_bind (heap : Heap) (id : FrameId) (name : Name) (value : Value) :
    (heap.bind id name value).frames.size = heap.frames.size := Array.size_modify

@[simp] theorem size_newFrame (heap : Heap) (parent : Option FrameId) :
    (heap.newFrame parent).2.frames.size = heap.frames.size + 1 := Array.size_push _

theorem frame?_bind (heap : Heap) (id other : FrameId) (name : Name) (value : Value) :
    (heap.bind id name value).frame? other =
      if id = other then (heap.frame? other).map fun frame =>
        { frame with bindings := frame.bindings.insert name value }
      else heap.frame? other := by
  unfold bind frame?
  rw [Array.getElem?_modify]
  have same : id.index = other.index ↔ id = other := by
    cases id
    cases other
    simp
  simp only [same]

theorem frame?_newFrame (heap : Heap) (parent : Option FrameId) (id : FrameId) :
    (heap.newFrame parent).2.frame? id =
      if id.index = heap.frames.size then some ⟨parent, .empty⟩ else heap.frame? id := by
  unfold newFrame frame?
  rw [Array.getElem?_push]

theorem frame?_isSome (heap : Heap) (id : FrameId) :
    (heap.frame? id).isSome = decide (id.index < heap.frames.size) := by
  unfold frame?
  by_cases below : id.index < heap.frames.size <;> simp [below]

@[simp] theorem parent?_bind (heap : Heap) (id other : FrameId) (name : Name) (value : Value) :
    (heap.bind id name value).parent? other = heap.parent? other := by
  unfold parent?
  rw [frame?_bind]
  split
  · cases heap.frame? other <;> rfl
  · rfl

theorem parent?_newFrame (heap : Heap) (parent : Option FrameId) (id : FrameId) :
    (heap.newFrame parent).2.parent? id =
      if id.index = heap.frames.size then parent else heap.parent? id := by
  unfold parent?
  rw [frame?_newFrame]
  split <;> rfl

theorem get?_bind (heap : Heap) (id other : FrameId) (name key : Name) (value : Value) :
    (heap.bind id name value).get? other key =
      if id = other ∧ name = key ∧ id.index < heap.frames.size then some value else heap.get? other key := by
  unfold get?
  rw [frame?_bind]
  by_cases same : id = other
  · subst same
    have held := heap.frame?_isSome id
    cases read : heap.frame? id with
    | none =>
      rw [read] at held
      have absent : ¬ id.index < heap.frames.size := by simpa using held
      simp [absent]
    | some frame =>
      rw [read] at held
      have present : id.index < heap.frames.size := by simpa using held
      simp [Bindings.get?_insert, present]
  · simp [same]

theorem get?_newFrame (heap : Heap) (parent : Option FrameId) (id : FrameId) (name : Name) :
    (heap.newFrame parent).2.get? id name =
      if id.index = heap.frames.size then none else heap.get? id name := by
  unfold get?
  rw [frame?_newFrame]
  split <;> rfl

@[simp] theorem size_newClosure (heap : Heap) (params : Span) (body : ExprId) (code : Code) (scope : FrameId) :
    (heap.newClosure params body code scope).2.frames.size = heap.frames.size := rfl

@[simp] theorem parent?_newClosure (heap : Heap) (params : Span) (body : ExprId) (code : Code)
    (scope id : FrameId) : (heap.newClosure params body code scope).2.parent? id = heap.parent? id := rfl

@[simp] theorem get?_newClosure (heap : Heap) (params : Span) (body : ExprId) (code : Code)
    (scope id : FrameId) (name : Name) :
    (heap.newClosure params body code scope).2.get? id name = heap.get? id name := rfl

theorem frame?_of_size_le {heap : Heap} {id : FrameId} (absent : heap.frames.size ≤ id.index) :
    heap.frame? id = none := Array.getElem?_eq_none absent

theorem get?_newFrame_eq (heap : Heap) (parent : Option FrameId) (id : FrameId) (name : Name) :
    (heap.newFrame parent).2.get? id name = heap.get? id name := by
  rw [get?_newFrame]
  split
  · rename_i last
    rw [get?, frame?_of_size_le (Nat.le_of_eq last.symm)]
    rfl
  · rfl

theorem chain_of_parent {heap : Heap} {id parent : FrameId} (up : heap.parent? id = some parent)
    (older : parent.index < id.index) : heap.chain id = id :: heap.chain parent := by
  rw [chain, up]
  simp [older]

theorem chain_of_top {heap : Heap} {id : FrameId}
    (top : ∀ parent, heap.parent? id = some parent → ¬ parent.index < id.index) : heap.chain id = [id] := by
  rw [chain]
  cases up : heap.parent? id with
  | none => rfl
  | some parent => simp [top parent up]

/-- What holds of every frame where a walk outwards ends, and of a frame if it holds of the one around, holds of
    all. -/
theorem inward_induction {heap : Heap} {motive : FrameId → Prop}
    (top : ∀ id, (∀ parent, heap.parent? id = some parent → ¬ parent.index < id.index) → motive id)
    (inner : ∀ id parent, heap.parent? id = some parent → parent.index < id.index → motive parent → motive id)
    (id : FrameId) : motive id := by
  fun_induction heap.chain id with
  | case1 id parent up older ih => exact inner id parent up older ih
  | case2 id parent up younger =>
    refine top id fun outer up' => ?_
    cases up.symm.trans up'
    exact younger
  | case3 id up =>
    refine top id fun outer up' => ?_
    cases up.symm.trans up'

theorem chain_congr {left right : Heap} (links : ∀ id, left.parent? id = right.parent? id) (id : FrameId) :
    left.chain id = right.chain id := by
  fun_induction left.chain id with
  | case1 id parent up older ih =>
    rw [chain_of_parent (links id ▸ up) older, ih]
  | case2 id parent up younger =>
    refine (chain_of_top fun other up' => ?_).symm
    rw [← links id, up] at up'
    cases up'
    exact younger
  | case3 id up =>
    refine (chain_of_top fun other up' => ?_).symm
    rw [← links id, up] at up'
    cases up'

theorem eq_of_reads {left right : Heap} (size : left.frames.size = right.frames.size)
    (closures : left.closures = right.closures) (parent : ∀ id, left.parent? id = right.parent? id)
    (get : ∀ id name, left.get? id name = right.get? id name) : left = right := by
  have frames : left.frames = right.frames := by
    apply Array.ext size
    intro index inside inside'
    have read : left.frame? ⟨index⟩ = some left.frames[index] := Array.getElem?_eq_getElem inside
    have read' : right.frame? ⟨index⟩ = some right.frames[index] := Array.getElem?_eq_getElem inside'
    have up := parent ⟨index⟩
    have bound := get ⟨index⟩
    simp only [parent?, get?, read, read', Option.bind_some] at up bound
    have bindings := Bindings.ext bound
    cases held : left.frames[index]
    cases held' : right.frames[index]
    rw [held, held'] at up bindings
    exact congrArg₂ Frame.mk up bindings
  cases left
  cases right
  cases frames
  cases closures
  rfl

theorem bind_bind_self (heap : Heap) (id : FrameId) (name : Name) (first second : Value) :
    (heap.bind id name first).bind id name second = heap.bind id name second := by
  apply eq_of_reads
  · rw [size_bind, size_bind, size_bind]
  · rfl
  · intro other
    rw [parent?_bind, parent?_bind, parent?_bind]
  · intro other key
    rw [get?_bind, get?_bind, get?_bind, size_bind]
    split <;> rfl

theorem bind_comm (heap : Heap) {id id' : FrameId} {name name' : Name} (apart : ¬ (id = id' ∧ name = name'))
    (value value' : Value) :
    (heap.bind id name value).bind id' name' value' = (heap.bind id' name' value').bind id name value := by
  apply eq_of_reads
  · rw [size_bind, size_bind, size_bind, size_bind]
  · rfl
  · intro other
    rw [parent?_bind, parent?_bind, parent?_bind, parent?_bind]
  · intro other key
    rw [get?_bind, get?_bind, get?_bind, get?_bind, size_bind, size_bind]
    by_cases first : id = other ∧ name = key ∧ id.index < heap.frames.size
    · have second : ¬ (id' = other ∧ name' = key ∧ id'.index < heap.frames.size) :=
        fun here => apart ⟨first.1.trans here.1.symm, first.2.1.trans here.2.1.symm⟩
      rw [if_neg second, if_pos first, if_pos first]
    · rw [if_neg first, if_neg first]

theorem root_top (heap : Heap) (id : FrameId) {parent : FrameId}
    (up : heap.parent? (heap.root id) = some parent) : ¬ parent.index < (heap.root id).index := by
  fun_induction Heap.root heap id with
  | case1 id parent' up' older ih => exact ih up
  | case2 id parent' up' younger =>
    cases up'.symm.trans up
    exact younger
  | case3 id up' => cases up'.symm.trans up

theorem target_of_binds {heap : Heap} {id : FrameId} {name : Name} (bound : heap.binds id name = true) :
    heap.target id name = id := by
  rw [target, holder?, if_pos bound, Option.getD_some]

theorem target_of_parent {heap : Heap} {id parent : FrameId} {name : Name} (unbound : heap.binds id name = false)
    (up : heap.parent? id = some parent) (older : parent.index < id.index) :
    heap.target id name = heap.target parent name := by
  rw [target, target, holder?, root, unbound, up]
  simp [older]

theorem target_of_top {heap : Heap} {id : FrameId}
    (top : ∀ parent, heap.parent? id = some parent → ¬ parent.index < id.index) (name : Name) :
    heap.target id name = id := by
  have alone : heap.root id = id := by
    rw [root]
    cases up : heap.parent? id with
    | none => rfl
    | some parent => simp [top parent up]
  rw [target, alone, holder?_eq_find?, chain_of_top top, List.find?_singleton]
  split <;> rfl

theorem resolve_of_get {heap : Heap} {id : FrameId} {name : Name} {value : Value}
    (read : heap.get? id name = some value) : heap.resolve id name = value := by
  rw [resolve, lookup, read]
  rfl

theorem resolve_of_parent {heap : Heap} {id parent : FrameId} {name : Name} (unbound : heap.get? id name = none)
    (up : heap.parent? id = some parent) (older : parent.index < id.index) :
    heap.resolve id name = heap.resolve parent name := by
  rw [resolve, resolve, lookup, unbound, up]
  simp [older]

theorem resolve_of_top {heap : Heap} {id : FrameId}
    (top : ∀ parent, heap.parent? id = some parent → ¬ parent.index < id.index) (name : Name) :
    heap.resolve id name = (heap.get? id name).getD .null := by
  rw [resolve, lookup_eq_findSome?, chain_of_top top, List.findSome?_singleton]

theorem findSome?_filter {α β : Type} {keep : α → Bool} {pick : α → Option β}
    (skipped : ∀ a, keep a = false → pick a = none) (as : List α) :
    (as.filter keep).findSome? pick = as.findSome? pick := by
  induction as with
  | nil => rfl
  | cons a as ih =>
    cases kept : keep a with
    | true => simp [kept, List.findSome?_cons, ih]
    | false => simp [kept, ih, skipped a kept]

/-- Names are looked up along corresponding frames from two frames, once frames that bind nothing are
    left out on the first side; the outermost frame is not one of those. -/
structure SameScope (frames : FrameId → FrameId → Prop) (keep : FrameId → Bool) (left right : Heap)
    (id id' : FrameId) : Prop where
  chains : List.Forall₂ frames ((left.chain id).filter keep) (right.chain id')
  skipped (other : FrameId) (name : Name) : keep other = false → left.get? other name = none
  kept : keep (left.root id) = true

namespace SameScope

variable {left right : Heap} {frames : FrameId → FrameId → Prop} {keep : FrameId → Bool}
  {id id' : FrameId} {name name' : Name}

theorem lookup (scope : SameScope frames keep left right id id') {values : Value → Value → Prop}
    (bound : ∀ {a b}, frames a b → Option.Rel values (left.get? a name) (right.get? b name')) :
    Option.Rel values (left.lookup id name) (right.lookup id' name') := by
  have chains := scope.chains
  rw [lookup_eq_findSome?, lookup_eq_findSome?,
    ← findSome?_filter fun other => scope.skipped other name]
  generalize (left.chain id).filter keep = ids at chains
  generalize right.chain id' = ids' at chains
  induction chains with
  | nil => exact .none
  | @cons a b _ _ first _ ih =>
    have held := bound first
    simp only [List.findSome?_cons]
    generalize left.get? a name = value at held
    generalize right.get? b name' = value' at held
    cases held with
    | none => exact ih
    | some related => exact .some related

theorem holder? (scope : SameScope frames keep left right id id')
    (bound : ∀ {a b}, frames a b → left.binds a name = right.binds b name') :
    Option.Rel frames (left.holder? id name) (right.holder? id' name') := by
  have chains := scope.chains
  have shorter : ((left.chain id).filter keep).find? (fun other => left.binds other name) =
      (left.chain id).find? fun other => left.binds other name := by
    rw [List.find?_filter]
    congr 1
    funext other
    cases kept : keep other with
    | true => simp
    | false => simp [binds, scope.skipped other name kept]
  rw [holder?_eq_find?, holder?_eq_find?, ← shorter]
  generalize (left.chain id).filter keep = ids at chains
  generalize right.chain id' = ids' at chains
  induction chains with
  | nil => exact .none
  | @cons a b _ _ first _ ih =>
    simp only [List.find?_cons, bound first]
    cases right.binds b name' with
    | true => exact .some first
    | false => exact ih

theorem root (scope : SameScope frames keep left right id id') : frames (left.root id) (right.root id') := by
  have last : ((left.chain id).filter keep).getLast? = some (left.root id) := by
    have kept := scope.kept
    rw [root_eq_getLast] at kept ⊢
    rw [List.getLast?_eq_some_getLast (List.ne_nil_of_mem (List.mem_filter.mpr ⟨List.getLast_mem _, kept⟩)),
      List.getLast_filter_of_pos _ kept]
  have last' : (right.chain id').getLast? = some (right.root id') := by
    rw [root_eq_getLast]
    exact List.getLast?_eq_some_getLast _
  have reversed := List.rel_reverse scope.chains
  rw [← List.head?_reverse] at last last'
  generalize ((left.chain id).filter keep).reverse = ids at reversed last
  generalize (right.chain id').reverse = ids' at reversed last'
  cases reversed with
  | nil => cases last
  | cons first _ =>
    cases last
    cases last'
    exact first

theorem of_parent (same : ∀ id, left.parent? id = right.parent? id) (id : FrameId) :
    SameScope Eq (fun _ => true) left right id id where
  chains := by
    rw [List.filter_true, List.forall₂_eq_eq_eq]
    exact chain_congr same id
  skipped _ _ dropped := by cases dropped
  kept := rfl

theorem holder?_eq (scope : SameScope Eq keep left right id id')
    (bound : ∀ {a b}, a = b → left.binds a name = right.binds b name') :
    left.holder? id name = right.holder? id' name' := by
  have held := scope.holder? bound
  generalize left.holder? id name = holder at held
  generalize right.holder? id' name' = holder' at held
  cases held with
  | none => rfl
  | some same => rw [same]

theorem target (scope : SameScope frames keep left right id id')
    (bound : ∀ {a b}, frames a b → left.binds a name = right.binds b name') :
    frames (left.target id name) (right.target id' name') := by
  have held := scope.holder? bound
  unfold Heap.target
  generalize left.holder? id name = holder at held
  generalize right.holder? id' name' = holder' at held
  cases held with
  | none => exact scope.root
  | some same => exact same

end SameScope

theorem biUnique_eq {α : Type} : Relator.BiUnique (Eq : α → α → Prop) := by
  constructor
  · intro a b c left right
    exact left.trans right.symm
  · intro a b c left right
    exact left.symm.trans right

/-- Two heaps bind the same along corresponding frames: corresponding names to values that differ in
    nothing but related closures. -/
structure Corresponds (frames : FrameId → FrameId → Prop) (uses : Name → Name → Prop)
    (closures : Closure → Closure → Prop) (left right : Heap) : Prop where
  held {id id' : FrameId} : frames id id' → (id.index < left.frames.size ↔ id'.index < right.frames.size)
  get {id id' : FrameId} {name name' : Name} : frames id id' → uses name name' →
    Option.Rel (Value.Related closures) (left.get? id name) (right.get? id' name')

namespace Corresponds

variable {frames : FrameId → FrameId → Prop} {uses : Name → Name → Prop}
  {closures : Closure → Closure → Prop} {left right : Heap}

theorem binds (same : Corresponds frames uses closures left right) {id id' : FrameId} {name name' : Name}
    (frame : frames id id') (used : uses name name') : left.binds id name = right.binds id' name' := by
  have read := same.get frame used
  unfold Heap.binds
  generalize left.get? id name = value at read
  generalize right.get? id' name' = value' at read
  cases read <;> rfl

theorem resolve (same : Corresponds frames uses closures left right) {keep : FrameId → Bool} {id id' : FrameId}
    {name name' : Name} (scope : SameScope frames keep left right id id') (used : uses name name') :
    Value.Related closures (left.resolve id name) (right.resolve id' name') := by
  have found := scope.lookup fun frame => same.get frame used
  unfold Heap.resolve
  generalize left.lookup id name = value at found
  generalize right.lookup id' name' = value' at found
  cases found with
  | none => exact .null
  | some related => exact related

theorem bind (same : Corresponds frames uses closures left right) (uniqueFrames : Relator.BiUnique frames)
    (uniqueNames : Relator.BiUnique uses) {id id' : FrameId} {name name' : Name} {value value' : Value}
    (frame : frames id id') (used : uses name name') (related : Value.Related closures value value') :
    Corresponds frames uses closures (left.bind id name value) (right.bind id' name' value') where
  held frame := by
    rw [size_bind, size_bind]
    exact same.held frame
  get {other other' key key'} frame' used' := by
    have sameFrame : id = other ↔ id' = other' := Relator.rel_eq uniqueFrames frame frame'
    have sameName : name = key ↔ name' = key' := Relator.rel_eq uniqueNames used used'
    rw [get?_bind, get?_bind]
    simp only [sameFrame, sameName, same.held frame]
    split
    · exact .some related
    · exact same.get frame' used'

theorem newFrame (same : Corresponds frames uses closures left right) (uniqueFrames : Relator.BiUnique frames)
    (fresh : frames ⟨left.frames.size⟩ ⟨right.frames.size⟩) (parent parent' : Option FrameId) :
    Corresponds frames uses closures (left.newFrame parent).2 (right.newFrame parent').2 := by
  have atEnd : ∀ {id id'}, frames id id' → (id.index = left.frames.size ↔ id'.index = right.frames.size) := by
    rintro ⟨index⟩ ⟨index'⟩ frame
    constructor
    · rintro rfl
      exact congrArg FrameId.index (uniqueFrames.2 frame fresh)
    · rintro rfl
      exact congrArg FrameId.index (uniqueFrames.1 frame fresh)
  constructor
  · intro id id' frame
    have below := same.held frame
    have last := atEnd frame
    rw [size_newFrame, size_newFrame]
    omega
  · intro id id' name name' frame used
    rw [get?_newFrame, get?_newFrame]
    simp only [atEnd frame]
    split
    · exact .none
    · exact same.get frame used

end Corresponds

end Heap

namespace World

@[simp] theorem heap_assign (world : World) (id : FrameId) (name : Name) (value : Value) :
    (world.assign id name value).heap = world.heap.bind (world.heap.target id name) name value := by
  unfold assign Heap.target
  cases world.heap.holder? id name <;> rfl

@[simp] theorem sink_assign (world : World) (id : FrameId) (name : Name) (value : Value) :
    (world.assign id name value).sink = world.sink := by
  unfold assign
  cases world.heap.holder? id name <;> rfl

theorem sink_print {left right : World} {closures : Closure → Closure → Prop} {value value' : Value}
    (related : Value.Related closures value value') (same : left.sink = right.sink) :
    (left.print value).sink = (right.print value').sink := by
  simp only [print, Sink.writeValue, related.text, same]

theorem trace_assign (world : World) (id : FrameId) (name : Name) (value : Value) :
    (world.assign id name value).trace =
      if (world.heap.holder? id name).isSome then world.trace else world.trace.push (.implicitGlobal name) := by
  unfold assign
  cases world.heap.holder? id name <;> rfl

theorem heap_leaveProgram (world : World) (outcome : Outcome) :
    (world.leaveProgram outcome).heap = world.heap := by
  cases outcome <;> rfl

theorem sink_leaveProgram (world : World) (outcome : Outcome) :
    (world.leaveProgram outcome).sink = world.sink := by
  cases outcome <;> rfl

end World

def emptyWorld : World := ((World.new (.buffer "")).newFrame none).2

theorem get?_emptyWorld (id : FrameId) (name : Name) : emptyWorld.heap.get? id name = none := by
  unfold emptyWorld World.newFrame
  rw [Heap.get?_newFrame]
  split <;> rfl

end ScopedEval
