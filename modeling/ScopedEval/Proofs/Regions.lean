import ScopedEval.Proofs.Heaps

namespace ScopedEval

def Value.Only (valid : Closure → Prop) (value : Value) : Prop :=
  ∀ closure, value = .function closure → valid closure

namespace Value.Only

variable {valid : Closure → Prop} {value value' : Value}

theorem of_scalar (scalar : value.toFunction? = none) : value.Only valid := by
  intro closure same
  rw [same] at scalar
  cases scalar

theorem function {closure : Closure} (held : valid closure) : (Value.function closure).Only valid := by
  intro other same
  cases same
  exact held

theorem mono {other : Closure → Prop} (weaker : ∀ closure, valid closure → other closure)
    (only : value.Only valid) : value.Only other :=
  fun closure same => weaker closure (only closure same)

theorem related (only : value.Only valid) :
    Value.Related (fun closure closure' => closure = closure' ∧ valid closure) value value := by
  cases value with
  | function closure =>
    have held := only closure rfl
    exact .function ⟨rfl, held⟩
  | _ => exact .of_scalar rfl

theorem of_related
    (related : Value.Related (fun closure closure' => closure = closure' ∧ valid closure) value value') :
    value = value' ∧ value.Only valid := by
  cases related with
  | function same =>
    obtain ⟨rfl, held⟩ := same
    exact ⟨rfl, .function held⟩
  | _ => exact ⟨rfl, of_scalar rfl⟩

end Value.Only

namespace Heap

theorem self_mem_chain (heap : Heap) (id : FrameId) : id ∈ heap.chain id := by
  rw [chain]
  split
  · split <;> exact List.mem_cons_self
  · exact List.mem_cons_self

theorem index_le_of_mem_chain {heap : Heap} {id frame : FrameId} (member : frame ∈ heap.chain id) :
    frame.index ≤ id.index := by
  fun_induction heap.chain id with
  | case1 id parent up older ih =>
    rcases List.mem_cons.mp member with rfl | member
    · exact Nat.le_refl _
    · exact Nat.le_trans (ih member) (Nat.le_of_lt older)
  | case2 | case3 => exact Nat.le_of_eq (congrArg FrameId.index (List.mem_singleton.mp member))

theorem root_mem_chain (heap : Heap) (id : FrameId) : heap.root id ∈ heap.chain id := by
  rw [root_eq_getLast]
  exact List.getLast_mem _

theorem holder?_mem_chain {heap : Heap} {id holder : FrameId} {name : Name}
    (found : heap.holder? id name = some holder) :
    holder ∈ heap.chain id ∧ heap.binds holder name = true := by
  rw [holder?_eq_find?] at found
  have held := List.find?_some found
  exact ⟨List.mem_of_find?_eq_some found, held⟩

/-- The frames of a region lie in frames of the region, and the closures they bind are valid. -/
structure Closed (region : FrameId → Prop) (valid : Closure → Prop) (heap : Heap) : Prop where
  parent {id parent : FrameId} : region id → heap.parent? id = some parent → region parent
  closure {id : FrameId} {name : Name} {closure : Closure} : region id →
    heap.get? id name = some (.function closure) → valid closure

namespace Closed

variable {region : FrameId → Prop} {valid : Closure → Prop} {heap : Heap}

theorem only (closed : heap.Closed region valid) {id : FrameId} {name : Name} {value : Value} (inside : region id)
    (read : heap.get? id name = some value) : value.Only valid := by
  intro closure same
  rw [same] at read
  exact closed.closure inside read

theorem chain (closed : heap.Closed region valid) {id other : FrameId} (inside : region id)
    (member : other ∈ heap.chain id) : region other := by
  fun_induction heap.chain id with
  | case1 id parent up older ih =>
    have around := closed.parent inside up
    rcases List.mem_cons.mp member with rfl | member
    · exact inside
    · exact ih around member
  | case2 id parent up younger =>
    rw [List.mem_singleton.mp member]
    exact inside
  | case3 id up =>
    rw [List.mem_singleton.mp member]
    exact inside

theorem root (closed : heap.Closed region valid) {id : FrameId} (inside : region id) : region (heap.root id) :=
  closed.chain inside (heap.root_mem_chain id)

theorem target (closed : heap.Closed region valid) {id : FrameId} (inside : region id) (name : Name) :
    region (heap.target id name) := by
  unfold Heap.target
  cases found : heap.holder? id name with
  | none => exact closed.root inside
  | some holder =>
    have member := (holder?_mem_chain found).1
    exact closed.chain inside member

theorem resolve (closed : heap.Closed region valid) {id : FrameId} (inside : region id) (name : Name) :
    (heap.resolve id name).Only valid := by
  unfold Heap.resolve
  rw [lookup_eq_findSome?]
  cases found : (heap.chain id).findSome? fun frame => heap.get? frame name with
  | none => exact .of_scalar rfl
  | some value =>
    obtain ⟨frame, member, read⟩ := List.exists_of_findSome?_eq_some found
    have around := closed.chain inside member
    exact closed.only around read

theorem bind (closed : heap.Closed region valid) (id : FrameId) (name : Name) {value : Value}
    (only : value.Only valid) : (heap.bind id name value).Closed region valid := by
  constructor
  · intro other parent inside up
    rw [parent?_bind] at up
    exact closed.parent inside up
  · intro other key closure inside read
    rw [get?_bind] at read
    split at read
    · exact only closure (Option.some.inj read)
    · exact closed.closure inside read

theorem newFrame (closed : heap.Closed region valid) {parent : Option FrameId}
    (around : ∀ outer, parent = some outer → region outer) : (heap.newFrame parent).2.Closed region valid := by
  constructor
  · intro id outer inside up
    rw [parent?_newFrame] at up
    split at up
    · exact around outer up
    · exact closed.parent inside up
  · intro id name closure inside read
    rw [get?_newFrame] at read
    split at read
    · cases read
    · exact closed.closure inside read

theorem chain_congr {right : Heap} (closed : heap.Closed region valid)
    (links : ∀ {id}, region id → heap.parent? id = right.parent? id) {id : FrameId} (inside : region id) :
    heap.chain id = right.chain id := by
  fun_induction heap.chain id with
  | case1 id parent up older ih =>
    have up' := (links inside).symm.trans up
    rw [chain_of_parent up' older, ih (closed.parent inside up)]
  | case2 id parent up younger =>
    have up' := (links inside).symm.trans up
    refine (chain_of_top fun other read => ?_).symm
    cases up'.symm.trans read
    exact younger
  | case3 id up =>
    have up' := (links inside).symm.trans up
    refine (chain_of_top fun other read => ?_).symm
    cases up'.symm.trans read

theorem sameScope {right : Heap} (closed : heap.Closed region valid)
    (links : ∀ {id}, region id → heap.parent? id = right.parent? id) {id : FrameId} (inside : region id) :
    SameScope (fun id id' => id = id' ∧ region id) (fun _ => true) heap right id id where
  chains := by
    rw [List.filter_true, ← closed.chain_congr links inside]
    exact List.forall₂_same.mpr fun other member => ⟨rfl, closed.chain inside member⟩
  skipped _ _ dropped := by cases dropped
  kept := rfl

theorem mono (closed : heap.Closed region valid) {other : Closure → Prop}
    (weaker : ∀ closure, valid closure → other closure) : heap.Closed region other :=
  ⟨closed.parent, fun inside read => weaker _ (closed.closure inside read)⟩

end Closed

def Named (region : FrameId → Prop) (named : FrameId → Name → Prop) (heap : Heap) : Prop :=
  ∀ {id name}, region id → heap.binds id name = true → named id name

theorem binds_bind (heap : Heap) (id other : FrameId) (name key : Name) (value : Value) :
    (heap.bind id name value).binds other key =
      (decide (id = other ∧ name = key ∧ id.index < heap.frames.size) || heap.binds other key) := by
  unfold binds
  rw [get?_bind]
  by_cases here : id = other ∧ name = key ∧ id.index < heap.frames.size
  · rw [if_pos here, decide_eq_true here]
    rfl
  · rw [if_neg here, decide_eq_false here, Bool.false_or]

theorem binds_newFrame (heap : Heap) (parent : Option FrameId) (id : FrameId) (name : Name) :
    (heap.newFrame parent).2.binds id name = (decide (id.index ≠ heap.frames.size) && heap.binds id name) := by
  unfold binds
  rw [get?_newFrame]
  split <;> simp_all

namespace Named

variable {region : FrameId → Prop} {named : FrameId → Name → Prop} {heap : Heap}

theorem bind (all : heap.Named region named) {id : FrameId} {name : Name} (value : Value)
    (allowed : region id → named id name) : (heap.bind id name value).Named region named := by
  intro other key inside bound
  rw [binds_bind, Bool.or_eq_true, decide_eq_true_eq] at bound
  rcases bound with ⟨rfl, rfl, _⟩ | bound
  · exact allowed inside
  · exact all inside bound

theorem assign (all : heap.Named region named) {id : FrameId} {name : Name} (value : Value)
    (allowed : heap.holder? id name = none → region (heap.root id) → named (heap.root id) name) :
    (heap.bind (heap.target id name) name value).Named region named := by
  apply all.bind
  intro inside
  unfold Heap.target at inside ⊢
  cases found : heap.holder? id name with
  | none =>
    rw [found] at inside
    exact allowed found inside
  | some holder =>
    rw [found] at inside
    have bound := (holder?_mem_chain found).2
    exact all inside bound

theorem newFrame (all : heap.Named region named) (parent : Option FrameId) :
    (heap.newFrame parent).2.Named region named := by
  intro id name inside bound
  rw [binds_newFrame, Bool.and_eq_true] at bound
  exact all inside bound.2

end Named

structure AgreeOn (region : FrameId → Prop) (left right : Heap) : Prop where
  size : left.frames.size = right.frames.size
  closures : left.closures = right.closures
  frame {id : FrameId} : region id → left.frame? id = right.frame? id

namespace AgreeOn

variable {region : FrameId → Prop} {valid : Closure → Prop} {left right : Heap}

theorem parent (agree : left.AgreeOn region right) {id : FrameId} (inside : region id) :
    left.parent? id = right.parent? id := by
  unfold parent?
  rw [agree.frame inside]

theorem get (agree : left.AgreeOn region right) {id : FrameId} (inside : region id) (name : Name) :
    left.get? id name = right.get? id name := by
  unfold get?
  rw [agree.frame inside]

theorem closed (agree : left.AgreeOn region right) (closed : left.Closed region valid) :
    right.Closed region valid := by
  constructor
  · intro id parent inside up
    rw [← agree.parent inside] at up
    exact closed.parent inside up
  · intro id name closure inside read
    rw [← agree.get inside] at read
    exact closed.closure inside read

theorem corresponds (agree : left.AgreeOn region right) (closed : left.Closed region valid) :
    Corresponds (fun id id' => id = id' ∧ region id) Eq
      (fun closure closure' => closure = closure' ∧ valid closure) left right where
  held same := by rw [same.1, agree.size]
  get {id id' name name'} same sameName := by
    obtain ⟨rfl, inside⟩ := same
    subst sameName
    rw [← agree.get inside]
    cases read : left.get? id name with
    | none => exact .none
    | some value => exact .some (closed.only inside read).related

theorem scope (agree : left.AgreeOn region right) (closed : left.Closed region valid) {id : FrameId}
    (inside : region id) :
    SameScope (fun id id' => id = id' ∧ region id) (fun _ => true) left right id id :=
  closed.sameScope agree.parent inside

theorem target (agree : left.AgreeOn region right) (closed : left.Closed region valid) {id : FrameId}
    (inside : region id) (name : Name) : left.target id name = right.target id name := by
  have scope := agree.scope closed inside
  have same := scope.target fun same => (agree.corresponds closed).binds same (Eq.refl name)
  exact same.1

theorem holder? (agree : left.AgreeOn region right) (closed : left.Closed region valid) {id : FrameId}
    (inside : region id) (name : Name) : left.holder? id name = right.holder? id name := by
  have scope := agree.scope closed inside
  have held := scope.holder? fun same => (agree.corresponds closed).binds same (Eq.refl name)
  generalize left.holder? id name = holder at held
  generalize right.holder? id name = holder' at held
  cases held with
  | none => rfl
  | some same => rw [same.1]

theorem bind (agree : left.AgreeOn region right) (id : FrameId) (name : Name) (value : Value) :
    (left.bind id name value).AgreeOn region (right.bind id name value) where
  size := by rw [size_bind, size_bind, agree.size]
  closures := agree.closures
  frame inside := by rw [frame?_bind, frame?_bind, agree.frame inside]

theorem newFrame (agree : left.AgreeOn region right) (parent : Option FrameId) :
    (left.newFrame parent).2.AgreeOn region (right.newFrame parent).2 where
  size := by rw [size_newFrame, size_newFrame, agree.size]
  closures := agree.closures
  frame inside := by rw [frame?_newFrame, frame?_newFrame, agree.frame inside, agree.size]

end AgreeOn

end Heap

end ScopedEval
