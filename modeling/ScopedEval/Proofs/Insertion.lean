import ScopedEval.Proofs.Heaps

namespace ScopedEval

def shiftIndex (point index : Nat) : Nat := if index < point then index else index + 1

theorem shiftIndex_of_lt {point index : Nat} (below : index < point) : shiftIndex point index = index :=
  if_pos below

theorem shiftIndex_of_le {point index : Nat} (above : point ≤ index) : shiftIndex point index = index + 1 :=
  if_neg (Nat.not_lt.mpr above)

theorem shiftIndex_lt_iff {point a b : Nat} : shiftIndex point a < shiftIndex point b ↔ a < b := by
  unfold shiftIndex
  split <;> split <;> omega

theorem shiftIndex_inj {point a b : Nat} : shiftIndex point a = shiftIndex point b ↔ a = b := by
  unfold shiftIndex
  split <;> split <;> omega

theorem shiftIndex_ne (point index : Nat) : shiftIndex point index ≠ point := by
  unfold shiftIndex
  split <;> omega

/-- An extra frame inside `outer`, and an extra closure with the given stamp. -/
structure Insertion where
  point : Nat
  outer : FrameId
  stamp : Nat
  older : outer.index < point

namespace Insertion

variable (insertion : Insertion)

def frame : FrameId := ⟨insertion.point⟩

def shift (id : FrameId) : FrameId := ⟨shiftIndex insertion.point id.index⟩

def keeps (id : FrameId) : Bool := id ≠ insertion.frame

def scopes (id id' : FrameId) : Prop :=
  id = insertion.shift id' ∨ id = insertion.frame ∧ id' = insertion.outer

variable {insertion}

theorem shift_of_lt {id : FrameId} (below : id.index < insertion.point) : insertion.shift id = id :=
  congrArg FrameId.mk (shiftIndex_of_lt below)

theorem shift_ne (id : FrameId) : insertion.shift id ≠ insertion.frame :=
  fun same => shiftIndex_ne insertion.point id.index (congrArg FrameId.index same)

@[simp] theorem keeps_shift (id : FrameId) : insertion.keeps (insertion.shift id) = true :=
  decide_eq_true (shift_ne id)

@[simp] theorem keeps_frame : insertion.keeps insertion.frame = false := by simp [keeps]

theorem shift_inj {a b : FrameId} (same : insertion.shift a = insertion.shift b) : a = b :=
  congrArg FrameId.mk (shiftIndex_inj.mp (congrArg FrameId.index same))

theorem biUnique_shift : Relator.BiUnique fun id id' => id = insertion.shift id' := by
  constructor
  · intro a b c left right
    exact left.trans right.symm
  · intro a b c left right
    exact shift_inj (left.symm.trans right)

end Insertion

/-- Closures made from one function in the same frame; one that is younger than the extra closure may
    have captured the extra frame instead of the frame around it. -/
structure Closure.Inserted (insertion : Insertion) (left right : Closure) : Prop where
  stamp : left.stamp = shiftIndex insertion.stamp right.stamp
  params : left.params = right.params
  body : left.body = right.body
  code : left.code = right.code
  scope : left.scope = insertion.shift right.scope ∨
    insertion.stamp ≤ right.stamp ∧ left.scope = insertion.frame ∧ right.scope = insertion.outer

theorem Closure.Inserted.scopes {insertion : Insertion} {left right : Closure}
    (inserted : left.Inserted insertion right) : insertion.scopes left.scope right.scope :=
  inserted.scope.imp id And.right

/-- The first heap has one frame more. It binds nothing, and frames of the second heap that lie in its
    outer frame may lie in it instead, if they are younger. -/
structure Heap.Inserted (insertion : Insertion) (left right : Heap) : Prop where
  size : left.frames.size = right.frames.size + 1
  closures : left.closures = right.closures + 1
  point : insertion.point ≤ right.frames.size
  stamp : insertion.stamp ≤ right.closures
  frame : left.frame? insertion.frame = some ⟨some insertion.outer, .empty⟩
  parent (id : FrameId) : left.parent? (insertion.shift id) = (right.parent? id).map insertion.shift ∨
    insertion.point ≤ id.index ∧ left.parent? (insertion.shift id) = some insertion.frame ∧
      right.parent? id = some insertion.outer
  get (id : FrameId) (name : Name) : Option.Rel (Value.Related (Closure.Inserted insertion))
    (left.get? (insertion.shift id) name) (right.get? id name)

namespace Heap.Inserted

variable {insertion : Insertion} {left right : Heap}

theorem parent_frame (inserted : left.Inserted insertion right) :
    left.parent? insertion.frame = some insertion.outer := by
  rw [parent?, inserted.frame]
  rfl

theorem get_frame (inserted : left.Inserted insertion right) (name : Name) :
    left.get? insertion.frame name = none := by
  rw [get?, inserted.frame]
  rfl

theorem chain_frame (inserted : left.Inserted insertion right) :
    left.chain insertion.frame = insertion.frame :: left.chain (insertion.shift insertion.outer) := by
  rw [chain_of_parent inserted.parent_frame insertion.older, Insertion.shift_of_lt insertion.older]

theorem get_of_lt (inserted : left.Inserted insertion right) {id : FrameId} (old : id.index < insertion.point)
    (name : Name) : Option.Rel (Value.Related (Closure.Inserted insertion)) (left.get? id name)
      (right.get? id name) := by
  have same := inserted.get id name
  rw [Insertion.shift_of_lt old] at same
  exact same

/-- The extra frame apart, names are looked up in the same frames. -/
theorem chain_shift (inserted : left.Inserted insertion right) (id : FrameId) :
    (left.chain (insertion.shift id)).filter insertion.keeps = (right.chain id).map insertion.shift := by
  have grows : ∀ {a b : FrameId}, (insertion.shift a).index < (insertion.shift b).index ↔ a.index < b.index :=
    shiftIndex_lt_iff
  fun_induction right.chain id with
  | case1 id parent up older ih =>
    rcases inserted.parent id with same | ⟨above, inside, outside⟩
    · rw [up] at same
      rw [chain_of_parent same (grows.mpr older)]
      simp [ih]
    · -- the walk goes through the extra frame, which the filter drops again
      cases up.symm.trans outside
      have younger : insertion.frame.index < (insertion.shift id).index := by
        rw [Insertion.shift, shiftIndex_of_le above]
        exact Nat.lt_succ_of_le above
      rw [chain_of_parent inside younger, inserted.chain_frame]
      simp [ih]
  | case2 id parent up younger =>
    rcases inserted.parent id with same | ⟨above, _, outside⟩
    · rw [up] at same
      rw [chain_of_top fun other up' => ?_]
      · simp
      · cases same.symm.trans up'
        exact fun older => younger (grows.mp older)
    · cases up.symm.trans outside
      exact absurd (Nat.lt_of_lt_of_le insertion.older above) younger
  | case3 id up =>
    rcases inserted.parent id with same | ⟨_, _, outside⟩
    · rw [up] at same
      rw [chain_of_top fun other up' => ?_]
      · simp
      · cases same.symm.trans up'
    · cases up.symm.trans outside

theorem chain_scopes (inserted : left.Inserted insertion right) {id id' : FrameId}
    (same : insertion.scopes id id') :
    (left.chain id).filter insertion.keeps = (right.chain id').map insertion.shift := by
  rcases same with rfl | ⟨rfl, rfl⟩
  · exact inserted.chain_shift id'
  · rw [inserted.chain_frame, ← inserted.chain_shift]
    simp

theorem scope (inserted : left.Inserted insertion right) {id id' : FrameId} (same : insertion.scopes id id') :
    SameScope (fun a b => a = insertion.shift b) insertion.keeps left right id id' where
  chains := by
    rw [inserted.chain_scopes same, List.forall₂_map_left_iff]
    exact List.forall₂_same.mpr fun _ _ => rfl
  skipped other name dropped := by
    have here : other = insertion.frame := by simpa [Insertion.keeps] using dropped
    rw [here]
    exact inserted.get_frame name
  kept := by
    -- nothing is around an outermost frame, but `outer` is around the extra one
    have outermost : left.root id ≠ insertion.frame := by
      intro here
      have top := left.root_top id (here ▸ inserted.parent_frame)
      rw [here] at top
      exact top insertion.older
    exact decide_eq_true outermost

theorem corresponds (inserted : left.Inserted insertion right) :
    Corresponds (fun a b => a = insertion.shift b) Eq (Closure.Inserted insertion) left right where
  held {id id'} same := by
    subst same
    have size := inserted.size
    have point := inserted.point
    simp only [Insertion.shift, shiftIndex]
    split <;> omega
  get sameFrame sameName := by
    subst sameFrame sameName
    exact inserted.get _ _

theorem bind (inserted : left.Inserted insertion right) (id : FrameId) (name : Name) {value value' : Value}
    (related : Value.Related (Closure.Inserted insertion) value value') :
    (left.bind (insertion.shift id) name value).Inserted insertion (right.bind id name value') where
  size := by rw [size_bind, size_bind, inserted.size]
  closures := inserted.closures
  point := by
    rw [size_bind]
    exact inserted.point
  stamp := inserted.stamp
  frame := by
    rw [frame?_bind, if_neg (Insertion.shift_ne id)]
    exact inserted.frame
  parent other := by
    rw [parent?_bind, parent?_bind]
    exact inserted.parent other
  get other key := by
    have same := inserted.corresponds.bind Insertion.biUnique_shift biUnique_eq (Eq.refl (insertion.shift id))
      (Eq.refl name) related
    exact same.get rfl rfl

theorem fresh (inserted : left.Inserted insertion right) :
    (⟨left.frames.size⟩ : FrameId) = insertion.shift ⟨right.frames.size⟩ := by
  rw [inserted.size, Insertion.shift, shiftIndex_of_le inserted.point]

theorem newFrame (inserted : left.Inserted insertion right) {parent parent' : FrameId}
    (same : insertion.scopes parent parent') :
    (left.newFrame (some parent)).2.Inserted insertion (right.newFrame (some parent')).2 where
  size := by rw [size_newFrame, size_newFrame, inserted.size]
  closures := inserted.closures
  point := by
    rw [size_newFrame]
    exact Nat.le_succ_of_le inserted.point
  stamp := inserted.stamp
  frame := by
    have older : insertion.frame.index ≠ left.frames.size := by
      rw [inserted.size]
      exact Nat.ne_of_lt (Nat.lt_succ_of_le inserted.point)
    rw [frame?_newFrame, if_neg older]
    exact inserted.frame
  parent id := by
    have last : (insertion.shift id).index = left.frames.size ↔ id.index = right.frames.size := by
      have size : left.frames.size = shiftIndex insertion.point right.frames.size :=
        congrArg FrameId.index inserted.fresh
      rw [size]
      exact shiftIndex_inj
    rw [parent?_newFrame, parent?_newFrame]
    simp only [last]
    split
    · rename_i here
      rcases same with rfl | ⟨rfl, rfl⟩
      · exact .inl rfl
      · exact .inr ⟨here ▸ inserted.point, rfl, rfl⟩
    · exact inserted.parent id
  get id name := by
    have same := inserted.corresponds.newFrame Insertion.biUnique_shift inserted.fresh (some parent) (some parent')
    exact same.get rfl rfl

theorem newClosure (inserted : left.Inserted insertion right) {params : Span} {body : ExprId} {code : Code}
    {scope scope' : FrameId} (same : insertion.scopes scope scope') :
    (left.newClosure params body code scope).1.Inserted insertion (right.newClosure params body code scope').1 ∧
    (left.newClosure params body code scope).2.Inserted insertion
      (right.newClosure params body code scope').2 := by
  have stamp : left.closures = shiftIndex insertion.stamp right.closures := by
    rw [inserted.closures, shiftIndex_of_le inserted.stamp]
  have young := same.imp id (And.intro inserted.stamp)
  refine ⟨⟨stamp, rfl, rfl, rfl, young⟩, inserted.size, ?_, inserted.point, ?_, inserted.frame, inserted.parent,
    inserted.get⟩
  · exact congrArg (· + 1) inserted.closures
  · exact Nat.le_succ_of_le inserted.stamp

end Heap.Inserted

def Heap.insertion (heap : Heap) (frame : FrameId) (held : frame.index < heap.frames.size) : Insertion :=
  ⟨heap.frames.size, frame, heap.closures, held⟩

theorem Heap.frame?_shift (heap : Heap) {frame : FrameId} (held : frame.index < heap.frames.size) (id : FrameId) :
    heap.frame? ((heap.insertion frame held).shift id) = heap.frame? id := by
  rcases Nat.lt_or_ge id.index heap.frames.size with inside | outside
  · rw [Insertion.shift_of_lt inside]
  · have above : heap.frames.size ≤ ((heap.insertion frame held).shift id).index := by
      simp only [Insertion.shift, Heap.insertion, shiftIndex_of_le outside]
      exact Nat.le_succ_of_le outside
    rw [frame?_of_size_le outside, frame?_of_size_le above]

theorem Heap.WellFormed.inserted {heap : Heap} (wellFormed : heap.WellFormed) {frame : FrameId}
    (held : frame.index < heap.frames.size) (params : Span) (body : ExprId) (code : Code) :
    ((heap.newClosure params body code frame).2.newFrame (some frame)).2.Inserted (heap.insertion frame held)
      heap := by
  have apart : ∀ id, ((heap.insertion frame held).shift id).index ≠ heap.frames.size :=
    fun id => shiftIndex_ne _ _
  have below : ∀ {id : FrameId}, id.index < heap.frames.size → (heap.insertion frame held).shift id = id :=
    fun inside => Insertion.shift_of_lt inside
  refine ⟨size_newFrame _ _, rfl, Nat.le_refl _, Nat.le_refl _, ?_, fun id => .inl ?_, fun id name => ?_⟩
  · rw [frame?_newFrame]
    exact if_pos rfl
  · rw [parent?_newFrame, size_newClosure, if_neg (apart id), parent?_newClosure, parent?, frame?_shift,
      ← parent?]
    cases up : heap.parent? id with
    | none => rfl
    | some parent =>
      have inside : id.index < heap.frames.size := by
        by_contra outside
        rw [parent?, frame?_of_size_le (Nat.not_lt.mp outside)] at up
        cases up
      rw [Option.map_some, below (Nat.lt_trans (wellFormed.parent_older up) inside)]
  · rw [get?_newFrame, size_newClosure, if_neg (apart id), get?_newClosure, get?, frame?_shift, ← get?]
    cases read : heap.get? id name with
    | none => exact .none
    | some value =>
      refine .some ?_
      cases value with
      | function closure =>
        have stamp := shiftIndex_of_lt (wellFormed.stamp_issued read)
        have scope := below (wellFormed.scope_exists read)
        exact .function ⟨stamp.symm, rfl, rfl, rfl, .inl scope.symm⟩
      | _ => exact .of_scalar rfl

end ScopedEval
