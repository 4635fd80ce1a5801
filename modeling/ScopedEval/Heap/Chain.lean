import ScopedEval.Heap

namespace ScopedEval.Heap

/-- The frames a name is looked up in, nearest first. -/
def chain (heap : Heap) (id : FrameId) : List FrameId :=
  match heap.parent? id with
  | some parent => if parent.index < id.index then id :: heap.chain parent else [id]
  | none => [id]
termination_by id.index

theorem chain_ne_nil (heap : Heap) (id : FrameId) : heap.chain id ≠ [] := by
  unfold chain
  split
  · split <;> simp
  · simp

theorem lookup_eq_findSome? (heap : Heap) (id : FrameId) (name : Name) :
    heap.lookup id name = (heap.chain id).findSome? fun frame => heap.get? frame name := by
  fun_induction lookup heap id name with
  | case1 id value held => unfold chain; split <;> (try split) <;> simp [held]
  | case2 id missing parent up older ih =>
    rw [chain, up]
    simp [older, missing, ih]
  | case3 id missing parent up younger =>
    rw [chain, up]
    simp [younger, missing]
  | case4 id missing up =>
    rw [chain, up]
    simp [missing]

theorem holder?_eq_find? (heap : Heap) (id : FrameId) (name : Name) :
    heap.holder? id name = (heap.chain id).find? fun frame => heap.binds frame name := by
  fun_induction holder? heap id name with
  | case1 id held => unfold chain; split <;> (try split) <;> simp [held]
  | case2 id missing parent up older ih =>
    rw [chain, up]
    simp [older, missing, ih]
  | case3 id missing parent up younger =>
    rw [chain, up]
    simp [younger, missing]
  | case4 id missing up =>
    rw [chain, up]
    simp [missing]

theorem rootPathOnto_eq (heap : Heap) (id : FrameId) (inner : List FrameId) :
    heap.rootPathOnto id inner = (heap.chain id).reverse ++ inner := by
  fun_induction rootPathOnto heap id inner with
  | case1 id inner parent up older ih =>
    rw [chain, up]
    simp [older, ih]
  | case2 id inner parent up younger =>
    rw [chain, up]
    simp [younger]
  | case3 id inner up =>
    rw [chain, up]
    simp

theorem rootPath_eq (heap : Heap) (id : FrameId) : heap.rootPath id = (heap.chain id).reverse := by
  simp [rootPath, rootPathOnto_eq]

theorem depth_eq (heap : Heap) (id : FrameId) : heap.depth id = (heap.chain id).length := by
  simp [depth, rootPath_eq]

theorem root_eq_getLast (heap : Heap) (id : FrameId) :
    heap.root id = (heap.chain id).getLast (heap.chain_ne_nil id) := by
  have last : (heap.chain id).getLast? = some (heap.root id) := by
    fun_induction root heap id with
    | case1 id parent up older ih =>
      rw [chain, up]
      simp [older, List.getLast?_cons, ih]
    | case2 id parent up younger =>
      rw [chain, up]
      simp [younger]
    | case3 id up =>
      rw [chain, up]
      simp
  rw [List.getLast?_eq_some_getLast (heap.chain_ne_nil id)] at last
  exact (Option.some.inj last).symm

end ScopedEval.Heap
