import ScopedEval.Bindings
import ScopedEval.Value

namespace ScopedEval

structure Frame where
  parent : Option FrameId
  bindings : Bindings Value

/-- All frames made so far, none of which is ever given up, and the number of closures made so far. -/
structure Heap where
  frames : Array Frame
  closures : Nat

namespace Heap

def empty : Heap := ⟨#[], 0⟩

instance : Inhabited Heap := ⟨empty⟩

def frame? (heap : Heap) (id : FrameId) : Option Frame := heap.frames[id.index]?

def parent? (heap : Heap) (id : FrameId) : Option FrameId := (heap.frame? id).bind Frame.parent

def get? (heap : Heap) (id : FrameId) (name : Name) : Option Value :=
  (heap.frame? id).bind fun frame => frame.bindings.get? name

def binds (heap : Heap) (id : FrameId) (name : Name) : Bool := (heap.get? id name).isSome

def newFrame (heap : Heap) (parent : Option FrameId) : FrameId × Heap :=
  (⟨heap.frames.size⟩, { heap with frames := heap.frames.push ⟨parent, .empty⟩ })

def newClosure (heap : Heap) (params : Span) (body : ExprId) (code : Code) (scope : FrameId) :
    Closure × Heap :=
  (⟨heap.closures, params, body, code, scope⟩, { heap with closures := heap.closures + 1 })

def bind (heap : Heap) (id : FrameId) (name : Name) (value : Value) : Heap :=
  { heap with
    frames := heap.frames.modify id.index fun frame =>
      { frame with bindings := frame.bindings.insert name value } }

/-- The value of a name in the nearest frame, from this one outwards, that binds it. The walk goes to
    older frames only, so it ends in every heap. -/
def lookup (heap : Heap) (id : FrameId) (name : Name) : Option Value :=
  match heap.get? id name with
  | some value => some value
  | none =>
    match heap.parent? id with
    | some parent => if parent.index < id.index then heap.lookup parent name else none
    | none => none
termination_by id.index

def resolve (heap : Heap) (id : FrameId) (name : Name) : Value := (heap.lookup id name).getD .null

def holder? (heap : Heap) (id : FrameId) (name : Name) : Option FrameId :=
  if heap.binds id name then some id
  else
    match heap.parent? id with
    | some parent => if parent.index < id.index then heap.holder? parent name else none
    | none => none
termination_by id.index

def root (heap : Heap) (id : FrameId) : FrameId :=
  match heap.parent? id with
  | some parent => if parent.index < id.index then heap.root parent else id
  | none => id
termination_by id.index

def rootPathOnto (heap : Heap) (id : FrameId) (inner : List FrameId) : List FrameId :=
  match heap.parent? id with
  | some parent =>
    if parent.index < id.index then heap.rootPathOnto parent (id :: inner) else id :: inner
  | none => id :: inner
termination_by id.index

def rootPath (heap : Heap) (id : FrameId) : List FrameId := heap.rootPathOnto id []

def depth (heap : Heap) (id : FrameId) : Nat := (heap.rootPath id).length

def isGlobal (heap : Heap) (id : FrameId) : Bool := (heap.parent? id).isNone

def target (heap : Heap) (id : FrameId) (name : Name) : FrameId :=
  (heap.holder? id name).getD (heap.root id)

/-- Every frame is younger than the frame around it, and every closure in a frame has been made in
    this heap and captured one of its frames. -/
structure WellFormed (heap : Heap) : Prop where
  parent_older : ∀ {id parent}, heap.parent? id = some parent → parent.index < id.index
  scope_exists : ∀ {id name closure}, heap.get? id name = some (.function closure) →
    closure.scope.index < heap.frames.size
  stamp_issued : ∀ {id name closure}, heap.get? id name = some (.function closure) →
    closure.stamp < heap.closures

end Heap

end ScopedEval
