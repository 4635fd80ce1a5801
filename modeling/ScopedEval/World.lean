import ScopedEval.Heap
import ScopedEval.Sink
import ScopedEval.Trace

namespace ScopedEval

structure World where
  heap : Heap
  sink : Sink
  trace : Array Event

namespace World

def new (sink : Sink) : World := ⟨.empty, sink, #[]⟩

def emit (world : World) (event : Event) : World := { world with trace := world.trace.push event }

def print (world : World) (value : Value) : World :=
  { world with sink := world.sink.writeValue value }

def newFrame (world : World) (parent : Option FrameId) : FrameId × World :=
  let (id, heap) := world.heap.newFrame parent
  (id, { world with heap := heap })

def newClosure (world : World) (params : Span) (body : ExprId) (code : Code) (scope : FrameId) :
    Closure × World :=
  let (closure, heap) := world.heap.newClosure params body code scope
  (closure, { world with heap := heap })

def bind (world : World) (id : FrameId) (name : Name) (value : Value) : World :=
  { world with heap := world.heap.bind id name value }

def declare (world : World) (id : FrameId) (name : Name) (value : Value) : World :=
  (world.bind id name value).emit (.declare name)

/-- Overwrite the nearest binding of a name, or bind it in the outermost frame when there is none. -/
def assign (world : World) (id : FrameId) (name : Name) (value : Value) : World :=
  match world.heap.holder? id name with
  | some holder => world.bind holder name value
  | none =>
    let root := world.heap.root id
    (world.emit (.implicitGlobal name)).bind root name value

/-- Declare names in order, up to the first that the frame already binds; that name is handed back. -/
def declareAll (world : World) (id : FrameId) : List (Name × Value) → Option Name × World
  | [] => (none, world)
  | (name, value) :: rest =>
    if world.heap.binds id name then (some name, world)
    else (world.declare id name value).declareAll id rest

def takeTrace (world : World) : Array Event × World := (world.trace, { world with trace := #[] })

end World

end ScopedEval
