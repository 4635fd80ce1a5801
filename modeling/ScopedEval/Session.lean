import ScopedEval.Heap.Dump
import ScopedEval.Machine
import ScopedEval.Tree

namespace ScopedEval

structure Session where
  names : Interner
  world : World
  codes : Nat

namespace Session

def new (sink : Sink) : Session := ⟨.new, .new sink, 0⟩

def heap (session : Session) : Heap := session.world.heap

def intern (session : Session) (text : String) : Name × Session :=
  let (name, names) := session.names.intern text
  (name, { session with names := names })

def freeze (session : Session) (arena : Arena) : Code × Session :=
  (⟨session.codes, arena⟩, { session with codes := session.codes + 1 })

def newFrame (session : Session) (parent : Option FrameId) : FrameId × Session :=
  let (id, world) := session.world.newFrame parent
  (id, { session with world := world })

def newClosure (session : Session) (params : Span) (body : ExprId) (code : Code) (scope : FrameId) :
    Closure × Session :=
  let (closure, world) := session.world.newClosure params body code scope
  (closure, { session with world := world })

def load (session : Session) (program : List Tree) : Code × Option ExprId × Session :=
  let ⟨names, world, codes⟩ := session
  let (root, builder) := Tree.buildProgram (.withNames names) program
  let (code, session) := Session.freeze ⟨builder.names, world, codes⟩ builder.arena
  (code, root, session)

/-- Declare a variable in a frame. The name is handed back when the frame already binds it, and then
    nothing is changed. -/
def declare (session : Session) (id : FrameId) (text : String) (value : Value) : Option Name × Session :=
  let (name, session) := session.intern text
  if session.heap.binds id name then (some name, session)
  else
    let ⟨names, world, codes⟩ := session
    (none, ⟨names, world.declare id name value, codes⟩)

def assign (session : Session) (id : FrameId) (text : String) (value : Value) : Session :=
  let (name, ⟨names, world, codes⟩) := session.intern text
  ⟨names, world.assign id name value, codes⟩

def resolve (session : Session) (id : FrameId) (text : String) : Value × Session :=
  let (name, session) := session.intern text
  (session.heap.resolve id name, session)

def evaluate (session : Session) (fuel : Nat) (site : Site) (id : ExprId) : Option (Outcome × Session) :=
  let ⟨names, world, codes⟩ := session
  (ScopedEval.evaluate names fuel site id world).map fun (outcome, world) =>
    (outcome, ⟨names, world, codes⟩)

def run (session : Session) (fuel : Nat) (site : Site) (root : Option ExprId) : Option (Outcome × Session) :=
  let ⟨names, world, codes⟩ := session
  (evaluateProgram names fuel site root world).map fun (outcome, world) =>
    (outcome, ⟨names, world, codes⟩)

def writeLine (session : Session) (line : String) : Session :=
  { session with world := { session.world with sink := session.world.sink.writeLine line } }

def print (session : Session) (value : Value) : Session :=
  { session with world := session.world.print value }

def output (session : Session) : String := session.world.sink.output

def takeOutput (session : Session) : String × Session :=
  let (text, sink) := session.world.sink.take
  (text, { session with world := { session.world with sink := sink } })

def takeTrace (session : Session) : Array Event × Session :=
  let (trace, world) := session.world.takeTrace
  (trace, { session with world := world })

def dump (session : Session) (id : FrameId) : String := session.heap.dump session.names id

end Session

end ScopedEval
