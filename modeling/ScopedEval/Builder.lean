import ScopedEval.Arena

namespace ScopedEval

/-- Programs under construction: the interner that names their variables and the arena that takes
    their expressions. Each step adds one expression and hands back its id. -/
structure Builder where
  names : Interner
  arena : Arena

namespace Builder

def withNames (names : Interner) : Builder := ⟨names, .empty⟩

def add (builder : Builder) (node : Node) : ExprId × Builder :=
  let (id, arena) := builder.arena.addNode node
  (id, { builder with arena := arena })

def intern (builder : Builder) (text : String) : Name × Builder :=
  let (name, names) := builder.names.intern text
  (name, { builder with names := names })

def literal (builder : Builder) (value : Literal) : ExprId × Builder := builder.add (.literal value)

def ident (builder : Builder) (text : String) : ExprId × Builder :=
  let (name, builder) := builder.intern text
  builder.add (.ident name)

def print (builder : Builder) (operand : ExprId) : ExprId × Builder := builder.add (.print operand)

def binary (builder : Builder) (op : Operator) (left right : ExprId) : ExprId × Builder :=
  builder.add (.binary op left right)

def branch (builder : Builder) (condition consequent : ExprId) (alternative : Option ExprId) :
    ExprId × Builder :=
  builder.add (.branch condition consequent alternative)

def loop (builder : Builder) (condition body : ExprId) : ExprId × Builder :=
  builder.add (.loop condition body)

def seq (builder : Builder) (first second : ExprId) : ExprId × Builder :=
  builder.add (.seq first second)

def seqFrom (builder : Builder) (first : ExprId) : List ExprId → ExprId × Builder
  | [] => (first, builder)
  | next :: rest =>
    let (joined, builder) := builder.seq first next
    builder.seqFrom joined rest

/-- All the statements in order, nested to the left; no expression at all when there is none. -/
def seqAll (builder : Builder) : List ExprId → Option ExprId × Builder
  | [] => (none, builder)
  | first :: rest =>
    let (id, builder) := builder.seqFrom first rest
    (some id, builder)

def declare (builder : Builder) (text : String) (init : ExprId) : ExprId × Builder :=
  let (name, builder) := builder.intern text
  builder.add (.declare name init)

def assign (builder : Builder) (text : String) (value : ExprId) : ExprId × Builder :=
  let (name, builder) := builder.intern text
  builder.add (.assign name value)

def function (builder : Builder) (params : List String) (body : ExprId) : ExprId × Builder :=
  let (names, interner) := builder.names.internAll params
  let (span, arena) := builder.arena.addParams names
  Builder.add ⟨interner, arena⟩ (.function span body)

def call (builder : Builder) (callee : ExprId) (args : List ExprId) : ExprId × Builder :=
  let (span, arena) := builder.arena.addArgs args
  Builder.add { builder with arena := arena } (.call callee span)

end Builder

end ScopedEval
