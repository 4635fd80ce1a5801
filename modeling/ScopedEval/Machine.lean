import ScopedEval.Operator.Apply
import ScopedEval.World

namespace ScopedEval

/-- How an evaluation ends: in a value, in a failure of the program, or at an id or a span that lies
    outside the code. -/
inductive Outcome where
  | value (value : Value)
  | failure (failure : Failure)
  | outOfRange
  deriving DecidableEq

structure Site where
  code : Code
  frame : FrameId

inductive Task where
  | expr (id : ExprId)
  /-- Evaluate the arguments still to come, then call; those already evaluated are held last first. -/
  | arguments (callee : Closure) (evaluated : List Value) (rest : List ExprId)
  | call (callee : Closure) (args : List Value)

inductive Continuation where
  | print
  | rightOperand (op : Operator) (right : ExprId)
  | apply (op : Operator) (left : Value)
  | branch (consequent : ExprId) (alternative : Option ExprId)
  | loopTest (condition body : ExprId)
  | loopBody (condition body : ExprId)
  | second (id : ExprId)
  | join (first : Value)
  | declare (name : Name)
  | assign (name : Name)
  | callee (args : Span)
  | argument (callee : Closure) (evaluated : List Value) (rest : List ExprId)
  | leave (caller : Site)

inductive Control where
  | perform (task : Task)
  | deliver (outcome : Outcome)

structure State where
  control : Control
  site : Site
  stack : List Continuation
  world : World

namespace World

def leaveCall (world : World) : Outcome → World
  | .failure failure => (world.emit (.callFailed failure)).emit .exitCall
  | .value _ | .outOfRange => world.emit .exitCall

def leaveProgram (world : World) : Outcome → World
  | .failure failure => (world.emit (.programFailed failure)).emit .exitProgram
  | .value _ | .outOfRange => world.emit .exitProgram

end World

namespace Outcome

def ofExcept : Except Failure Value → Outcome
  | .ok result => .value result
  | .error cause => .failure cause

def aborts : Outcome → Bool
  | value _ => false
  | failure _ | outOfRange => true

end Outcome

namespace State

def perform (task : Task) (site : Site) (stack : List Continuation) (world : World) : State :=
  ⟨.perform task, site, stack, world⟩

def deliver (outcome : Outcome) (site : Site) (stack : List Continuation) (world : World) : State :=
  ⟨.deliver outcome, site, stack, world⟩

def yield (value : Value) (site : Site) (stack : List Continuation) (world : World) : State :=
  deliver (.value value) site stack world

def fail (failure : Failure) (site : Site) (stack : List Continuation) (world : World) : State :=
  deliver (.failure failure) site stack world

def eval (id : ExprId) (site : Site) (stack : List Continuation) (world : World) : State :=
  perform (.expr id) site stack world

end State

def Node.start (node : Node) (site : Site) (stack : List Continuation) (world : World) : State :=
  match node with
  | .literal value => .yield (.ofLiteral value) site stack world
  | .ident name =>
    let value := world.heap.resolve site.frame name
    .yield value site stack world
  | .print operand => .eval operand site (.print :: stack) world
  | .binary op left right => .eval left site (.rightOperand op right :: stack) world
  | .branch condition consequent alternative =>
    .eval condition site (.branch consequent alternative :: stack) world
  | .loop condition body => .eval condition site (.loopTest condition body :: stack) world
  | .seq first second => .eval first site (.second second :: stack) world
  | .declare name init => .eval init site (.declare name :: stack) world
  | .assign name value => .eval value site (.assign name :: stack) world
  | .function params body =>
    let (closure, world) := world.newClosure params body site.code site.frame
    .yield (.function closure) site stack world
  | .call callee args => .eval callee site (.callee args :: stack) world

/-- Call a closure: the number of arguments is checked, then the parameters are declared in a new
    frame inside the one the closure captured, then the body is evaluated there. -/
def Closure.start (names : Interner) (closure : Closure) (args : List Value) (site : Site)
    (stack : List Continuation) (world : World) : State :=
  let world := world.emit (.enterCall closure.arity)
  if args.length ≠ closure.arity then
    .fail (.arityMismatch closure.arity args.length) site stack (world.emit .exitCall)
  else
    let (frame, world) := world.newFrame (some closure.scope)
    match closure.paramNames? with
    | none => .deliver .outOfRange site stack (world.emit .exitCall)
    | some params =>
      match world.declareAll frame (params.zip args) with
      | (some name, world) =>
        .fail (.redeclaration (names.lookup name)) site stack (world.emit .exitCall)
      | (none, world) => .eval closure.body ⟨closure.code, frame⟩ (.leave site :: stack) world

def Task.start (names : Interner) (task : Task) (site : Site) (stack : List Continuation)
    (world : World) : State :=
  match task with
  | .expr id =>
    match site.code.arena.node? id with
    | none => .deliver .outOfRange site stack world
    | some node => node.start site stack world
  | .arguments callee evaluated [] => .perform (.call callee evaluated.reverse) site stack world
  | .arguments callee evaluated (id :: rest) =>
    .eval id site (.argument callee evaluated rest :: stack) world
  | .call callee args => callee.start names args site stack world

def Continuation.resume (names : Interner) (continuation : Continuation) (value : Value) (site : Site)
    (stack : List Continuation) (world : World) : State :=
  match continuation with
  | .print => .yield value site stack (world.print value)
  | .rightOperand op right => .eval right site (.apply op value :: stack) world
  | .apply op left => .deliver (.ofExcept (op.apply left value)) site stack world
  | .branch consequent alternative =>
    match value with
    | .bool true => .eval consequent site stack world
    | .bool false =>
      match alternative with
      | some alternative => .eval alternative site stack world
      | none => .yield .null site stack world
    | other => .fail (.nonBooleanCondition "if" other.typeName) site stack world
  | .loopTest condition body =>
    match value with
    | .bool true => .eval body site (.loopBody condition body :: stack) world
    | .bool false => .yield .null site stack world
    | other => .fail (.nonBooleanCondition "while" other.typeName) site stack world
  | .loopBody condition body => .eval condition site (.loopTest condition body :: stack) world
  | .second id => .eval id site (.join value :: stack) world
  | .join first => .yield (if value.isNull then first else value) site stack world
  | .declare name =>
    if world.heap.binds site.frame name then
      .fail (.redeclaration (names.lookup name)) site stack world
    else
      .yield value site stack (world.declare site.frame name value)
  | .assign name => .yield value site stack (world.assign site.frame name value)
  | .callee args =>
    match value with
    | .function closure =>
      match site.code.arena.args? args with
      | none => .deliver .outOfRange site stack world
      | some ids => .perform (.arguments closure [] ids) site stack world
    | other => .fail (.notCallable other.typeName) site stack world
  | .argument closure evaluated rest =>
    .perform (.arguments closure (value :: evaluated) rest) site stack world
  | .leave caller => .yield value caller stack (world.leaveCall (.value value))

/-- Pass by with an outcome that is no value: nothing that waits for a value goes on, and a call that
    is left on the way reports its end. -/
def Continuation.discard (continuation : Continuation) (outcome : Outcome) (site : Site)
    (stack : List Continuation) (world : World) : State :=
  match continuation with
  | .leave caller => .deliver outcome caller stack (world.leaveCall outcome)
  | _ => .deliver outcome site stack world

namespace State

def step (names : Interner) : State → State
  | ⟨.perform task, site, stack, world⟩ => task.start names site stack world
  | ⟨.deliver outcome, site, [], world⟩ => .deliver outcome site [] world
  | ⟨.deliver (.value value), site, continuation :: stack, world⟩ =>
    continuation.resume names value site stack world
  | ⟨.deliver outcome, site, continuation :: stack, world⟩ =>
    continuation.discard outcome site stack world

def run (names : Interner) : (fuel : Nat) → State → Option (Outcome × World)
  | _, ⟨.deliver outcome, _, [], world⟩ => some (outcome, world)
  | 0, _ => none
  | fuel + 1, state => run names fuel (step names state)

end State

/-- Evaluate an expression at a site. There is no answer when the fuel does not last. -/
def evaluate (names : Interner) (fuel : Nat) (site : Site) (id : ExprId) (world : World) :
    Option (Outcome × World) :=
  State.run names fuel (.eval id site [] world)

def evaluateProgram (names : Interner) (fuel : Nat) (site : Site) (root : Option ExprId)
    (world : World) : Option (Outcome × World) :=
  let world := world.emit .enterProgram
  match root with
  | none => some (.value .null, world.leaveProgram (.value .null))
  | some id =>
    (evaluate names fuel site id world).map fun (outcome, world) =>
      (outcome, world.leaveProgram outcome)

end ScopedEval
