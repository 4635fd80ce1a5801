import ScopedEval.Machine

namespace ScopedEval

def Node.first? : Node → Option ExprId
  | .literal _ | .ident _ | .function .. => none
  | .print operand => some operand
  | .binary _ left _ => some left
  | .branch condition _ _ => some condition
  | .loop condition _ => some condition
  | .seq first _ => some first
  | .declare _ init => some init
  | .assign _ value => some value
  | .call callee _ => some callee

/-- Names are declared in a frame one after the other, each with its value, up to one that the frame already binds. -/
inductive World.Declares (frame : FrameId) : World → List Name → List Value → Option Name → World → Prop where
  | done {world : World} : Declares frame world [] [] none world
  | taken {world : World} {name : Name} {rest : List Name} {value : Value} {values : List Value} :
      world.heap.binds frame name = true →
      Declares frame world (name :: rest) (value :: values) (some name) world
  | next {world after : World} {name : Name} {rest : List Name} {value : Value} {values : List Value}
      {stop : Option Name} :
      world.heap.binds frame name = false →
      Declares frame (world.declare frame name value) rest values stop after →
      Declares frame world (name :: rest) (value :: values) stop after

/-- The meaning of the language, rule by rule: a task at a site takes one world to another and has an
    outcome. The rules say nothing of steps, stacks or fuel, and a task that never ends has no outcome. -/
inductive Evaluates (names : Interner) : Site → Task → World → Outcome → World → Prop where
  | missing {site : Site} {id : ExprId} {world : World} :
      site.code.arena.node? id = none →
      Evaluates names site (.expr id) world .outOfRange world
  | literal {site : Site} {id : ExprId} {world : World} {literal : Literal} {value : Value} :
      site.code.arena.node? id = some (.literal literal) → Value.ofLiteral literal = value →
      Evaluates names site (.expr id) world (.value value) world
  | ident {site : Site} {id : ExprId} {world : World} {name : Name} {value : Value} :
      site.code.arena.node? id = some (.ident name) → world.heap.resolve site.frame name = value →
      Evaluates names site (.expr id) world (.value value) world
  | function {site : Site} {id body : ExprId} {world : World} {params : Span} :
      site.code.arena.node? id = some (.function params body) →
      Evaluates names site (.expr id) world
        (.value (.function (world.newClosure params body site.code site.frame).1))
        (world.newClosure params body site.code site.frame).2
  | firstAborts {site : Site} {id child : ExprId} {world after : World} {node : Node} {outcome : Outcome} :
      site.code.arena.node? id = some node → node.first? = some child →
      Evaluates names site (.expr child) world outcome after → outcome.aborts = true →
      Evaluates names site (.expr id) world outcome after
  | print {site : Site} {id operand : ExprId} {world after : World} {value : Value} :
      site.code.arena.node? id = some (.print operand) →
      Evaluates names site (.expr operand) world (.value value) after →
      Evaluates names site (.expr id) world (.value value) (after.print value)
  | binary {site : Site} {id left right : ExprId} {world middle after : World} {op : Operator}
      {a b value : Value} :
      site.code.arena.node? id = some (.binary op left right) →
      Evaluates names site (.expr left) world (.value a) middle →
      Evaluates names site (.expr right) middle (.value b) after → op.apply a b = .ok value →
      Evaluates names site (.expr id) world (.value value) after
  | binaryFails {site : Site} {id left right : ExprId} {world middle after : World} {op : Operator}
      {a b : Value} {failure : Failure} :
      site.code.arena.node? id = some (.binary op left right) →
      Evaluates names site (.expr left) world (.value a) middle →
      Evaluates names site (.expr right) middle (.value b) after → op.apply a b = .error failure →
      Evaluates names site (.expr id) world (.failure failure) after
  | rightAborts {site : Site} {id left right : ExprId} {world middle after : World} {op : Operator}
      {a : Value} {outcome : Outcome} :
      site.code.arena.node? id = some (.binary op left right) →
      Evaluates names site (.expr left) world (.value a) middle →
      Evaluates names site (.expr right) middle outcome after → outcome.aborts = true →
      Evaluates names site (.expr id) world outcome after
  | branchTrue {site : Site} {id condition consequent : ExprId} {alternative : Option ExprId}
      {world middle after : World} {outcome : Outcome} :
      site.code.arena.node? id = some (.branch condition consequent alternative) →
      Evaluates names site (.expr condition) world (.value (.bool true)) middle →
      Evaluates names site (.expr consequent) middle outcome after →
      Evaluates names site (.expr id) world outcome after
  | branchFalse {site : Site} {id condition consequent alternative : ExprId} {world middle after : World}
      {outcome : Outcome} :
      site.code.arena.node? id = some (.branch condition consequent (some alternative)) →
      Evaluates names site (.expr condition) world (.value (.bool false)) middle →
      Evaluates names site (.expr alternative) middle outcome after →
      Evaluates names site (.expr id) world outcome after
  | branchNone {site : Site} {id condition consequent : ExprId} {world after : World} :
      site.code.arena.node? id = some (.branch condition consequent none) →
      Evaluates names site (.expr condition) world (.value (.bool false)) after →
      Evaluates names site (.expr id) world (.value .null) after
  | branchOther {site : Site} {id condition consequent : ExprId} {alternative : Option ExprId}
      {world after : World} {value : Value} :
      site.code.arena.node? id = some (.branch condition consequent alternative) →
      Evaluates names site (.expr condition) world (.value value) after → value.toBool? = none →
      Evaluates names site (.expr id) world (.failure (.nonBooleanCondition "if" value.typeName)) after
  | loopDone {site : Site} {id condition body : ExprId} {world after : World} :
      site.code.arena.node? id = some (.loop condition body) →
      Evaluates names site (.expr condition) world (.value (.bool false)) after →
      Evaluates names site (.expr id) world (.value .null) after
  | loopAgain {site : Site} {id condition body : ExprId} {world tested passed after : World} {value : Value}
      {outcome : Outcome} :
      site.code.arena.node? id = some (.loop condition body) →
      Evaluates names site (.expr condition) world (.value (.bool true)) tested →
      Evaluates names site (.expr body) tested (.value value) passed →
      Evaluates names site (.expr id) passed outcome after →
      Evaluates names site (.expr id) world outcome after
  | loopAborts {site : Site} {id condition body : ExprId} {world tested after : World} {outcome : Outcome} :
      site.code.arena.node? id = some (.loop condition body) →
      Evaluates names site (.expr condition) world (.value (.bool true)) tested →
      Evaluates names site (.expr body) tested outcome after → outcome.aborts = true →
      Evaluates names site (.expr id) world outcome after
  | loopOther {site : Site} {id condition body : ExprId} {world after : World} {value : Value} :
      site.code.arena.node? id = some (.loop condition body) →
      Evaluates names site (.expr condition) world (.value value) after → value.toBool? = none →
      Evaluates names site (.expr id) world (.failure (.nonBooleanCondition "while" value.typeName)) after
  | seq {site : Site} {id first second : ExprId} {world middle after : World} {a b value : Value} :
      site.code.arena.node? id = some (.seq first second) →
      Evaluates names site (.expr first) world (.value a) middle →
      Evaluates names site (.expr second) middle (.value b) after → (if b.isNull then a else b) = value →
      Evaluates names site (.expr id) world (.value value) after
  | secondAborts {site : Site} {id first second : ExprId} {world middle after : World} {a : Value}
      {outcome : Outcome} :
      site.code.arena.node? id = some (.seq first second) →
      Evaluates names site (.expr first) world (.value a) middle →
      Evaluates names site (.expr second) middle outcome after → outcome.aborts = true →
      Evaluates names site (.expr id) world outcome after
  | declare {site : Site} {id init : ExprId} {world after : World} {name : Name} {value : Value} :
      site.code.arena.node? id = some (.declare name init) →
      Evaluates names site (.expr init) world (.value value) after →
      after.heap.binds site.frame name = false →
      Evaluates names site (.expr id) world (.value value) (after.declare site.frame name value)
  | redeclare {site : Site} {id init : ExprId} {world after : World} {name : Name} {value : Value} :
      site.code.arena.node? id = some (.declare name init) →
      Evaluates names site (.expr init) world (.value value) after →
      after.heap.binds site.frame name = true →
      Evaluates names site (.expr id) world (.failure (.redeclaration (names.lookup name))) after
  | assign {site : Site} {id source : ExprId} {world after : World} {name : Name} {value : Value} :
      site.code.arena.node? id = some (.assign name source) →
      Evaluates names site (.expr source) world (.value value) after →
      Evaluates names site (.expr id) world (.value value) (after.assign site.frame name value)
  | notCallable {site : Site} {id callee : ExprId} {args : Span} {world after : World} {value : Value} :
      site.code.arena.node? id = some (.call callee args) →
      Evaluates names site (.expr callee) world (.value value) after → value.toFunction? = none →
      Evaluates names site (.expr id) world (.failure (.notCallable value.typeName)) after
  | argsMissing {site : Site} {id callee : ExprId} {args : Span} {world after : World} {closure : Closure} :
      site.code.arena.node? id = some (.call callee args) →
      Evaluates names site (.expr callee) world (.value (.function closure)) after →
      site.code.arena.args? args = none →
      Evaluates names site (.expr id) world .outOfRange after
  | call {site : Site} {id callee : ExprId} {args : Span} {ids : List ExprId} {world middle after : World}
      {closure : Closure} {outcome : Outcome} :
      site.code.arena.node? id = some (.call callee args) →
      Evaluates names site (.expr callee) world (.value (.function closure)) middle →
      site.code.arena.args? args = some ids →
      Evaluates names site (.arguments closure [] ids) middle outcome after →
      Evaluates names site (.expr id) world outcome after
  | argument {site : Site} {id : ExprId} {rest : List ExprId} {closure : Closure} {evaluated : List Value}
      {world middle after : World} {value : Value} {outcome : Outcome} :
      Evaluates names site (.expr id) world (.value value) middle →
      Evaluates names site (.arguments closure (value :: evaluated) rest) middle outcome after →
      Evaluates names site (.arguments closure evaluated (id :: rest)) world outcome after
  | argumentAborts {site : Site} {id : ExprId} {rest : List ExprId} {closure : Closure}
      {evaluated : List Value} {world after : World} {outcome : Outcome} :
      Evaluates names site (.expr id) world outcome after → outcome.aborts = true →
      Evaluates names site (.arguments closure evaluated (id :: rest)) world outcome after
  | argumentsDone {site : Site} {closure : Closure} {evaluated : List Value} {world after : World}
      {outcome : Outcome} :
      Evaluates names site (.call closure evaluated.reverse) world outcome after →
      Evaluates names site (.arguments closure evaluated []) world outcome after
  | arity {site : Site} {closure : Closure} {args : List Value} {world : World} :
      args.length ≠ closure.arity →
      Evaluates names site (.call closure args) world
        (.failure (.arityMismatch closure.arity args.length))
        ((world.emit (.enterCall closure.arity)).emit .exitCall)
  | paramsMissing {site : Site} {closure : Closure} {args : List Value} {world entered : World}
      {frame : FrameId} :
      args.length = closure.arity →
      (world.emit (.enterCall closure.arity)).newFrame (some closure.scope) = (frame, entered) →
      closure.paramNames? = none →
      Evaluates names site (.call closure args) world .outOfRange (entered.emit .exitCall)
  | paramRepeated {site : Site} {closure : Closure} {args : List Value} {params : List Name} {name : Name}
      {world entered bound : World} {frame : FrameId} :
      args.length = closure.arity →
      (world.emit (.enterCall closure.arity)).newFrame (some closure.scope) = (frame, entered) →
      closure.paramNames? = some params →
      entered.Declares frame params args (some name) bound →
      Evaluates names site (.call closure args) world (.failure (.redeclaration (names.lookup name)))
        (bound.emit .exitCall)
  | body {site : Site} {closure : Closure} {args : List Value} {params : List Name}
      {world entered bound after : World} {frame : FrameId} {outcome : Outcome} :
      args.length = closure.arity →
      (world.emit (.enterCall closure.arity)).newFrame (some closure.scope) = (frame, entered) →
      closure.paramNames? = some params →
      entered.Declares frame params args none bound →
      Evaluates names ⟨closure.code, frame⟩ (.expr closure.body) bound outcome after →
      Evaluates names site (.call closure args) world outcome (after.leaveCall outcome)

end ScopedEval
