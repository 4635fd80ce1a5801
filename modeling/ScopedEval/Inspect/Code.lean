import ScopedEval.Arena
import ScopedEval.Inspect.Record
import ScopedEval.Trace

namespace ScopedEval

open Inspect

def Operator.inspect : Operator → String
  | .add => "Add"
  | .sub => "Sub"
  | .mul => "Mul"
  | .div => "Div"
  | .mod => "Mod"
  | .gt => "Gt"
  | .ge => "GtEq"
  | .lt => "Lt"
  | .le => "LtEq"
  | .eq => "Eq"

def ExprId.inspect (id : ExprId) : String := wrapped "ExprId" (toString id.index)

/-- The end of a span, if it is a position at all: positions are 32 bits wide. -/
def Span.stop? (span : Span) : Option Nat := if span.stop < 4294967296 then some span.stop else none

def Span.inspectArgs? (span : Span) : Option String :=
  span.stop?.map fun stop => wrapped "ExprRange" (toString span.start ++ ".." ++ toString stop)

def Span.inspectParams (span : Span) : String :=
  record "ParamRange" [("start", toString span.start), ("len", toString span.length)]

def Literal.inspect : Literal → String
  | .int value => wrapped "Int" (toString value.toInt)
  | .bool value => wrapped "Bool" (Inspect.bool value)
  | .null => "Null"

def Node.inspect? : Node → Option String
  | .literal value => wrapped "Literal" value.inspect
  | .ident name => wrapped "Ident" name.inspect
  | .print operand => wrapped "Print" operand.inspect
  | .binary op left right =>
    record "Binary" [("op", op.inspect), ("left", left.inspect), ("right", right.inspect)]
  | .branch condition consequent alternative =>
    record "If" [("cond", condition.inspect), ("then_branch", consequent.inspect),
      ("else_branch", option (alternative.map ExprId.inspect))]
  | .loop condition body => record "While" [("cond", condition.inspect), ("body", body.inspect)]
  | .seq first second => record "Seq" [("first", first.inspect), ("second", second.inspect)]
  | .declare name init => record "VarDecl" [("name", name.inspect), ("init", init.inspect)]
  | .assign name value => record "Assign" [("name", name.inspect), ("value", value.inspect)]
  | .function params body =>
    record "Function" [("params", params.inspectParams), ("body", body.inspect)]
  | .call callee args =>
    args.inspectArgs?.map fun args => record "Call" [("func", callee.inspect), ("args", args)]

def Arena.inspect (arena : Arena) : String :=
  record "ExprArena" [("exprs", toString arena.nodes.size), ("expr_lists", toString arena.args.size),
    ("params", toString arena.params.size)]

def Code.inspect (code : Code) : String := wrapped "SharedArena" code.arena.inspect

end ScopedEval
