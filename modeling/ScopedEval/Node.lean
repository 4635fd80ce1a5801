import ScopedEval.Interner
import ScopedEval.Operator

namespace ScopedEval

structure ExprId where
  index : Nat
  deriving DecidableEq, Repr

structure Span where
  start : Nat
  length : Nat
  deriving DecidableEq, Repr

namespace Span

def empty : Span := ⟨0, 0⟩

instance : Inhabited Span := ⟨empty⟩

def isEmpty (span : Span) : Bool := span.length == 0

def stop (span : Span) : Nat := span.start + span.length

end Span

inductive Literal where
  | int (value : Int64)
  | bool (value : Bool)
  | null
  deriving DecidableEq

/-- One expression. Subexpressions are ids of the same arena; the arguments of a call and the
    parameters of a function are spans of two tables beside it. -/
inductive Node where
  | literal (value : Literal)
  | ident (name : Name)
  | print (operand : ExprId)
  | binary (op : Operator) (left right : ExprId)
  | branch (condition consequent : ExprId) (alternative : Option ExprId)
  | loop (condition body : ExprId)
  | seq (first second : ExprId)
  | declare (name : Name) (init : ExprId)
  | assign (name : Name) (value : ExprId)
  | function (params : Span) (body : ExprId)
  | call (callee : ExprId) (args : Span)
  deriving DecidableEq

end ScopedEval
