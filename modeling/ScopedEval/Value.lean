import ScopedEval.Arena

namespace ScopedEval

structure FrameId where
  index : Nat
  deriving DecidableEq, Repr

/-- A function value: the parameters and body it was made from, the code they are read in, and the
    frame that was current when it was made. The stamp tells it from every other closure. -/
structure Closure where
  stamp : Nat
  params : Span
  body : ExprId
  code : Code
  scope : FrameId
  deriving DecidableEq

namespace Closure

def arity (closure : Closure) : Nat := closure.params.length

def paramNames? (closure : Closure) : Option (List Name) := closure.code.arena.params? closure.params

def same (left right : Closure) : Bool := left.stamp == right.stamp

end Closure

inductive Value where
  | int (value : Int64)
  | bool (value : Bool)
  | null
  | function (closure : Closure)
  deriving DecidableEq

instance : Inhabited Value := ⟨.null⟩

namespace Value

def ofLiteral : Literal → Value
  | .int value => .int value
  | .bool value => .bool value
  | .null => .null

def typeName : Value → String
  | int _ => "int"
  | bool _ => "bool"
  | null => "null"
  | function _ => "function"

def text : Value → String
  | int value => toString value.toInt
  | bool true => "true"
  | bool false => "false"
  | null => "null"
  | function _ => "function"

/-- Equality as programs see it: scalars by content, functions by identity, and nothing across types. -/
def equals : Value → Value → Bool
  | int left, int right => left == right
  | bool left, bool right => left == right
  | null, null => true
  | function left, function right => left.same right
  | _, _ => false

def isNull : Value → Bool
  | null => true
  | _ => false

def toInt? : Value → Option Int64
  | int value => some value
  | _ => none

def toBool? : Value → Option Bool
  | bool value => some value
  | _ => none

def toFunction? : Value → Option Closure
  | function closure => some closure
  | _ => none

@[simp] theorem equals_self (value : Value) : value.equals value = true := by
  cases value with
  | int value => exact beq_self_eq_true value
  | bool value => exact beq_self_eq_true value
  | null => rfl
  | function closure => exact beq_self_eq_true closure.stamp

theorem equals_comm (left right : Value) : left.equals right = right.equals left := by
  cases left <;> cases right <;> first | rfl | exact BEq.comm

end Value

end ScopedEval
