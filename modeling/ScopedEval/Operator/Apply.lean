import ScopedEval.Failure
import ScopedEval.Value

namespace ScopedEval.Operator

/-- An operator on two integers. Sums, differences and products wrap around at 64 bits; the quotient
    is cut off toward zero and wraps as well, and a zero divisor fails. -/
def applyInt (op : Operator) (left right : Int64) : Except Failure Value :=
  match op with
  | add => .ok (.int (left + right))
  | sub => .ok (.int (left - right))
  | mul => .ok (.int (left * right))
  | div => if right = 0 then .error .divisionByZero else .ok (.int (left / right))
  | mod => if right = 0 then .error .moduloByZero else .ok (.int (left % right))
  | gt => .ok (.bool (decide (right < left)))
  | ge => .ok (.bool (decide (right ≤ left)))
  | lt => .ok (.bool (decide (left < right)))
  | le => .ok (.bool (decide (left ≤ right)))
  | eq => .ok (.bool (left == right))

def apply (op : Operator) (left right : Value) : Except Failure Value :=
  match op, left, right with
  | eq, left, right => .ok (.bool (left.equals right))
  | op, .int left, .int right => op.applyInt left right
  | op, left, right => .error (.typeMismatch op left.typeName right.typeName)

@[simp] theorem apply_eq (left right : Value) : apply eq left right = .ok (.bool (left.equals right)) := rfl

@[simp] theorem apply_int (op : Operator) (left right : Int64) :
    op.apply (.int left) (.int right) = op.applyInt left right := by
  cases op <;> rfl

end ScopedEval.Operator
