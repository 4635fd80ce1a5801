import ScopedEval.Operator

namespace ScopedEval

inductive Failure where
  | divisionByZero
  | moduloByZero
  | typeMismatch (op : Operator) (left right : String)
  | nonBooleanCondition (construct got : String)
  | redeclaration (name : String)
  | notCallable (typeName : String)
  | arityMismatch (expected got : Nat)
  deriving DecidableEq

namespace Failure

def category : Failure → String
  | divisionByZero | moduloByZero => "ArithmeticError"
  | typeMismatch .. => "TypeError"
  | nonBooleanCondition .. => "ConditionTypeError"
  | redeclaration _ => "RedeclarationError"
  | notCallable _ => "NotCallableError"
  | arityMismatch .. => "ArityError"

def message : Failure → String
  | divisionByZero => "division by zero"
  | moduloByZero => "modulo by zero"
  | typeMismatch op left right =>
    "operator `" ++ op.symbol ++ "` cannot be applied to `" ++ left ++ "` and `" ++ right ++ "`"
  | nonBooleanCondition construct got => construct ++ " condition must be bool, got " ++ got
  | redeclaration name => "variable `" ++ name ++ "` is already declared in this scope"
  | notCallable typeName => typeName ++ " is not callable"
  | arityMismatch expected got =>
    "expected " ++ toString expected ++ (if expected = 1 then " argument" else " arguments") ++
      ", got " ++ toString got

def report (failure : Failure) : String := failure.category ++ ": " ++ failure.message

end Failure

end ScopedEval
