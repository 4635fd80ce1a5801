import ScopedEval.Failure
import ScopedEval.Inspect.Code
import ScopedEval.Text.Quoted
import ScopedEval.Value

namespace ScopedEval

open Inspect Text

def Closure.inspect (closure : Closure) : String :=
  "FunctionValue \x7b arity: " ++ toString closure.arity ++ ", body: " ++ closure.body.inspect ++ ", .. \x7d"

def Value.inspect : Value → String
  | .int value => wrapped "Int" (toString value.toInt)
  | .bool value => wrapped "Bool" (Inspect.bool value)
  | .null => "Null"
  | .function closure => closure.inspect

def Failure.inspectCause : Failure → String
  | .divisionByZero => "DivisionByZero"
  | .moduloByZero => "ModuloByZero"
  | .typeMismatch op left right =>
    record "TypeMismatch" [("op", op.inspect), ("left", quoted left), ("right", quoted right)]
  | .nonBooleanCondition construct got =>
    record "NonBooleanCondition" [("construct", quoted construct), ("got", quoted got)]
  | .redeclaration name => record "Redeclaration" [("name", quoted name)]
  | .notCallable typeName => record "NotCallable" [("type_name", quoted typeName)]
  | .arityMismatch expected got =>
    record "ArityMismatch" [("expected", toString expected), ("got", toString got)]

def Failure.inspect (failure : Failure) : String :=
  record "EvalError" [("kind", failure.inspectCause), ("message", quoted failure.message)]

end ScopedEval
