import ScopedEval.Failure
import ScopedEval.Interner

namespace ScopedEval

inductive Event where
  | enterProgram
  | exitProgram
  | enterCall (arity : Nat)
  | exitCall
  | declare (name : Name)
  | implicitGlobal (name : Name)
  | callFailed (failure : Failure)
  | programFailed (failure : Failure)
  deriving DecidableEq

def Name.inspect (name : Name) : String := "Name(" ++ toString name.index ++ ")"

def Event.line : Event → String
  | enterProgram => "enter eval_program"
  | exitProgram => "exit eval_program"
  | enterCall arity => "enter eval_call arity=" ++ toString arity
  | exitCall => "exit eval_call"
  | declare name => "TRACE declare name=" ++ name.inspect
  | implicitGlobal name => "TRACE assignment creates implicit global name=" ++ name.inspect
  | callFailed failure => "DEBUG call failed err=" ++ failure.report
  | programFailed failure => "DEBUG program evaluation failed err=" ++ failure.report

end ScopedEval
