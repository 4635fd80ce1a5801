import ScopedEval.Value

namespace ScopedEval

/-- Where printed lines go. A buffer captures them, standard output receives them, and a silent sink
    drops them. -/
inductive Sink where
  | buffer (captured : String)
  | stdout (written : String)
  | silent
  deriving DecidableEq

namespace Sink

def writeLine (sink : Sink) (line : String) : Sink :=
  match sink with
  | buffer captured => buffer (captured ++ line ++ "\n")
  | stdout written => stdout (written ++ line ++ "\n")
  | silent => silent

def writeValue (sink : Sink) (value : Value) : Sink := sink.writeLine value.text

def output : Sink → String
  | buffer captured => captured
  | stdout _ | silent => ""

def take : Sink → String × Sink
  | buffer captured => (captured, buffer "")
  | stdout written => ("", stdout written)
  | silent => ("", silent)

def written : Sink → String
  | stdout written => written
  | buffer _ | silent => ""

theorem take_fst (sink : Sink) : sink.take.1 = sink.output := by cases sink <;> rfl

end Sink

end ScopedEval
