namespace ScopedEval

inductive Operator where
  | add | sub | mul | div | mod
  | gt | ge | lt | le
  | eq
  deriving DecidableEq, Repr

namespace Operator

def symbol : Operator → String
  | add => "+"
  | sub => "-"
  | mul => "*"
  | div => "/"
  | mod => "%"
  | gt => ">"
  | ge => ">="
  | lt => "<"
  | le => "<="
  | eq => "=="

end Operator

end ScopedEval
