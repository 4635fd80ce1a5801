namespace ScopedEval.Inspect

def record (title : String) (fields : List (String × String)) : String :=
  title ++ " \x7b " ++ ", ".intercalate (fields.map fun (name, text) => name ++ ": " ++ text) ++ " \x7d"

def list (items : List String) : String := "[" ++ ", ".intercalate items ++ "]"

def wrapped (title text : String) : String := title ++ "(" ++ text ++ ")"

def option : Option String → String
  | some text => wrapped "Some" text
  | none => "None"

def bool (value : Bool) : String := if value then "true" else "false"

end ScopedEval.Inspect
