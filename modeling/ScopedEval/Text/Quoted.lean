import ScopedEval.Text.Invisible

namespace ScopedEval.Text

/-- A character inside quotes. The quote, the backslash and the common controls have short escapes,
    and another invisible character is written by its code point. -/
def quotedChar (char : Char) : String :=
  match char with
  | '"' => "\\\""
  | '\\' => "\\\\"
  | '\n' => "\\n"
  | '\r' => "\\r"
  | '\t' => "\\t"
  | char =>
    if char.toNat = 0 then "\\0"
    else if invisible char then "\\u\x7b" ++ String.ofList (Nat.toDigits 16 char.toNat) ++ "\x7d"
    else char.toString

def quoted (text : String) : String :=
  "\"" ++ String.join (text.toList.map quotedChar) ++ "\""

end ScopedEval.Text
