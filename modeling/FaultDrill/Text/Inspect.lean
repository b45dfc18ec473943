import FaultDrill.Text.Numeral
import FaultDrill.Text.Printable
set_option autoImplicit false

namespace FaultDrill.Text

/-- A character inside quotes. Control characters, invisible characters and marks that would
attach to the character before them are written by their code point. -/
def quotedChar (c : Char) : String :=
  match c with
  | '\x00' => "\\0"
  | '\t' => "\\t"
  | '\n' => "\\n"
  | '\r' => "\\r"
  | '"' => "\\\""
  | '\\' => "\\\\"
  | _ =>
    if isPrintable c then c.toString
    else "\\u\x7b" ++ hexadecimal c.toNat ++ "\x7d"

def quoted (text : String) : String :=
  "\"" ++ String.join (text.toList.map quotedChar) ++ "\""

def inspectRecord (name : String) (fields : List (String × String)) : String :=
  name ++ " \x7b " ++ ", ".intercalate (fields.map fun field => field.1 ++ ": " ++ field.2)
    ++ " \x7d"

def inspectTuple (name value : String) : String := name ++ "(" ++ value ++ ")"

def inspectList (items : List String) : String := "[" ++ ", ".intercalate items ++ "]"

def inspectOption : Option String → String
  | none => "None"
  | some value => inspectTuple "Some" value

end FaultDrill.Text
