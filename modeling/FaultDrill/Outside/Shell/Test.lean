import FaultDrill.Outside.Shell.Arithmetic
set_option autoImplicit false

namespace FaultDrill.Outside.Shell

structure FileView where
  isDirectory : String → Bool
  isFile : String → Bool

namespace Test

inductive Kind where
  | unary | binary | not | and | or | opening | closing | operand | missing
  deriving DecidableEq

def unaryOperators : List String :=
  ["-r", "-w", "-x", "-e", "-f", "-d", "-c", "-b", "-p", "-u", "-g", "-k", "-s", "-t", "-z", "-n",
    "-h", "-L", "-S", "-O", "-G"]

def binaryOperators : List String :=
  ["=", "!=", "<", ">", "-eq", "-ne", "-gt", "-ge", "-lt", "-le", "-nt", "-ot", "-ef"]

def operatorKind? (word : String) : Option Kind :=
  if unaryOperators.contains word then some .unary
  else if binaryOperators.contains word then some .binary
  else
    match word with
    | "!" => some .not
    | "-a" => some .and
    | "-o" => some .or
    | "(" => some .opening
    | ")" => some .closing
    | _ => none

/-- A unary operator stands for itself where what follows cannot be its operand. -/
def isOperand (after : List String) : Bool :=
  match after with
  | [] => true
  | [_] => false
  | next :: _ => operatorKind? next == some .binary

def kind : List String → Kind
  | [] => .missing
  | word :: after =>
    match operatorKind? word with
    | some .unary => if isOperand after then .operand else .unary
    | some .opening => if after.isEmpty then .operand else .opening
    | some kind => kind
    | none => .operand

abbrev Tested : Type := Except String (Bool × List String)

def number (text : String) : Except String Int64 :=
  let (sign, digits) := match text.toList.dropWhile Arithmetic.isSpace with
    | '-' :: digits => ((-1 : Int), digits)
    | '+' :: digits => (1, digits)
    | digits => (1, digits)
  let taken := digits.takeWhile Text.isDecimalDigit
  let value := sign * Text.valueOf 10 (taken.filterMap (Text.digit? 10))
  let fits := Int64.minValue.toInt ≤ value && value ≤ Int64.maxValue.toInt
  if !taken.isEmpty && (digits.drop taken.length).all Arithmetic.isSpace && fits then
    .ok (.ofInt value)
  else .error s!"Illegal number: {text}"

def compareWords (left operator right : String) : Except String Bool := do
  let numbers (f : Int64 → Int64 → Bool) : Except String Bool :=
    return f (← number left) (← number right)
  match operator with
  | "=" => return left == right
  | "!=" => return left != right
  | "<" => return left < right
  | ">" => return right < left
  | "-eq" => numbers (· == ·)
  | "-ne" => numbers (· != ·)
  | "-gt" => numbers (· > ·)
  | "-ge" => numbers (· ≥ ·)
  | "-lt" => numbers (· < ·)
  | "-le" => numbers (· ≤ ·)
  | _ => return false

def ask (files : FileView) (operator operand : String) : Bool :=
  let isDirectory := files.isDirectory operand
  let isFile := files.isFile operand
  match operator with
  | "-n" => operand != ""
  | "-z" => operand == ""
  | "-e" | "-r" => isDirectory || isFile
  | "-x" => isDirectory || (isFile && ("/bin/".isPrefixOf operand || "/usr/".isPrefixOf operand))
  | "-d" => isDirectory
  | "-f" => isFile && !"/dev/".isPrefixOf operand
  | "-c" => isFile && "/dev/".isPrefixOf operand
  | "-s" => isDirectory || (isFile && !"/dev/".isPrefixOf operand)
  | "-w" => operand == "/tmp" || operand == "/dev/null"
  | _ => false

def primary (files : FileView) (combined : List String → Tested) (words : List String) : Tested :=
  match kind words, words with
  | .missing, _ => .ok (false, [])
  | .opening, _ :: rest =>
    if kind rest = .closing then .ok (false, rest.drop 1)
    else do
      let (value, rest) ← combined rest
      if kind rest = .closing then return (value, rest.drop 1)
      throw "closing paren expected"
  | .unary, operator :: operand :: rest => .ok (ask files operator operand, rest)
  | .unary, operator :: [] => .error s!"{operator}: argument expected"
  | _, left :: rest =>
    match kind rest, rest with
    | .binary, operator :: right :: rest => do
      return (← compareWords left operator right, rest)
    | .binary, operator :: [] => .error s!"{operator}: argument expected"
    | _, _ => .ok (left != "", rest)
  | _, [] => .ok (false, [])

def negated (files : FileView) (combined : List String → Tested) :
    (fuel : Nat) → List String → Tested
  | 0, words => primary files combined words
  | fuel + 1, words =>
    if kind words = .not then
      if words.length = 1 then .ok (true, [])
      else do
        let (value, rest) ← negated files combined fuel (words.drop 1)
        return (!value, rest)
    else primary files combined words

def conjunction (files : FileView) (combined : List String → Tested) :
    (fuel : Nat) → List String → Tested
  | 0, words => negated files combined words.length words
  | fuel + 1, words => do
    let (value, rest) ← negated files combined words.length words
    if kind rest = .and then
      let (other, rest) ← conjunction files combined fuel (rest.drop 1)
      return (value && other, rest)
    return (value, rest)

def disjunction (files : FileView) (combined : List String → Tested) :
    (fuel : Nat) → List String → Tested
  | 0, words => conjunction files combined words.length words
  | fuel + 1, words => do
    let (value, rest) ← conjunction files combined words.length words
    if kind rest = .or then
      let (other, rest) ← disjunction files combined fuel (rest.drop 1)
      return (value || other, rest)
    return (value, rest)

def combined (files : FileView) : (depth : Nat) → List String → Tested
  | 0, _ => .ok (false, [])
  | depth + 1, words => disjunction files (combined files depth) words.length words

def whole (files : FileView) (words : List String) : Except String Bool := do
  let (value, rest) ← combined files (words.length + 1) words
  if rest.isEmpty then return value
  let last := (words.take (words.length - rest.length)).getLastD ""
  throw s!"{last}: unexpected operator"

/-- The value of a condition. Of three words that have an operator between them, the outer ones
are operands whatever they are; brackets around one or two words are taken off, and a negation in
front of as many is carried out first. -/
def evaluate (files : FileView) : List String → Except String Bool
  | [] => .ok false
  | words =>
    match words with
    | [left, operator, right] =>
      if binaryOperators.contains operator then compareWords left operator right
      else reduced words
    | [_, _, _, _] => reduced words
    | _ => whole files words
where
  reduced (words : List String) : Except String Bool :=
    if words.head? == some "(" && words.getLast? == some ")" then
      whole files (words.drop 1).dropLast
    else if words.head? == some "!" then
      match words with
      | [_, left, operator, right] =>
        if binaryOperators.contains operator then
          (compareWords left operator right).map not
        else whole files words
      | _ => whole files words
    else whole files words

end Test
end FaultDrill.Outside.Shell
