import FaultDrill.Text.Numeral
set_option autoImplicit false

namespace FaultDrill.Outside.Shell
open Text

inductive BinaryOperator where
  | or | and | bitOr | bitXor | bitAnd | equal | unequal | less | atMost | greater | atLeast
  | shiftLeft | shiftRight | add | subtract | multiply | divide | remainder
  deriving DecidableEq

inductive UnaryOperator where
  | plus | minus | negate | complement
  deriving DecidableEq

inductive Expression where
  | number (value : Int64)
  | name (name : String)
  | unary (operator : UnaryOperator) (operand : Expression)
  | binary (operator : BinaryOperator) (left right : Expression)
  | conditional (condition yes no : Expression)
  | assign (name : String) (operator : Option BinaryOperator) (value : Expression)

inductive ArithmeticToken where
  | number (value : Int64)
  | name (name : String)
  | sign (text : String)
  deriving DecidableEq

namespace Arithmetic

def saturate (value : Int) : Int64 :=
  Int64.ofInt (max Int64.minValue.toInt (min value Int64.maxValue.toInt))

def takeNumber (text : List Char) : Nat × List Char :=
  let read (radix : Nat) (text : List Char) :=
    let digits := (text.takeWhile fun c => (digit? radix c).isSome).filterMap (digit? radix)
    (valueOf radix digits, text.drop digits.length)
  match text with
  | '0' :: x :: d :: rest =>
    if (x == 'x' || x == 'X') && (digit? 16 d).isSome then read 16 (d :: rest) else read 8 text
  | '0' :: _ => read 8 text
  | _ => read 10 text

def isSpace (c : Char) : Bool := c == ' ' || ('\t' ≤ c && c ≤ '\r')

def readValue? (text : String) : Option Int64 :=
  let trimmed := text.toList.dropWhile isSpace
  let (negative, digits) := match trimmed with
    | '-' :: rest => (true, rest)
    | '+' :: rest => (false, rest)
    | rest => (false, rest)
  let hasDigits := digits.head?.any isDecimalDigit
  let (magnitude, rest) := takeNumber digits
  if !hasDigits then (if trimmed.isEmpty then some 0 else none)
  else
    let value : Int := if negative then -magnitude else magnitude
    let inRange := Int64.minValue.toInt ≤ value && value ≤ Int64.maxValue.toInt
    if inRange && rest.all isSpace then some (saturate value) else none

def signs : List String :=
  ["<<=", ">>=", "<<", ">>", "<=", ">=", "==", "!=", "&&", "||", "+=", "-=", "*=", "/=", "%=",
    "&=", "|=", "^=", "<", ">", "=", "!", "&", "|", "^", "+", "-", "*", "/", "%", "~", "?", ":",
    "(", ")"]

def tokens : (fuel : Nat) → List Char → Option (List ArithmeticToken)
  | _, [] => some []
  | 0, _ => none
  | fuel + 1, c :: rest =>
    if isSpace c then tokens fuel rest
    else if isDecimalDigit c then
      let (value, rest) := takeNumber (c :: rest)
      (tokens fuel rest).map (.number (saturate value) :: ·)
    else if c.isAlpha || c == '_' then
      let name := (c :: rest).takeWhile fun c => c.isAlphanum || c == '_'
      (tokens fuel ((c :: rest).drop name.length)).map (.name (String.ofList name) :: ·)
    else
      match signs.find? fun sign => sign.toList.isPrefixOf (c :: rest) with
      | some sign => (tokens fuel ((c :: rest).drop sign.length)).map (.sign sign :: ·)
      | none => none

def unaryOf? : String → Option UnaryOperator
  | "+" => some .plus
  | "-" => some .minus
  | "!" => some .negate
  | "~" => some .complement
  | _ => none

def binaryOf? : String → Option (BinaryOperator × Nat)
  | "||" => some (.or, 1)
  | "&&" => some (.and, 2)
  | "|" => some (.bitOr, 3)
  | "^" => some (.bitXor, 4)
  | "&" => some (.bitAnd, 5)
  | "==" => some (.equal, 6)
  | "!=" => some (.unequal, 6)
  | "<" => some (.less, 7)
  | "<=" => some (.atMost, 7)
  | ">" => some (.greater, 7)
  | ">=" => some (.atLeast, 7)
  | "<<" => some (.shiftLeft, 8)
  | ">>" => some (.shiftRight, 8)
  | "+" => some (.add, 9)
  | "-" => some (.subtract, 9)
  | "*" => some (.multiply, 10)
  | "/" => some (.divide, 10)
  | "%" => some (.remainder, 10)
  | _ => none

def assignmentOf? (sign : String) : Option (Option BinaryOperator) :=
  if sign == "=" then some none
  else
    match ["||", "&&", "==", "!=", "<=", ">="].contains sign, sign.toList.reverse with
    | false, '=' :: rest => (binaryOf? (String.ofList rest.reverse)).map fun found => some found.1
    | _, _ => none

abbrev Parsed : Type := Option (Expression × List ArithmeticToken)

/-- Operators of at least the given strength, after the left operand. -/
def climb (operand : List ArithmeticToken → Parsed) :
    (fuel : Nat) → (strength : Nat) → Expression → List ArithmeticToken → Parsed
  | 0, _, _, _ => none
  | fuel + 1, strength, left, tokens =>
    match tokens with
    | .sign sign :: rest =>
      match binaryOf? sign with
      | some (operator, binding) =>
        if binding < strength then some (left, tokens)
        else do
          let (right, rest) ← operand rest
          let (right, rest) ← climb operand fuel (binding + 1) right rest
          climb operand fuel strength (.binary operator left right) rest
      | none => some (left, tokens)
    | _ => some (left, tokens)

/-- What an expression in brackets and an operand come to one level deeper. -/
structure DeeperExpression where
  whole : List ArithmeticToken → Parsed
  operand : List ArithmeticToken → Parsed

def operand (deeper : DeeperExpression) : List ArithmeticToken → Parsed
  | .number value :: rest => some (.number value, rest)
  | .name name :: rest => some (.name name, rest)
  | .sign "(" :: rest =>
    match deeper.whole rest with
    | some (inner, .sign ")" :: rest) => some (inner, rest)
    | _ => none
  | .sign sign :: rest => do
    let operator ← unaryOf? sign
    let (inner, rest) ← deeper.operand rest
    return (.unary operator inner, rest)
  | [] => none

def conditional (deeper : DeeperExpression) (tokens : List ArithmeticToken) : Parsed := do
  let (first, rest) ← operand deeper tokens
  let (condition, rest) ← climb (operand deeper) (tokens.length + 1) 1 first rest
  match rest with
  | .sign "?" :: rest =>
    let (yes, rest) ← deeper.whole rest
    let .sign ":" :: rest := rest | none
    let (no, rest) ← deeper.whole rest
    return (.conditional condition yes no, rest)
  | _ => return (condition, rest)

def whole (deeper : DeeperExpression) (tokens : List ArithmeticToken) : Parsed :=
  match tokens with
  | .name name :: .sign sign :: rest =>
    match assignmentOf? sign with
    | some operator =>
      (deeper.whole rest).map fun (value, rest) => (.assign name operator value, rest)
    | none => conditional deeper tokens
  | _ => conditional deeper tokens

def deeperAt : (depth : Nat) → DeeperExpression
  | 0 => ⟨fun _ => none, fun _ => none⟩
  | depth + 1 =>
    let deeper := deeperAt depth
    ⟨whole deeper, operand deeper⟩

def parse? (text : String) : Option Expression := do
  let tokens ← tokens (text.length + 1) text.toList
  let (expression, []) ← (deeperAt (tokens.length + 1)).whole tokens | none
  return expression

inductive ArithmeticError where
  | divisionByZero
  | illegalNumber (text : String)
  | overflow
  deriving DecidableEq

def truth (condition : Bool) : Int64 := if condition then 1 else 0

def applyUnary : UnaryOperator → Int64 → Int64
  | .plus, a => a
  | .minus, a => -a
  | .negate, a => truth (a == 0)
  | .complement, a => ~~~a

def apply (operator : BinaryOperator) (a b : Int64) : Except ArithmeticError Int64 :=
  match operator with
  | .or => .ok (truth (a != 0 || b != 0))
  | .and => .ok (truth (a != 0 && b != 0))
  | .bitOr => .ok (a ||| b)
  | .bitXor => .ok (a ^^^ b)
  | .bitAnd => .ok (a &&& b)
  | .equal => .ok (truth (a == b))
  | .unequal => .ok (truth (a != b))
  | .less => .ok (truth (a < b))
  | .atMost => .ok (truth (a ≤ b))
  | .greater => .ok (truth (a > b))
  | .atLeast => .ok (truth (a ≥ b))
  | .shiftLeft => .ok (a <<< (b &&& 63))
  | .shiftRight => .ok (a >>> (b &&& 63))
  | .add => .ok (a + b)
  | .subtract => .ok (a - b)
  | .multiply => .ok (a * b)
  | .divide => quotient (· / ·)
  | .remainder => quotient (· % ·)
where
  quotient (f : Int64 → Int64 → Int64) : Except ArithmeticError Int64 :=
    if b = 0 then .error .divisionByZero
    else if a = Int64.minValue ∧ b = -1 then .error .overflow
    else .ok (f a b)

/-- The parameters as arithmetic sees them, and what it assigns. -/
structure Bindings where
  lookup : String → String
  assigned : List (String × String)

namespace Bindings

def get (bindings : Bindings) (name : String) : String :=
  match bindings.assigned.find? fun entry => entry.1 == name with
  | some entry => entry.2
  | none => bindings.lookup name

def number (bindings : Bindings) (name : String) : Except ArithmeticError Int64 :=
  let text := bindings.get name
  match readValue? text with
  | some value => .ok value
  | none => .error (.illegalNumber text)

end Bindings

/-- The value of an expression, and the parameters after it. Of a conditional and of the logical
operators only what is needed has a value. -/
def evaluate (bindings : Bindings) : Expression → Except ArithmeticError (Int64 × Bindings)
  | .number value => .ok (value, bindings)
  | .name name => (bindings.number name).map fun value => (value, bindings)
  | .unary operator operand => do
    let (value, bindings) ← evaluate bindings operand
    return (applyUnary operator value, bindings)
  | .binary .or left right => do
    let (a, bindings) ← evaluate bindings left
    if a != 0 then return (1, bindings)
    let (b, bindings) ← evaluate bindings right
    return (truth (b != 0), bindings)
  | .binary .and left right => do
    let (a, bindings) ← evaluate bindings left
    if a == 0 then return (0, bindings)
    let (b, bindings) ← evaluate bindings right
    return (truth (b != 0), bindings)
  | .binary operator left right => do
    let (a, bindings) ← evaluate bindings left
    let (b, bindings) ← evaluate bindings right
    return (← apply operator a b, bindings)
  | .conditional condition yes no => do
    let (a, bindings) ← evaluate bindings condition
    if a != 0 then evaluate bindings yes else evaluate bindings no
  | .assign name operator value => do
    let (b, bindings) ← evaluate bindings value
    let result ← match operator with
      | none => pure b
      | some operator => do apply operator (← bindings.number name) b
    return (result, { bindings with assigned := (name, toString result) :: bindings.assigned })

end Arithmetic
end FaultDrill.Outside.Shell
