import FaultDrill.Text.Numeral
set_option autoImplicit false

namespace FaultDrill.Command
open Text

structure OptionSpec where
  long : String
  short : Option Char
  accepts : String → Bool

structure PlaceSpec where
  accepts : String → Bool
  negative : Bool

inductive Positionals where
  | trailing
  | fixed (places : List PlaceSpec)

structure Grammar where
  options : List OptionSpec
  positionals : Positionals

structure Values where
  options : List (String × String)
  positionals : List String

inductive Reading where
  | values (values : Values)
  | help
  | fault

def Values.option? (values : Values) (long : String) : Option String :=
  (values.options.find? fun option => option.1 == long).map Prod.snd

namespace Grammar

def isTrailing (grammar : Grammar) : Bool :=
  match grammar.positionals with
  | .trailing => true
  | .fixed _ => false

inductive Shape where
  | help
  | option (spec : OptionSpec) (value : Option String)
  | escape
  /-- Like an option, but none of this grammar, or a wrong use of one. -/
  | unknown
  | misuse
  | plain

def isDecimal (cs : List Char) : Bool :=
  (cs.all fun c => isDecimalDigit c || c == '.') && cs.count '.' ≤ 1 && cs.head? ≠ some '.'

def isNegativeNumber (cs : List Char) : Bool :=
  match cs with
  | '-' :: rest =>
    let mantissa := rest.takeWhile (· ≠ 'e')
    match rest.drop mantissa.length with
    | [] => !rest.isEmpty && isDecimal mantissa
    | _ :: exponent =>
      !mantissa.isEmpty && isDecimal mantissa && !exponent.isEmpty && exponent.all isDecimalDigit
  | _ => false

def splitLong (cs : List Char) : String × Option String :=
  let name := String.ofList (cs.takeWhile (· ≠ '='))
  match cs.dropWhile (· ≠ '=') with
  | [] => (name, none)
  | _ :: value => (name, some (String.ofList value))

def shapeLong (grammar : Grammar) (cs : List Char) : Shape :=
  let (name, value) := splitLong cs
  if name == "help" then (if value.isSome then .misuse else .help)
  else
    match grammar.options.find? fun spec => spec.long == name with
    | some spec => .option spec value
    | none => .unknown

/-- One-letter options: the rest of the argument is the value of the first that takes one. With
trailing values an argument with any unknown letter is no option at all. -/
def shapeShort (grammar : Grammar) (cs : List Char) : Shape :=
  let known (c : Char) := c == 'h' || grammar.options.any fun spec => spec.short == some c
  if grammar.isTrailing && !cs.all known then .unknown
  else
    match cs with
    | [] => .plain
    | 'h' :: _ => .help
    | c :: rest =>
      match grammar.options.find? fun spec => spec.short == some c with
      | none => .unknown
      | some spec =>
        match rest with
        | [] => .option spec none
        | '=' :: value => .option spec (some (String.ofList value))
        | value => .option spec (some (String.ofList value))

/-- The shape of an argument where the positional value at `place` is the next one. -/
def shape (grammar : Grammar) (place : Nat) (argument : String) : Shape :=
  let negativeHere := match grammar.positionals with
    | .fixed places => (places[place]?).any PlaceSpec.negative
    | .trailing => false
  match argument.toList with
  | ['-', '-'] => .escape
  | '-' :: '-' :: rest => grammar.shapeLong rest
  | ['-'] => .plain
  | '-' :: rest =>
    if negativeHere && isNegativeNumber ('-' :: rest) then .plain else grammar.shapeShort rest
  | _ => .plain

def addPositional (grammar : Grammar) (values : Values) (value : String) : Option Values :=
  let added : Values := { values with positionals := values.positionals ++ [value] }
  match grammar.positionals with
  | .trailing => some added
  | .fixed places =>
    match places[values.positionals.length]? with
    | some place => if place.accepts value then some added else none
    | none => none

def addPositionals (grammar : Grammar) : Values → List String → Reading
  | values, [] => .values values
  | values, value :: rest =>
    match grammar.addPositional values value with
    | some values => addPositionals grammar values rest
    | none => .fault

def addOption (values : Values) (spec : OptionSpec) (value : String) : Option Values :=
  if (values.option? spec.long).isNone && spec.accepts value then
    some { values with options := values.options ++ [(spec.long, value)] }
  else none

/-- Reads on after some values. An option whose value is still to come is `pending`. -/
def readFrom (grammar : Grammar) : Option OptionSpec → Values → List String → Reading
  | none, values, [] => .values values
  | some _, _, [] => .fault
  | some spec, values, argument :: rest =>
    let takeValue :=
      match addOption values spec argument with
      | some values => readFrom grammar none values rest
      | none => .fault
    match grammar.shape values.positionals.length argument with
    | .plain => takeValue
    | .unknown => if grammar.isTrailing then takeValue else .fault
    | _ => .fault
  | none, values, argument :: rest =>
    let takePositional :=
      if grammar.isTrailing then addPositionals grammar values (argument :: rest)
      else
        match grammar.addPositional values argument with
        | some values => readFrom grammar none values rest
        | none => .fault
    match grammar.shape values.positionals.length argument with
    | .help => .help
    | .misuse => .fault
    | .escape => addPositionals grammar values rest
    | .option spec none =>
      if (values.option? spec.long).isSome then .fault
      else readFrom grammar (some spec) values rest
    | .option spec (some value) =>
      match addOption values spec value with
      | some values => readFrom grammar none values rest
      | none => .fault
    | .unknown => if grammar.isTrailing then takePositional else .fault
    | .plain => takePositional

def read (grammar : Grammar) (arguments : List String) : Reading :=
  grammar.readFrom none ⟨[], []⟩ arguments

end Grammar

def logLevel : OptionSpec := ⟨"log-level", none, fun _ => true⟩

def Values.logLevel (values : Values) : String := (values.option? "log-level").getD "info"

end FaultDrill.Command
