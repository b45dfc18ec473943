import FaultDrill.Log
import FaultDrill.Text.Blank
import FaultDrill.Text.Numeral
set_option autoImplicit false

namespace FaultDrill
open Text

structure FieldPattern where
  name : String
  value : Option String
  deriving DecidableEq

structure Directive where
  target : Option String
  span : Option String
  fields : List FieldPattern
  /-- Up to which level lines are shown: 0 shows nothing and 5 everything. -/
  verbosity : Nat
  deriving DecidableEq

namespace Directive

def everything : Nat := 5

def blank : Directive := ⟨none, none, [], everything⟩

def readLevel? (text : String) : Option Nat :=
  match readUnsigned? UInt64.size text.toList with
  | some number => if number ≤ everything then some number else none
  | none =>
    match text.toLower with
    | "off" => some 0
    | "error" => some 1
    | "warn" => some 2
    | "info" => some 3
    | "debug" => some 4
    | "trace" => some 5
    | _ => none

inductive Stage where
  | start
  | levelOrTarget (first : Nat)
  | span (first : Nat)
  | field (first : Nat)
  | fields
  | target
  | level (first : Nat)

def isTargetStart (c : Char) : Bool :=
  c.isAlphanum || c == '-' || c == ':' || c == '_' || 128 ≤ c.toNat

def slice (text : List Char) (first last : Nat) : String :=
  String.ofList ((text.take last).drop first)

def readField? (text : String) : Option FieldPattern :=
  if text.isEmpty then none
  else
    match text.splitOn "=" with
    | name :: value :: _ => some ⟨name, some value⟩
    | _ => some ⟨text, none⟩

def step? (text : List Char) (directive : Directive) (place : Nat) (c : Char) :
    Stage → Option (Directive × Stage)
  | .start =>
    if c == '[' then some (directive, .span (place + 1))
    else if isTargetStart c then some (directive, .levelOrTarget place)
    else none
  | .levelOrTarget first =>
    let named := { directive with target := some (slice text first place) }
    if c == '=' then some (named, .level (place + 1))
    else if c == '[' then some (named, .span (place + 1))
    else some (directive, .levelOrTarget first)
  | .span first =>
    let name := slice text first place
    if c == ']' then some ({ directive with span := some name }, .target)
    else if c == '\x7b' then
      some ({ directive with span := if name.isEmpty then none else some name },
        .field (place + 1))
    else some (directive, .span first)
  | .field first =>
    if c == '\x7d' then
      (readField? (slice text first place)).map fun field =>
        ({ directive with fields := directive.fields ++ [field] }, .fields)
    else some (directive, .field first)
  | .fields => if c == ']' then some (directive, .target) else none
  | .target => if c == '=' then some (directive, .level (place + 1)) else none
  | .level first => some (directive, .level first)

def finish? (text : List Char) (directive : Directive) : Stage → Option Directive
  | .levelOrTarget first =>
    let word := slice text first text.length
    match readLevel? word with
    | some verbosity => some { directive with verbosity, target := none }
    | none => some { directive with target := some word }
  | .level first =>
    let word := slice text first text.length
    if word.isEmpty then some directive
    else (readLevel? word).map fun verbosity => { directive with verbosity }
  | .target => some directive
  | _ => none

def readFrom (text : List Char) (directive : Directive) (stage : Stage) (place : Nat) :
    List Char → Option Directive
  | [] => finish? text directive stage
  | c :: rest =>
    match step? text directive place c stage with
    | some (directive, stage) => readFrom text directive stage (place + 1) rest
    | none => none

def parse? (text : String) : Option Directive :=
  readFrom text.toList blank .start 0 (trim text.toList)

def isStatic (directive : Directive) : Bool :=
  directive.span.isNone && directive.fields.all fun field => field.value.isNone

def fieldNames (directive : Directive) : List String := directive.fields.map FieldPattern.name

def fits (directive : Directive) (entry : LogEntry) : Bool :=
  (directive.target.all fun target => entry.origin.path.startsWith target) &&
    directive.fieldNames.all fun name => entry.fields.contains name

/-- How specific a directive is: by the length of its place, then by the number of its fields,
and among equals by their names. -/
def specificity (directive : Directive) : Nat × Nat × List String :=
  ((directive.target.map fun target => target.utf8ByteSize + 1).getD 0,
    directive.fields.length, directive.fieldNames)

def precedes (a b : Directive) : Bool :=
  let (targetA, countA, namesA) := a.specificity
  let (targetB, countB, namesB) := b.specificity
  if targetA ≠ targetB then targetA > targetB
  else if countA ≠ countB then countA > countB
  else decide (namesB < namesA)

end Directive

structure LogFilter where
  directives : List Directive
  deriving DecidableEq

namespace LogFilter

/-- Of two directives for the same lines the later counts. -/
def add (directives : List Directive) (directive : Directive) : List Directive :=
  directives.filter (fun old =>
    !(old.target == directive.target && old.fieldNames == directive.fieldNames)) ++ [directive]

/-- Without a single directive only errors are shown. -/
def ofDirectives (directives : List Directive) : LogFilter :=
  if directives.isEmpty then ⟨[{ Directive.blank with verbosity := 1 }]⟩
  else
    let judging := (directives.filter Directive.isStatic).foldl add []
    ⟨judging.mergeSort fun a b => !b.precedes a⟩

def ofText (text : String) : LogFilter :=
  ofDirectives ((text.splitOn ",").filterMap fun part =>
    if part.isEmpty then none else Directive.parse? part)

def admits (filter : LogFilter) (entry : LogEntry) : Bool :=
  match filter.directives.find? fun directive => directive.fits entry with
  | some directive => entry.severity.verbosity ≤ directive.verbosity
  | none => false

def silent : LogFilter := ⟨[]⟩

end LogFilter

def filterDirective (program : String) (level : Option String) : String :=
  let level := level.getD "info"
  s!"{program}={level},injector={level},coordinator={level},shared={level}"

end FaultDrill
