import FaultDrill.Outside.Files
import FaultDrill.Command.Job
import FaultDrill.Outside.Shell.Echo
import FaultDrill.Outside.Shell.Run
set_option autoImplicit false

/-!
# Programs of the system

The programs that a group may be launched with besides the commands of this library: `true`,
`false`, `echo`, `sleep`, `cat`, `test` and the shell.
-/
namespace FaultDrill.Outside.Programs
open Command Text

structure EchoChoice where
  lineFeed : Bool
  escapes : Bool

def isEchoOption (word : String) : Bool :=
  match word.toList with
  | '-' :: letters => !letters.isEmpty && letters.all "neE".toList.contains
  | _ => false

def EchoChoice.choose (choice : EchoChoice) (letter : Char) : EchoChoice :=
  match letter with
  | 'n' => { choice with lineFeed := false }
  | 'e' => { choice with escapes := true }
  | _ => { choice with escapes := false }

def echo (words : List String) : Course :=
  let options := words.takeWhile isEchoOption
  let letters := options.flatMap fun option => option.toList.drop 1
  let choice := letters.foldl EchoChoice.choose ⟨true, false⟩
  let words := words.drop options.length
  if choice.escapes then
    .instant (Utf8.decodeLossy (Shell.echoWords true choice.lineFeed words)) 0
  else .instant (" ".intercalate words ++ if choice.lineFeed then "\n" else "") 0

structure Numeration where
  radix : Nat
  letter : Char
  base : Nat

def decimalNumeration : Numeration := ⟨10, 'e', 10⟩

def hexadecimalNumeration : Numeration := ⟨16, 'p', 2⟩

def takeExponent (text : List Char) : Option (Int × List Char) :=
  let (negative, digits) := match text with
    | '-' :: digits => (true, digits)
    | '+' :: digits => (false, digits)
    | digits => (false, digits)
  let taken := digits.takeWhile isDecimalDigit
  if taken.isEmpty then none
  else
    let size : Int := min 100 (valueOf 10 (taken.filterMap (digit? 10)))
    some (if negative then -size else size, digits.drop taken.length)

/-- A number that may have a point and an exponent, in billionths and rounded up, and the text
after it. -/
def takeNumber (written : Numeration) (text : List Char) : Option (Nat × List Char) := do
  let isDigit (c : Char) := (digit? written.radix c).isSome
  let whole := text.takeWhile isDigit
  let rest := text.drop whole.length
  let fraction := match rest with
    | '.' :: rest => rest.takeWhile isDigit
    | _ => []
  if whole.isEmpty && fraction.isEmpty then none
  let rest := if rest.head? == some '.' then rest.drop (fraction.length + 1) else rest
  let given := if rest.head?.any (·.toLower == written.letter) then takeExponent (rest.drop 1)
    else none
  let (exponent, rest) := given.getD (0, rest)
  let digits := valueOf written.radix ((whole ++ fraction).filterMap (digit? written.radix))
  let scaled := digits * 1_000_000_000 * Nat.pow written.base exponent.toNat
  let divisor := Nat.pow written.radix fraction.length * Nat.pow written.base (-exponent).toNat
  return ((scaled + divisor - 1) / divisor, rest)

def takeAnyNumber : List Char → Option (Nat × List Char)
  | '0' :: x :: rest =>
    (if x.toLower == 'x' then takeNumber hexadecimalNumeration rest else none) <|>
      takeNumber decimalNumeration ('0' :: x :: rest)
  | text => takeNumber decimalNumeration text

def unitFactor? : List Char → Option Nat
  | [] | ['s'] => some 1
  | ['m'] => some 60
  | ['h'] => some 3600
  | ['d'] => some 86400
  | _ => none

def readSpan? (text : String) : Option Nat :=
  let cs := text.toList.dropWhile Shell.Arithmetic.isSpace
  let cs := if cs.head? == some '+' then cs.drop 1 else cs
  if cs.head? == some '-' then none
  else
    let lower := (String.ofList cs).toLower
    let endless := ["infinity", "inf"].find? fun word => lower.startsWith word
    match endless with
    | some word => (unitFactor? (cs.drop word.length)).map fun _ => Course.forever
    | none => do
      let (nanos, rest) ← takeAnyNumber cs
      return nanos * (← unitFactor? rest)

/-- Waits for all the spans together, which have to be spans all of them. An option is none. -/
def sleep (words : List String) : Course :=
  let operands := match words.idxOf? "--" with
    | some place => words.eraseIdx place
    | none => words
  let checked := match words.idxOf? "--" with
    | some place => words.take place
    | none => words
  let isOption (word : String) := word.startsWith "-" && word != "-"
  match operands.mapM readSpan? with
  | some spans =>
    if words.isEmpty || checked.any isOption then .instant "" 1
    else ⟨[], [], [], min Course.forever (spans.foldl (· + ·) 0), .exited 0⟩
  | none => .instant "" 1

structure ShellOptions where
  letters : List Char
  given : Bool

def readShellOptions (options : ShellOptions) :
    List String → Option (ShellOptions × List String)
  | [] => some (options, [])
  | "--" :: rest => some (options, rest)
  | "-" :: rest => some (options, rest)
  | "-o" :: name :: rest => do
    let letter ← Shell.optionLetter? name
    readShellOptions { options with letters := options.letters ++ [letter] } rest
  | word :: rest =>
    match word.toList with
    | '-' :: letters =>
      if letters.all "aCefnuvxbmhIcils".toList.contains then
        readShellOptions
          ⟨options.letters ++ letters.filter "aCefnuvxbmI".toList.contains,
            options.given || letters.contains 'c'⟩ rest
      else none
    | '+' :: letters =>
      if letters.all "aCefnuvxbmhI".toList.contains then
        readShellOptions
          { options with letters := options.letters.filter fun c => !letters.contains c } rest
      else none
    | _ => some (options, word :: rest)

def shell (world : Shell.World) (directory name : String) (start : Start) : Course :=
  let run (input script name : String) (options : ShellOptions) (positionals : List String) :=
    Shell.course world directory { start with input }
      ⟨script, name, positionals, options.letters⟩
  match readShellOptions ⟨[], false⟩ start.arguments with
  | none => .instant "" 2
  | some (options, arguments) =>
    if options.given then
      match arguments with
      | [] => .instant "" 2
      | script :: rest => run start.input script (rest.headD name) options (rest.drop 1)
    else
      match arguments with
      | [] => run "" start.input name options []
      | file :: _ =>
        if start.arguments.contains "-s" then run "" start.input name options arguments
        else if world.isDirectory (Files.resolve directory file) then .instant "" 0
        else .instant "" 2

def cat (start : Start) : Course :=
  if start.arguments.all (· == "-") then .instant start.input 0
  else if start.arguments.all (· == "/dev/null") then .instant "" 0
  else .instant "" 1

def course (world : Shell.World) (directory program name : String) (start : Start) : Course :=
  let tested (words : List String) : Course :=
    let files : Shell.FileView :=
      ⟨fun path => world.isDirectory (Files.resolve directory path),
        fun path => world.isFile (Files.resolve directory path)⟩
    match Shell.Test.evaluate files words with
    | .ok value => .instant "" (if value then 0 else 1)
    | .error _ => .instant "" 2
  match program with
  | "true" => .instant "" 0
  | "false" => .instant "" 1
  | "echo" => echo start.arguments
  | "sleep" => sleep start.arguments
  | "cat" => cat start
  | "test" => tested start.arguments
  | "[" =>
    if start.arguments.getLast? == some "]" then tested start.arguments.dropLast
    else .instant "" 2
  | _ => shell world directory name start

end FaultDrill.Outside.Programs
