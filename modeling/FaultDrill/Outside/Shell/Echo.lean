import FaultDrill.Text.Numeral
import FaultDrill.Text.Utf8
set_option autoImplicit false

namespace FaultDrill.Outside.Shell
open Text

/-- A stretch of output in bytes, and whether the output ends with it. -/
structure Stretch where
  bytes : List UInt8
  ends : Bool

def letterEscape? : Char → Option UInt8
  | 'a' => some 7
  | 'b' => some 8
  | 't' => some 9
  | 'n' => some 10
  | 'v' => some 11
  | 'f' => some 12
  | 'r' => some 13
  | 'e' => some 27
  | '\\' => some 92
  | _ => none

def octalEscape (text : List Char) : UInt8 × List Char :=
  let digits := (text.take 3).takeWhile fun c => (digit? 8 c).isSome
  (UInt8.ofNat (valueOf 8 (digits.filterMap (digit? 8))), text.drop digits.length)

def hexadecimalEscape (text : List Char) : UInt8 × List Char :=
  let digits := (text.take 2).takeWhile fun c => (digit? 16 c).isSome
  (UInt8.ofNat (valueOf 16 (digits.filterMap (digit? 16))), text.drop digits.length)

def readEscape (hexadecimals : Bool) (text : List Char) : List UInt8 × List Char :=
  match text with
  | c :: rest =>
    if (digit? 8 c).isSome then
      let (byte, rest) := octalEscape text
      ([byte], rest)
    else if hexadecimals && c == 'x' && (rest.head?.bind (digit? 16)).isSome then
      let (byte, rest) := hexadecimalEscape rest
      ([byte], rest)
    else
      match letterEscape? c with
      | some byte => ([byte], rest)
      | none => ([92], text)
  | [] => ([92], [])

def unescape (hexadecimals : Bool) : (fuel : Nat) → List Char → Stretch
  | 0, _ | _, [] => ⟨[], false⟩
  | fuel + 1, '\\' :: rest =>
    if rest.head? == some 'c' then ⟨[], true⟩
    else
      let digits := match rest with
        | '0' :: d :: _ => if (digit? 8 d).isSome then rest.drop 1 else rest
        | _ => rest
      let (bytes, rest) := readEscape hexadecimals digits
      let later := unescape hexadecimals fuel rest
      ⟨bytes ++ later.bytes, later.ends⟩
  | fuel + 1, c :: rest =>
    let later := unescape hexadecimals fuel rest
    ⟨String.utf8EncodeChar c ++ later.bytes, later.ends⟩

def unescaped (hexadecimals : Bool) (text : String) : Stretch :=
  unescape hexadecimals (text.length + 1) text.toList

def echoWords (hexadecimals lineFeed : Bool) : List String → List UInt8
  | [] => if lineFeed then [10] else []
  | [last] =>
    let stretch := unescaped hexadecimals last
    stretch.bytes ++ if stretch.ends || !lineFeed then [] else [10]
  | first :: rest =>
    let stretch := unescaped hexadecimals first
    if stretch.ends then stretch.bytes
    else
      stretch.bytes ++ 32 :: echoWords hexadecimals lineFeed rest

def echoText : List String → String
  | "-n" :: words => Utf8.decodeLossy (echoWords false false words)
  | words => Utf8.decodeLossy (echoWords false true words)

structure Conversion where
  flags : List Char
  width : Nat
  precision : Option Nat
  kind : Char

/-- What has been written with a format, what is left of the arguments, what was wrong with it,
the status so far, and whether nothing more is written. -/
structure Formatting where
  bytes : List UInt8 := []
  arguments : List String
  complaints : List String := []
  status : Nat := 0
  ends : Bool := false

def Formatting.complain (f : Formatting) (complaint : String) (status : Nat) : Formatting :=
  { f with complaints := f.complaints ++ [complaint], status }

def padded (conversion : Conversion) (bytes : List UInt8) : List UInt8 :=
  let missing := List.replicate (conversion.width - bytes.length) 32
  if conversion.flags.contains '-' then bytes ++ missing else missing ++ bytes

def paddedNumber (conversion : Conversion) (sign digits : String) : List UInt8 :=
  let digits := String.ofList
    (digits.toList.leftpad (conversion.precision.getD 0) '0')
  let zeros := conversion.flags.contains '0' && !conversion.flags.contains '-' &&
    conversion.precision.isNone
  let width := if zeros then conversion.width - sign.length else 0
  padded conversion (Utf8.encode (sign ++ String.ofList (digits.toList.leftpad width '0')))

/-- A number as an argument gives it, and what is wrong with the argument. A quotation mark
stands before a character whose code is meant. -/
def argumentNumber (text : String) : Int × Option String :=
  let incomplete := some s!"{text}: not completely converted"
  match text.toList with
  | '\'' :: c :: rest | '"' :: c :: rest =>
    (c.toNat, if rest.isEmpty then none else incomplete)
  | cs =>
    let cs := cs.dropWhile fun c => c == ' ' || c == '\t' || c == '\n'
    let (negative, digits) := match cs with
      | '-' :: rest => (true, rest)
      | '+' :: rest => (false, rest)
      | rest => (false, rest)
    let (radix, digits) := match digits with
      | '0' :: 'x' :: rest | '0' :: 'X' :: rest => (16, rest)
      | '0' :: rest => (8, '0' :: rest)
      | rest => (10, rest)
    let taken := digits.takeWhile fun c => (digit? radix c).isSome
    let value : Int := valueOf radix (taken.filterMap (digit? radix))
    (if negative then -value else value,
      if text.isEmpty then none
      else if taken.isEmpty then some s!"{text}: expected numeric value"
      else if taken.length < digits.length then incomplete else none)

def digitsIn (radix : Nat) (value : Nat) : String := String.ofList (Nat.toDigits radix value)

def numberBytes (conversion : Conversion) (value : Int) : List UInt8 :=
  let unsigned := (value % (UInt64.size : Int)).toNat
  match conversion.kind with
  | 'd' | 'i' =>
    let sign := if value < 0 then "-" else if conversion.flags.contains '+' then "+"
      else if conversion.flags.contains ' ' then " " else ""
    paddedNumber conversion sign (digitsIn 10 value.natAbs)
  | 'o' =>
    paddedNumber conversion "" ((if conversion.flags.contains '#' then "0" else "") ++
      digitsIn 8 unsigned)
  | 'x' =>
    paddedNumber conversion (if conversion.flags.contains '#' then "0x" else "")
      (digitsIn 16 unsigned)
  | 'X' =>
    paddedNumber conversion (if conversion.flags.contains '#' then "0X" else "")
      (digitsIn 16 unsigned).toUpper
  | _ => paddedNumber conversion "" (digitsIn 10 unsigned)

def convert (conversion : Conversion) (f : Formatting) : Formatting :=
  let argument := f.arguments.head?
  let f := { f with arguments := f.arguments.drop 1 }
  let text := argument.getD ""
  let cut (bytes : List UInt8) := match conversion.precision with
    | some most => bytes.take most
    | none => bytes
  match conversion.kind with
  | 's' => { f with bytes := f.bytes ++ padded conversion (cut (Utf8.encode text)) }
  | 'c' => { f with bytes := f.bytes ++ padded conversion ((Utf8.encode text).take 1) }
  | 'b' =>
    let stretch := unescaped false text
    { f with bytes := f.bytes ++ padded conversion (cut stretch.bytes), ends := stretch.ends }
  | _ =>
    let (value, complaint) := argumentNumber text
    let f := { f with bytes := f.bytes ++ numberBytes conversion value }
    match argument.bind fun _ => complaint with
    | some complaint => f.complain complaint 1
    | none => f

def readConversion (format : List Char) (arguments : List String) :
    Conversion × List Char × List String :=
  let flags := format.takeWhile "-+ 0#".toList.contains
  let format := format.drop flags.length
  let amount (format : List Char) (arguments : List String) : Nat × List Char × List String :=
    match format with
    | '*' :: rest =>
      ((argumentNumber (arguments.headD "")).1.toNat, rest, arguments.drop 1)
    | _ =>
      let digits := format.takeWhile isDecimalDigit
      (valueOf 10 (digits.filterMap (digit? 10)), format.drop digits.length, arguments)
  let (width, format, arguments) := amount format arguments
  match format with
  | '.' :: rest =>
    let (precision, rest, arguments) := amount rest arguments
    (⟨flags, width, some precision, rest.headD '%'⟩, rest.drop 1, arguments)
  | _ => (⟨flags, width, none, format.headD '%'⟩, format.drop 1, arguments)

def formatOnce : (fuel : Nat) → List Char → Formatting → Formatting
  | 0, _, f | _, [], f => f
  | fuel + 1, c :: rest, f =>
    if f.ends then f
    else
      match c, rest with
      | '%', '%' :: rest => formatOnce fuel rest { f with bytes := f.bytes ++ [37] }
      | '%', whole =>
        let (conversion, rest, arguments) := readConversion whole f.arguments
        if "scbdiouxX".toList.contains conversion.kind then
          formatOnce fuel rest (convert conversion { f with arguments })
        else
          let directive := String.ofList ('%' :: whole.take (whole.length - rest.length))
          { f.complain s!"{directive}: invalid directive" 2 with ends := true }
      | '\\', _ =>
        let (bytes, rest) := if rest.head? == some 'c' then ([92], rest) else readEscape false rest
        formatOnce fuel rest { f with bytes := f.bytes ++ bytes }
      | _, _ => formatOnce fuel rest { f with bytes := f.bytes ++ String.utf8EncodeChar c }

def formatAll (format : List Char) : (fuel : Nat) → Formatting → Formatting
  | 0, f => f
  | fuel + 1, f =>
    let after := formatOnce (format.length + 1) format f
    if after.ends || after.arguments.isEmpty || after.arguments.length == f.arguments.length then
      after
    else formatAll format fuel after

def printfText (format : String) (arguments : List String) : Formatting :=
  formatAll format.toList (arguments.length + 1) { arguments }

end FaultDrill.Outside.Shell
