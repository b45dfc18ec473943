import FaultDrill.Text.Numeral
set_option autoImplicit false

namespace FaultDrill.Net
open Text

structure Ipv4 where
  a : UInt8
  b : UInt8
  c : UInt8
  d : UInt8
  deriving DecidableEq

structure Ipv6 where
  groups : List UInt16
  length_groups : groups.length = 8
  deriving DecidableEq

inductive Ip where
  | v4 (ip : Ipv4)
  | v6 (ip : Ipv6)
  deriving DecidableEq

inductive SocketAddress where
  | v4 (ip : Ipv4) (port : UInt16)
  | v6 (ip : Ipv6) (port : UInt16) (scope : UInt32)
  deriving DecidableEq

namespace Ipv4

def loopback : Ipv4 := ⟨127, 0, 0, 1⟩

def render (ip : Ipv4) : String := s!"{ip.a}.{ip.b}.{ip.c}.{ip.d}"

end Ipv4

namespace Ipv6

def zeroRun (groups : List UInt16) : Nat := (groups.takeWhile (· == 0)).length

def longestRun (groups : List UInt16) : Nat × Nat :=
  (List.range groups.length).foldl
    (fun best start =>
      let length := zeroRun (groups.drop start)
      if length > best.2 then (start, length) else best)
    (0, 0)

def renderGroups (groups : List UInt16) : String :=
  ":".intercalate (groups.map fun group => hexadecimal group.toNat)

def mapped? (ip : Ipv6) : Option Ipv4 :=
  match ip.groups with
  | [0, 0, 0, 0, 0, 0xFFFF, high, low] =>
    some ⟨(high >>> 8).toUInt8, high.toUInt8, (low >>> 8).toUInt8, low.toUInt8⟩
  | _ => none

def firstGroup (ip : Ipv6) : UInt16 := ip.groups.headD 0

def isMulticast (ip : Ipv6) : Bool := ip.firstGroup &&& 0xFF00 == 0xFF00

def isLinkLocal (ip : Ipv6) : Bool := ip.firstGroup &&& 0xFFC0 == 0xFE80

def isUnspecified (ip : Ipv6) : Bool := ip.groups.all (· == 0)

def render (ip : Ipv6) : String :=
  match ip.mapped? with
  | some v4 => "::ffff:" ++ v4.render
  | none =>
    let (start, length) := longestRun ip.groups
    if length < 2 then renderGroups ip.groups
    else renderGroups (ip.groups.take start) ++ "::" ++
      renderGroups (ip.groups.drop (start + length))

end Ipv6

def Ip.render : Ip → String
  | .v4 ip => ip.render
  | .v6 ip => ip.render

namespace SocketAddress

/-- The address without its port. -/
def renderHost : SocketAddress → String
  | v4 ip _ => ip.render
  | v6 ip _ scope => if scope = 0 then s!"[{ip.render}]" else s!"[{ip.render}%{scope}]"

def port : SocketAddress → UInt16
  | v4 _ port => port
  | v6 _ port _ => port

def render (address : SocketAddress) : String := s!"{address.renderHost}:{address.port}"

def ofIp (ip : Ip) (port : UInt16) : SocketAddress :=
  match ip with
  | .v4 ip => .v4 ip port
  | .v6 ip => .v6 ip port 0

end SocketAddress

abbrev Scanner (α : Type) := StateT (List Char) Option α

namespace Scanner

def char (c : Char) : Scanner Unit := do
  match ← get with
  | d :: rest => if d = c then set rest else failure
  | [] => failure

/-- The longest run of digits, as a number below `bound`. There is at least one digit, at most
`most` where that is given, and no zero in front of others unless `zeros` allows it. -/
def number (radix bound : Nat) (most : Option Nat) (zeros : Bool) : Scanner Nat := do
  let text ← get
  let digits := (text.takeWhile fun c => (digit? radix c).isSome).filterMap (digit? radix)
  let value := valueOf radix digits
  if digits.isEmpty || most.any (digits.length > ·) ||
      (!zeros && digits.head? == some 0 && digits.length > 1) || value ≥ bound then failure
  set (text.drop digits.length)
  return value

def separated {α : Type} (separator : Char) (index : Nat) (item : Scanner α) : Scanner α := do
  if index > 0 then char separator
  item

def octet : Scanner UInt8 := do return UInt8.ofNat (← number 10 256 (some 3) false)

def ipv4 : Scanner Ipv4 := do
  let a ← octet
  char '.'
  let b ← octet
  char '.'
  let c ← octet
  char '.'
  let d ← octet
  return ⟨a, b, c, d⟩

def group : Scanner UInt16 := do return UInt16.ofNat (← number 16 UInt16.size (some 4) true)

/-- As many groups as there are, at most `limit`, of which `index` have been read already. A
dotted address may take the place of the last two; whether one did is returned. -/
def groupsFrom (index : Nat) : (limit : Nat) → Scanner (List UInt16 × Bool)
  | 0 => return ([], false)
  | limit + 1 => fun text =>
    let dotted := if limit = 0 then none else (separated ':' index ipv4).run text
    match dotted with
    | some (ip, rest) =>
      let high := UInt16.ofNat (ip.a.toNat * 256 + ip.b.toNat)
      let low := UInt16.ofNat (ip.c.toNat * 256 + ip.d.toNat)
      some (([high, low], true), rest)
    | none =>
      match (separated ':' index group).run text with
      | none => some (([], false), text)
      | some (first, rest) =>
        ((groupsFrom (index + 1) limit).run rest).map fun ((groups, ended), rest) =>
          ((first :: groups, ended), rest)

/-- Eight groups, or fewer around a double colon that stands for at least one. -/
def ipv6 : Scanner Ipv6 := do
  let (head, ended) ← groupsFrom 0 8
  if h : head.length = 8 then return ⟨head, h⟩
  if ended then failure
  char ':'
  char ':'
  let (tail, _) ← groupsFrom 0 (7 - head.length)
  let groups := head ++ List.replicate (8 - head.length - tail.length) 0 ++ tail
  if h : groups.length = 8 then return ⟨groups, h⟩
  failure

def port : Scanner UInt16 := do
  char ':'
  return UInt16.ofNat (← number 10 UInt16.size none true)

def scope : Scanner UInt32 := do
  match ← get with
  | '%' :: _ =>
    char '%'
    return UInt32.ofNat (← number 10 UInt32.size none true)
  | _ => return 0

def socketAddress : Scanner SocketAddress := do
  match ← get with
  | '[' :: _ =>
    char '['
    let ip ← ipv6
    let scope ← scope
    char ']'
    return .v6 ip (← port) scope
  | _ =>
    let ip ← ipv4
    return .v4 ip (← port)

def whole? {α : Type} (scanner : Scanner α) (text : List Char) : Option α :=
  match scanner.run text with
  | some (value, []) => some value
  | _ => none

end Scanner

def SocketAddress.parse? (text : List Char) : Option SocketAddress :=
  Scanner.socketAddress.whole? text

def Ip.parse? (text : List Char) : Option Ip :=
  match Scanner.ipv4.whole? text with
  | some ip => some (.v4 ip)
  | none => (Scanner.ipv6.whole? text).map .v6

end FaultDrill.Net
