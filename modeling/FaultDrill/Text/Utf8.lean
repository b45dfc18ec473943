set_option autoImplicit false

namespace FaultDrill.Text.Utf8

inductive Fault where
  | invalid (length index : Nat)
  | incomplete (index : Nat)
  deriving DecidableEq

def Fault.message : Fault → String
  | .invalid length index => s!"invalid utf-8 sequence of {length} bytes from index {index}"
  | .incomplete index => s!"incomplete utf-8 byte sequence from index {index}"

def encode (text : String) : List UInt8 := text.toList.flatMap String.utf8EncodeChar

/-- What a leading byte of a longer character announces: the number of bytes, and the interval
that the second byte has to lie in. Overlong forms, surrogates and values past the last code
point are excluded here. -/
def lead? (b : UInt8) : Option (Nat × UInt8 × UInt8) :=
  if b < 0xC2 then none
  else if b < 0xE0 then some (2, 0x80, 0xBF)
  else if b = 0xE0 then some (3, 0xA0, 0xBF)
  else if b = 0xED then some (3, 0x80, 0x9F)
  else if b < 0xF0 then some (3, 0x80, 0xBF)
  else if b = 0xF0 then some (4, 0x90, 0xBF)
  else if b < 0xF4 then some (4, 0x80, 0xBF)
  else if b = 0xF4 then some (4, 0x80, 0x8F)
  else none

def isContinuation (b : UInt8) : Bool := 0x80 ≤ b && b ≤ 0xBF

def assemble (leading : Nat) (following : List UInt8) : Char :=
  Char.ofNat (following.foldl (fun value b => value * 64 + b.toNat % 64) leading)

/-- Reads on from a character boundary at `index`, with the characters before it in reverse. -/
def decodeFrom (index : Nat) (before : List Char) : List UInt8 → Except Fault (List Char)
  | [] => .ok before.reverse
  | a :: rest =>
    if a < 0x80 then decodeFrom (index + 1) (assemble a.toNat [] :: before) rest
    else match lead? a with
    | none => .error (.invalid 1 index)
    | some (width, low, high) =>
      match rest with
      | [] => .error (.incomplete index)
      | b :: rest =>
        if b < low || high < b then .error (.invalid 1 index)
        else if width = 2 then
          decodeFrom (index + 2) (assemble (a.toNat % 32) [b] :: before) rest
        else match rest with
        | [] => .error (.incomplete index)
        | c :: rest =>
          if !isContinuation c then .error (.invalid 2 index)
          else if width = 3 then
            decodeFrom (index + 3) (assemble (a.toNat % 16) [b, c] :: before) rest
          else match rest with
          | [] => .error (.incomplete index)
          | d :: rest =>
            if !isContinuation d then .error (.invalid 3 index)
            else decodeFrom (index + 4) (assemble (a.toNat % 8) [b, c, d] :: before) rest

def decode (bytes : List UInt8) : Except Fault String :=
  (decodeFrom 0 [] bytes).map String.ofList

def decodeLossy (bytes : List UInt8) : String :=
  match decode bytes with
  | .ok text => text
  | .error (.incomplete index) => valid (bytes.take index) ++ "\uFFFD"
  | .error (.invalid length index) =>
    if h : bytes.length = 0 then ""
    else
      have : (bytes.drop (index + max length 1)).length < bytes.length := by
        rw [List.length_drop]
        omega
      valid (bytes.take index) ++ "\uFFFD" ++ decodeLossy (bytes.drop (index + max length 1))
termination_by bytes.length
where
  valid (bytes : List UInt8) : String :=
    match decode bytes with
    | .ok text => text
    | .error _ => ""

end FaultDrill.Text.Utf8
