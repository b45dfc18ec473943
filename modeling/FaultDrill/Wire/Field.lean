import FaultDrill.Text.Utf8
set_option autoImplicit false

namespace FaultDrill
open Text

inductive DecodeFault where
  | numberCut
  | textCut
  | unknownVariant (found : UInt32) (count : Nat)
  | notText (fault : Utf8.Fault)
  deriving DecidableEq

def DecodeFault.message : DecodeFault → String
  | numberCut => "io error: unexpected end of file"
  | textCut => "io error: "
  | unknownVariant found count =>
    s!"invalid value: integer `{found}`, expected variant index 0 <= i < {count}"
  | notText fault => s!"string is not valid utf8: {fault.message}"

/-- Takes a value from the front of the bytes and leaves the rest. -/
abbrev Reader (α : Type) := StateT (List UInt8) (Except DecodeFault) α

/-- The values that have a form on the wire. -/
class Wire (α : Type) where
  encode : α → List UInt8
  reader : Reader α

namespace Wire

def decode {α : Type} [Wire α] (bytes : List UInt8) : Except DecodeFault α :=
  ((reader : Reader α).run bytes).map Prod.fst

/-- The lowest `width` bytes of a number, least significant first. -/
def littleEndian : (width : Nat) → Nat → List UInt8
  | 0, _ => []
  | width + 1, n => UInt8.ofNat (n % 256) :: littleEndian width (n / 256)

def ofLittleEndian : List UInt8 → Nat
  | [] => 0
  | b :: rest => b.toNat + 256 * ofLittleEndian rest

theorem length_littleEndian (width n : Nat) : (littleEndian width n).length = width := by
  induction width generalizing n with
  | zero => rfl
  | succ width ih => simp [littleEndian, ih]

theorem littleEndian_ofLittleEndian (bytes : List UInt8) :
    littleEndian bytes.length (ofLittleEndian bytes) = bytes := by
  induction bytes with
  | nil => rfl
  | cons b rest ih =>
    have hb := b.toNat_lt
    have hmod : (b.toNat + 256 * ofLittleEndian rest) % 256 = b.toNat := by omega
    have hdiv : (b.toNat + 256 * ofLittleEndian rest) / 256 = ofLittleEndian rest := by omega
    simp only [ofLittleEndian, List.length_cons, littleEndian, hmod, hdiv, ih, UInt8.ofNat_toNat]

def takeBytes (count : Nat) (fault : DecodeFault) : Reader (List UInt8) := do
  let bytes ← get
  if bytes.length < count then throw fault
  set (bytes.drop count)
  return bytes.take count

def number (width : Nat) : Reader Nat := do
  return ofLittleEndian (← takeBytes width .numberCut)

instance : Wire UInt32 where
  encode n := littleEndian 4 n.toNat
  reader := do return UInt32.ofNat (← number 4)

instance : Wire UInt64 where
  encode n := littleEndian 8 n.toNat
  reader := do return UInt64.ofNat (← number 8)

instance : Wire Int32 where
  encode n := littleEndian 4 n.toUInt32.toNat
  reader := do return (UInt32.ofNat (← number 4)).toInt32

instance : Wire (List UInt8) where
  encode bytes := littleEndian 8 bytes.length ++ bytes
  reader := do takeBytes (← number 8) .numberCut

instance : Wire String where
  encode text := encode (Utf8.encode text)
  reader := do
    let bytes ← takeBytes (← number 8) .textCut
    match Utf8.decode bytes with
    | .ok text => return text
    | .error fault => throw (.notText fault)

end Wire
end FaultDrill
