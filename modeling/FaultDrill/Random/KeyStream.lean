import FaultDrill.Random.Draws
set_option autoImplicit false

namespace FaultDrill.KeyStream

def expand (state : UInt64) : UInt64 × UInt32 :=
  let next := state * 6364136223846793005 + 11634580027462260723
  let shuffled := (((next >>> 18) ^^^ next) >>> 27).toUInt32
  let turn := (next >>> 59).toUInt32
  (next, (shuffled >>> turn) ||| (shuffled <<< ((32 - turn) % 32)))

def expandWords : Nat → UInt64 → List UInt32
  | 0, _ => []
  | count + 1, state =>
    let (next, word) := expand state
    word :: expandWords count next

def key (seed : UInt64) : List UInt32 := expandWords 8 seed

def rotateLeft (word : UInt32) (count : UInt32) : UInt32 :=
  (word <<< count) ||| (word >>> (32 - count))

abbrev Block := Vector UInt32 16

def quarterRound (block : Block) (i j k l : Fin 16) : Block :=
  let a := block[i] + block[j]
  let d := rotateLeft (block[l] ^^^ a) 16
  let c := block[k] + d
  let b := rotateLeft (block[j] ^^^ c) 12
  let a := a + b
  let d := rotateLeft (d ^^^ a) 8
  let c := c + d
  let b := rotateLeft (b ^^^ c) 7
  (((block.set i a).set j b).set k c).set l d

def doubleRound (block : Block) : Block :=
  let block := quarterRound block 0 4 8 12
  let block := quarterRound block 1 5 9 13
  let block := quarterRound block 2 6 10 14
  let block := quarterRound block 3 7 11 15
  let block := quarterRound block 0 5 10 15
  let block := quarterRound block 1 6 11 12
  let block := quarterRound block 2 7 8 13
  quarterRound block 3 4 9 14

/-- The constants, the key, the number of the block, and two words of zeros. -/
def initial (key : List UInt32) (number : UInt64) : Block :=
  let constants : List UInt32 := [0x61707865, 0x3320646e, 0x79622d32, 0x6b206574]
  let words := constants ++ key ++ [number.toUInt32, (number >>> 32).toUInt32, 0, 0]
  Vector.ofFn fun i => words.getD i 0

def block (key : List UInt32) (number : UInt64) : Block :=
  let start := initial key number
  let mixed := Nat.repeat doubleRound 6 start
  Vector.ofFn fun i => mixed[i] + start[i]

def draws (seed : UInt64) : Draws := fun i =>
  (block (key seed) (UInt64.ofNat (i / 16))).get ⟨i % 16, Nat.mod_lt i (by decide)⟩

/-- The number of words after which a stream begins again. -/
def length : Nat := 16 * UInt64.size

end FaultDrill.KeyStream
