set_option autoImplicit false

namespace FaultDrill.Outside.Shell

/-- A character of an expanded word, and whether it is quoted. -/
structure Glyph where
  char : Char
  quoted : Bool
  deriving DecidableEq

structure CharRange where
  first : Char
  last : Char

inductive PatternItem where
  | char (c : Char)
  | any
  | star
  | oneOf (negated : Bool) (ranges : List CharRange)

abbrev Pattern : Type := List PatternItem

namespace Pattern

def classRanges : String → List CharRange
  | "alpha" => [⟨'a', 'z'⟩, ⟨'A', 'Z'⟩]
  | "digit" => [⟨'0', '9'⟩]
  | "alnum" => [⟨'a', 'z'⟩, ⟨'A', 'Z'⟩, ⟨'0', '9'⟩]
  | "upper" => [⟨'A', 'Z'⟩]
  | "lower" => [⟨'a', 'z'⟩]
  | "space" => [⟨'\t', '\r'⟩, ⟨' ', ' '⟩]
  | "blank" => [⟨'\t', '\t'⟩, ⟨' ', ' '⟩]
  | "punct" => [⟨'!', '/'⟩, ⟨':', '@'⟩, ⟨'[', '`'⟩, ⟨'\x7b', '~'⟩]
  | "xdigit" => [⟨'0', '9'⟩, ⟨'a', 'f'⟩, ⟨'A', 'F'⟩]
  | _ => []

/-- The ranges up to the closing bracket, and what comes after it. A closing bracket that comes
first stands for itself. -/
def readRanges : (fuel : Nat) → (ranges : List CharRange) → List Glyph →
    Option (List CharRange × List Glyph)
  | 0, _, _ | _, _, [] => none
  | fuel + 1, ranges, c :: rest =>
    if c.char == ']' && !c.quoted && !ranges.isEmpty then some (ranges, rest)
    else if c.char == '[' && !c.quoted && (rest.head?.map Glyph.char) == some ':' then
      let name := ((rest.drop 1).takeWhile fun g => g.char.isAlpha).map Glyph.char
      let after := rest.drop (1 + name.length)
      if (after.take 2).map Glyph.char == [':', ']'] then
        readRanges fuel (ranges ++ classRanges (String.ofList name)) (after.drop 2)
      else readRanges fuel (ranges ++ [⟨'[', '['⟩]) rest
    else
      match rest with
      | dash :: last :: others =>
        if dash.char == '-' && !dash.quoted && (last.quoted || last.char != ']') then
          readRanges fuel (ranges ++ [⟨c.char, last.char⟩]) others
        else readRanges fuel (ranges ++ [⟨c.char, c.char⟩]) rest
      | _ => readRanges fuel (ranges ++ [⟨c.char, c.char⟩]) rest

def readBrackets? (text : List Glyph) : Option (PatternItem × List Glyph) :=
  match text with
  | c :: rest =>
    let negated := !c.quoted && (c.char == '!' || c.char == '^')
    let text := if negated then rest else text
    (readRanges (text.length + 1) [] text).map fun (ranges, rest) => (.oneOf negated ranges, rest)
  | [] => none

def readFrom : (fuel : Nat) → List Glyph → Pattern
  | 0, _ | _, [] => []
  | fuel + 1, c :: rest =>
    if c.quoted then .char c.char :: readFrom fuel rest
    else
      match c.char with
      | '*' => .star :: readFrom fuel rest
      | '?' => .any :: readFrom fuel rest
      | '\\' =>
        match rest with
        | next :: rest => .char next.char :: readFrom fuel rest
        | [] => [.char '\\']
      | '[' =>
        match readBrackets? rest with
        | some (item, rest) => item :: readFrom fuel rest
        | none => .char '[' :: readFrom fuel rest
      | other => .char other :: readFrom fuel rest

def ofGlyphs (text : List Glyph) : Pattern := readFrom text.length text

def holdsOfTail (condition : List Char → Bool) : List Char → Bool
  | [] => condition []
  | c :: text => condition (c :: text) || holdsOfTail condition text

def itemFits (c : Char) : PatternItem → Bool
  | .char d => c == d
  | .any => true
  | .star => false
  | .oneOf negated ranges =>
    negated != ranges.any fun range => range.first ≤ c && c ≤ range.last

def fits : Pattern → List Char → Bool
  | [], text => text.isEmpty
  | .star :: rest, text => holdsOfTail (fits rest) text
  | _ :: _, [] => false
  | item :: rest, c :: text => itemFits c item && fits rest text

def stripFront (pattern : Pattern) (longest : Bool) (text : List Char) : List Char :=
  let lengths := List.range (text.length + 1)
  let ordered := if longest then lengths.reverse else lengths
  match ordered.find? fun length => pattern.fits (text.take length) with
  | some length => text.drop length
  | none => text

def stripEnd (pattern : Pattern) (longest : Bool) (text : List Char) : List Char :=
  let starts := List.range (text.length + 1)
  let ordered := if longest then starts else starts.reverse
  match ordered.find? fun start => pattern.fits (text.drop start) with
  | some start => text.take start
  | none => text

end Pattern
end FaultDrill.Outside.Shell
