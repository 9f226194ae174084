import ComponentAtlas.Data.Value
import ComponentAtlas.Number.Shortest
import ComponentAtlas.Text.Characters

/-!
# JSON text

Writes a value as JSON, either without blanks or laid out with one line for
each item and field. In strings the quote, the backslash and the control
characters are escaped, those with a short form by it; all else stands for
itself.
-/

namespace ComponentAtlas.Json

/-- Blanks for each level of depth, or no layout at all. -/
abbrev Layout := Option Nat

def escapeChar (c : Char) : List Char :=
  if c = '"' then ['\\', '"']
  else if c = '\\' then ['\\', '\\']
  else if c = Char.ofNat 8 then ['\\', 'b']
  else if c = Char.ofNat 12 then ['\\', 'f']
  else if c = '\n' then ['\\', 'n']
  else if c = '\r' then ['\\', 'r']
  else if c = '\t' then ['\\', 't']
  else if c.toNat < 32 then '\\' :: 'u' :: Text.hexDigits 4 c.toNat
  else [c]

def writeText (s : String) : List Char := '"' :: (s.toList.flatMap escapeChar ++ ['"'])

def writeInt (n : Int) : List Char :=
  if n < 0 then '-' :: Nat.toDigits 10 n.natAbs else Nat.toDigits 10 n.natAbs

/-- Doubles are written positionally below ten to the power 16 and down to hundredthousandths. -/
def numeralStyle : Numeral.Style := ⟨-5, 15, 1⟩

/-- The line end and the blanks before an item at some depth. -/
def gap (layout : Layout) (depth : Nat) : List Char :=
  match layout with
  | none => []
  | some blanks => '\n' :: List.replicate (blanks * depth) ' '

/-- What separates a name from its value. -/
def colon (layout : Layout) : List Char := if layout.isNone then [':'] else [':', ' ']

mutual

/-- Writes a value whose inner lines lie one level below `depth`. -/
def writeValue (layout : Layout) (depth : Nat) : Value → List Char
  | .null => "null".toList
  | .bool true => "true".toList
  | .bool false => "false".toList
  | .int n => writeInt n
  | .real d => d.write numeralStyle
  | .text s => writeText s
  | .array [] => ['[', ']']
  | .array (v :: rest) =>
    '[' :: (gap layout (depth + 1) ++ writeValue layout (depth + 1) v ++
      writeItems layout (depth + 1) rest ++ gap layout depth ++ [']'])
  | .object [] => ['{', '}']
  | .object ((name, v) :: rest) =>
    '{' :: (gap layout (depth + 1) ++ writeText name ++ colon layout ++
      writeValue layout (depth + 1) v ++ writeFields layout (depth + 1) rest ++
      gap layout depth ++ ['}'])

/-- Writes the further items of an array. -/
def writeItems (layout : Layout) (depth : Nat) : List Value → List Char
  | [] => []
  | v :: rest =>
    ',' :: (gap layout depth ++ writeValue layout depth v ++ writeItems layout depth rest)

/-- Writes the further fields of an object. -/
def writeFields (layout : Layout) (depth : Nat) : List (String × Value) → List Char
  | [] => []
  | (name, v) :: rest =>
    ',' :: (gap layout depth ++ writeText name ++ colon layout ++ writeValue layout depth v ++
      writeFields layout depth rest)

end

def print (layout : Layout) (v : Value) : String := String.ofList (writeValue layout 0 v)

end ComponentAtlas.Json
