import ComponentAtlas.Data.Value
import ComponentAtlas.Number.Numeral

/-!
# Reading JSON

Reads a JSON text as a value. A number with a fraction or an exponent is read
as the nearest double, every other number as a whole number. The fields of an
object keep the order in which they are written. A text that breaks the grammar
has no value.
-/

namespace ComponentAtlas.Json

def isGap (c : Char) : Bool := c = ' ' || c = '\n' || c = '\r' || c = '\t'

def skipGap (cs : List Char) : List Char := cs.dropWhile isGap

/-! ### Strings -/

def hexValue? (c : Char) : Option Nat :=
  if '0' ≤ c && c ≤ '9' then some (c.toNat - 48)
  else if 'a' ≤ c && c ≤ 'f' then some (c.toNat - 87)
  else if 'A' ≤ c && c ≤ 'F' then some (c.toNat - 55)
  else none

def hexUnit? (a b c d : Char) : Option Nat := do
  let a ← hexValue? a
  let b ← hexValue? b
  let c ← hexValue? c
  let d ← hexValue? d
  pure (((a * 16 + b) * 16 + c) * 16 + d)

/-- The character that a code unit stands for alone; half of a pair stands for none. -/
def charOfUnit? (unit : Nat) : Option Char :=
  if 0xD800 ≤ unit && unit < 0xE000 then none else some (Char.ofNat unit)

/-- The character that two code units stand for together. -/
def charOfPair? (high low : Nat) : Option Char :=
  if 0xD800 ≤ high && high < 0xDC00 && 0xDC00 ≤ low && low < 0xE000 then
    some (Char.ofNat (0x10000 + (high - 0xD800) * 0x400 + (low - 0xDC00)))
  else none

/-- The character that a one-letter escape stands for. -/
def shortEscape? (c : Char) : Option Char :=
  if c = '"' || c = '\\' || c = '/' then some c
  else if c = 'b' then some (Char.ofNat 8)
  else if c = 'f' then some (Char.ofNat 12)
  else if c = 'n' then some '\n'
  else if c = 'r' then some '\r'
  else if c = 't' then some '\t'
  else none

def prepend (c : Char) (read : Option (List Char × List Char)) : Option (List Char × List Char) :=
  read.map fun r => (c :: r.1, r.2)

/-- Reads the rest of a string after its opening quote. -/
def readText : List Char → Option (List Char × List Char)
  | [] => none
  | '"' :: rest => some ([], rest)
  | '\\' :: 'u' :: a :: b :: c :: d :: '\\' :: 'u' :: e :: f :: g :: h :: rest =>
    match hexUnit? a b c d with
    | none => none
    | some high =>
      match charOfUnit? high with
      | some ch => prepend ch (readText ('\\' :: 'u' :: e :: f :: g :: h :: rest))
      | none =>
        match (hexUnit? e f g h).bind (charOfPair? high) with
        | some ch => prepend ch (readText rest)
        | none => none
  | '\\' :: 'u' :: a :: b :: c :: d :: rest =>
    match (hexUnit? a b c d).bind charOfUnit? with
    | some ch => prepend ch (readText rest)
    | none => none
  | '\\' :: c :: rest =>
    match shortEscape? c with
    | some ch => prepend ch (readText rest)
    | none => none
  | c :: rest => if c.toNat < 32 then none else prepend c (readText rest)

/-! ### Numbers -/

def takeDigits (cs : List Char) : List Char × List Char := cs.span Char.isDigit

def numberOfDigits (digits : List Char) : Nat := Nat.ofDigitChars 10 digits 0

/-- The digits of a whole number do not begin with a zero unless they are one. -/
def isWhole (digits : List Char) : Bool :=
  !digits.isEmpty && (digits.head? != some '0' || digits.length == 1)

/-- Reads an exponent, if there is one. -/
def readExponent (cs : List Char) : Option (Option Int × List Char) :=
  match cs with
  | c :: rest =>
    if c = 'e' || c = 'E' then
      let (negative, rest) :=
        match rest with
        | '-' :: rest => (true, rest)
        | '+' :: rest => (false, rest)
        | _ => (false, rest)
      let (digits, rest) := takeDigits rest
      if digits.isEmpty then none
      else
        let magnitude : Int := numberOfDigits digits
        some (some (if negative then -magnitude else magnitude), rest)
    else some (none, cs)
  | [] => some (none, [])

/-- Reads the digits after a point, if there is one. -/
def readFraction (cs : List Char) : Option (Option (List Char) × List Char) :=
  match cs with
  | '.' :: rest =>
    let (digits, rest) := takeDigits rest
    if digits.isEmpty then none else some (some digits, rest)
  | _ => some (none, cs)

/-- Reads a number after its sign. -/
def readMagnitude (negative : Bool) (cs : List Char) : Option (Value × List Char) := do
  let (whole, rest) := takeDigits cs
  if !isWhole whole then none
  else
    let (fraction, rest) ← readFraction rest
    let (exponent, rest) ← readExponent rest
    match fraction, exponent with
    | none, none =>
      let magnitude : Int := numberOfDigits whole
      some (.int (if negative then -magnitude else magnitude), rest)
    | _, _ =>
      let digits := fraction.getD []
      let numeral : Numeral := ⟨numberOfDigits (whole ++ digits), exponent.getD 0 - digits.length⟩
      some (.real (numeral.toDouble negative), rest)

def readNumber (cs : List Char) : Option (Value × List Char) :=
  match cs with
  | '-' :: rest => readMagnitude true rest
  | _ => readMagnitude false cs

/-! ### Values -/

/-- Reads a name and the colon after it. -/
def readName (cs : List Char) : Option (String × List Char) :=
  match cs with
  | '"' :: rest =>
    (readText rest).bind fun (name, rest) =>
      match skipGap rest with
      | ':' :: rest => some (String.ofList name, skipGap rest)
      | _ => none
  | _ => none

mutual

/-- Reads one value; `fuel` bounds the depth and the number of parts. -/
def readValue : (fuel : Nat) → List Char → Option (Value × List Char)
  | 0, _ => none
  | fuel + 1, cs =>
    match cs with
    | 'n' :: 'u' :: 'l' :: 'l' :: rest => some (.null, rest)
    | 't' :: 'r' :: 'u' :: 'e' :: rest => some (.bool true, rest)
    | 'f' :: 'a' :: 'l' :: 's' :: 'e' :: rest => some (.bool false, rest)
    | '"' :: rest => (readText rest).map fun r => (.text (String.ofList r.1), r.2)
    | '[' :: rest =>
      match skipGap rest with
      | ']' :: rest => some (.array [], rest)
      | rest =>
        (readValue fuel rest).bind fun (v, rest) =>
          (readItems fuel (skipGap rest)).map fun r => (.array (v :: r.1), r.2)
    | '{' :: rest =>
      match skipGap rest with
      | '}' :: rest => some (.object [], rest)
      | rest =>
        (readName rest).bind fun (name, rest) =>
          (readValue fuel rest).bind fun (v, rest) =>
            (readFields fuel (skipGap rest)).map fun r => (.object ((name, v) :: r.1), r.2)
    | _ => readNumber cs

/-- Reads the further items of an array and its end. -/
def readItems : (fuel : Nat) → List Char → Option (List Value × List Char)
  | 0, _ => none
  | fuel + 1, cs =>
    match cs with
    | ']' :: rest => some ([], rest)
    | ',' :: rest =>
      (readValue fuel (skipGap rest)).bind fun (v, rest) =>
        (readItems fuel (skipGap rest)).map fun r => (v :: r.1, r.2)
    | _ => none

/-- Reads the further fields of an object and its end. -/
def readFields : (fuel : Nat) → List Char → Option (List (String × Value) × List Char)
  | 0, _ => none
  | fuel + 1, cs =>
    match cs with
    | '}' :: rest => some ([], rest)
    | ',' :: rest =>
      (readName (skipGap rest)).bind fun (name, rest) =>
        (readValue fuel rest).bind fun (v, rest) =>
          (readFields fuel (skipGap rest)).map fun r => ((name, v) :: r.1, r.2)
    | _ => none

end

/-- The value of a JSON text, if it is one. -/
def read? (s : String) : Option Value :=
  let cs := s.toList
  match readValue (cs.length + 1) (skipGap cs) with
  | some (v, rest) => if (skipGap rest).isEmpty then some v else none
  | none => none

end ComponentAtlas.Json
