import ComponentAtlas.Data.Value
import ComponentAtlas.Number.Shortest
import ComponentAtlas.Text.Quoted

/-!
# Data in reports

Anything that a report may name: the free-form values, and besides them fixed
sequences, functions and shapes. A datum is written in two ways. Its quoted
form has quotation marks round texts; its plain form is the same but for a text
itself, which stands for itself.
-/

namespace ComponentAtlas

/-- What sort of datum something is. -/
inductive Shape where
  | null
  | bool
  | int
  | real
  | text
  | list
  | tuple
  | mapping
  | callable
  | shape
deriving DecidableEq, Repr

def Shape.word : Shape → String
  | .null => "NoneType"
  | .bool => "bool"
  | .int => "int"
  | .real => "float"
  | .text => "str"
  | .list => "list"
  | .tuple => "tuple"
  | .mapping => "dict"
  | .callable => "function"
  | .shape => "type"

/-- Truth values are whole numbers as well; no other shape lies within another. -/
def Shape.within (s t : Shape) : Bool := s = t || (s = .bool && t = .int)

inductive Datum where
  | null
  | bool (b : Bool)
  | int (n : Int)
  | real (d : Double)
  | text (s : String)
  | list (items : List Datum)
  | tuple (items : List Datum)
  | mapping (fields : List (String × Datum))
  | callable
  | shape (s : Shape)
deriving Inhabited, Repr

namespace Datum

mutual

def ofValue : Value → Datum
  | .null => .null
  | .bool b => .bool b
  | .int n => .int n
  | .real d => .real d
  | .text s => .text s
  | .array items => .list (ofItems items)
  | .object fields => .mapping (ofFields fields)

/-- The data of a list of values. -/
def ofItems : List Value → List Datum
  | [] => []
  | v :: rest => ofValue v :: ofItems rest

/-- The data of named values. -/
def ofFields : List (String × Value) → List (String × Datum)
  | [] => []
  | (name, v) :: rest => (name, ofValue v) :: ofFields rest

end

def kind : Datum → Shape
  | .null => .null
  | .bool _ => .bool
  | .int _ => .int
  | .real _ => .real
  | .text _ => .text
  | .list _ => .list
  | .tuple _ => .tuple
  | .mapping _ => .mapping
  | .callable => .callable
  | .shape _ => .shape

def isCallable : Datum → Bool
  | .callable => true
  | .shape _ => true
  | _ => false

/-- Numbers are written positionally below ten to the power 16 and down to tenthousandths. -/
def numeralStyle : Numeral.Style := ⟨-4, 15, 2⟩

mutual

/-- The form with quotation marks round texts. -/
def quoted : Datum → String
  | .null => "None"
  | .bool b => if b then "True" else "False"
  | .int n => toString n
  | .real d => String.ofList (d.write numeralStyle)
  | .text s => Text.quoted s
  | .list items => "[" ++ ", ".intercalate (quotedItems items) ++ "]"
  | .tuple [item] => "(" ++ quoted item ++ ",)"
  | .tuple items => "(" ++ ", ".intercalate (quotedItems items) ++ ")"
  | .mapping fields => "\x7b" ++ ", ".intercalate (quotedFields fields) ++ "\x7d"
  | .callable => "<function>"
  | .shape s => "<class " ++ Text.quoted s.word ++ ">"

/-- The quoted forms of several data. -/
def quotedItems : List Datum → List String
  | [] => []
  | item :: rest => quoted item :: quotedItems rest

/-- The quoted forms of named data. -/
def quotedFields : List (String × Datum) → List String
  | [] => []
  | (name, item) :: rest => (Text.quoted name ++ ": " ++ quoted item) :: quotedFields rest

end

/-- The form in which a text stands for itself. -/
def plain : Datum → String
  | .text s => s
  | d => d.quoted

/-- The items that a datum has when it is gone through; a mapping has its names. -/
def listed? : Datum → Option (List Datum)
  | .list items | .tuple items => some items
  | .text s => some (s.toList.map fun c => .text (String.singleton c))
  | .mapping fields => some (fields.map fun f => .text f.1)
  | _ => none

def key? : Datum → Option Key
  | .null => some .null
  | .bool b => some (.bool b)
  | .int n => some (.int n)
  | .real d => some (.real d)
  | .text s => some (.text s)
  | _ => none

theorem plain_text (s : String) : (Datum.text s).plain = s := rfl

end Datum

instance : Coe Value Datum := ⟨Datum.ofValue⟩

end ComponentAtlas
