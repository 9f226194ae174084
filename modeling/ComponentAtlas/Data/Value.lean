import ComponentAtlas.Data.Key
import ComponentAtlas.Data.Keyed

/-!
# Free-form values

Values that documentation may carry without a fixed shape: what a JSON text
can say, with whole numbers of any size told apart from doubles and with the
fields of an object in a definite order.

Three tests are read off a value. `same` compares content: numbers and truth
values by magnitude, objects by field and not by order. `isTruthy` says whether
a value counts as given where a condition is wanted, and `isEmpty` whether it
carries nothing; zero and `false` are not truthy and yet not empty.

The height of a value is the number of levels on which something of it lies.
-/

namespace ComponentAtlas

inductive Value where
  | null
  | bool (b : Bool)
  | int (n : Int)
  | real (d : Double)
  | text (s : String)
  | array (items : List Value)
  | object (fields : List (String × Value))
deriving Inhabited, Repr

namespace Value

mutual

/-- Equality of values is decidable. -/
def decEq : (a b : Value) → Decidable (a = b)
  | .null, .null => isTrue rfl
  | .bool a, .bool b => decidable_of_iff (a = b) (by simp)
  | .int a, .int b => decidable_of_iff (a = b) (by simp)
  | .real a, .real b => decidable_of_iff (a = b) (by simp)
  | .text a, .text b => decidable_of_iff (a = b) (by simp)
  | .array as, .array bs =>
    have := decEqItems as bs
    decidable_of_iff (as = bs) (by simp)
  | .object as, .object bs =>
    have := decEqFields as bs
    decidable_of_iff (as = bs) (by simp)
  | .null, .bool _ | .null, .int _ | .null, .real _ | .null, .text _ | .null, .array _
  | .null, .object _ | .bool _, .null | .bool _, .int _ | .bool _, .real _ | .bool _, .text _
  | .bool _, .array _ | .bool _, .object _ | .int _, .null | .int _, .bool _ | .int _, .real _
  | .int _, .text _ | .int _, .array _ | .int _, .object _ | .real _, .null
  | .real _, .bool _ | .real _, .int _ | .real _, .text _ | .real _, .array _
  | .real _, .object _ | .text _, .null | .text _, .bool _ | .text _, .int _
  | .text _, .real _ | .text _, .array _ | .text _, .object _ | .array _, .null
  | .array _, .bool _ | .array _, .int _ | .array _, .real _ | .array _, .text _
  | .array _, .object _ | .object _, .null | .object _, .bool _ | .object _, .int _
  | .object _, .real _ | .object _, .text _ | .object _, .array _ => isFalse nofun

/-- Equality of lists of items. -/
def decEqItems : (as bs : List Value) → Decidable (as = bs)
  | [], [] => isTrue rfl
  | [], _ :: _ | _ :: _, [] => isFalse nofun
  | a :: as, b :: bs =>
    have := decEq a b
    have := decEqItems as bs
    decidable_of_iff (a = b ∧ as = bs) (by simp)

/-- Equality of lists of fields. -/
def decEqFields : (as bs : List (String × Value)) → Decidable (as = bs)
  | [], [] => isTrue rfl
  | [], _ :: _ | _ :: _, [] => isFalse nofun
  | (k, a) :: as, (l, b) :: bs =>
    have := decEq a b
    have := decEqFields as bs
    decidable_of_iff ((k = l ∧ a = b) ∧ as = bs) (by simp)

end

instance : DecidableEq Value := decEq

/-- What may stand as a key is a key; sequences and mappings may not. -/
def key? : Value → Option Key
  | .null => some .null
  | .bool b => some (.bool b)
  | .int n => some (.int n)
  | .real d => some (.real d)
  | .text s => some (.text s)
  | .array _ | .object _ => none

mutual

/-- Equality of content. -/
def same : Value → Value → Bool
  | .array as, .array bs => sameItems as bs
  | .object as, .object bs => as.length == bs.length && sameFields as bs
  | a, b =>
    match a.key?, b.key? with
    | some k, some l => k == l
    | _, _ => false

/-- Items are compared one by one. -/
def sameItems : List Value → List Value → Bool
  | [], [] => true
  | a :: as, b :: bs => same a b && sameItems as bs
  | _, _ => false

/-- Each field on the left has the same content as the field of its name on the right. -/
def sameFields : List (String × Value) → List (String × Value) → Bool
  | [], _ => true
  | (name, a) :: as, bs =>
    match bs.lookup name with
    | some b => same a b && sameFields as bs
    | none => false

end

mutual

/-- The number of levels of a value; a value without parts lies on one. -/
def height : Value → Nat
  | .array items => heightOfItems items + 1
  | .object fields => heightOfFields fields + 1
  | _ => 1

/-- The height of the highest item. -/
def heightOfItems : List Value → Nat
  | [] => 0
  | v :: rest => max (height v) (heightOfItems rest)

/-- The height of the highest field. -/
def heightOfFields : List (String × Value) → Nat
  | [] => 0
  | (_, v) :: rest => max (height v) (heightOfFields rest)

end

theorem height_pos (v : Value) : 0 < v.height := by cases v <;> simp [height]

theorem heightOfFields_eq (fields : List (String × Value)) :
    heightOfFields fields = heightOfItems (fields.map Prod.snd) := by
  induction fields with
  | nil => rfl
  | cons f rest ih =>
    obtain ⟨name, v⟩ := f
    simp [heightOfFields, heightOfItems, ih]

/-- The height of a list is the least bound on the heights of its items. -/
theorem heightOfItems_le (items : List Value) (n : Nat) :
    heightOfItems items ≤ n ↔ ∀ v ∈ items, v.height ≤ n := by
  induction items with
  | nil => simp [heightOfItems]
  | cons v rest ih => simp only [heightOfItems, Nat.max_le, List.forall_mem_cons, ih]

def isTruthy : Value → Bool
  | .null => false
  | .bool b => b
  | .int n => n != 0
  | .real d => !d.isZero
  | .text s => s != ""
  | .array items => !items.isEmpty
  | .object fields => !fields.isEmpty

def isEmpty : Value → Bool
  | .null => true
  | .text s => s == ""
  | .array items => items.isEmpty
  | .object fields => fields.isEmpty
  | _ => false

/-- A string stands for itself; no other value stands for a string. -/
def asText? : Value → Option String
  | .text s => some s
  | _ => none

/-- The items that a value has when it is gone through; a mapping has its keys. -/
def listed? : Value → Option (List Value)
  | .array items => some items
  | .text s => some (s.toList.map fun c => .text (String.singleton c))
  | .object fields => some (fields.map fun f => .text f.1)
  | _ => none

end Value

/-- A key as a value. -/
def Key.toValue : Key → Value
  | .null => .null
  | .bool b => .bool b
  | .int n => .int n
  | .real d => .real d
  | .text s => .text s

theorem Value.key?_toValue (k : Key) : k.toValue.key? = some k := by cases k <;> rfl

end ComponentAtlas
