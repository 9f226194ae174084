import ComponentAtlas.Document.Depth
import ComponentAtlas.Document.Normalize
import ComponentAtlas.Record.Step

/-!
# Desks with shared data

Scripts hand data on: what a record holds can be asked for and be set again
elsewhere, and a list that grows grows wherever it is held. So lists lie on the
desk under numbers, and records hold the numbers. Descriptors that are handed
out stay with their record in the same way, and change as they change there. The
records of earlier definitions stay on the desk, since something may refer to
them.

An item is displayed as a value when a value is wanted. An item that contains
itself has no value; its outer part is displayed.
-/

namespace ComponentAtlas.Script

open Record (PropDescriptor MethodDescriptor)

/-- What a record on a desk holds: a value, or a reference to something shared. -/
inductive Item where
  | value (v : Value)
  /-- The list of this number. -/
  | list (number : Nat)
  /-- A mapping of some of the props of the record of a number. -/
  | props (record : Nat) (keys : List Key)
  /-- A prop of the record of a number. -/
  | entry (record : Nat) (key : Key)
  /-- A method of the record of a number. -/
  | method (record : Nat) (name : String)
deriving Repr

structure Desk where
  lists : List (List Item) := []
  /-- The definitions so far, as items; a node is no datum and stands as null. -/
  subjects : List Item := []
  /-- The records before the present one, which has the next number. -/
  earlier : List (Record Item) := []
  record : Record Item := Record.blank .value

namespace Desk

def empty : Desk := {}

/-! ### Lists -/

def items (desk : Desk) (number : Nat) : List Item := desk.lists[number]?.getD []

/-- Lays a list down under the next number. -/
def newList (desk : Desk) (items : List Item) : Item × Desk :=
  (.list desk.lists.length, { desk with lists := desk.lists ++ [items] })

/-- Appends to the list of a number. -/
def append (desk : Desk) (number : Nat) (item : Item) : Desk :=
  { desk with lists := desk.lists.set number (desk.items number ++ [item]) }

/-- Holds a value; an array is laid down as a list. -/
def hold (desk : Desk) : Value → Item × Desk
  | .array values => desk.newList (values.map .value)
  | v => (.value v, desk)

theorem items_newList (desk : Desk) (held : List Item) (number : Nat) :
    (desk.newList held).2.items number =
      if number = desk.lists.length then held else desk.items number := by
  simp only [newList, items, List.getElem?_append]
  split
  · next h => rw [if_neg (by omega)]
  · next h =>
    split
    · next he => simp [he]
    · next he =>
      rw [List.getElem?_eq_none (by simp; omega), List.getElem?_eq_none (by omega)]

theorem items_append (desk : Desk) (number other : Nat) (item : Item)
    (h : number < desk.lists.length) :
    (desk.append number item).items other =
      if other = number then desk.items number ++ [item] else desk.items other := by
  simp only [append, items, List.getElem?_set]
  by_cases he : other = number
  · subst he; simp [h]
  · have hn : ¬ number = other := fun e => he e.symm
    simp [he, hn]

/-! ### Records -/

/-- The number of the present record. -/
def current (desk : Desk) : Nat := desk.earlier.length

def recordOf (desk : Desk) (number : Nat) : Record Item :=
  (desk.earlier ++ [desk.record])[number]?.getD desk.record

theorem recordOf_current (desk : Desk) : desk.recordOf desk.current = desk.record := by
  simp [recordOf, current]

/-- The present definition. -/
def subject (desk : Desk) : Item := desk.subjects.getLastD (.value .null)

/-- Makes the desk ready for a definition that is shown by the value `v`. -/
def start (desk : Desk) (v : Value) : Desk :=
  let (subject, desk) := desk.hold v
  { desk with
    subjects := desk.subjects ++ [subject]
    earlier := desk.earlier ++ [desk.record]
    record := Record.blank .value }

def entryOf (desk : Desk) (number : Nat) (key : Key) : PropDescriptor Item :=
  ((desk.recordOf number).props.get? key).getD {}

def methodOf (desk : Desk) (number : Nat) (name : String) : MethodDescriptor Item :=
  ((desk.recordOf number).methods.get? name).getD { name := name }

/-! ### What lies in items -/

/-- The items that lie directly in an item. -/
def parts (desk : Desk) : Item → List Item
  | .value _ => []
  | .list number => desk.items number
  | .props number keys => keys.map (.entry number)
  | .entry number key => (desk.entryOf number key).data
  | .method number name => (desk.methodOf number name).data

/-- All of an item lies within some depth. -/
def endsWithin (desk : Desk) : (depth : Nat) → Item → Bool
  | 0, item => (desk.parts item).isEmpty
  | depth + 1, item => (desk.parts item).all (desk.endsWithin depth)

/-- The number of descriptors that can be handed out. -/
def descriptorCount (desk : Desk) : Nat :=
  (desk.earlier ++ [desk.record]).foldl (fun n r => n + r.props.length + r.methods.length) 0

/-- No item that does not contain itself reaches deeper: mappings lie between the others. -/
def deepest (desk : Desk) : Nat := 2 * (desk.lists.length + desk.descriptorCount) + 1

/-- The item does not contain itself. -/
def isFinite (desk : Desk) (item : Item) : Bool := desk.endsWithin desk.deepest item

/-! ### Levels -/

/-- The greatest number that `f` gives for an item of a list. -/
def highest {α : Type} (f : α → Nat) (items : List α) : Nat :=
  items.foldl (fun n item => max n (f item)) 0

/--
The number of levels on which something of an item lies, down to some depth. A
descriptor lies one level above its data; the mappings that its attributes are
make no level of their own.
-/
def levelsTo (desk : Desk) : (depth : Nat) → Item → Nat
  | _, .value v => v.height
  | 0, _ => 1
  | depth + 1, .list number => highest (desk.levelsTo depth) (desk.items number) + 1
  | depth + 1, .props number keys =>
    highest (fun key => desk.levelsTo depth (.entry number key)) keys + 1
  | depth + 1, .entry number key =>
    highest (desk.levelsTo depth) (desk.entryOf number key).data + 1
  | depth + 1, .method number name =>
    let m := desk.methodOf number name
    max (highest (desk.levelsTo depth) m.params)
      (highest (fun e => desk.levelsTo depth e.2) (m.returns.getD []) + 1)

/-- The number of levels of an item; one that contains itself has more than can be written. -/
def levels (desk : Desk) (item : Item) : Nat :=
  if desk.isFinite item then desk.levelsTo (desk.deepest + 1) item else Document.deepestLevel + 1

/-! ### Items as values -/

/-- How descriptors are displayed. -/
structure Form where
  entry : PropDescriptor Value → Value
  method : MethodDescriptor Value → Value

/-- With all attributes under their own names. -/
def Form.full : Form := ⟨PropDescriptor.toValue, MethodDescriptor.toValue⟩

/-- With the attributes that are present, under their public names, as in documents. -/
def Form.published : Form where
  entry := Document.entryValue
  method m := .object ([("name", .text m.name)] ++ Document.present "docblock" .text m.docblock ++
    [("modifiers", .array m.modifiers), ("params", .array m.params)] ++
    Document.present "returns" .object m.returns ++
    Document.present "description" .text m.description)

/-- With all attributes, and unlike every value that is no descriptor. -/
def Form.marked : Form where
  entry d := .array [.text "prop", d.toValue]
  method m := .array [.text "method", m.toValue]

/-- Displays an item down to some depth; what lies deeper stands as null. -/
def displayTo (form : Form) (desk : Desk) : (depth : Nat) → Item → Value
  | _, .value v => v
  | 0, _ => .null
  | depth + 1, .list number => .array ((desk.items number).map (desk.displayTo form depth))
  | depth + 1, .props number keys =>
    .object (keys.map fun key =>
      (Record.label key, desk.displayTo form depth (.entry number key)))
  | depth + 1, .entry number key =>
    form.entry ((desk.entryOf number key).map (desk.displayTo form depth))
  | depth + 1, .method number name =>
    form.method ((desk.methodOf number name).map (desk.displayTo form depth))

/-- The depth to which items that contain themselves are displayed. -/
def outer : Nat := 3

/-- The value of an item; of one that contains itself, the outer part. -/
def display (form : Form) (desk : Desk) (item : Item) : Value :=
  desk.displayTo form (if desk.isFinite item then desk.deepest + 1 else outer) item

/-- Items as the data of a record. -/
def view (desk : Desk) : View Item where
  value := desk.display .full
  list?
    | .list number => some (desk.items number)
    | .value v => (View.values.list? v).map (·.map .value)
    | _ => none
  mapping?
    | .props number keys => some (keys.map fun key => (key, .entry number key))
    | .value v => (View.values.mapping? v).map (·.map fun e => (e.1, .value e.2))
    | _ => none

end Desk

end ComponentAtlas.Script
