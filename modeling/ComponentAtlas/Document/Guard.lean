import ComponentAtlas.Document.Basic
import ComponentAtlas.Failure
import ComponentAtlas.Schema

/-!
# Documents do not change

Attempts to change a finished document. None has an effect, and nearly all are
refused: attributes of documents and entries are read-only unless they are
passing ones, and the other parts cannot be assigned to at all.
-/

namespace ComponentAtlas.Document

abbrev Verdict := Except Failure Unit

/-- Setting an attribute of a document or an entry, whether there is such an attribute or not. -/
def setAttribute : Value → Verdict
  | .text name =>
    if Schema.isPassing name then .ok () else .error (.invalid [⟨[.name name], .readOnly⟩])
  | _ => .error (.misuse .unsuitable)

/-- Setting an attribute of a part that takes none. -/
def setOnValue : Value → Verdict
  | .text _ => .error (.misuse .noSuchPart)
  | _ => .error (.misuse .unsuitable)

/-- Setting an item of a slot. -/
def setItem : (slot : Value) → Verdict
  | .text name =>
    match Slot.ofName? name with
    | some _ => .error (.misuse .unsuitable)
    | none => .error (.misuse .noSuchPart)
  | _ => .error (.misuse .unsuitable)

/-- What becomes of the item at `key` of a sequence of the given length. -/
def atIndex (length : Nat) (found : Verdict) : (key : Value) → Verdict
  | .int i => within i
  | .bool b => within (if b then 1 else 0)
  | _ => .error (.misuse .unsuitable)
where
  /-- Negative indices count from the end. -/
  within (i : Int) : Verdict :=
    if -(length : Int) ≤ i && i < length then found else .error (.misuse .outOfRange)

/-- What becomes of the entry at `key` of a mapping with the given names. -/
def atName (names : List String) (found : Verdict) : (key : Value) → Verdict
  | .text name => if names.contains name then found else .error (.misuse .unknownKey)
  | .array _ | .object _ => .error (.misuse .unsuitable)
  | _ => .error (.misuse .unknownKey)

/-- A slot that may be absent; there is nothing to look up in an absent one. -/
def inSlot {α : Type} (slot : Option α) (find : α → Verdict) : Verdict :=
  match slot with
  | some content => find content
  | none => .error (.misuse .unsuitable)

/-- Setting the attribute `name` of the entry of a slot at `key`. -/
def setInSlot (d : Document) (key name : Value) : Slot → Verdict
  | .props => inSlot d.props fun es => atName es.keys (setAttribute name) key
  | .context => inSlot d.context fun es => atName es.keys (setAttribute name) key
  | .childContext => inSlot d.childContext fun es => atName es.keys (setAttribute name) key
  | .extra => inSlot d.extra fun es => atName es.keys (setOnValue name) key
  | .methods => inSlot d.methods fun ms => atIndex ms.length (setAttribute name) key
  | .composes => inSlot d.composes fun ss => atIndex ss.length (setOnValue name) key
  | .description => inSlot d.description fun s => atIndex s.length (setOnValue name) key
  | .displayName => inSlot d.displayName fun s => atIndex s.length (setOnValue name) key

/-- Setting an attribute of the entry at `key` of the slot of a name. -/
def setEntry (d : Document) (slot key name : Value) : Verdict :=
  match slot with
  | .text slot =>
    match Slot.ofName? slot with
    | some slot => d.setInSlot key name slot
    | none => .error (.misuse .noSuchPart)
  | _ => .error (.misuse .unsuitable)

end ComponentAtlas.Document
