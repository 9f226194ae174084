import ComponentAtlas.Json.Printer
import ComponentAtlas.Record.Basic

/-!
# Documents

The finished documentation of one component. A slot that has nothing to say is
absent. As a value, a document has its slots under their public names, absent
ones left out; the two lists of a method are written even when they are empty.
-/

namespace ComponentAtlas

open Record (PropDescriptor)

structure MethodEntry where
  name : String
  docblock : Option String := none
  modifiers : List String := []
  params : List (Keyed String Value) := []
  returns : Option (Keyed String Value) := none
  description : Option String := none
deriving DecidableEq, Repr

structure Document where
  description : Option String := none
  displayName : Option String := none
  props : Option (Keyed String (PropDescriptor Value)) := none
  context : Option (Keyed String (PropDescriptor Value)) := none
  childContext : Option (Keyed String (PropDescriptor Value)) := none
  methods : Option (List MethodEntry) := none
  composes : Option (List String) := none
  extra : Option (Keyed String Value) := none
deriving DecidableEq, Repr

namespace Document

/-- A field that is written when it is present. -/
def present {α : Type} (name : String) (write : α → Value) : Option α → Keyed String Value
  | some a => [(name, write a)]
  | none => []

def entryValue (d : PropDescriptor Value) : Value :=
  .object (present "type" .object d.type ++ present "flowType" .object d.flowType ++
    present "tsType" .object d.tsType ++ present "required" .bool d.required ++
    present "description" .text d.description ++ present "defaultValue" .object d.defaultValue)

def entriesValue (entries : Keyed String (PropDescriptor Value)) : Value :=
  .object (entries.map fun e => (e.1, entryValue e.2))

def methodValue (m : MethodEntry) : Value :=
  .object ([("name", .text m.name)] ++ present "docblock" .text m.docblock ++
    [("modifiers", .array (m.modifiers.map .text)), ("params", .array (m.params.map .object))] ++
    present "returns" .object m.returns ++ present "description" .text m.description)

def toFields (d : Document) : Keyed String Value :=
  present "description" .text d.description ++ present "displayName" .text d.displayName ++
    present "props" entriesValue d.props ++ present "context" entriesValue d.context ++
    present "childContext" entriesValue d.childContext ++
    present "methods" (fun ms => .array (ms.map methodValue)) d.methods ++
    present "composes" (fun names => .array (names.map .text)) d.composes ++
    present "extra" .object d.extra

def toValue (d : Document) : Value := .object d.toFields

def toJson (d : Document) (layout : Json.Layout) : String := Json.print layout d.toValue

/-! ### Slots -/

inductive Slot where
  | childContext
  | composes
  | context
  | description
  | displayName
  | extra
  | methods
  | props
deriving DecidableEq, Repr

/-- All slots, in the order of their names. -/
def Slot.all : List Slot :=
  [.childContext, .composes, .context, .description, .displayName, .extra, .methods, .props]

def Slot.name : Slot → String
  | .childContext => "child_context"
  | .composes => "composes"
  | .context => "context"
  | .description => "description"
  | .displayName => "display_name"
  | .extra => "extra"
  | .methods => "methods"
  | .props => "props"

def Slot.ofName? (name : String) : Option Slot := Slot.all.find? fun s => s.name == name

def has (d : Document) : Slot → Bool
  | .childContext => d.childContext.isSome
  | .composes => d.composes.isSome
  | .context => d.context.isSome
  | .description => d.description.isSome
  | .displayName => d.displayName.isSome
  | .extra => d.extra.isSome
  | .methods => d.methods.isSome
  | .props => d.props.isSome

/-- The names of the slots that the document keeps. -/
def slots (d : Document) : List String := (Slot.all.filter d.has).map Slot.name

end Document

end ComponentAtlas
