import ComponentAtlas.Record.Descriptor

/-!
# Documentation records

What is written down about one component while it is examined. Entries are kept
by key, in the order in which the keys were first asked for; asking for the
entry of a known key gives the entry that is there. What is written down without
being looked into is of any type `ν`, which is `Value` unless data are shared.
-/

namespace ComponentAtlas

open Record

structure Record (ν : Type) where
  description : ν
  displayName : ν
  props : Keyed Key (PropDescriptor ν) := []
  context : Keyed Key (PropDescriptor ν) := []
  childContext : Keyed Key (PropDescriptor ν) := []
  methods : Keyed String (MethodDescriptor ν) := []
  composes : List ν := []
  extra : Keyed Key ν := []
deriving DecidableEq, Repr

namespace Record

variable {ν μ : Type}

/-- A record on which nothing is written yet; `hold` is how it holds values. -/
def blank (hold : Value → ν) : Record ν where
  description := hold (.text "")
  displayName := hold .null

def empty : Record Value := blank id

/-- The same record with its data taken in another way. -/
def map (f : ν → μ) (r : Record ν) : Record μ where
  description := f r.description
  displayName := f r.displayName
  props := r.props.map fun e => (e.1, e.2.map f)
  context := r.context.map fun e => (e.1, e.2.map f)
  childContext := r.childContext.map fun e => (e.1, e.2.map f)
  methods := r.methods.map fun m => (m.1, m.2.map f)
  composes := r.composes.map f
  extra := r.extra.map fun e => (e.1, f e.2)

/-- The slots that hold entries of the shape of props. -/
inductive EntrySlot where
  | props
  | context
  | childContext
deriving DecidableEq, Repr

def entries (r : Record ν) : EntrySlot → Keyed Key (PropDescriptor ν)
  | .props => r.props
  | .context => r.context
  | .childContext => r.childContext

def withEntries (r : Record ν) (slot : EntrySlot) (entries : Keyed Key (PropDescriptor ν)) :
    Record ν :=
  match slot with
  | .props => { r with props := entries }
  | .context => { r with context := entries }
  | .childContext => { r with childContext := entries }

theorem entries_withEntries (r : Record ν) (slot other : EntrySlot)
    (e : Keyed Key (PropDescriptor ν)) :
    (r.withEntries slot e).entries other = if other = slot then e else r.entries other := by
  cases slot <;> cases other <;> rfl

/-- The entry of `key`, and the record in which it is present. -/
def entryOf (r : Record ν) (slot : EntrySlot) (key : Key) : PropDescriptor ν × Record ν :=
  let (descriptor, entries) := (r.entries slot).getOrAdd key {}
  (descriptor, r.withEntries slot entries)

/-- The descriptor of the method `name`, and the record in which it is present. -/
def methodOf (r : Record ν) (name : String) : MethodDescriptor ν × Record ν :=
  let (descriptor, methods) := r.methods.getOrAdd name { name := name }
  (descriptor, { r with methods := methods })

/-- The data of all descriptors. -/
def descriptorData (r : Record ν) : List ν :=
  (r.props ++ r.context ++ r.childContext).flatMap (fun e => e.2.data) ++
    r.methods.flatMap fun m => m.2.data

/-- The free-form data under `key`, or `default` when there are none. -/
def get (r : Record ν) (key : Key) (default : ν) : ν := (r.extra.get? key).getD default

def set (r : Record ν) (key : Key) (v : ν) : Record ν := { r with extra := r.extra.put key v }

def compose (r : Record ν) (source : ν) : Record ν := { r with composes := r.composes ++ [source] }

/-! ### The record as a value -/

/-- A mapping as the pairs of its keys and what is kept under them, in order. -/
def pairs {α : Type} (write : α → Value) (entries : Keyed Key α) : Value :=
  .array (entries.map fun e => .array [e.1.toValue, write e.2])

def methodsValue (methods : Keyed String (MethodDescriptor Value)) : Value :=
  .array (methods.map fun m => m.2.toValue)

/-- All slots by name, empty ones included; mappings are listed as pairs. -/
def toFields (r : Record Value) : Keyed String Value :=
  [("description", r.description), ("display_name", r.displayName),
    ("props", pairs PropDescriptor.toValue r.props),
    ("context", pairs PropDescriptor.toValue r.context),
    ("child_context", pairs PropDescriptor.toValue r.childContext),
    ("methods", methodsValue r.methods), ("composes", .array r.composes),
    ("extra", pairs id r.extra)]

/-- The name that stands for a key where only texts are names. -/
def label (key : Key) : String := (Datum.ofValue key.toValue).plain

def labelled {α : Type} (write : α → Value) (entries : Keyed Key α) : Value :=
  .object (entries.map fun e => (label e.1, write e.2))

/-- All slots by name, as a mapping from which a document can be read. -/
def toMapping (r : Record Value) : Keyed String Value :=
  [("description", r.description), ("display_name", r.displayName),
    ("props", labelled PropDescriptor.toValue r.props),
    ("context", labelled PropDescriptor.toValue r.context),
    ("child_context", labelled PropDescriptor.toValue r.childContext),
    ("methods", methodsValue r.methods), ("composes", .array r.composes),
    ("extra", labelled id r.extra)]

end Record

end ComponentAtlas
