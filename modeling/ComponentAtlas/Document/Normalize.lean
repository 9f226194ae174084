import ComponentAtlas.Document.Draft
import ComponentAtlas.Document.Schema
import ComponentAtlas.Failure
import ComponentAtlas.Settings
import ComponentAtlas.Text.Characters

/-!
# Normal form

A draft becomes a document by losing all that is empty. Descriptions lose the
blanks at their ends when trimming is on; a prop with a default value is not
required; a composed source counts once. What remains has to fit the shape of a
document.
-/

namespace ComponentAtlas

open Record (PropDescriptor MethodDescriptor)

namespace Draft

/-! ### Emptiness -/

def nonEmptyText (s : String) : Option String := if s = "" then none else some s

def nonEmptyList {α : Type} : List α → Option (List α)
  | [] => none
  | items => some items

def cleanText (trim : Bool) (s : String) : Option String :=
  nonEmptyText (if trim then Text.trim s else s)

/--
The description of a component. Only a text can be trimmed; without trimming a
value of another shape is kept to be refused later, unless it counts for nothing.
-/
def cleanDescription (trim : Bool) : Value → Except Failure Value
  | .null => .ok .null
  | .text s => .ok (Record.optionValue .text (cleanText trim s))
  | v =>
    if trim then .error (.misuse .noSuchPart)
    else .ok (if v.isTruthy then v else .null)

def cleanEntry (trim : Bool) (d : PropDescriptor Value) : PropDescriptor Value where
  type := d.type.bind nonEmptyList
  flowType := d.flowType.bind nonEmptyList
  tsType := d.tsType.bind nonEmptyList
  required := if (d.defaultValue.bind nonEmptyList).isSome then some false else d.required
  description := d.description.bind (cleanText trim)
  defaultValue := d.defaultValue.bind nonEmptyList

def cleanEntries (trim : Bool) (entries : Keyed Key (PropDescriptor Value)) :
    Keyed Key (PropDescriptor Value) :=
  entries.map fun e => (e.1, cleanEntry trim e.2)

def cleanExtra (entries : Keyed Key Value) : Keyed Key Value :=
  entries.filter fun e => !e.2.isEmpty

/-- The values that differ in content, each where it comes first. -/
def distinct (values : List Value) : List Value := values.eraseDupsBy Value.same

/-! ### Checks on what remains -/

section

variable {ν : Type} (view : View ν)

def checkMethod (trim : Bool) (m : MethodDescriptor ν) : Checked MethodEntry := do
  let name ←
    match nonEmptyText m.name with
    | some name => pure name
    | none => (Checked.bad "" .missing).under (.name "name")
  let modifiers ← (Schema.readItems (Schema.takeText view) m.modifiers).under (.name "modifiers")
  let params ← (Schema.readItems (Schema.takeMapping view) m.params).under (.name "params")
  pure
    { name, modifiers
      params := params.map (Record.mapData view.value)
      docblock := m.docblock.bind (cleanText trim)
      returns := (m.returns.bind nonEmptyList).map (Record.mapData view.value)
      description := m.description.bind (cleanText trim) }

def checkMethodsFrom (trim : Bool) :
    (i : Nat) → List (MethodDescriptor ν) → Checked (List MethodEntry)
  | _, [] => pure []
  | i, m :: rest => do
    let entry ← (checkMethod view trim m).under (.index i)
    let entries ← checkMethodsFrom trim (i + 1) rest
    pure (entry :: entries)

/-- Reads a text unless there is nothing to read. -/
def checkText (v : Value) : Checked (Option String) :=
  if v.isEmpty then pure none else some <$> Schema.readText v

/-- Entries by name, unless there are none. -/
def checkKeys {α : Type} (entries : Keyed Key α) : Checked (Option (Keyed String α)) :=
  nonEmptyList <$> Schema.readKeys entries

/-- The document of a draft whose description is clean. -/
def check (trim : Bool) (description : Value) (d : Draft ν) : Checked Document := do
  let description ← (checkText description).under (.name "description")
  let displayName ← (checkText d.displayName).under (.name "display_name")
  let props ← (checkKeys (cleanEntries trim d.props)).under (.name "props")
  let context ← (checkKeys (cleanEntries trim d.context)).under (.name "context")
  let childContext ← (checkKeys (cleanEntries trim d.childContext)).under (.name "child_context")
  let methods ← (checkMethodsFrom view trim 0 d.methods).under (.name "methods")
  let composes ← (Schema.readItems Schema.readText (distinct d.composes)).under (.name "composes")
  let extra ← (checkKeys (cleanExtra d.extra)).under (.name "extra")
  pure
    { description, displayName, props, context, childContext, extra
      methods := nonEmptyList methods
      composes := nonEmptyList composes }

def normalize (trim : Bool) (d : Draft ν) : Except Failure Document := do
  let description ← cleanDescription trim d.description
  (check view trim description d).result

end

end Draft

namespace Document

/-- The document of a record. -/
def ofRecord (trim : Bool) (r : Record Value) : Except Failure Document :=
  (Draft.ofRecord r).normalize .values trim

/-- The normal form of a document. -/
def renormalize (trim : Bool) (d : Document) : Except Failure Document :=
  (Draft.ofDocument d).normalize .values trim

/-- The document of a mapping, which is read as a document first. -/
def ofFields (trim : Bool) (given : Keyed String Value) : Except Failure Document := do
  let read ← (readFields given).result
  read.renormalize trim

/-- The report on something that is no record, no document and no mapping. -/
def notDocumentation (v : Value) : Failure :=
  .reported (.invalidType (.text "documentation") v "Documentation, DocumentationObject, dict")

def ofValue (trim : Bool) : Value → Except Failure Document
  | .object given => ofFields trim given
  | v => .error (notDocumentation v)

/-- Normalizing the document again changes nothing, in content or in text. -/
def isSettled (trim : Bool) (d : Document) : Bool :=
  match d.renormalize trim with
  | .ok again => again = d && again.toJson none = d.toJson none
  | .error _ => false

end Document

end ComponentAtlas
