import ComponentAtlas.Document.Basic

/-!
# Reading documents

A document can be read from a mapping. Each field may be given under its public
name or under its own name. The document itself takes no further fields, while
those of entries and methods are passed over.
-/

namespace ComponentAtlas.Document

open Record (PropDescriptor)
open Schema

/-! ### Entries -/

def typeField : Field := ⟨"type", "type"⟩

def flowTypeField : Field := ⟨"flowType", "flow_type"⟩

def tsTypeField : Field := ⟨"tsType", "ts_type"⟩

def requiredField : Field := ⟨"required", "required"⟩

def descriptionField : Field := ⟨"description", "description"⟩

def defaultValueField : Field := ⟨"defaultValue", "default_value"⟩

def readEntryFields (fields : Keyed String Value) : Checked (PropDescriptor Value) := do
  let type ← typeField.read none (readOptional readMapping) fields
  let flowType ← flowTypeField.read none (readOptional readMapping) fields
  let tsType ← tsTypeField.read none (readOptional readMapping) fields
  let required ← requiredField.read none (readOptional readTruth) fields
  let description ← descriptionField.read none (readOptional readText) fields
  let defaultValue ← defaultValueField.read none (readOptional readMapping) fields
  pure { type, flowType, tsType, required, description, defaultValue }

def readEntry : Value → Checked (PropDescriptor Value)
  | .object fields => readEntryFields fields
  | _ => .bad {} .notRecord

def readEntryMap : Value → Checked (Keyed String (PropDescriptor Value))
  | .object fields => readEntries readEntry fields
  | _ => .bad [] .notMapping

/-! ### Methods -/

def nameField : Field := ⟨"name", "name"⟩

def docblockField : Field := ⟨"docblock", "docblock"⟩

def modifiersField : Field := ⟨"modifiers", "modifiers"⟩

def paramsField : Field := ⟨"params", "params"⟩

def returnsField : Field := ⟨"returns", "returns"⟩

def readMethodFields (fields : Keyed String Value) : Checked MethodEntry := do
  let name ← nameField.require "" readText fields
  let docblock ← docblockField.read none (readOptional readText) fields
  let modifiers ← modifiersField.read [] (readSequence .notSequence readText) fields
  let params ← paramsField.read [] (readSequence .notSequence readMapping) fields
  let returns ← returnsField.read none (readOptional readMapping) fields
  let description ← descriptionField.read none (readOptional readText) fields
  pure { name, docblock, modifiers, params, returns, description }

def readMethod : Value → Checked MethodEntry
  | .object fields => readMethodFields fields
  | _ => .bad { name := "" } .notRecord

/-! ### Documents -/

def displayNameField : Field := ⟨"displayName", "display_name"⟩

def propsField : Field := ⟨"props", "props"⟩

def contextField : Field := ⟨"context", "context"⟩

def childContextField : Field := ⟨"childContext", "child_context"⟩

def methodsField : Field := ⟨"methods", "methods"⟩

def composesField : Field := ⟨"composes", "composes"⟩

def extraField : Field := ⟨"extra", "extra"⟩

def fields : List Field :=
  [descriptionField, displayNameField, propsField, contextField, childContextField, methodsField,
    composesField, extraField]

def readFields (given : Keyed String Value) : Checked Document := do
  let description ← descriptionField.read none (readOptional readText) given
  let displayName ← displayNameField.read none (readOptional readText) given
  let props ← propsField.read none (readOptional readEntryMap) given
  let context ← contextField.read none (readOptional readEntryMap) given
  let childContext ← childContextField.read none (readOptional readEntryMap) given
  let methods ← methodsField.read none (readOptional (readSequence .notSequence readMethod)) given
  let composes ← composesField.read none (readOptional (readSequence .notSequence readText)) given
  let extra ← extraField.read none (readOptional readMapping) given
  refuseOthers fields given
  pure { description, displayName, props, context, childContext, methods, composes, extra }

end ComponentAtlas.Document
