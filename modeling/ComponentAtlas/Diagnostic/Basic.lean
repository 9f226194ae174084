import ComponentAtlas.Data.Datum
import ComponentAtlas.Diagnostic.Category

/-!
# Reports

A report has a category, a message, and a context: data by key in the order in
which they were added. Its text is the message, followed by the context in
brackets when there is any. The reports of the library have texts as messages;
a report from elsewhere may have any datum, which has no text of its own.
-/

namespace ComponentAtlas

structure Diagnostic where
  category : Diagnostic.Category
  message : Datum
  context : Keyed Key Datum := []
deriving Repr

namespace Diagnostic

def text (d : Diagnostic) : String :=
  if d.context.isEmpty then d.message.plain
  else
    let entries := d.context.map fun entry =>
      (Datum.ofValue entry.1.toValue).plain ++ "=" ++ entry.2.plain
    d.message.plain ++ " [Context: " ++ ", ".intercalate entries ++ "]"

/-- The report has a text: its message is one, or is worded together with the context. -/
def hasText (d : Diagnostic) : Bool := !d.context.isEmpty || d.message.kind == .text

def add (d : Diagnostic) (key : Key) (value : Datum) : Diagnostic :=
  { d with context := d.context.put key value }

/-- Adds the data that are given; an absent datum leaves no trace. -/
def addGiven (d : Diagnostic) (entries : Keyed String Datum) : Diagnostic :=
  entries.foldl
    (fun d entry =>
      match entry.2 with
      | .null => d
      | value => d.add (.text entry.1) value)
    d

theorem text_of_empty_context (c : Category) (m : String) :
    ({ category := c, message := .text m } : Diagnostic).text = m := rfl

/-! ### Messages -/

def missingParameterMessage (parameter : Datum) : String :=
  "Required parameter '" ++ parameter.plain ++ "' is missing"

def invalidParameterMessage (parameter value expected : Datum) : String :=
  "Invalid value for parameter '" ++ parameter.plain ++ "': " ++ value.quoted ++
    ". Expected: " ++ expected.plain

def invalidTypeMessage (parameter value : Datum) (expected : String) : String :=
  "Invalid type for parameter '" ++ parameter.plain ++ "': " ++ value.kind.word ++
    ". Expected: " ++ expected

def invalidConfigurationMessage (setting value reason : Datum) : String :=
  "Invalid configuration setting '" ++ setting.plain ++ "': " ++ value.plain ++
    ". Reason: " ++ reason.plain

def unsupportedDialectMessage (dialect : Datum) : String :=
  "Unsupported dialect: '" ++ dialect.plain ++ "'"

def missingDefinitionMessage : String := "No suitable component definition found."

def multipleDefinitionsMessage : String := "Multiple exported component definitions found."

/-! ### The reports of the library -/

def missingParameter (parameter : Datum) : Diagnostic :=
  addGiven ⟨.missingParameter, .text (missingParameterMessage parameter), []⟩
    [("parameter", parameter)]

def invalidParameter (parameter : String) (value : Datum) (expected : String) : Diagnostic :=
  addGiven ⟨.invalidParameter,
      .text (invalidParameterMessage (.text parameter) value (.text expected)), []⟩
    [("parameter", .text parameter), ("expected", .text expected)]

def invalidType (parameter value : Datum) (expected : String) : Diagnostic :=
  addGiven ⟨.invalidType, .text (invalidTypeMessage parameter value expected), []⟩
    [("parameter", parameter), ("expected", .text expected)]

def invalidConfiguration (setting : String) (value : Datum) (reason : String) : Diagnostic :=
  addGiven ⟨.invalidConfiguration,
      .text (invalidConfigurationMessage (.text setting) value (.text reason)), []⟩
    [("setting", .text setting), ("value", value), ("reason", .text reason)]

/-- A syntax error, with the damaged text and its line and column where they are known. -/
def syntaxError (dialect : String) (damage : Option (String × Nat × Nat)) : Diagnostic :=
  let context : Keyed String Datum :=
    match damage with
    | some (snippet, line, column) =>
      [("code_snippet", .text snippet), ("position", .tuple [.int line, .int column])]
    | none => []
  addGiven ⟨.parsing, .text ("Syntax error in " ++ dialect ++ " source"), []⟩ context

def unsupportedDialect (dialect : String) : Diagnostic :=
  addGiven ⟨.unsupportedDialect, .text (unsupportedDialectMessage (.text dialect)), []⟩
    [("dialect", .text dialect)]

def missingDefinition : Diagnostic := ⟨.missingDefinition, .text missingDefinitionMessage, []⟩

def multipleDefinitions (count : Nat) : Diagnostic :=
  addGiven ⟨.multipleDefinitions, .text multipleDefinitionsMessage, []⟩ [("count", .int count)]

end Diagnostic

end ComponentAtlas
