import ComponentAtlas.Failure

/-!
# Reports from arguments

A report of any category can be put together from positional and named
arguments. Each category has parameters, some of which must be given; the
categories that are not closed take further named arguments, which go into the
context. A specific category words its message and hands the rest to the
category above it.
-/

namespace ComponentAtlas.Diagnostic

structure Parameter where
  name : String
  needed : Bool

namespace Category

def parameters : Category → List Parameter
  | .general | .configuration | .resolution => [⟨"message", true⟩]
  | .validation => [⟨"message", true⟩, ⟨"parameter", false⟩, ⟨"value", false⟩, ⟨"expected", false⟩]
  | .missingParameter => [⟨"parameter", true⟩]
  | .invalidParameter => [⟨"parameter", true⟩, ⟨"value", true⟩, ⟨"expected", true⟩]
  | .invalidType => [⟨"parameter", true⟩, ⟨"value", true⟩, ⟨"expected_type", true⟩]
  | .invalidConfiguration => [⟨"setting", true⟩, ⟨"value", true⟩, ⟨"reason", true⟩]
  | .parsing => [⟨"message", true⟩, ⟨"code_snippet", false⟩, ⟨"position", false⟩]
  | .unsupportedDialect => [⟨"dialect", true⟩]
  | .missingDefinition => []
  | .multipleDefinitions => [⟨"count", false⟩]

def isClosed : Category → Bool
  | .missingDefinition | .multipleDefinitions => true
  | _ => false

end Category

/-- Arguments sorted out: those for parameters, and the further named ones in order. -/
structure Arguments where
  bound : Keyed String Datum
  further : Keyed String Datum

namespace Arguments

def value (arguments : Arguments) (name : String) : Datum := (arguments.bound.get? name).getD .null

/-- Gives each parameter at most one argument; positional arguments come first. -/
def bind (category : Category) (positional : List Datum) (named : Keyed String Datum) :
    Except Failure Arguments := do
  let parameters := category.parameters
  if parameters.length < positional.length then throw (.misuse .unsuitable)
  let first := (parameters.map Parameter.name).zip positional
  let arguments ← named.foldlM
    (fun (arguments : Arguments) entry =>
      if arguments.bound.keys.contains entry.1 || arguments.further.keys.contains entry.1 then
        throw (.misuse .unsuitable)
      else if parameters.any (·.name == entry.1) then
        pure { arguments with bound := arguments.bound ++ [entry] }
      else if category.isClosed then throw (.misuse .unsuitable)
      else pure { arguments with further := arguments.further ++ [entry] })
    ⟨first, []⟩
  if parameters.any fun p => p.needed && !arguments.bound.keys.contains p.name then
    throw (.misuse .unsuitable)
  pure arguments

end Arguments

/-- Reads an item as a pair of a key and a datum. -/
def readPair (item : Datum) : Except Failure (Key × Datum) :=
  match item.listed? with
  | some [key, value] =>
    match key.key? with
    | some key => .ok (key, value)
    | none => .error (.misuse .unsuitable)
  | some _ => .error (.misuse .wrongLength)
  | none => .error (.misuse .unsuitable)

/-- The entries that an argument named `context` stands for: a mapping, or pairs. -/
def contextOf : Datum → Except Failure (List (Key × Datum))
  | .mapping fields => pure (fields.map fun f => (.text f.1, f.2))
  | d =>
    match d.listed? with
    | some items => items.mapM readPair
    | none => throw (.misuse .unsuitable)

/-- A report whose named arguments all go into the context, after the entries of `context`. -/
def withContext (category : Category) (message : Datum) (named : Keyed String Datum) :
    Except Failure Diagnostic := do
  let context ← match named.get? "context" with
    | some given => contextOf given
    | none => pure []
  let start := context.foldl (fun (d : Diagnostic) entry => d.add entry.1 entry.2)
    ⟨category, message, []⟩
  pure (start.addGiven (named.filter (·.1 != "context")))

/-- The word for the shape that a datum is. -/
def shapeWord : Datum → Except Failure String
  | .shape s => .ok s.word
  | _ => .error (.misuse .noSuchPart)

/-- Words the expectation that a shape, several shapes or a text stand for. -/
def expectation : Datum → Except Failure String
  | .text s => .ok s
  | .tuple items => do
    let words ← items.mapM shapeWord
    pure (", ".intercalate words)
  | d => shapeWord d

/-- A report of `category` or below it, from the arguments of the general category. -/
def ofGeneral (category : Category) (positional : List Datum) (named : Keyed String Datum) :
    Except Failure Diagnostic := do
  let arguments ← Arguments.bind .general positional named
  withContext category (arguments.value "message") arguments.further

def ofValidation (category : Category) (positional : List Datum) (named : Keyed String Datum) :
    Except Failure Diagnostic := do
  let arguments ← Arguments.bind .validation positional named
  ofGeneral category [arguments.value "message"]
    ([("parameter", arguments.value "parameter"), ("expected", arguments.value "expected")] ++
      arguments.further)

def ofParsing (category : Category) (positional : List Datum) (named : Keyed String Datum) :
    Except Failure Diagnostic := do
  let arguments ← Arguments.bind .parsing positional named
  ofGeneral category [arguments.value "message"]
    ([("code_snippet", arguments.value "code_snippet"), ("position", arguments.value "position")] ++
      arguments.further)

def build (category : Category) (positional : List Datum) (named : Keyed String Datum) :
    Except Failure Diagnostic := do
  match category with
  | .general | .configuration | .resolution => ofGeneral category positional named
  | .validation => ofValidation category positional named
  | .parsing => ofParsing category positional named
  | .missingParameter =>
    let arguments ← Arguments.bind category positional named
    let parameter := arguments.value "parameter"
    ofValidation category [.text (missingParameterMessage parameter)]
      (("parameter", parameter) :: arguments.further)
  | .invalidParameter =>
    let arguments ← Arguments.bind category positional named
    let parameter := arguments.value "parameter"
    let value := arguments.value "value"
    let expected := arguments.value "expected"
    ofValidation category [.text (invalidParameterMessage parameter value expected)]
      ([("parameter", parameter), ("value", value), ("expected", expected)] ++ arguments.further)
  | .invalidType =>
    let arguments ← Arguments.bind category positional named
    let parameter := arguments.value "parameter"
    let value := arguments.value "value"
    let expected ← expectation (arguments.value "expected_type")
    ofValidation category [.text (invalidTypeMessage parameter value expected)]
      ([("parameter", parameter), ("value", value), ("expected", .text expected)] ++
        arguments.further)
  | .invalidConfiguration =>
    let arguments ← Arguments.bind category positional named
    let setting := arguments.value "setting"
    let value := arguments.value "value"
    let reason := arguments.value "reason"
    ofGeneral category [.text (invalidConfigurationMessage setting value reason)]
      ([("setting", setting), ("value", value), ("reason", reason)] ++ arguments.further)
  | .unsupportedDialect =>
    let arguments ← Arguments.bind category positional named
    let dialect := arguments.value "dialect"
    ofParsing category [.text (unsupportedDialectMessage dialect)]
      (("dialect", dialect) :: arguments.further)
  | .missingDefinition =>
    let _ ← Arguments.bind category positional named
    pure missingDefinition
  | .multipleDefinitions =>
    let arguments ← Arguments.bind category positional named
    ofGeneral category [.text multipleDefinitionsMessage] [("count", arguments.value "count")]

theorem build_missingDefinition : build .missingDefinition [] [] = .ok missingDefinition := rfl

theorem build_unsupportedDialect (dialect : String) :
    build .unsupportedDialect [.text dialect] [] = .ok (unsupportedDialect dialect) := rfl

end ComponentAtlas.Diagnostic
