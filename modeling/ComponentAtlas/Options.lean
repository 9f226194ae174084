import ComponentAtlas.Dialect
import ComponentAtlas.Failure
import ComponentAtlas.Schema
import ComponentAtlas.Settings

/-!
# Parser options

Options say in which dialect a source is written and whether a source with
syntax errors is refused. What is not given is taken from the settings.
-/

namespace ComponentAtlas

structure Options where
  dialect : Dialect
  strict : Bool
deriving DecidableEq, Repr

namespace Options

/-- What a caller may give as options. -/
inductive Given where
  | nothing
  | ready (options : Options)
  | value (v : Value)

def dialectField : Schema.Field := ⟨"dialect", "dialect"⟩

def strictField : Schema.Field := ⟨"strict", "strict"⟩

def dialectOf? (v : Value) : Option Dialect := v.asText?.bind Dialect.ofCode?

def readDialect (v : Value) : Checked Dialect :=
  match dialectOf? v with
  | some dialect => pure dialect
  | none => .bad .javascript .notAChoice

/-- The dialect of the settings, which may hold a value that names none. -/
def configuredDialect (settings : Settings) : Except Diagnostic Dialect :=
  let v := settings.get (.text "parsing") (.text "dialect") (.text Dialect.javascript.code)
  match dialectOf? v with
  | some dialect => .ok dialect
  | none => .error (.invalidConfiguration "parsing.dialect" v "no grammar for this dialect")

def configuredStrict (settings : Settings) : Bool :=
  (settings.get (.text "parsing") (.text "strict") (.bool false)).isTruthy

/-- Reads given fields, with defaults for those that are absent. -/
def readFields (defaults : Options) (fields : Keyed String Value) : Checked Options := do
  let dialect ← dialectField.read defaults.dialect readDialect fields
  let strict ← strictField.read defaults.strict Schema.readTruth fields
  Schema.refuseOthers [dialectField, strictField] fields
  pure ⟨dialect, strict⟩

/--
Options from given fields. The dialect of the settings is asked for only when no
dialect is given; when it is unknown, that is the only thing reported.
-/
def ofFields (settings : Settings) (fields : Keyed String Value) : Except Failure Options :=
  let strict := configuredStrict settings
  match dialectField.given? fields with
  | some _ => (readFields ⟨.javascript, strict⟩ fields).result
  | none =>
    match configuredDialect settings with
    | .ok dialect => (readFields ⟨dialect, strict⟩ fields).result
    | .error report => .error (.reported report)

def ofGiven (settings : Settings) : Given → Except Failure Options
  | .nothing => ofFields settings []
  | .ready options => .ok options
  | .value .null => ofFields settings []
  | .value (.object fields) => ofFields settings fields
  | .value _ => .error (.invalid [⟨[], .notRecord⟩])

/-- Options made from named arguments, which only a mapping can be taken for. -/
def ofArguments (settings : Settings) : Value → Except Failure Options
  | .object fields => ofFields settings fields
  | _ => .error (.misuse .unsuitable)

/-- Options do not change; setting an attribute is refused unless it is a passing one. -/
def setAttribute (name : Value) : Except Failure Unit :=
  match name with
  | .text name =>
    if Schema.isPassing name then .ok () else .error (.invalid [⟨[.name name], .readOnly⟩])
  | _ => .error (.misuse .unsuitable)

end Options

end ComponentAtlas
