import ComponentAtlas.Data.Datum
import ComponentAtlas.Diagnostic.Basic
import ComponentAtlas.Text.LowerCase

/-!
# Dialects

The dialects in which a source may be written. Each is known by one code.
-/

namespace ComponentAtlas

inductive Dialect where
  | javascript
  | typescript
  | tsx
deriving DecidableEq, Repr

namespace Dialect

def code : Dialect → String
  | .javascript => "javascript"
  | .typescript => "typescript"
  | .tsx => "tsx"

def all : List Dialect := [.javascript, .typescript, .tsx]

def ofCode? (code : String) : Option Dialect := all.find? fun d => d.code == code

/-- The dialect that a value names, whatever the case of its letters. -/
def ofValue (v : Value) : Except Diagnostic Dialect :=
  let code := Text.lowerCase (Datum.ofValue v).plain
  match ofCode? code with
  | some dialect => .ok dialect
  | none => .error (.unsupportedDialect code)

theorem ofCode?_code (d : Dialect) : ofCode? d.code = some d := by cases d <;> decide

theorem code_of_ofCode? {code : String} {d : Dialect} (h : ofCode? code = some d) :
    d.code = code := by
  have := List.find?_some h
  simpa using this

end Dialect

end ComponentAtlas
