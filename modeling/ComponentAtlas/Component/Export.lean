import ComponentAtlas.Component.Survey
import ComponentAtlas.Failure

/-!
# Exported components

A module exports values by export statements and by assignments to its exports
object. A value exported from another module is not one of its own. The exported
components are the definitions behind the exported values, each listed once, in
the order of the first export that leads to it.
-/

namespace ComponentAtlas.Component

open SourceTree

/-- The target of an assignment is the exports object or a member of it. -/
def isExportTarget (target : Option Cursor) : Bool :=
  match Path.segments target with
  | "module" :: "exports" :: _ => true
  | ["exports", _] => true
  | _ => false

/-- The values of the variables that a declaration declares. -/
def declaredValues (declaration : Cursor) : List (Option Cursor) :=
  (declaration.contents.filter fun d => d.kind == "variable_declarator").map (·.child? "value")

/-- The names in the export clauses of a statement. -/
def clauseNames (statement : Cursor) : List (Option Cursor) :=
  (statement.contents.filter fun clause => clause.kind == "export_clause").flatMap fun clause =>
    clause.contents.map (·.child? "name")

/-- The values that an export statement exports. -/
def exportedBy (statement : Cursor) : List (Option Cursor) :=
  match statement.child? "value", statement.child? "declaration" with
  | some value, _ => [some value]
  | none, some declaration =>
    if Scope.variableKinds.contains declaration.kind then declaredValues declaration
    else [some declaration]
  | none, none => if (statement.child? "source").isNone then clauseNames statement else []

/-- The value that an expression statement assigns to the exports of the module. -/
def assignedExport (statement : Cursor) : List (Option Cursor) :=
  match statement.content? with
  | some expression =>
    if expression.kind = "assignment_expression" && isExportTarget (expression.child? "left") then
      [expression.child? "right"]
    else []
  | none => []

/-- The values that a statement of a program exports, in order; a value may be lost. -/
def exportsOf (statement : Cursor) : List (Option Cursor) :=
  if statement.kind = "export_statement" then exportedBy statement
  else if statement.kind = "expression_statement" then assignedExport statement
  else []

def exportedValues (program : Cursor) : List (Option Cursor) := program.contents.flatMap exportsOf

def allExported (program : Cursor) : List Cursor :=
  distinct ((exportedValues program).filterMap fun value => value.bind definition)

/-- The only exported component, if there is one; several are refused. -/
def exported (program : Cursor) : Except Failure (Option Cursor) :=
  match allExported program with
  | [] => .ok none
  | [only] => .ok (some only)
  | several => .error (.reported (.multipleDefinitions several.length))

end ComponentAtlas.Component
