import ComponentAtlas.Component.Export
import ComponentAtlas.Reading.Paths

/-!
# Texts looked at for components

Classes are told by the path of what they extend, and only when that decides
nothing by the names of their methods; factory calls by the path of the callee.
Functions are told without looking at a text. The statements of a program are
looked at one after the other, each with the definitions behind what it exports.
-/

namespace ComponentAtlas.Reading

open SourceTree

def inRenderMethod (member : Cursor) : List Cursor :=
  if member.kind == "method_definition" then (member.child? "name").toList else []

def inRender (c : Cursor) : List Cursor :=
  (c.child? "body").toList.flatMap fun body =>
    (upTo Component.isRenderMethod body.contents).flatMap inRenderMethod

def inClass (c : Cursor) : List Look :=
  if Component.classKinds.contains c.kind then
    inPath (Component.superclass c) ++
      if (Component.superclass c).any Component.namesBase then [] else texts (inRender c)
  else []

def inFactory (c : Cursor) : List Look :=
  if Component.isCall c then inPath (c.child? "function") else []

def inSpecification (call : Cursor) : List Cursor :=
  (Component.firstArgument call).toList.flatMap inResolve

/-! ### Surveys -/

def inDefinitionAt (c : Cursor) : List Look :=
  inClass c ++
    if Component.isComponent c then []
    else inFactory c ++ if Component.isFactoryCall c then texts (inSpecification c) else []

/-- What is looked at in a survey of places, which passes over those that are covered. -/
def inSurvey : (covered : Nat) → List Cursor → List Look
  | _, [] => []
  | covered, c :: rest =>
    if c.start < covered then inSurvey covered rest
    else
      inDefinitionAt c ++
        inSurvey (if (Component.definitionAt c).isSome then c.stop else covered) rest

def inAll (program : Cursor) : List Look := inSurvey 0 (program.descendants none)

/-! ### Exports -/

def inUnwrap : (fuel : Nat) → Cursor → List Look
  | 0, _ => []
  | fuel + 1, c =>
    inClass c ++
      if Component.isComponent c then []
      else if !Component.isCall c then []
      else
        inFactory c ++ texts (inSpecification c) ++
          if Component.isFactoryCall c then []
          else ((Component.firstArgument c).bind Scope.resolve).toList.flatMap (inUnwrap fuel)

def inDefinition (c : Cursor) : List Look :=
  texts (inResolve c) ++
    (Scope.resolve c).toList.flatMap (inUnwrap (c.root.count "call_expression" + 1))

/-- What is looked at to see whether a statement assigns to the exports of the module. -/
def inAssignment (statement : Cursor) : List Look :=
  if statement.kind = "expression_statement" then
    (statement.content?.toList.filter fun e => e.kind == "assignment_expression").flatMap
      fun expression => inPath (expression.child? "left")
  else []

/-- What is looked at for a statement and for the definitions behind the values it exports. -/
def inExport (statement : Cursor) : List Look :=
  inAssignment statement ++
    (Component.exportsOf statement).flatMap fun value => value.toList.flatMap inDefinition

def inExports (program : Cursor) : List Look := program.contents.flatMap inExport

/-! ### Answers -/

def hasRender (c : Cursor) : Except Failure Bool :=
  checked (texts (inRender c)) (Component.hasRender c)

def isClassComponent (c : Cursor) : Except Failure Bool :=
  checked (inClass c) (Component.isClassComponent c)

def isFactoryCall (c : Cursor) : Except Failure Bool :=
  checked (inFactory c) (Component.isFactoryCall c)

def specification (call : Cursor) : Except Failure (Option Cursor) :=
  checked (texts (inSpecification call)) (Component.specification call)

def definition (c : Cursor) : Except Failure (Option Cursor) :=
  checked (inDefinition c) (Component.definition c)

def all (program : Cursor) : Except Failure (List Cursor) :=
  checked (inAll program) (Component.all program)

def allExported (program : Cursor) : Except Failure (List Cursor) :=
  checked (inExports program) (Component.allExported program)

/-- What is looked at is looked at before several components are refused. -/
def exported (program : Cursor) : Except Failure (Option Cursor) :=
  (checked (inExports program) ()).bind fun _ => Component.exported program

end ComponentAtlas.Reading
