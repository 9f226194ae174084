import ComponentAtlas.SourceTree.Walk

/-!
# Bindings

A name means what the nearest scope around its use says it means. A scope may
bind a name without a value that can be known, as loop variables, caught errors
and parameters do: such a binding shadows all outer ones. Or it may declare the
name among its direct statements, with a value or without one. Within one scope
shadowing comes before declarations, and an earlier declaration before a later
one.
-/

namespace ComponentAtlas.Scope

open SourceTree

/-- What a scope says about a name. -/
inductive Binding where
  | shadowed
  | declared (value : Option Cursor)

def Binding.value? : Binding → Option Cursor
  | .shadowed => none
  | .declared value => value

def functionKinds : List String :=
  ["function_declaration", "generator_function_declaration", "function_expression", "function",
    "generator_function", "arrow_function", "method_definition"]

def variableKinds : List String := ["lexical_declaration", "variable_declaration"]

def definitionKinds : List String :=
  ["function_declaration", "generator_function_declaration", "class_declaration",
    "abstract_class_declaration"]

def patternNameKinds : List String := ["identifier", "shorthand_property_identifier_pattern"]

def isIdentifier (c : Cursor) : Bool := c.kind == "identifier"

def isNamed (name : String) (c : Cursor) : Bool := isIdentifier c && c.text == name

/-- The side of a pattern that binds: a pattern with a default binds on its left. -/
def boundSide (pattern : Cursor) : Option Cursor :=
  if pattern.kind == "assignment_pattern" then pattern.child? "left" else some pattern

/-- A pattern, plain or destructuring, introduces the name. -/
def patternBinds (name : String) (pattern : Cursor) : Bool :=
  match boundSide pattern with
  | some side => (side.descendants (some patternNameKinds)).any fun target => target.text == name
  | none => false

/-- The plain name that a parameter introduces, if it has that form. -/
def parameterName? (parameter : Cursor) : Option Cursor :=
  boundSide ((parameter.child? "pattern").getD parameter)

/-- A parameter of the function introduces the name. -/
def parametersBind (name : String) (function : Cursor) : Bool :=
  match function.child? "parameter" with
  | some single => isNamed name single
  | none =>
    match function.child? "parameters" with
    | some parameters =>
      parameters.contents.any fun parameter => (parameterName? parameter).any (isNamed name)
    | none => false

/-- The scope binds the name without a value that can be known. -/
def shadows (name : String) (scope : Cursor) : Bool :=
  if scope.kind == "for_in_statement" then (scope.child? "left").any (patternBinds name)
  else if scope.kind == "catch_clause" then (scope.child? "parameter").any (patternBinds name)
  else functionKinds.contains scope.kind && parametersBind name scope

/-- The value that a declarator gives to the name, if it declares the name. -/
def declaratorValue? (name : String) (declarator : Cursor) : Option (Option Cursor) :=
  if declarator.kind == "variable_declarator" && (declarator.child? "name").any (isNamed name) then
    some (declarator.child? "value")
  else none

/-- The declaration that a statement exports, or the statement itself. -/
def exportedDeclaration (statement : Cursor) : Cursor :=
  if statement.kind == "export_statement" then (statement.child? "declaration").getD statement
  else statement

/-- The value that a statement gives to the name, if it declares the name. -/
def statementValue? (name : String) (statement : Cursor) : Option (Option Cursor) :=
  let declaration := exportedDeclaration statement
  if variableKinds.contains declaration.kind then
    declaration.contents.findSome? (declaratorValue? name)
  else if definitionKinds.contains declaration.kind &&
      (declaration.child? "name").any (fun target => target.text == name) then
    some (some declaration)
  else none

/-- What `scope` says about the name, if anything. -/
def binding? (name : String) (scope : Cursor) : Option Binding :=
  if shadows name scope then some .shadowed
  else (scope.contents.findSome? (statementValue? name)).map .declared

/-- The value bound to the text of `c` around it, as far as it can be known. -/
def lookup (c : Cursor) : Option Cursor :=
  (c.ancestors.findSome? (binding? c.text)).bind Binding.value?

end ComponentAtlas.Scope
