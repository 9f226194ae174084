import ComponentAtlas.Reading.Basic
import ComponentAtlas.Scope.Resolve

/-!
# Texts looked at for names

The meaning of a name is searched from the inside out. The text of the name is
looked at first; then in each scope the names that it may bind, up to the one
that is the name sought.
-/

namespace ComponentAtlas.Reading

open SourceTree

def inName (c : Option Cursor) : List Cursor := c.toList.filter Scope.isIdentifier

def inPattern (name : String) (pattern : Cursor) : List Cursor :=
  match Scope.boundSide pattern with
  | some side =>
    upTo (fun target => target.text == name) (side.descendants (some Scope.patternNameKinds))
  | none => []

def inParameters (name : String) (function : Cursor) : List Cursor :=
  match function.child? "parameter" with
  | some single => inName (some single)
  | none =>
    match function.child? "parameters" with
    | some parameters =>
      (upTo (fun parameter => (Scope.parameterName? parameter).any (Scope.isNamed name))
        parameters.contents).flatMap fun parameter => inName (Scope.parameterName? parameter)
    | none => []

/-- What is looked at to see whether a scope binds the name without a known value. -/
def inShadows (name : String) (scope : Cursor) : List Cursor :=
  if scope.kind == "for_in_statement" then (scope.child? "left").toList.flatMap (inPattern name)
  else if scope.kind == "catch_clause" then
    (scope.child? "parameter").toList.flatMap (inPattern name)
  else if Scope.functionKinds.contains scope.kind then inParameters name scope
  else []

def inDeclarator (declarator : Cursor) : List Cursor :=
  if declarator.kind == "variable_declarator" then inName (declarator.child? "name") else []

def inStatement (name : String) (statement : Cursor) : List Cursor :=
  let declaration := Scope.exportedDeclaration statement
  if Scope.variableKinds.contains declaration.kind then
    (upTo (fun declarator => (Scope.declaratorValue? name declarator).isSome)
      declaration.contents).flatMap inDeclarator
  else if Scope.definitionKinds.contains declaration.kind then (declaration.child? "name").toList
  else []

/-- What is looked at in a scope; declarations count only where nothing shadows them. -/
def inBinding (name : String) (scope : Cursor) : List Cursor :=
  inShadows name scope ++
    if Scope.shadows name scope then []
    else
      (upTo (fun statement => (Scope.statementValue? name statement).isSome)
        scope.contents).flatMap (inStatement name)

def inLookup (c : Cursor) : List Cursor :=
  c :: (upTo (fun scope => (Scope.binding? c.text scope).isSome) c.ancestors).flatMap
    (inBinding c.text)

def inChase : (fuel : Nat) → Cursor → List Cursor
  | 0, _ => []
  | fuel + 1, c =>
    if Scope.isIdentifier c then inLookup c ++ (Scope.step c).toList.flatMap (inChase fuel) else []

def inResolve (c : Cursor) : List Cursor :=
  c.bare.toList.flatMap (inChase (c.root.count "identifier"))

/-! ### Answers -/

def lookup (c : Cursor) : Except Failure (Option Cursor) :=
  checked (texts (inLookup c)) (Scope.lookup c)

def resolve (c : Cursor) : Except Failure (Option Cursor) :=
  checked (texts (inResolve c)) (Scope.resolve c)

/-- Nothing is looked at for an expression that is no name. -/
theorem inResolve_of_not_identifier (c : Cursor) (hp : isParentheses c.kind = false)
    (hi : Scope.isIdentifier c = false) : inResolve c = [] := by
  rw [inResolve, Cursor.bare_of_not_parentheses c hp]
  cases c.root.count "identifier" <;> simp [inChase, hi]

end ComponentAtlas.Reading
