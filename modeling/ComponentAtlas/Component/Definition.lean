import ComponentAtlas.Component.Class

/-!
# The definition behind a value

A component may be made from a specification, an object literal that is passed
to a factory; the specification stands in the call or behind a name.

An expression leads to a component definition by way of names and of calls that
wrap a component: a wrapping call stands for its first argument. The way ends
at a class or function that is a component, or at the specification given to a
factory.
-/

namespace ComponentAtlas.Component

open SourceTree

/-! ### Factory calls -/

def factoryPaths : List String := ["React.createClass", "createReactClass", "createClass"]

def isCall (c : Cursor) : Bool := c.kind == "call_expression"

def isFactoryCall (c : Cursor) : Bool :=
  isCall c && factoryPaths.contains (Path.dotted (c.child? "function"))

def firstArgument (call : Cursor) : Option Cursor := (call.child? "arguments").bind Cursor.content?

/-- The object literal that is passed first to a call, directly or by name. -/
def specification (call : Cursor) : Option Cursor :=
  ((firstArgument call).bind Scope.resolve).filter fun value => value.kind == "object"

/-! ### Wrapping calls -/

/-- Follows wrapping calls, through at most `fuel` values. -/
def unwrap : (fuel : Nat) → Cursor → Option Cursor
  | 0, _ => none
  | fuel + 1, c =>
    if isComponent c then some c
    else if !isCall c then none
    else if isFactoryCall c then specification c
    else ((firstArgument c).bind Scope.resolve).bind (unwrap fuel)

/--
The definition behind an expression. A way that meets more calls than the tree
has goes round in a circle.
-/
def definition (c : Cursor) : Option Cursor :=
  (Scope.resolve c).bind (unwrap (c.root.count "call_expression" + 1))

end ComponentAtlas.Component
