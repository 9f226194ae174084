import ComponentAtlas.Component.Function
import ComponentAtlas.Path.Segments

/-!
# Class components

A class is a component when it extends one of the base classes, bare or through
a namespace, or when it has a method named `render`.
-/

namespace ComponentAtlas.Component

open SourceTree

def baseNames : List String := ["Component", "PureComponent"]

/--
What the class extends. The heritage of a class holds either clauses or the bare
expression; a clause that lost the name of its value has it as first content.
-/
def superclass (c : Cursor) : Option Cursor :=
  (c.contents.find? fun child => child.kind == "class_heritage").bind fun heritage =>
    match heritage.contents.find? fun clause => clause.kind == "extends_clause" with
    | some clause => (clause.child? "value").or clause.content?
    | none => heritage.content?

def isRenderMethod (member : Cursor) : Bool :=
  member.kind == "method_definition" && Path.textOf (member.child? "name") == "render"

def hasRender (c : Cursor) : Bool :=
  (c.child? "body").any fun body => body.contents.any isRenderMethod

/-- The expression names one of the base classes. -/
def namesBase (expression : Cursor) : Bool :=
  (Path.segments (some expression)).getLast?.any baseNames.contains

def isClassComponent (c : Cursor) : Bool :=
  classKinds.contains c.kind && ((superclass c).any namesBase || hasRender c)

/-- The node is itself a component: a class or a function. -/
def isComponent (c : Cursor) : Bool := isClassComponent c || isFunctionComponent c

end ComponentAtlas.Component
