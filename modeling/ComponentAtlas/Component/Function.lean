import ComponentAtlas.Component.Markup

/-!
# Function components

A function is a component when its result yields markup. The result of a
function without a block is its body; a function with a block has the results
of its return statements, those of functions and classes inside it left out.
-/

namespace ComponentAtlas.Component

open SourceTree

def classKinds : List String := ["class_declaration", "abstract_class_declaration", "class"]

def functionKinds : List String :=
  ["function_declaration", "function_expression", "function", "arrow_function"]

/-- Return statements inside nodes of these kinds belong to them. -/
def ownsReturns (kind : String) : Bool := functionKinds.contains kind || classKinds.contains kind

mutual

/-- The return statements of a node, down to nodes that own theirs. -/
def returnsOf : Node → List Node
  | .mk label children =>
    if label.kind = "return_statement" then [.mk label children]
    else if ownsReturns label.kind then []
    else returnsAmong children

/-- The return statements of the contents among several nodes. -/
def returnsAmong : List Node → List Node
  | [] => []
  | n :: rest => if n.isContent then returnsOf n ++ returnsAmong rest else returnsAmong rest

end

/-- The function body yields markup. -/
def bodyYieldsMarkup (body : Node) : Bool :=
  if body.kind = "statement_block" then
    (returnsAmong body.children).any fun statement => statement.content?.any yieldsMarkup
  else yieldsMarkup body

def isFunctionComponent (c : Cursor) : Bool :=
  functionKinds.contains c.kind && (c.node.child? "body").any bodyYieldsMarkup

end ComponentAtlas.Component
