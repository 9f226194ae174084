/-!
# Syntax trees

A node of a syntax tree has a label and children in document order. The label
tells what the node is, which text it covers and how the node above holds it.
Comments are nodes like all others; the *contents* of a node are its named
children that are no comments.
-/

namespace ComponentAtlas.SourceTree

/-- A place in a source: bytes before it, lines before it, and bytes since the line began. -/
structure Point where
  offset : Nat
  line : Nat
  column : Nat
deriving DecidableEq, Repr

structure Label where
  /-- Number of the node in its tree. -/
  id : Nat
  kind : String
  first : Point
  last : Point
  /-- Name under which the node above holds this node. -/
  field : Option String
  named : Bool
  /-- The node stands for text that the source lacks. -/
  missing : Bool
  /-- The text that the node covers; bytes that cut a character are none. -/
  text? : Option String
deriving DecidableEq, Repr

inductive Node where
  | mk (label : Label) (children : List Node)

namespace Node

def label : Node → Label
  | .mk label _ => label

def children : Node → List Node
  | .mk _ children => children

def kind (n : Node) : String := n.label.kind

/-- The text of the node; one that cannot be read is empty. -/
def text (n : Node) : String := n.label.text?.getD ""

def isReadable (n : Node) : Bool := n.label.text?.isSome

def named (n : Node) : Bool := n.label.named

def field (n : Node) : Option String := n.label.field

def isContent (n : Node) : Bool := n.named && n.kind != "comment"

def contents (n : Node) : List Node := n.children.filter isContent

def content? (n : Node) : Option Node := n.children.find? isContent

/-- The first child that is held under `name`. -/
def child? (n : Node) (name : String) : Option Node :=
  n.children.find? fun child => child.field == some name

mutual

/-- Number of nodes of a tree. -/
def size : Node → Nat
  | .mk _ children => 1 + sizeAll children

/-- Number of nodes of several trees. -/
def sizeAll : List Node → Nat
  | [] => 0
  | n :: rest => size n + sizeAll rest

end

mutual

/-- All nodes of a tree in document order, a node before its children. -/
def preorder : Node → List Node
  | .mk label children => .mk label children :: preorderAll children

/-- The nodes of several trees in document order. -/
def preorderAll : List Node → List Node
  | [] => []
  | n :: rest => preorder n ++ preorderAll rest

end

theorem contents_head? (n : Node) : n.contents.head? = n.content? := by
  simp [contents, content?]

mutual

theorem preorder_length : ∀ n : Node, n.preorder.length = n.size
  | .mk _ children => by
    simp only [preorder, size, List.length_cons, preorderAll_length children]
    omega

theorem preorderAll_length : ∀ ns : List Node, (preorderAll ns).length = sizeAll ns
  | [] => rfl
  | n :: rest => by
    simp only [preorderAll, sizeAll, List.length_append, preorder_length n,
      preorderAll_length rest]

end

/-- How many nodes of the tree are of the given kind. -/
def count (n : Node) (kind : String) : Nat := n.preorder.countP (·.kind == kind)

end Node

end ComponentAtlas.SourceTree

namespace ComponentAtlas

/-- The tree of a source. -/
structure SourceTree where
  root : SourceTree.Node
  /-- The source did not parse without errors. -/
  damaged : Bool

end ComponentAtlas
