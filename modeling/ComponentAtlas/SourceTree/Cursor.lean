import ComponentAtlas.Text.Slice
import ComponentAtlas.SourceTree.Node

/-!
# Places in a tree

A cursor is a node together with the nodes above it, nearest first. It leads
down to the children and up to the root, so that what a name means can be read
off the way from the place of its use to the root.
-/

namespace ComponentAtlas.SourceTree

structure Cursor where
  node : Node
  above : List Node

namespace Cursor

def ofRoot (root : Node) : Cursor := ⟨root, []⟩

def id (c : Cursor) : Nat := c.node.label.id

def kind (c : Cursor) : String := c.node.kind

def text (c : Cursor) : String := c.node.text

def isReadable (c : Cursor) : Bool := c.node.isReadable

def named (c : Cursor) : Bool := c.node.named

def isContent (c : Cursor) : Bool := c.node.isContent

def start (c : Cursor) : Nat := c.node.label.first.offset

def stop (c : Cursor) : Nat := c.node.label.last.offset

/-! ### The way down -/

/-- The place of `child` below `c`. -/
def below (c : Cursor) (child : Node) : Cursor := ⟨child, c.node :: c.above⟩

def children (c : Cursor) : List Cursor := c.node.children.map c.below

def namedChildren (c : Cursor) : List Cursor := c.children.filter named

def contents (c : Cursor) : List Cursor := c.children.filter isContent

def content? (c : Cursor) : Option Cursor := c.children.find? isContent

/-- The first child that is held under `name`. -/
def child? (c : Cursor) (name : String) : Option Cursor :=
  c.children.find? fun child => child.node.field == some name

/-! ### The way up -/

def parent? (c : Cursor) : Option Cursor :=
  match c.above with
  | [] => none
  | parent :: rest => some ⟨parent, rest⟩

/-- The places on a way to the root. -/
def alongWay : List Node → List Cursor
  | [] => []
  | n :: rest => ⟨n, rest⟩ :: alongWay rest

/-- The places strictly above, nearest first. -/
def ancestors (c : Cursor) : List Cursor := alongWay c.above

def root (c : Cursor) : Node := c.above.getLast?.getD c.node

/-- The nearest place above that is of one of the kinds. -/
def enclosing? (kinds : List String) (c : Cursor) : Option Cursor :=
  c.ancestors.find? fun a => kinds.contains a.kind

/-! ### Position and text -/

/-- The first and the last line, counted from one. -/
def lines (c : Cursor) : Nat × Nat := (c.node.label.first.line + 1, c.node.label.last.line + 1)

/-- What another source has at the bytes that the node covers, if that is a text. -/
def textIn? (c : Cursor) (source : String) : Option String := Text.slice? source c.start c.stop

/-! ### Agreement with the nodes -/

theorem content?_eq (c : Cursor) : c.content? = c.node.content?.map c.below := by
  simp only [content?, children, Node.content?, List.find?_map]
  rfl

theorem child?_eq (c : Cursor) (name : String) :
    c.child? name = (c.node.child? name).map c.below := by
  simp only [child?, children, Node.child?, List.find?_map]
  rfl

theorem contents_eq (c : Cursor) : c.contents = c.node.contents.map c.below := by
  simp only [contents, children, Node.contents, List.filter_map]
  rfl

theorem contents_head? (c : Cursor) : c.contents.head? = c.content? := by
  simp [contents, content?]

theorem parent?_below (c : Cursor) (child : Node) : (c.below child).parent? = some c := rfl

theorem ancestors_below (c : Cursor) (child : Node) :
    (c.below child).ancestors = c :: c.ancestors := rfl

theorem root_below (c : Cursor) (child : Node) : (c.below child).root = c.root := by
  obtain ⟨node, above⟩ := c
  cases above with
  | nil => rfl
  | cons _ _ => simp [below, root, List.getLast?_cons]

end Cursor

end ComponentAtlas.SourceTree
