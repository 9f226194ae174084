import ComponentAtlas.SourceTree.Cursor

/-!
# Walks over named nodes

Two descriptions of the walk over a node and the named nodes below it, in
document order. `descendants` keeps the places still to visit on a stack and
needs no more room than that; `preorder` follows the tree. A walk may be
limited to some kinds: nodes of other kinds are left out, but the nodes below
them are still visited.
-/

namespace ComponentAtlas.SourceTree

/-- The kinds of nodes that a walk keeps; `none` keeps all. -/
abbrev KindFilter := Option (List String)

def KindFilter.keeps (filter : KindFilter) (kind : String) : Bool :=
  match filter with
  | none => true
  | some kinds => kinds.contains kind

namespace Cursor

/-- Visits the places on the stack and all named places below them, at most `fuel` of them. -/
def drain (filter : KindFilter) : (fuel : Nat) → List Cursor → List Cursor
  | 0, _ => []
  | _ + 1, [] => []
  | fuel + 1, c :: stack =>
    let rest := drain filter fuel (c.namedChildren ++ stack)
    if filter.keeps c.kind then c :: rest else rest

def descendants (filter : KindFilter) (c : Cursor) : List Cursor :=
  drain filter c.node.size [c]

mutual

/-- A node and the named nodes below it, given the nodes above it. -/
def preorderFrom (above : List Node) : Node → List Cursor
  | .mk label children =>
    ⟨.mk label children, above⟩ :: preorderAmong (.mk label children :: above) children

/-- The named nodes among several and below them. -/
def preorderAmong (above : List Node) : List Node → List Cursor
  | [] => []
  | n :: rest =>
    if n.named then preorderFrom above n ++ preorderAmong above rest
    else preorderAmong above rest

end

def preorder (c : Cursor) : List Cursor := preorderFrom c.above c.node

end Cursor

end ComponentAtlas.SourceTree
