import ComponentAtlas.Text.Slice
import ComponentAtlas.SourceTree.Node

/-!
# Trees as tables

A tree can be given as a table with one row for each node, in document order, a
node before its children. A row names the row of the node above and the bytes of
the source that the node covers.
-/

namespace ComponentAtlas.SourceTree

structure Row where
  /-- Row of the node above; the root has none. -/
  parent : Option Nat
  kind : String
  start : Nat
  stop : Nat
  field : Option String
  named : Bool
  missing : Bool

/-- The place of a byte offset in a source. -/
def Point.ofOffset (source : List UInt8) (offset : Nat) : Point :=
  let before := source.take offset
  ⟨offset, before.count 10, (before.reverse.takeWhile (· != 10)).length⟩

@[simp]
theorem Point.offset_ofOffset (source : List UInt8) (offset : Nat) :
    (ofOffset source offset).offset = offset :=
  rfl

def Row.label (source : String) (bytes : List UInt8) (id : Nat) (row : Row) : Label where
  id := id
  kind := row.kind
  first := .ofOffset bytes row.start
  last := .ofOffset bytes row.stop
  field := row.field
  named := row.named
  missing := row.missing
  text? := Text.slice? source row.start row.stop

/--
Puts the node of one row in front of the finished nodes that follow it. Finished
nodes are kept with the row of the node above, which takes them as children.
-/
def gather (source : String) (bytes : List UInt8) (entry : Row × Nat)
    (finished : List (Option Nat × Node)) : List (Option Nat × Node) :=
  let (row, id) := entry
  let (children, others) := finished.partition fun f => f.1 == some id
  (row.parent, .mk (row.label source bytes id) (children.map Prod.snd)) :: others

/-- The tree of a table, if it has a root. -/
def Node.ofRows? (source : String) (rows : List Row) : Option Node :=
  let finished := rows.zipIdx.foldr (gather source source.toUTF8.toList) []
  (finished.find? fun f => f.1.isNone).map Prod.snd

end ComponentAtlas.SourceTree
