import ComponentAtlas.Extraction.Log

/-!
# Replies of resolvers

A resolver may answer with one definition or with a sequence of them. The shape
of the answer decides the shape of the result; an empty sequence, or a single
value that counts for nothing, means that no definition was found.
-/

namespace ComponentAtlas.Extraction

open SourceTree

/-- The sorts of sequence in which a resolver may answer. -/
inductive SequenceKind where
  | list
  | tuple
  | generator
deriving DecidableEq, Repr

inductive Reply where
  | node (place : Cursor)
  | sequence (kind : SequenceKind) (definitions : List Definition)
  | value (v : Value)

/-- The definitions to document, alone or as a batch. -/
inductive Selection where
  | one (definition : Definition)
  | many (definitions : List Definition)

/-- What a reply selects, if anything; an array is a sequence of values. -/
def Reply.select : Reply → Option Selection
  | .node place => some (.one (.node place))
  | .sequence _ [] => none
  | .sequence _ definitions => some (.many definitions)
  | .value (.array []) => none
  | .value (.array items) => some (.many (items.map .value))
  | .value v => if v.isTruthy then some (.one (.value v)) else none

end ComponentAtlas.Extraction
