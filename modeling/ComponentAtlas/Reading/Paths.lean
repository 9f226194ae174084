import ComponentAtlas.Path.Segments
import ComponentAtlas.Reading.Names

/-!
# Texts looked at for paths

All words of an expression are looked at for its path, those in literals too, and
whatever is looked at to resolve a key. In a tree there is no way of more steps
than it has nodes that comes to each node once; so a way with more has come back
to a node, and has no end.
-/

namespace ComponentAtlas.Reading

open SourceTree

def inMember (inPart : Option Cursor → List Look) (m : Cursor) : List Look :=
  match Path.MemberForm.ofKind m.kind with
  | .pair => inPart (Path.keyExpression (m.child? "key")) ++ inPart (m.child? "value")
  | .shorthand => [.text m]
  | .spread => inPart m.content?
  | .named => inPart (Path.keyExpression (m.child? "name"))

/-- What is looked at within `fuel` steps; `inKey` tells what a key resolver looks at. -/
def inCollect (resolve : Path.KeyResolver) (inKey : Option Cursor → List Cursor) :
    (fuel : Nat) → Option Cursor → List Look
  | _, none => []
  | 0, some _ => [.endless]
  | fuel + 1, some c =>
    let inPart (x : Option Cursor) := inCollect resolve inKey fuel x
    match Path.Form.ofKind c.kind with
    | .call => inPart (c.child? "function")
    | .member => texts (c.child? "property").toList ++ inPart (c.child? "object")
    | .subscript =>
      texts (inKey (c.child? "index")) ++ inPart (resolve (c.child? "index")) ++
        inPart (c.child? "object")
    | .parentheses => inPart c.content?
    | .word => [.text c]
    | .object => c.contents.flatMap (inMember inPart)
    | .array => c.contents.flatMap fun element => inPart (some element)
    | .self | .other => []

def inPathBy (resolve : Path.KeyResolver) (inKey : Option Cursor → List Cursor)
    (c : Option Cursor) : List Look :=
  match c with
  | none => []
  | some place => inCollect resolve inKey (place.root.size + 1) (some place)

/-- What is looked at when keys are resolved by the scopes around them. -/
def inKeyByScope (key : Option Cursor) : List Cursor := key.toList.flatMap inResolve

def inPath (c : Option Cursor) : List Look := inPathBy Path.byScope inKeyByScope c

/-! ### Answers -/

/-- A way to resolve keys, with what it looks at. -/
structure KeyReader where
  resolve : Path.KeyResolver
  inKey : Option Cursor → List Cursor

/-- Resolves keys by the scopes around them. -/
def KeyReader.byScope : KeyReader := ⟨Path.byScope, inKeyByScope⟩

/-- Takes keys as they are, without looking at texts. -/
def KeyReader.plain (resolve : Path.KeyResolver) : KeyReader := ⟨resolve, fun _ => []⟩

def text (c : Option Cursor) : Except Failure String :=
  checked (texts c.toList) (Path.textOf c)

/-- The segments of an expression, if their walk comes to an end. -/
def segmentsBy (reader : KeyReader) (c : Option Cursor) : Except Failure (List String) :=
  checked (inPathBy reader.resolve reader.inKey c) (Path.segmentsBy reader.resolve c)

def segments (c : Option Cursor) : Except Failure (List String) := segmentsBy .byScope c

def dottedBy (reader : KeyReader) (c : Option Cursor) : Except Failure String :=
  Path.joinDots <$> segmentsBy reader c

def dotted (c : Option Cursor) : Except Failure String := dottedBy .byScope c

theorem inPath_none : inPath none = [] := rfl

end ComponentAtlas.Reading
