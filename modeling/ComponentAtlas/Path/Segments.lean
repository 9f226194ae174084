import ComponentAtlas.Path.Form
import ComponentAtlas.Scope.Resolve

/-!
# Paths of expressions

The path of a chain of members, calls and subscripts is the list of its
segments from the root to the leaf: `foo.bar().baz` has the segments `foo`,
`bar` and `baz`. A key in brackets is resolved to the expression it denotes,
whose own path is spliced in, leaf first; a key that cannot be resolved leaves
the segment `<computed>`. Object and array literals are one segment each, in
which keys, values and elements are written as dotted paths.

`collect` goes down the chain from the leaf and puts each segment in front of
those found before.
-/

namespace ComponentAtlas.Path

open SourceTree

/-- What the key of a subscript denotes, if anything; the key itself may be lost. -/
abbrev KeyResolver := Option Cursor → Option Cursor

def computedSegment : String := "<computed>"

/-- Resolves keys by the scopes around them. -/
def byScope : KeyResolver := fun key => key.bind Scope.resolve

def joinDots (segments : List String) : String := ".".intercalate segments

def textOf (c : Option Cursor) : String := (c.map Cursor.text).getD ""

/-- The expression that names a member; a computed name is named by what it holds. -/
def keyExpression (key : Option Cursor) : Option Cursor :=
  key.bind fun k => if k.kind = "computed_property_name" then k.content? else some k

/-- The text of a member of an object literal, given how expressions are written. -/
def memberText (write : Option Cursor → String) (m : Cursor) : String :=
  match MemberForm.ofKind m.kind with
  | .pair => write (keyExpression (m.child? "key")) ++ ": " ++ write (m.child? "value")
  | .shorthand => m.text ++ ": " ++ m.text
  | .spread => "..." ++ write m.content?
  | .named => write (keyExpression (m.child? "name")) ++ ": "

/-- Puts the segments of an expression in front of `found`; the walk is cut after `fuel` steps. -/
def collect (resolve : KeyResolver) : (fuel : Nat) → Option Cursor → List String → List String
  | 0, _, found => found
  | _ + 1, none, found => found
  | fuel + 1, some c, found =>
    let write (x : Option Cursor) := joinDots (collect resolve fuel x [])
    match Form.ofKind c.kind with
    | .call => collect resolve fuel (c.child? "function") found
    | .member => collect resolve fuel (c.child? "object") (textOf (c.child? "property") :: found)
    | .subscript =>
      let key :=
        match resolve (c.child? "index") with
        | some k => (collect resolve fuel (some k) []).reverse
        | none => [computedSegment]
      collect resolve fuel (c.child? "object") (key ++ found)
    | .parentheses => collect resolve fuel c.content? found
    | .word => c.text :: found
    | .self => "this" :: found
    | .object =>
      let members := c.contents.map (memberText write)
      ("\x7b" ++ ", ".intercalate members ++ "\x7d") :: found
    | .array =>
      let elements := c.contents.map fun element => write (some element)
      ("[" ++ ", ".intercalate elements ++ "]") :: found
    | .other => found

/--
The segments of an expression. A walk that comes to no node twice has no more steps than the tree
has nodes. Where the value of a key contains the key itself the walk would go on for ever and is
cut at that number: such a path is refused wherever it is read.
-/
def segmentsBy (resolve : KeyResolver) (c : Option Cursor) : List String :=
  match c with
  | none => []
  | some place => collect resolve (place.root.size + 1) (some place) []

def segments (c : Option Cursor) : List String := segmentsBy byScope c

def dottedBy (resolve : KeyResolver) (c : Option Cursor) : String :=
  joinDots (segmentsBy resolve c)

def dotted (c : Option Cursor) : String := dottedBy byScope c

end ComponentAtlas.Path
