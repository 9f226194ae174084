import ComponentAtlas.Scope.Binding
import ComponentAtlas.SourceTree.Parentheses

/-!
# Values behind names

An expression that is no name is its own value. A name is followed to what it
is bound to, and on from there, until an expression that is no name is reached.
A chase that meets more names than the tree holds has met one of them twice and
would never end; it finds nothing.
-/

namespace ComponentAtlas.Scope

open SourceTree

/-- What the name at `c` is bound to, without outer parentheses. -/
def step (c : Cursor) : Option Cursor := (lookup c).bind Cursor.bare

/-- Follows a name through at most `fuel` bindings. -/
def chase : (fuel : Nat) → Cursor → Option Cursor
  | 0, c => if isIdentifier c then none else some c
  | fuel + 1, c => if isIdentifier c then (step c).bind (chase fuel) else some c

/-- The value of the expression at `c`, if it can be known. -/
def resolve (c : Cursor) : Option Cursor :=
  c.bare.bind (chase (c.root.count "identifier"))

theorem chase_of_not_identifier (fuel : Nat) (c : Cursor) (h : isIdentifier c = false) :
    chase fuel c = some c := by
  cases fuel <;> simp [chase, h]

end ComponentAtlas.Scope
