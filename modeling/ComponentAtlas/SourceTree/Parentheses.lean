import ComponentAtlas.SourceTree.Cursor

/-!
# Parentheses

Parentheses say nothing about a value. An expression is bared by passing from
parentheses to their first content until something else is reached; parentheses
without content leave nothing.
-/

namespace ComponentAtlas.SourceTree

def isParentheses (kind : String) : Bool := kind == "parenthesized_expression"

mutual

/-- What is left of a node without outer parentheses, given the nodes above it. -/
def bareFrom (above : List Node) : Node → Option Cursor
  | .mk label children =>
    if isParentheses label.kind then bareAmong (.mk label children :: above) children
    else some ⟨.mk label children, above⟩

/-- What is left of the first content among several nodes. -/
def bareAmong (above : List Node) : List Node → Option Cursor
  | [] => none
  | n :: rest => if n.isContent then bareFrom above n else bareAmong above rest

end

def Cursor.bare (c : Cursor) : Option Cursor := bareFrom c.above c.node

theorem bareAmong_eq (above : List Node) (ns : List Node) :
    bareAmong above ns = (ns.find? Node.isContent).bind (bareFrom above) := by
  induction ns with
  | nil => rfl
  | cons n rest ih =>
    by_cases h : n.isContent <;> simp [bareAmong, h, ih]

theorem Cursor.bare_of_not_parentheses (c : Cursor) (h : isParentheses c.kind = false) :
    c.bare = some c := by
  obtain ⟨⟨label, children⟩, above⟩ := c
  have hk : isParentheses label.kind = false := h
  simp [bare, bareFrom, hk]

theorem Cursor.bare_of_parentheses (c : Cursor) (h : isParentheses c.kind = true) :
    c.bare = c.content?.bind bare := by
  obtain ⟨⟨label, children⟩, above⟩ := c
  have hk : isParentheses label.kind = true := h
  rw [content?_eq]
  simp only [bare, bareFrom, hk, if_true, bareAmong_eq, Option.bind_map]
  rfl

end ComponentAtlas.SourceTree
