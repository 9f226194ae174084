import ComponentAtlas.SourceTree.Cursor
import ComponentAtlas.SourceTree.Parentheses

/-!
# Expressions that yield markup

A function is a component by what it returns. An expression yields markup when
it is an element or a fragment, or may evaluate to one: through parentheses,
through either branch of a choice, or through the right operand of an operator.
-/

namespace ComponentAtlas.Component

open SourceTree

def markupKinds : List String := ["jsx_element", "jsx_self_closing_element", "jsx_fragment"]

mutual

/-- The expression yields markup. -/
def yieldsMarkup : Node → Bool
  | .mk label children =>
    if isParentheses label.kind then contentYieldsMarkup children
    else if markupKinds.contains label.kind then true
    else if label.kind = "ternary_expression" then
      fieldYieldsMarkup "consequence" children || fieldYieldsMarkup "alternative" children
    else if label.kind = "binary_expression" then fieldYieldsMarkup "right" children
    else false

/-- The first content among several nodes yields markup. -/
def contentYieldsMarkup : List Node → Bool
  | [] => false
  | n :: rest => if n.isContent then yieldsMarkup n else contentYieldsMarkup rest

/-- The first of several nodes that is held under `field` yields markup. -/
def fieldYieldsMarkup (field : String) : List Node → Bool
  | [] => false
  | n :: rest => if n.field = some field then yieldsMarkup n else fieldYieldsMarkup field rest

end

theorem contentYieldsMarkup_eq (ns : List Node) :
    contentYieldsMarkup ns = (ns.find? Node.isContent).any yieldsMarkup := by
  induction ns with
  | nil => rfl
  | cons n rest ih => by_cases h : n.isContent <;> simp [contentYieldsMarkup, h, ih]

theorem fieldYieldsMarkup_eq (field : String) (ns : List Node) :
    fieldYieldsMarkup field ns = (ns.find? fun n => n.field == some field).any yieldsMarkup := by
  induction ns with
  | nil => rfl
  | cons n rest ih => by_cases h : n.field = some field <;> simp [fieldYieldsMarkup, h, ih]

end ComponentAtlas.Component
