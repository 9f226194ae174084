/-!
# Forms of expressions

How an expression takes part in a path is decided by the kind of its node
alone.
-/

namespace ComponentAtlas.Path

inductive Form where
  | call
  | member
  | subscript
  | parentheses
  /-- Names and literals, which stand for their own text. -/
  | word
  | self
  | object
  | array
  | other
deriving DecidableEq, Repr

def nameKinds : List String :=
  ["identifier", "property_identifier", "shorthand_property_identifier",
    "private_property_identifier", "type_identifier", "undefined"]

def literalKinds : List String := ["string", "number", "true", "false", "null", "regex"]

def Form.ofKind (kind : String) : Form :=
  if kind = "call_expression" then .call
  else if kind = "member_expression" then .member
  else if kind = "subscript_expression" then .subscript
  else if kind = "parenthesized_expression" then .parentheses
  else if nameKinds.contains kind || literalKinds.contains kind then .word
  else if kind = "this" then .self
  else if kind = "object" then .object
  else if kind = "array" then .array
  else .other

/-- The ways in which an object literal can have a member. -/
inductive MemberForm where
  | pair
  | shorthand
  | spread
  /-- Methods and accessors, which have a name and no value. -/
  | named
deriving DecidableEq, Repr

def MemberForm.ofKind (kind : String) : MemberForm :=
  if kind = "pair" then .pair
  else if kind = "shorthand_property_identifier" then .shorthand
  else if kind = "spread_element" then .spread
  else .named

end ComponentAtlas.Path
