import ComponentAtlas.Json.Reader

/-!
# Blanks outside strings

A JSON text without the blanks that stand outside its strings. A string goes from
one quote to the next; in between, the character after a backslash is passed over.
-/

namespace ComponentAtlas.Json

/-- Where a character of a text stands. -/
inductive Place where
  | outside
  | inText
  /-- In a string, after a backslash. -/
  | escaped
deriving DecidableEq, Repr

/-- Where the next character stands. -/
def Place.after : Place → Char → Place
  | .outside, c => if c = '"' then .inText else .outside
  | .inText, c => if c = '"' then .outside else if c = '\\' then .escaped else .inText
  | .escaped, _ => .inText

/-- The rest of a text without the blanks outside its strings. -/
def squeezeFrom : Place → List Char → List Char
  | _, [] => []
  | place, c :: cs =>
    if place = .outside && isGap c then squeezeFrom (place.after c) cs
    else c :: squeezeFrom (place.after c) cs

def squeeze (s : String) : String := String.ofList (squeezeFrom .outside s.toList)

end ComponentAtlas.Json
