import ComponentAtlas.SourceTree.Node

/-!
# Damage

Where a source does not parse, its tree holds nodes for text that makes no
sense and nodes for text that is missing, some of them unnamed. The first such
node in document order is where the damage is reported.
-/

namespace ComponentAtlas.SourceTree.Node

def isDamaged (n : Node) : Bool := n.kind == "ERROR" || n.label.missing

mutual

/-- The first damaged node of a tree; nothing below it is searched. -/
def firstDamage? : Node → Option Node
  | .mk label children =>
    if isDamaged (.mk label children) then some (.mk label children)
    else firstDamageAmong? children

/-- The first damaged node of several trees. -/
def firstDamageAmong? : List Node → Option Node
  | [] => none
  | n :: rest =>
    match firstDamage? n with
    | some found => some found
    | none => firstDamageAmong? rest

end

end ComponentAtlas.SourceTree.Node
