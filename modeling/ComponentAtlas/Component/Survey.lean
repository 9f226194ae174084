import ComponentAtlas.Component.Definition
import ComponentAtlas.SourceTree.Walk

/-!
# All components of a program

The definitions in a program, in the order in which they are met. What lies
inside a component or a factory call is part of it and is not searched for
further components: the survey passes over the nodes that begin before the last
one found ends.
-/

namespace ComponentAtlas.Component

open SourceTree

/-- Each node is listed once, where it comes first. -/
def distinct (places : List Cursor) : List Cursor := places.eraseDupsBy fun a b => a.id == b.id

/-- The definition that a node is or makes. -/
def definitionAt (c : Cursor) : Option Cursor :=
  if isComponent c then some c
  else if isFactoryCall c then specification c
  else none

/-- The definitions at the given places that do not begin before the offset `covered`. -/
def survey : (covered : Nat) → List Cursor → List Cursor
  | _, [] => []
  | covered, c :: rest =>
    if c.start < covered then survey covered rest
    else
      match definitionAt c with
      | some found => found :: survey c.stop rest
      | none => survey covered rest

def all (program : Cursor) : List Cursor := distinct (survey 0 (program.descendants none))

end ComponentAtlas.Component
