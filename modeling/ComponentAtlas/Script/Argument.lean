import ComponentAtlas.Extraction.Log
import ComponentAtlas.Reading.Components
import ComponentAtlas.Script.Desk

/-!
# Arguments of scripts

An argument is either written in the script or found out when its step is run:
from the definition, or from what the record holds so far. Lists that are made
on the way are new lists on the desk.
-/

namespace ComponentAtlas.Script

open Extraction SourceTree

/-- What can be asked of a definition that is a node. -/
inductive Aspect where
  | type
  | text
  | name
  /-- The first and the last line. -/
  | range
  /-- The path of the superclass. -/
  | superclass
deriving DecidableEq, Repr

inductive Argument (ν : Type) where
  /-- What is written in the script. -/
  | literal (v : ν)
  | node (aspect : Aspect)
  /-- The paths of the nodes of some kinds in the definition. -/
  | paths (kinds : Value)
  /-- What the record has in a slot. -/
  | slot (name : Value)
  /-- Extra data of the record by key, with what to take when there are none. -/
  | extra (arguments : Option (List ν))
  /-- The definition itself. -/
  | subject

/-- A turn at the desk, which may fail; what it has done to the desk by then stays. -/
abbrev Turn := ExceptT Failure (StateM Desk)

def Turn.list (items : List Item) : Turn Item := modifyGet fun desk => desk.newList items

def refuse {α : Type} (m : Misuse) : Turn α := throw (.misuse m)

/-! ### The definition -/

/-- The place of the name of a node, or of the name of the node around it. -/
def nameOf (c : Cursor) : Option Cursor :=
  (c.child? "name").or (c.parent?.bind fun parent => parent.child? "name")

def Aspect.ofNode (c : Cursor) : Aspect → Except Failure Value
  | .type => .ok (.text c.kind)
  | .text => .text <$> Reading.text (some c)
  | .name => .text <$> Reading.text (nameOf c)
  | .range => .ok (.array [.int c.lines.1, .int c.lines.2])
  | .superclass => .text <$> Reading.dotted (Component.superclass c)

/-- An aspect of a value that is no node; null has no text and no superclass. -/
def Aspect.ofValue (v : Value) (aspect : Aspect) : Except Failure Value :=
  match v, aspect with
  | .null, .text | .null, .superclass => .ok (.text "")
  | _, _ => .error (.misuse .noSuchPart)

/-- A node in the form in which it is handed out: its kind and its place. -/
def reference (c : Cursor) : List Value := [.text c.kind, .int c.start, .int c.stop]

/-- The kinds of nodes that a value lists; each has to be fit for a key. -/
def kindsOf (v : Value) : Except Failure (List String) :=
  match v.listed? with
  | some items =>
    if items.all fun item => item.key?.isSome then .ok (items.filterMap Value.asText?)
    else .error (.misuse .unsuitable)
  | none => .error (.misuse .unsuitable)

def pathsOf (definition : Definition) (kinds : List String) : Except Failure (List String) :=
  match definition with
  | .node c => (c.descendants (some kinds)).mapM fun found => Reading.dotted (some found)
  | .value .null => .ok []
  | .value _ => .error (.misuse .noSuchPart)

/-! ### The record -/

def slotOf (desk : Desk) (name : String) : Turn Item :=
  match name with
  | "description" => pure desk.record.description
  | "display_name" => pure desk.record.displayName
  | "composes" => Turn.list desk.record.composes
  | "props" => pure (.props desk.current desk.record.props.keys)
  | "methods" => Turn.list (desk.record.methods.keys.map (.method desk.current))
  | _ => refuse .noSuchPart

def extraOf (desk : Desk) (arguments : Option (List Item)) : Turn Item :=
  match arguments with
  | some [key] => return desk.record.get (← Record.keyOf (desk.view.value key)) (.value .null)
  | some [key, default] => return desk.record.get (← Record.keyOf (desk.view.value key)) default
  | _ => refuse .unsuitable

/-! ### Arguments -/

/-- Lays the lists of an argument down on the desk, once for all its runs. -/
def Argument.lay : Argument Value → StateM Desk (Argument Item)
  | .literal v => return .literal (← modifyGet fun desk => desk.hold v)
  | .node aspect => return .node aspect
  | .paths kinds => return .paths kinds
  | .slot name => return .slot name
  | .extra none => return .extra none
  | .extra (some arguments) =>
    return .extra (some (← arguments.mapM fun v => modifyGet fun desk => desk.hold v))
  | .subject => return .subject

/-- What an argument stands for when its step is run. -/
def Argument.eval (definition : Definition) : Argument Item → Turn Item
  | .literal item => pure item
  | .node aspect =>
    match definition with
    | .node c => return .value (← aspect.ofNode c)
    | .value v => return .value (← aspect.ofValue v)
  | .paths kinds => do
    let found ← pathsOf definition (← kindsOf kinds)
    Turn.list (found.map fun path => .value (.text path))
  | .slot name => do slotOf (← get) (← Record.attributeName name)
  | .extra arguments => do extraOf (← get) arguments
  | .subject =>
    match definition with
    | .node c => Turn.list ((reference c).map .value)
    | .value _ => return (← get).subject

end ComponentAtlas.Script
