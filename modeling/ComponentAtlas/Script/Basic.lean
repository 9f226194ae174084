import ComponentAtlas.Extraction.Basic
import ComponentAtlas.Record.Copy
import ComponentAtlas.Script.Argument

/-!
# Scripts

A script is a handler given as data: a list of steps on the record, the
arguments of which may depend on the definition and on the record. The steps are
run in order, and the first failure ends the script. Scripts work at one desk,
so that a list written in a script is the same list in all its runs.

The page of a definition is a document. Descriptors may lie among its extra data:
they are kept there as they are, they are shown by the attributes that are
present, and when the document is normalized again they are taken apart into
mappings of all their attributes.
-/

namespace ComponentAtlas.Script

open Extraction

/-- The steps of a script; lists in arguments lie on the desk. -/
abbrev Steps := List (Record.Step (Argument Item))

/-- Runs a step whose arguments are known. -/
def perform (desk : Desk) (step : Record.Step Item) : Desk × Record.Outcome :=
  match step with
  | .appendToExtra key v =>
    match Record.keyOf (desk.view.value key) with
    | .ok key =>
      match desk.record.extra.get? key with
      | some (.list number) => (desk.append number v, .ok ())
      | _ => (desk, .error (.misuse .noSuchPart))
    | .error failure => (desk, .error failure)
  | step =>
    let (record, outcome) := desk.record.runWith desk.view (fun _ _ => none) step
    ({ desk with record := record }, outcome)

def runStep (definition : Definition) (desk : Desk) (step : Record.Step (Argument Item)) :
    Desk × Record.Outcome :=
  match (step.mapM (Argument.eval definition)).run desk with
  | (.ok step, desk) => perform desk step
  | (.error failure, desk) => (desk, .error failure)

/-- Runs steps up to the first that fails. -/
def run (definition : Definition) : Steps → Desk → Desk × Record.Outcome
  | [], desk => (desk, .ok ())
  | step :: rest, desk =>
    match runStep definition desk step with
    | (desk, .ok ()) => run definition rest desk
    | (desk, .error failure) => (desk, .error failure)

def handler (steps : Steps) : Handler Desk := fun definition desk => run definition steps desk

/-- Lays a script down on the desk. -/
def lay (steps : List (Record.Step (Argument Value))) : StateM Desk Steps :=
  steps.mapM fun step => step.mapM Argument.lay

/-! ### Pages -/

structure Page where
  /-- The document as it is shown. -/
  document : Document
  /-- The document with its descriptors told apart from all values. -/
  kept : Except Failure Document
  /-- The document with its descriptors taken apart. -/
  dumped : Except Failure Document
  /-- What keeps the page from being written. -/
  fault : Option Misuse

/--
What the page is made from, with the extra data in some form. Composed sources
only have to be told apart.
-/
def draft (form : Desk.Form) (desk : Desk) : Draft Item :=
  let values := desk.record.map desk.view.value
  { description := values.description
    displayName := values.displayName
    props := values.props
    context := values.context
    childContext := values.childContext
    methods := desk.record.methods.map Prod.snd
    composes := desk.record.composes.map (desk.display .marked)
    extra := desk.record.extra.map fun e => (e.1, desk.display form e.2) }

def documentIn (form : Desk.Form) (trim : Bool) (desk : Desk) : Except Failure Document :=
  (draft form desk).normalize desk.view trim

/-- The document with its descriptors taken apart; data without end could not be written then. -/
def dump (trim : Bool) (desk : Desk) : Except Failure Document :=
  if desk.record.extra.all fun e => desk.isFinite e.2 then documentIn .full trim desk
  else .error (.misuse .unwritable)

/-- What keeps the document of the present record from being written. -/
def faultOf (desk : Desk) (document : Document) : Option Misuse :=
  if desk.record.descriptorData.all desk.isFinite then
    Document.firstFault?
      (document.reachesWith (Desk.highest (fun e => desk.levels e.2) desk.record.extra))
  else some .unwritable

def page (trim : Bool) (desk : Desk) : Except Failure Page := do
  Record.requireCopyable (draft .published desk).extra
  let document ← documentIn .published trim desk
  pure
    { document
      kept := documentIn .marked trim desk
      dumped := dump trim desk
      fault := faultOf desk document }

namespace Page

/-- The document normalized again. -/
def again (trim : Bool) (page : Page) : Except Failure Document :=
  page.dumped.bind (Document.renormalize trim)

/-- Normalizing the document again changes nothing, in content or in text. -/
def isSettled (trim : Bool) (page : Page) : Bool :=
  match page.kept, page.again trim with
  | .ok kept, .ok again => again = kept && again.toJson none = page.document.toJson none
  | _, _ => false

/-- The page, if it can be written. -/
def written (page : Page) : Except Failure Page :=
  match page.fault with
  | none => .ok page
  | some m => .error (.misuse m)

end Page

/-- The pages of a result, if all of them can be written. -/
def written : Result Page → Except Failure (Result Page)
  | .one page => .one <$> page.written
  | .many pages => .many <$> pages.mapM Page.written

/-- The value that stands for a definition on the desk. -/
def subjectOf : Definition → Value
  | .node _ => .null
  | .value v => v

/-- The craft of scripts: one desk for all definitions, with a new record for each. -/
def craft : Craft Desk Page where
  start definition desk := desk.start (subjectOf definition)
  page := page

/-- What the definition of a number has become in the end. -/
def subjectValue (desk : Desk) (number : Nat) : Value :=
  desk.view.value (desk.subjects[number]?.getD (.value .null))

end ComponentAtlas.Script
