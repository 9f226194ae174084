import ComponentAtlas.Document.Normalize
import ComponentAtlas.Extraction.Log
import ComponentAtlas.Record.Step

/-!
# Documenting definitions

Definitions are documented one after another at a desk. For every definition
the desk is made ready, the handlers are run on it in order, and the page that
results is taken from the desk; the first failure ends the batch. What a desk
and a page are is up to the craft. In the plain craft the desk is one record,
fresh for every definition, and the page is its normal form.
-/

namespace ComponentAtlas.Extraction

/-- A handler leaves on the desk what it finds out about a definition. -/
abbrev Handler (δ : Type) := Definition → δ → δ × Except Failure Unit

/-- How pages of the type `π` are made at desks of the type `δ`. -/
structure Craft (δ π : Type) where
  /-- Makes the desk ready for one more definition. -/
  start : Definition → δ → δ
  /-- The page, once the handlers have run; the flag says whether descriptions are trimmed. -/
  page : Bool → δ → Except Failure π

/-- The craft in which definitions have nothing to do with each other. -/
def Craft.plain : Craft (Record Value) Document where
  start _ _ := Record.empty
  page trim record := Document.ofRecord trim record

variable {δ π : Type}

/-- Runs handlers on a definition, beginning with the one of number `index`. -/
def runHandlers (number : Nat) (definition : Definition) :
    (index : Nat) → List (Handler δ) → Work δ Unit
  | _, [] => pure ()
  | index, handler :: rest => do
    Work.note (.handling number index definition)
    Work.change (handler definition)
    runHandlers number definition (index + 1) rest

/-- The page of the definition of the given number. -/
def document (craft : Craft δ π) (trim : Bool) (handlers : List (Handler δ)) (number : Nat)
    (definition : Definition) : Work δ π := do
  Work.change fun desk => (craft.start definition desk, .ok ())
  runHandlers number definition 0 handlers
  Work.look (craft.page trim)

/-- The pages of definitions, which are numbered from `number` on. -/
def documentAll (craft : Craft δ π) (trim : Bool) (handlers : List (Handler δ)) :
    (number : Nat) → List Definition → Work δ (List π)
  | _, [] => pure []
  | number, definition :: rest => do
    let first ← document craft trim handlers number definition
    let others ← documentAll craft trim handlers (number + 1) rest
    pure (first :: others)

end ComponentAtlas.Extraction
