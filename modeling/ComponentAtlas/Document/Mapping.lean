import ComponentAtlas.Document.Normalize
import ComponentAtlas.Record.Copy

/-!
# Records as mappings

A record can be written as a mapping of its slots, and the document be read from
the mapping instead of the record. The mapping has all slots, empty ones
included, and is checked field by field before anything is taken away from it:
a key that is no text is refused even when nothing is kept under it.
-/

namespace ComponentAtlas.Document

open Record (PropDescriptor)
open Schema

/-- Reads the entries of a mapping one by one, each key before what is kept under it. -/
def readKeyed {α : Type} (read : Value → Checked α) :
    Keyed Key Value → Checked (Keyed String α)
  | [] => pure []
  | (key, v) :: rest => do
    let name ← readKey key
    let entry ← (read v).under (segmentOf key)
    let entries ← readKeyed read rest
    pure ((name, entry) :: entries)

/-- The entries of a mapping as they are written down. -/
def dumped {α : Type} (write : α → Value) (entries : Keyed Key α) : Keyed Key Value :=
  entries.map fun e => (e.1, write e.2)

def readEntriesOf (entries : Keyed Key (PropDescriptor Value)) :
    Checked (Option (Keyed String (PropDescriptor Value))) :=
  some <$> readKeyed readEntry (dumped PropDescriptor.toValue entries)

/-- Reads the mapping of a record. -/
def readRecord (r : Record Value) : Checked Document := do
  let description ← (readOptional readText r.description).under (.name "description")
  let displayName ← (readOptional readText r.displayName).under (.name "display_name")
  let props ← (readEntriesOf r.props).under (.name "props")
  let context ← (readEntriesOf r.context).under (.name "context")
  let childContext ← (readEntriesOf r.childContext).under (.name "child_context")
  let methods ←
    (some <$> readItems readMethod (r.methods.map fun m => m.2.toValue)).under (.name "methods")
  let composes ← (some <$> readItems readText r.composes).under (.name "composes")
  let extra ← (some <$> readKeyed pure (dumped id r.extra)).under (.name "extra")
  pure { description, displayName, props, context, childContext, methods, composes, extra }

/-- The document of the mapping of a record, into which the free-form data are copied. -/
def ofMapping (trim : Bool) (r : Record Value) : Except Failure Document := do
  Record.requireCopyable r.extra
  let read ← (readRecord r).result
  read.renormalize trim

end ComponentAtlas.Document
