import ComponentAtlas.Document.Basic
import ComponentAtlas.Failure

/-!
# Depth of documents

Data can be written down to a limited depth. A slot that is a mapping is measured
twice: the data of each entry with the entry that they lie in, and then the slot
as a whole, as it is written. Data that go beyond the limit within their entry
cannot be written anywhere; in a slot that goes beyond it as a whole they reach
too deep where they are. The data of methods are measured only by themselves.

The slots are looked at in their order, and the first that cannot be written
decides. What is written as one text is either written or not.
-/

namespace ComponentAtlas.Document

open Record (PropDescriptor)

/-- The number of levels to which data are written. -/
def deepestLevel : Nat := 255

/-- How deep a slot reaches: its data within their entries, and the slot as a whole. -/
structure Reach where
  inner : Nat
  outer : Nat

namespace Reach

/-- What keeps a slot from being written. -/
def fault? (r : Reach) : Option Misuse :=
  if deepestLevel < r.inner then some .unwritable
  else if deepestLevel < r.outer then some .tooDeep
  else none

/-- The data of an entry lie one level below the entry. -/
def ofEntries (entries : Keyed String (PropDescriptor Value)) : Reach where
  inner := Value.heightOfItems (entries.flatMap fun e => e.2.data) + 1
  outer := (entriesValue entries).height

def ofMethods (methods : List MethodEntry) : Reach where
  inner := 0
  outer := Value.heightOfFields (methods.flatMap fun m => m.params.flatten ++ m.returns.getD [])

/-- Extra data that reach `inner` levels deep by themselves. -/
def ofExtra (inner : Nat) (extra : Keyed String Value) : Reach where
  inner
  outer := (Value.object extra).height

theorem fault?_eq_none (r : Reach) :
    r.fault? = none ↔ r.inner ≤ deepestLevel ∧ r.outer ≤ deepestLevel := by
  simp only [fault?]
  split
  · simp; omega
  · split
    · simp; omega
    · simp; omega

end Reach

/--
How deep the slots reach, those that hold free-form data, in their order. The
extra data reach `inner` levels deep by themselves.
-/
def reachesWith (d : Document) (inner : Nat) : List Reach :=
  [d.props.map Reach.ofEntries, d.context.map Reach.ofEntries, d.childContext.map Reach.ofEntries,
    d.methods.map Reach.ofMethods, d.extra.map (Reach.ofExtra inner)].filterMap id

def reaches (d : Document) : List Reach := d.reachesWith (Value.heightOfFields (d.extra.getD []))

/-- What keeps slots from being written. -/
def firstFault? (reaches : List Reach) : Option Misuse := reaches.findSome? Reach.fault?

/-- What keeps the document from being written. -/
def fault? (d : Document) : Option Misuse := firstFault? d.reaches

/-- The document, if it can be written. -/
def written (d : Document) : Except Failure Document :=
  match d.fault? with
  | none => .ok d
  | some m => .error (.misuse m)

/-- The document as one text. -/
def write (d : Document) (layout : Json.Layout) : Except Failure String :=
  if d.fault?.isNone then .ok (d.toJson layout) else .error (.misuse .unwritable)

theorem fault?_eq_none (d : Document) :
    d.fault? = none ↔ ∀ r ∈ d.reaches, r.inner ≤ deepestLevel ∧ r.outer ≤ deepestLevel := by
  simp [fault?, firstFault?, Reach.fault?_eq_none]

theorem written_eq_ok (d e : Document) : d.written = .ok e ↔ d.fault? = none ∧ d = e := by
  cases h : d.fault? <;> simp [written, h]

/-- A document can be written as a text exactly when it can be written at all. -/
theorem write_eq_ok (d : Document) (layout : Json.Layout) (s : String) :
    d.write layout = .ok s ↔ d.written = .ok d ∧ d.toJson layout = s := by
  cases h : d.fault? <;> simp [write, written, h]

end ComponentAtlas.Document
